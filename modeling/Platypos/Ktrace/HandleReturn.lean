import Platypos.Ktrace.HandleSteps
import Platypos.Slab.Placement

namespace Platypos.Ktrace.Handles

open PlatyposSlab (EMPTY Idx Lifecycle Slab Place Shelves globalCell_pack localCell_of_lt)

variable {V P T : Type} [DecidableEq T] {span : Idx}

/-- Whoever returned the slot, the last closer has now returned true. -/
theorem resume_shows {value : V} {s : System V P T span} {t c : T} {resume : Resume} (clean : s.trace.refused = [])
    (honest : s.trace.Honest) (removing : s.trace.removing = [c]) (dropped : s.trace.dropped = [value])
    (concluded : Concluded s.trace t c resume) :
    ∃ trace, s.resume t resume = { s.setPc t .idle with trace := trace } ∧ trace.refused = [] ∧ trace.Honest ∧
      trace.Shows [c] [(c, true)] [c] [value] := by
  cases resume with
  | dropped after =>
    obtain ⟨quiet, removed, last⟩ := concluded
    obtain ⟨trace, same, matched⟩ := dropped_matches s t quiet
    exact ⟨trace, same, matched.refused.trans clean, matched.honest honest, matched.shows ⟨removing, removed, last, dropped⟩⟩
  | removed =>
    obtain ⟨rfl, removed, last⟩ := concluded
    refine ⟨_, rfl, clean, ?_, removing, ?_, congrArg (List.cons c) last, dropped⟩
    · intro e member
      rcases List.mem_cons.mp member with rfl | member
      · simp
      · exact honest e member
    · simp [removed]

variable {value : V} {s : System V P T span} {t c : T} {resume : Resume} {refs : Finset T} {place : Nat → Place P}
  {cells : List Nat} {locals : P → List Nat} {b : Pc span}
  (inv : Invariant value s (.returning t resume c) refs place cells locals)

include inv

theorem Invariant.unreferenced (u : T) : u ∉ refs := by
  intro member
  exact absurd inv.facts.2.2.1 (Nat.ne_of_gt (inv.referenced ((inv.threads u).ref.mp member)).1)

/-- The thread that returns the slot works on it. -/
theorem Invariant.work (slab : Slab V P) (dropped : List V) (size : slab.size = s.slab.size)
    (lifecycle : slab.lifecycle = s.slab.lifecycle)
    (shelves : Shelves slab.size slab.next slab.head slab.heads place cells locals) (duty : b.duty = .returning resume)
    (ready : Ready value { s with slab := slab, trace := { s.trace with dropped := dropped } } b) :
    Invariant value ({ s with slab := slab, trace := { s.trace with dropped := dropped } }.setPc t b)
      (.returning t resume c) refs place cells locals := by
  obtain ⟨handles, state, refcount, _, removing, concluded⟩ := inv.facts
  have same : ({ s with slab := slab, trace := { s.trace with dropped := dropped } }.setPc t b).lifecycle = s.lifecycle :=
    congrFun lifecycle span.index
  obtain ⟨unheld, late⟩ := Pc.apart_of_returning duty
  refine ⟨size ▸ inv.fits, size ▸ inv.inside, shelves, inv.listed, same ▸ inv.generation, same ▸ inv.refcount, inv.count,
    ?_, ?_, inv.clean, inv.honest⟩
  · refine inv.threads_update ⟨?_, iff_of_false (inv.unreferenced t) unheld, fun early => absurd early late⟩ ?_
    · simp [duty, Stage.duty]
    · exact fun _ _ => ⟨rfl, Iff.rfl, id⟩
  · refine ⟨handles, same ▸ state, same ▸ refcount, ?_, removing, concluded⟩
    have here : ({ s with slab := slab, trace := { s.trace with dropped := dropped } }.setPc t b).pc t = b :=
      Function.update_self ..
    rw [here]
    exact ready

/-- The slot is on a free list, and the thread goes on. -/
theorem Invariant.finish (slab : Slab V P) (here : Place P) {cells' : List Nat} {locals' : P → List Nat}
    (size : slab.size = s.slab.size) (lifecycle : slab.lifecycle = s.slab.lifecycle)
    (contents : slab.contents = s.slab.contents) (cleared : s.lifecycle.state = .unallocated)
    (empty : s.slab.contents span.index = none) (dropped : s.trace.dropped = [value]) (listed : here.Listed)
    (shelves : Shelves slab.size slab.next slab.head slab.heads (Function.update place span.index here) cells' locals') :
    Invariant value ({ s with slab := slab }.resume t resume) (.free c) refs
      (Function.update place span.index here) cells' locals' := by
  obtain ⟨handles, state, refcount, _, removing, concluded⟩ := inv.facts
  have returned := resume_shows (s := { s with slab := slab }) inv.clean inv.honest removing dropped concluded
  obtain ⟨trace, same, clean, honest, shows⟩ := returned
  have now : ∀ trace, ({ ({ s with slab := slab } : System V P T span).setPc t .idle with trace := trace } :
      System V P T span).lifecycle = s.lifecycle := fun _ => congrFun lifecycle span.index
  rw [same]
  refine ⟨size ▸ inv.fits, size ▸ inv.inside, shelves, ?_, ?_, ?_, inv.count, ?_, ?_, clean, honest⟩
  · simpa using listed
  · rw [now]
    exact inv.generation
  · rw [now]
    exact inv.refcount
  · refine inv.threads_update ⟨rfl, iff_of_false (inv.unreferenced t) id, nofun⟩ ?_
    intro u differ
    exact ⟨by simp [Stage.duty, differ], Iff.rfl, id⟩
  · exact ⟨handles, by rw [now, cleared], by rw [now, refcount], (congrFun contents span.index).trans empty, shows⟩

theorem Invariant.unlisted : ¬ (place span.index).Listed := by
  rw [inv.listed]
  exact nofun

/-- Below the limit of the tags, a step of the thread that returns the slot does not fail. -/
theorem Invariant.returnSlot [DecidableEq P] {on : T → P} {debug : Bool} {s' : System V P T span}
    (room : ∀ resume, s.pc t = .pushTag resume → s.slab.tag < 2^46)
    (stepped : s.returnSlot on debug t (s.pc t) = some s') :
    ∃ stage' place' cells' locals', Invariant value s' stage' refs place' cells' locals' := by
  obtain ⟨handles, state, refcount, ready, removing, concluded⟩ := inv.facts
  have duty : (s.pc t).duty = .returning resume := by
    rw [(inv.threads t).duty]
    simp [Stage.duty]
  have fits := inv.fits
  have inside := inv.inside
  cases pc : s.pc t with
  | idle | getting call proposal | counting call | dropping after | releasing after proposal | removing
    | marking proposal | panicked reason =>
    rw [pc] at stepped
    cases stepped
  | clearLoad resume' =>
    rw [pc] at stepped duty ready
    cases duty
    simp only [System.returnSlot, Lifecycle.clear_eq refcount] at stepped
    cases stepped
    refine ⟨_, _, _, _, inv.work s.slab s.trace.dropped rfl rfl inv.shelves rfl ?_⟩
    exact ⟨⟨rfl, refcount, inv.generation⟩, ready⟩
  | clearStore resume' new =>
    rw [pc] at stepped duty ready
    cases duty
    cases stepped
    obtain ⟨⟨unallocated, zero, generation⟩, contents, dropped⟩ := ready
    refine ⟨_, _, _, _, inv.commit s.trace generation ?_ ⟨?_, ?_, False.elim⟩ (fun _ _ => ⟨rfl, Iff.rfl⟩) (by simp) (by simp)
      ?_ inv.clean inv.honest⟩
    · rw [zero, ← inv.refcount, refcount]
    · simp [Pc.duty, Stage.duty]
    · exact iff_of_false (inv.unreferenced t) id
    · refine ⟨handles, ?_, ?_, ?_, removing, concluded⟩
      · rw [committed_lifecycle, unallocated]
        simp
      · rwa [committed_lifecycle]
      · simp [Ready, System.setPc, System.setLifecycle, System.lifecycle, unallocated, contents, dropped]
  | clearTake resume' =>
    rw [pc] at stepped duty ready
    cases duty
    obtain ⟨unallocated, contents, dropped⟩ := ready
    simp only [System.returnSlot, contents] at stepped
    cases stepped
    refine ⟨_, _, _, _, inv.work _ (value :: s.trace.dropped) rfl rfl inv.shelves ?_ ?_⟩
    · split <;> rfl
    · split
      · exact ⟨unallocated, Function.update_self .., by rw [dropped]⟩
      · exact ⟨unallocated, Function.update_self .., by rw [dropped]⟩
  | pushLocal resume' =>
    rw [pc] at stepped duty ready
    cases duty
    obtain ⟨unallocated, contents, dropped⟩ := ready
    have pushed := PlatyposSlab.localPush_ensures (on t) inv.shelves fits inside inv.unlisted
    simp only [System.returnSlot] at stepped
    cases result : s.slab.localPush (on t) span.index with
    | error reason =>
      rw [result] at pushed
      exact pushed.elim
    | ok slab =>
      rw [result] at pushed stepped
      cases stepped
      obtain ⟨same, shelves⟩ := pushed
      exact ⟨_, _, _, _, inv.finish slab (.local (on t)) (by rw [same]) (by rw [same]) (by rw [same]) unallocated contents
        dropped trivial shelves⟩
  | pushTag resume' =>
    have below := room resume' pc
    rw [pc] at stepped duty ready
    cases duty
    simp only [System.returnSlot, if_neg (show ¬ 2^18 ≤ span.index by omega),
      if_neg (show ¬ 2^46 ≤ s.slab.tag by omega)] at stepped
    cases stepped
    exact ⟨_, _, _, _, inv.work { s.slab with tag := (s.slab.tag + 1) % 2^64 } s.trace.dropped rfl rfl inv.shelves rfl ready⟩
  | pushLoad resume' tag =>
    rw [pc] at stepped duty ready
    cases duty
    cases stepped
    exact ⟨_, _, _, _, inv.work s.slab s.trace.dropped rfl rfl inv.shelves rfl ready⟩
  | pushWrite resume' tag oldHead =>
    rw [pc] at stepped duty ready
    cases duty
    simp only [System.returnSlot, if_pos inside] at stepped
    cases stepped
    refine ⟨_, _, _, _, inv.work { s.slab with next := Function.update s.slab.next span.index oldHead }
      s.trace.dropped rfl rfl (inv.shelves.write inv.unlisted oldHead) rfl ?_⟩
    exact ⟨Function.update_self .., ready⟩
  | pushSwap resume' tag oldHead =>
    rw [pc] at stepped duty ready
    cases duty
    obtain ⟨written, unallocated, contents, dropped⟩ := ready
    simp only [System.returnSlot] at stepped
    split at stepped
    · rename_i top
      cases stepped
      have pushed := inv.shelves.pushGlobal inv.unlisted inside (globalCell_pack (t := tag) (by omega)) (written.trans top.symm)
      exact ⟨_, _, _, _, inv.finish { s.slab with head := PlatyposSlab.Entry.pack span.index tag } .global
        rfl rfl rfl unallocated contents dropped trivial pushed⟩
    · cases stepped
      exact ⟨_, _, _, _, inv.work s.slab s.trace.dropped rfl rfl inv.shelves rfl ⟨unallocated, contents, dropped⟩⟩

end Platypos.Ktrace.Handles
