import Platypos.Slab.MachineInvariant

namespace PlatyposSlab.Machine

open CasLoop TaggedStack Chain

variable {V P : Type} [DecidableEq P] {s : System V P} {place : Nat → Place P} {cells : List Nat}
  {locals : P → List Nat} {p : P} {b : Pc V} (inv : Invariant s place cells locals)

include inv

/-- One processor moves and one slot changes, which nobody else has in its hands. -/
theorem Invariant.shift {slab : Slab V P} {refs : Multiset (P × Idx)} {i : Nat} {l : Lifecycle} {here : Place P}
    {cells' : List Nat} {locals' : P → List Nat} (calm : ∀ reason, s.pc p ≠ .panicked reason)
    (only : ∀ j, (s.pc p).holding = some j → j = i) (unheld : ∀ q, q ≠ p → (s.pc q).holding ≠ some i)
    (size : slab.size = s.slab.size) (next : ∀ j, j ≠ i → slab.next j = s.slab.next j)
    (lifecycle : slab.lifecycle = Function.update s.slab.lifecycle i l)
    (held : ∀ q idx, q ≠ p → (q, idx) ∈ s.refs → (q, idx) ∈ refs)
    (elsewhere : ∀ j, j ≠ i → refsAt refs j = refsAt s.refs j) (counted : l.Counted (refsAt refs i))
    (mine : Placed slab refs (Function.update place i here) p b) (suited : Suited (Function.update s.pc p b) i l here)
    (shelves : Shelves slab.size slab.next slab.head slab.heads (Function.update place i here) cells' locals')
    (tagged : Tagged 1 Entry.tag Entry.index slab.tag slab.next (words slab.next slab.head cells')
      (Function.update (Pc.phase ∘ s.pc) p b.phase)) :
    Invariant ({ s with slab := slab, refs := refs }.setPc p b) (Function.update place i here) cells' locals' := by
  refine ⟨size ▸ inv.fits, shelves, ?_, ?_, ?_, ?_⟩
  · simp only [System.setPc]
    rw [Function.forall_update_iff s.pc (Placed slab refs (Function.update place i here))]
    refine ⟨mine, ?_⟩
    intro q differ
    refine (inv.placed q).kept size ?_ fun idx => held q idx differ
    intro j holding there
    have other : j ≠ i := fun this => unheld q differ (this ▸ holding)
    exact ⟨by rwa [Function.update_of_ne other], next j other⟩
  · intro j inside
    simp only [System.setPc, lifecycle]
    by_cases same : j = i
    · subst same
      rwa [Function.update_self, Function.update_self]
    · rw [Function.update_of_ne same, Function.update_of_ne same]
      exact (inv.suited j (size ▸ inside)).moved calm fun holding => same (only j holding)
  · intro j
    simp only [System.setPc, lifecycle]
    by_cases same : j = i
    · subst same
      rwa [Function.update_self]
    · rw [Function.update_of_ne same, elsewhere j same]
      exact inv.counted j
  · simp only [System.setPc, Function.comp_update]
    exact tagged

theorem Invariant.turn (free : (s.pc p).holding = none) (calm : ∀ reason, s.pc p ≠ .panicked reason)
    (loose : b.holding = none) (placed : Placed s.slab s.refs place p b)
    (known : ∀ x, b.phase.seen = some x → (s.pc p).phase.seen = some x ∨ x = s.slab.head)
    (fresh : ∀ old new, b.phase = .swapping old new → new = s.slab.next (Entry.index old)) :
    Invariant (s.setPc p b) place cells locals := by
  refine ⟨inv.fits, inv.shelves, ?_, ?_, inv.counted, ?_⟩
  · exact (Function.forall_update_iff s.pc (Placed s.slab s.refs place)).mpr ⟨placed, fun q _ => inv.placed q⟩
  · intro i inside
    exact (inv.suited i inside).moved calm (by simp [free])
  · simp only [System.setPc, Function.comp_update]
    apply inv.tagged.move (Pc.phase_ne_pending loose) _ fresh
    intro x seen
    rcases known x seen with before | rfl
    · exact .inl before
    · exact .inr (inv.head_mem (placed.ends _ seen))

theorem Invariant.panic (reason : Panic) : Invariant (s.setPc p (.panicked reason)) place cells locals := by
  refine ⟨inv.fits, inv.shelves, ?_, ?_, inv.counted, ?_⟩
  · exact (Function.forall_update_iff s.pc (Placed s.slab s.refs place)).mpr
      ⟨.panicked .., fun q _ => inv.placed q⟩
  · intro i inside
    by_cases here : place i = .held p
    · rw [here]
      exact .inl ⟨reason, Function.update_self p _ s.pc⟩
    · exact (inv.suited i inside).other here
  · simp only [System.setPc, Function.comp_update]
    exact inv.tagged.leave

theorem Invariant.same_phase (phase : b.phase = (s.pc p).phase) :
    Tagged 1 Entry.tag Entry.index s.slab.tag s.slab.next (words s.slab.next s.slab.head cells)
      (Function.update (Pc.phase ∘ s.pc) p b.phase) := by
  rw [phase, ← Function.comp_apply (f := Pc.phase), Function.update_eq_self]
  exact inv.tagged

section Holder

variable {i : Nat} (before : (s.pc p).holding = some i)

include before

theorem Invariant.hold {slab : Slab V P} {l : Lifecycle} (after : b.holding = some i) (suits : b.Suits l)
    (counted : l.Counted (refsAt s.refs i)) (size : slab.size = s.slab.size) (next : slab.next = s.slab.next)
    (head : slab.head = s.slab.head) (heads : slab.heads = s.slab.heads)
    (lifecycle : slab.lifecycle = Function.update s.slab.lifecycle i l) (unwritten : ∀ i t old, b ≠ .pushSwap i t old)
    (tagged : Tagged 1 Entry.tag Entry.index slab.tag s.slab.next (words s.slab.next s.slab.head cells)
      (Function.update (Pc.phase ∘ s.pc) p b.phase)) :
    Invariant ({ s with slab := slab }.setPc p b) place cells locals := by
  obtain ⟨inside, here⟩ := inv.held before
  have still : Function.update place i (.held p) = place := by rw [← here, Function.update_eq_self]
  have shifted : Invariant ({ s with slab := slab }.setPc p b) (Function.update place i (.held p)) cells locals := by
    refine inv.shift (Pc.calm_of_holding before) (Pc.only_holding before) (fun q => inv.held_ne before) size
      (fun _ _ => by rw [next]) lifecycle (fun _ _ _ => id) (fun _ _ => rfl) counted ?_ ?_ ?_ ?_
    · exact .holder after (size ▸ inside) (by rw [Function.update_self]) fun i t old same => absurd same (unwritten i t old)
    · exact .inr ⟨by rwa [Function.update_self], by rwa [Function.update_self]⟩
    · rw [still, size, next, head, heads]
      exact inv.shelves
    · rw [next, head]
      exact tagged
  rwa [still] at shifted

theorem Invariant.write {t old : Nat} (writing : s.pc p = .pushWrite i t old) :
    Invariant ({ s with slab := { s.slab with next := Function.update s.slab.next i old } }.setPc p
      (.pushSwap i t old)) place cells locals := by
  obtain ⟨inside, here⟩ := inv.held before
  have still : Function.update place i (.held p) = place := by rw [← here, Function.update_eq_self]
  have unlisted := inv.unlisted before
  have outside := inv.shelves.notMem_global unlisted
  have suits := inv.suits before
  rw [writing] at suits
  have shifted : Invariant ({ s with slab := { s.slab with next := Function.update s.slab.next i old } }.setPc p
      (.pushSwap i t old)) (Function.update place i (.held p)) cells locals := by
    refine inv.shift (Pc.calm_of_holding before) (Pc.only_holding before) (fun q => inv.held_ne before) rfl
      (fun j other => Function.update_of_ne other ..) (Function.update_eq_self ..).symm (fun _ _ _ => id) (fun _ _ => rfl)
      (inv.counted i) ?_ ?_ ?_ ?_
    · refine .holder rfl inside (by rw [Function.update_self]) ?_
      intro i' t' old' same
      cases same
      exact Function.update_self ..
    · exact .inr ⟨by rw [Function.update_self]; rfl, by rw [Function.update_self]; exact suits⟩
    · rw [still]
      exact inv.shelves.write unlisted old
    · rw [words_write outside]
      exact (inv.same_phase (by rw [writing]; rfl)).write fun x => inv.index_ne before
  rwa [still] at shifted

theorem Invariant.fill {value : V} {contents : Nat → Option V} {processor : Nat → Option P}
    (filling : s.pc p = .allocFill value i) :
    Invariant ({ s with slab := { s.slab with contents := contents, processor := processor } }.setPc p .idle)
      (Function.update place i .inUse) cells locals := by
  have suits := inv.suits before
  rw [filling] at suits
  refine inv.shift (Pc.calm_of_holding before) (Pc.only_holding before) (fun q => inv.held_ne before) rfl
    (fun _ _ => rfl) (Function.update_eq_self ..).symm (fun _ _ _ => id) (fun _ _ => rfl) (inv.counted i) (.idle ..)
    ?_ ?_ ?_
  · exact .inl suits
  · exact inv.shelves.move (inv.unlisted before) id
  · exact inv.tagged.leave

theorem Invariant.pushLocal {slab : Slab V P} (pushing : s.pc p = .pushLocal i)
    (pushed : s.slab.localPush p i = .ok slab) :
    ∃ place' locals', Invariant ({ s with slab := slab }.setPc p .idle) place' cells locals' := by
  obtain ⟨inside, here⟩ := inv.held before
  have fits := inv.fits
  have unlisted := inv.unlisted before
  have outside := inv.shelves.notMem_global unlisted
  have suits := inv.suits before
  rw [pushing] at suits
  rw [Slab.localPush, if_pos inside] at pushed
  cases pushed
  refine ⟨Function.update place i (.local p), Function.update locals p (i :: locals p), ?_⟩
  refine inv.shift (Pc.calm_of_holding before) (Pc.only_holding before) (fun q => inv.held_ne before) rfl
    (fun j other => Function.update_of_ne other ..) (Function.update_eq_self ..).symm (fun _ _ _ => id) (fun _ _ => rfl)
    (inv.counted i) (.idle ..) suits ?_ ?_
  · exact (inv.shelves.write unlisted _).pushLocal unlisted inside (localCell_of_lt (by omega)) (by simp)
  · rw [words_write outside]
    exact (inv.tagged.write fun x => inv.index_ne before).leave

theorem Invariant.pushGlobal {t old : Nat} (swapping : s.pc p = .pushSwap i t old) (top : s.slab.head = old) :
    Invariant ({ s with slab := { s.slab with head := Entry.pack i t } }.setPc p .idle)
      (Function.update place i .global) (i :: cells) locals := by
  obtain ⟨inside, here⟩ := inv.held before
  have fits := inv.fits
  have suits := inv.suits before
  rw [swapping] at suits
  have written : s.slab.next i = s.slab.head := by
    rw [top]
    exact (inv.placed p).written i t old swapping
  refine inv.shift (Pc.calm_of_holding before) (Pc.only_holding before) (fun q => inv.held_ne before) rfl
    (fun _ _ => rfl) (Function.update_eq_self ..).symm (fun _ _ _ => id) (fun _ _ => rfl) (inv.counted i) (.idle ..) suits
    ?_ ?_
  · exact inv.shelves.pushGlobal (inv.unlisted before) inside (globalCell_pack (by omega)) written
  · rw [words, written]
    apply inv.tagged.push
    rw [Function.comp_apply, swapping]
    rfl

end Holder

section Free

variable (free : (s.pc p).holding = none) (calm : ∀ reason, s.pc p ≠ .panicked reason)

include free calm

theorem Invariant.take {slab : Slab V P} {i : Nat} {value : V} {cells' : List Nat} {locals' : P → List Nat}
    (inside : i < s.slab.size) (listed : (place i).Listed)
    (same : slab = { s.slab with head := slab.head, heads := slab.heads })
    (shelves : Shelves s.slab.size s.slab.next slab.head slab.heads (Function.update place i (.held p)) cells' locals')
    (tagged : Tagged 1 Entry.tag Entry.index s.slab.tag s.slab.next (words s.slab.next slab.head cells')
      (Function.update (Pc.phase ∘ s.pc) p .away)) :
    Invariant ({ s with slab := slab }.setPc p (.allocLoad value i)) (Function.update place i (.held p))
      cells' locals' := by
  have unheld : ∀ q, q ≠ p → (s.pc q).holding ≠ some i := by
    intro q _ holding
    exact inv.unlisted holding listed
  have suited := inv.suited i inside
  have size : slab.size = s.slab.size := by rw [same]
  have next : slab.next = s.slab.next := by rw [same]
  have tag : slab.tag = s.slab.tag := by rw [same]
  have lifecycle : slab.lifecycle = s.slab.lifecycle := by rw [same]
  refine inv.shift calm (by simp [free]) unheld size (fun _ _ => by rw [next])
    (lifecycle.trans (Function.update_eq_self i _).symm) (fun _ _ _ => id) (fun _ _ => rfl) (inv.counted i) ?_ ?_ ?_ ?_
  · exact .holder rfl (size ▸ inside) (by rw [Function.update_self]) (by simp)
  · refine .inr ⟨by rw [Function.update_self]; rfl, ?_⟩
    rw [Function.update_self]
    exact suited.free listed
  · rw [size, next]
    exact shelves
  · rw [tag, next]
    exact tagged

theorem Invariant.takeLocal {slab : Slab V P} {i : Nat} (value : V) (popped : s.slab.localPop p = .ok (some i, slab)) :
    ∃ place' locals', Invariant ({ s with slab := slab }.setPc p (.allocLoad value i)) place' cells locals' := by
  have linked := inv.shelves.localLinked p
  unfold Slab.localPop at popped
  cases top : s.slab.heads p with
  | none => simp [top] at popped
  | some head =>
    simp only [top] at popped
    split at popped
    · cases popped
    · rename_i more
      split at popped
      · rename_i inside
        cases popped
        cases list : locals p with
        | nil => simp [list, top, Linked, localCell, more] at linked
        | cons j rest =>
          simp only [list, top, Option.getD_some, Linked, localCell, if_neg more, Option.some.injEq] at linked
          obtain ⟨rfl, _⟩ := linked
          have here := ((inv.shelves.mem_local p i).mp (by simp [list])).2
          exact ⟨_, _, inv.take free calm inside (by simp [here, Place.Listed]) rfl (inv.shelves.popLocal list id)
            inv.tagged.leave⟩
      · cases popped

theorem Invariant.takeGlobal {old new : Nat} (value : V) (top : s.slab.head = old) (more : old ≠ EMPTY)
    (current : new = s.slab.next (Entry.index old)) :
    ∃ place' cells', Invariant ({ s with slab := { s.slab with head := new } }.setPc p
      (.allocLoad value (Entry.index old))) place' cells' locals := by
  subst top
  have linked := inv.shelves.globalLinked
  cases cells with
  | nil => simp [Linked, globalCell, more] at linked
  | cons i rest =>
    simp only [Linked, globalCell, if_neg more, Option.some.injEq] at linked
    obtain ⟨rfl, _⟩ := linked
    subst current
    obtain ⟨inside, here⟩ := (inv.shelves.mem_global (Entry.index s.slab.head)).mp List.mem_cons_self
    refine ⟨_, rest, inv.take free calm inside (by simp [here, Place.Listed]) rfl ?_ inv.tagged.tail.leave⟩
    exact inv.shelves.popGlobal id

theorem Invariant.exchange {i : Nat} {new : Lifecycle} {refs : Multiset (P × Idx)}
    (held : ∀ q idx, q ≠ p → (q, idx) ∈ s.refs → (q, idx) ∈ refs)
    (elsewhere : ∀ j, j ≠ i → refsAt refs j = refsAt s.refs j) (counted : new.Counted (refsAt refs i))
    (suited : Suited s.pc i new (place i)) :
    Invariant (({ s with refs := refs }.setLifecycle i new).setPc p .idle) place cells locals := by
  refine ⟨inv.fits, inv.shelves, ?_, ?_, inv.counted_update elsewhere counted, ?_⟩
  · simp only [System.setPc, System.setLifecycle]
    refine (Function.forall_update_iff s.pc (Placed _ refs place)).mpr ⟨.idle .., ?_⟩
    intro q differ
    exact (inv.placed q).kept rfl (fun _ _ here => ⟨here, rfl⟩) fun idx => held q idx differ
  · intro j inside
    simp only [System.setPc, System.setLifecycle]
    by_cases same : j = i
    · subst same
      rw [Function.update_self]
      exact suited.moved calm (by simp [free])
    · rw [Function.update_of_ne same]
      exact (inv.suited j inside).moved calm (by simp [free])
  · simp only [System.setPc, Function.comp_update]
    exact inv.tagged.leave

theorem Invariant.grant {i : Nat} {new : Lifecycle} {refs : Multiset (P × Idx)} (inside : i < s.slab.size)
    (held : ∀ q idx, q ≠ p → (q, idx) ∈ s.refs → (q, idx) ∈ refs)
    (elsewhere : ∀ j, j ≠ i → refsAt refs j = refsAt s.refs j) (counted : new.Counted (refsAt refs i))
    (unlisted : ¬ (place i).Listed) (unheld : ∀ q, (s.pc q).holding ≠ some i) (state : new.state ≠ .allocated)
    (none : new.refcount = 0) :
    Invariant (({ s with refs := refs }.setLifecycle i new).setPc p (.clearLoad i))
      (Function.update place i (.held p)) cells locals := by
  refine inv.shift calm (by simp [free]) (fun q _ => unheld q) rfl (fun _ _ => rfl) rfl held elsewhere counted
    ?_ ?_ ?_ ?_
  · exact .holder rfl inside (by rw [Function.update_self]) (by simp)
  · exact .inr ⟨by rw [Function.update_self]; rfl, by rw [Function.update_self]; exact ⟨state, none⟩⟩
  · exact inv.shelves.move unlisted id
  · exact inv.tagged.leave

end Free

end PlatyposSlab.Machine
