import Platypos.Ktrace.HandleInvariant

namespace Platypos.Ktrace.Handles

open CasLoop

open PlatyposSlab (Idx Lifecycle Slab Place Shelves globalCell_pack localCell_of_lt)

variable {V P T : Type} [DecidableEq T] {span : Idx}

@[simp] theorem lifecycle_setPc (s : System V P T span) (t : T) (b : Pc span) : (s.setPc t b).lifecycle = s.lifecycle := rfl

omit [DecidableEq T] in
@[simp] theorem lifecycle_setLifecycle (s : System V P T span) (new : Lifecycle) : (s.setLifecycle new).lifecycle = new :=
  Function.update_self ..

@[simp] theorem pc_setPc (s : System V P T span) (t : T) (b : Pc span) : (s.setPc t b).pc t = b := Function.update_self ..

@[simp] theorem setPc_setLifecycle_setPc (s : System V P T span) (t : T) (a b : Pc span) (new : Lifecycle) :
    ((s.setPc t a).setLifecycle new).setPc t b = (s.setLifecycle new).setPc t b := by
  simp [System.setPc, System.setLifecycle]

theorem committed_lifecycle (s : System V P T span) (new : Lifecycle) (t : T) (b : Pc span) (trace : Trace V T) :
    ({ (s.setLifecycle new).setPc t b with trace := trace } : System V P T span).lifecycle = new :=
  Function.update_self ..

/-- Nothing of note is added to the trace. -/
structure Trace.Matches (trace trace' : Trace V T) : Prop where
  refused : trace'.refused = trace.refused
  removing : trace'.removing = trace.removing
  removed : trace'.removed = trace.removed
  last : trace'.last = trace.last
  dropped : trace'.dropped = trace.dropped
  honest : trace.Honest → trace'.Honest

omit [DecidableEq T] in
theorem Trace.Matches.shows {trace trace' : Trace V T} (same : trace.Matches trace') {removing : List T}
    {removed : List (T × Bool)} {last : List T} {dropped : List V} (shows : trace.Shows removing removed last dropped) :
    trace'.Shows removing removed last dropped :=
  ⟨same.removing.trans shows.removing, same.removed.trans shows.removed, same.last.trans shows.last,
    same.dropped.trans shows.dropped⟩

theorem dropped_matches (s : System V P T span) (t : T) {after : After} (none : after.duty = .none) :
    ∃ trace, s.dropped t after = { s.setPc t .idle with trace := trace } ∧ s.trace.Matches trace := by
  cases after with
  | cloned => exact ⟨s.trace, rfl, rfl, rfl, rfl, rfl, rfl, id⟩
  | closing references =>
    have more : references ≠ 1 := by
      rintro rfl
      cases none
    refine ⟨_, if_neg more, rfl, rfl, rfl, rfl, rfl, ?_⟩
    intro honest e member
    rcases List.mem_cons.mp member with rfl | member
    · simpa using more
    · exact honest e member

variable {value : V} {s : System V P T span} {stage : Stage T} {refs : Finset T} {place : Nat → Place P}
  {cells : List Nat} {locals : P → List Nat} {t : T} {b : Pc span}
  (inv : Invariant value s stage refs place cells locals)

include inv

theorem Invariant.threads_update {stage' : Stage T} {refs' : Finset T} {handles' : Multiset T}
    (mine : Thread stage' refs' handles' t b)
    (others : ∀ u, u ≠ t → stage'.duty u = stage.duty u ∧ (u ∈ refs' ↔ u ∈ refs) ∧ (u ∈ s.handles → u ∈ handles'))
    (u : T) : Thread stage' refs' handles' u (Function.update s.pc t b u) := by
  by_cases same : u = t
  · subst same
    rwa [Function.update_self]
  · obtain ⟨duty, ref, handle⟩ := others u same
    have thread := inv.threads u
    rw [Function.update_of_ne same]
    exact ⟨thread.duty.trans duty.symm, ref.trans thread.ref, fun early => handle (thread.handle early)⟩

/-- A thread moves on and changes nothing else. -/
theorem Invariant.turn (duty : b.duty = (s.pc t).duty) (ref : b.HoldsRef ↔ (s.pc t).HoldsRef)
    (handle : b.Early → t ∈ s.handles) (ready : ∀ resume, b.duty = .returning resume → Ready value s b) :
    Invariant value (s.setPc t b) stage refs place cells locals := by
  have thread := inv.threads t
  have mine : Thread stage refs s.handles t b := ⟨duty.trans thread.duty, thread.ref.trans ref.symm, handle⟩
  refine { inv with threads := inv.threads_update mine fun _ _ => ⟨rfl, Iff.rfl, id⟩, facts := ?_ }
  have facts := inv.facts
  cases stage with
  | live | closing t' | removing t' | zombie c | free c => exact facts
  | returning u resume c =>
    obtain ⟨handles, state, refcount, before, removing, concluded⟩ := facts
    refine ⟨handles, state, refcount, ?_, removing, concluded⟩
    by_cases same : u = t
    · subst same
      have mine := mine.duty
      simp only [Stage.duty, if_true] at mine
      simp only [System.setPc, Function.update_self]
      exact ready resume mine
    · simp only [System.setPc, Function.update_of_ne same]
      exact before

/-- A thread changes the lifecycle of the slot, before the slot is free. -/
theorem Invariant.commit (trace : Trace V T) {new : Lifecycle} {stage' : Stage T} {refs' : Finset T}
    (generation : new.generation = span.generation) (refcount : new.refcount = refs'.card)
    (mine : Thread stage' refs' s.handles t b)
    (others : ∀ u, u ≠ t → stage'.duty u = stage.duty u ∧ (u ∈ refs' ↔ u ∈ refs))
    (before : ∀ c, stage ≠ .free c) (after : ∀ c, stage' ≠ .free c)
    (facts : Facts value { (s.setLifecycle new).setPc t b with trace := trace } stage') (clean : trace.refused = [])
    (honest : trace.Honest) :
    Invariant value { (s.setLifecycle new).setPc t b with trace := trace } stage' refs' place cells locals where
  fits := inv.fits
  inside := inv.inside
  shelves := inv.shelves
  listed := by simpa [before, after] using inv.listed
  generation := by rwa [committed_lifecycle]
  refcount := by rwa [committed_lifecycle]
  count := inv.count
  threads := inv.threads_update mine fun u differ => ⟨(others u differ).1, (others u differ).2, id⟩
  facts := facts
  clean := clean
  honest := honest

theorem Invariant.afterGet {call : Call} {outcome : Outcome (Lifecycle.acquireReference span.generation)}
    (held : t ∈ s.handles) (loose : (s.pc t).duty = .none) (unreferenced : ¬ (s.pc t).HoldsRef)
    (room : s.lifecycle.refcount + 1 < 2^16) (allowed : outcome.Of s.lifecycle) :
    ∃ refs', Invariant value (s.afterGet t call outcome) .live refs' place cells locals := by
  obtain rfl := inv.live_of_mem held
  obtain ⟨handles, state, contents, shows⟩ := inv.facts
  cases outcome with
  | refused error => exact absurd ⟨state, inv.generation⟩ (Lifecycle.acquireReference_refuse allowed)
  | panicked reason => exact absurd (Lifecycle.acquireReference_panic allowed).2 (Nat.not_le_of_lt room)
  | retry proposal =>
    refine ⟨refs, inv.turn loose.symm ?_ (fun _ => held) nofun⟩
    exact iff_of_false id unreferenced
  | committed new result =>
    obtain ⟨generation, _, same, state', more⟩ := Lifecycle.acquireReference_propose allowed
    have outside : t ∉ refs := fun member => unreferenced ((inv.threads t).ref.mp member)
    refine ⟨insert t refs, inv.commit s.trace (same.trans generation) ?_ ⟨rfl, ?_, fun _ => held⟩ ?_ nofun nofun ?_ inv.clean
      inv.honest⟩
    · rw [more, inv.refcount, Finset.card_insert_of_notMem outside]
    · exact iff_of_true (Finset.mem_insert_self t refs) trivial
    · intro u differ
      exact ⟨rfl, by simp [differ]⟩
    · exact ⟨handles, by rwa [committed_lifecycle], contents, shows⟩

theorem Invariant.countClone (pc : s.pc t = .counting .cloneSpan) (room : s.references.toNat + 1 < 2^64) :
    Invariant value ({ s with references := s.references + 1, handles := t ::ₘ s.handles }.setPc t (.dropping .cloned))
      stage refs place cells locals := by
  have thread := inv.threads t
  rw [pc] at thread
  obtain rfl := inv.live_of_mem (thread.handle trivial)
  have more : (s.references + 1).toNat = s.references.toNat + 1 := by
    rw [UInt64.toNat_add]
    exact Nat.mod_eq_of_lt room
  refine { inv with count := ?_, threads := ?_, facts := ?_ }
  · simp only [System.setPc, Multiset.card_cons, more, inv.count]
  · refine inv.threads_update ⟨rfl, thread.ref, nofun⟩ ?_
    intro u _
    exact ⟨rfl, Iff.rfl, Multiset.mem_cons_of_mem⟩
  · exact ⟨Multiset.cons_ne_zero, inv.facts.2⟩

/-- The last handle is given up exactly when the count is one. -/
theorem Invariant.countClose (pc : s.pc t = .counting .tryClose) :
    ∃ stage', Invariant value ({ s with references := s.references - 1, handles := s.handles.erase t }.setPc t
      (.dropping (.closing s.references))) stage' refs place cells locals := by
  have thread := inv.threads t
  rw [pc] at thread
  have held := thread.handle trivial
  obtain rfl := inv.live_of_mem held
  have total : (s.handles.erase t).card + 1 = s.handles.card := Multiset.card_erase_add_one held
  have fewer : (s.references - 1).toNat = (s.handles.erase t).card := by
    have count := inv.count
    rw [UInt64.toNat_sub_of_le]
    · simp only [UInt64.reduceToNat]
      omega
    · rw [UInt64.le_iff_toNat_le]
      simp only [UInt64.reduceToNat]
      omega
  have others : ∀ u, u ≠ t → u ∈ s.handles → u ∈ s.handles.erase t := by
    intro u differ
    exact (Multiset.mem_erase_of_ne differ).mpr
  by_cases one : s.references = 1
  · have none : s.handles.erase t = 0 := by
      rw [← Multiset.card_eq_zero, ← fewer, one]
      rfl
    refine ⟨.closing t, { inv with listed := ?_, count := fewer, threads := ?_, facts := ⟨none, inv.facts.2⟩ }⟩
    · simpa using inv.listed
    · refine inv.threads_update ⟨by simp [Pc.duty, After.duty, Stage.duty, one], thread.ref, nofun⟩ ?_
      intro u differ
      exact ⟨by simp [Stage.duty, differ], Iff.rfl, others u differ⟩
  · have some : s.handles.erase t ≠ 0 := by
      intro none
      apply one
      apply UInt64.toNat.inj
      rw [inv.count, ← total, none]
      rfl
    refine ⟨.live, { inv with count := fewer, threads := ?_, facts := ⟨some, inv.facts.2⟩ }⟩
    refine inv.threads_update ⟨by simp [Pc.duty, After.duty, Stage.duty, one], thread.ref, nofun⟩ ?_
    intro u differ
    exact ⟨rfl, Iff.rfl, others u differ⟩

/-- A thread that has no part in the removal has dropped its reference. -/
theorem Invariant.dropQuietly {new : Lifecycle} {after : After} (held : (s.pc t).HoldsRef) (loose : (s.pc t).duty = .none)
    (quiet : after.duty = .none) (generation : new.generation = span.generation)
    (state : new.state = s.lifecycle.state) (refcount : new.refcount = (refs.erase t).card)
    (left : new.state = .zombie → 0 < new.refcount) :
    Invariant value ((s.setLifecycle new).dropped t after) stage (refs.erase t) place cells locals := by
  obtain ⟨trace, same, matched⟩ := dropped_matches (s.setLifecycle new) t quiet
  have used : ∀ u resume c, stage ≠ .returning u resume c := by
    rintro u resume c rfl
    exact absurd inv.facts.2.2.1 (Nat.ne_of_gt (inv.referenced held).1)
  have taken : ∀ c, stage ≠ .free c := by
    rintro c rfl
    exact absurd inv.facts.2.2.1 (Nat.ne_of_gt (inv.referenced held).1)
  rw [same]
  have duty : stage.duty t = .none := (inv.threads t).duty.symm.trans loose
  refine inv.commit trace generation refcount ⟨duty.symm, ?_, nofun⟩ ?_ taken taken ?_ (matched.refused.trans inv.clean)
    (matched.honest inv.honest)
  · exact iff_of_false (Finset.notMem_erase t refs) id
  · intro u differ
    exact ⟨rfl, by simp [differ]⟩
  · have facts := inv.facts
    cases stage with
    | live | closing u | removing u =>
      obtain ⟨handles, before, contents, shows⟩ := facts
      exact ⟨handles, by rw [committed_lifecycle, state, before], contents, matched.shows shows⟩
    | zombie c =>
      obtain ⟨handles, before, _, contents, shows⟩ := facts
      refine ⟨handles, by rw [committed_lifecycle, state, before], ?_, contents, matched.shows shows⟩
      rw [committed_lifecycle]
      exact left (state.trans before)
    | returning u resume c => exact absurd rfl (used u resume c)
    | free c => exact absurd rfl (taken c)

/-- The last reference to a zombie is gone: the thread that dropped it returns the slot. -/
theorem Invariant.dropZombie {new : Lifecycle} {after : After} (held : (s.pc t).HoldsRef)
    (duty : (s.pc t).duty = after.duty) (generation : new.generation = span.generation)
    (zombie : s.lifecycle.state = .zombie) (state : new.state = s.lifecycle.state) (zero : new.refcount = 0)
    (refcount : new.refcount = (refs.erase t).card) :
    ∃ stage', Invariant value ((s.setLifecycle new).setPc t (.clearLoad (.dropped after))) stage' (refs.erase t) place
      cells locals := by
  have facts := inv.facts
  cases stage with
  | live | closing u | removing u | free c => cases zombie.symm.trans facts.2.1
  | returning u resume c => exact absurd facts.2.2.1 (Nat.ne_of_gt (inv.referenced held).1)
  | zombie c =>
    obtain ⟨handles, _, _, contents, shows⟩ := facts
    have quiet : after.duty = .none := duty.symm.trans (inv.threads t).duty
    refine ⟨.returning t (.dropped after) c, inv.commit s.trace generation refcount ⟨?_, ?_, False.elim⟩ ?_ (by simp)
      (by simp) ?_ inv.clean inv.honest⟩
    · simp [Pc.duty, Stage.duty]
    · exact iff_of_false (Finset.notMem_erase t refs) id
    · intro u differ
      exact ⟨by simp [Stage.duty, differ], by simp [differ]⟩
    · refine ⟨handles, ?_, ?_, ?_, shows.removing, quiet, shows.removed, shows.last⟩
      · rw [committed_lifecycle, state, zombie]
        simp
      · rwa [committed_lifecycle]
      · simpa [Ready, System.setPc, System.setLifecycle] using ⟨contents, shows.dropped⟩

/-- The last closer has dropped its reference and calls `remove`. -/
theorem Invariant.dropLast {new : Lifecycle} {after : After} (last : after.duty ≠ .none)
    (duty : (s.pc t).duty = after.duty) (generation : new.generation = span.generation)
    (state : new.state = s.lifecycle.state) (refcount : new.refcount = (refs.erase t).card) :
    ∃ stage', Invariant value ((s.setLifecycle new).dropped t after) stage' (refs.erase t) place cells locals := by
  cases after with
  | cloned => exact absurd rfl last
  | closing references =>
    have one : references = 1 := by
      by_contra more
      exact last (if_neg more)
    subst one
    have suits := inv.suits (t := t)
    rw [duty] at suits
    cases suits
    obtain ⟨handles, before, contents, shows⟩ := inv.facts
    refine ⟨.removing t, inv.commit { s.trace with removing := t :: s.trace.removing } generation refcount
      ⟨?_, ?_, nofun⟩ ?_ nofun nofun ?_ inv.clean inv.honest⟩
    · simp [Pc.duty, Stage.duty]
    · exact iff_of_false (Finset.notMem_erase t refs) id
    · intro u differ
      exact ⟨by simp [Stage.duty, differ], by simp [differ]⟩
    · refine ⟨handles, by rw [committed_lifecycle, state, before], contents, ?_, shows.removed, shows.last,
        shows.dropped⟩
      simp [shows.removing]

theorem Invariant.afterRelease {after : After} {outcome : Outcome (Lifecycle.releaseReference span.generation)}
    (held : (s.pc t).HoldsRef) (duty : (s.pc t).duty = after.duty) (allowed : outcome.Of s.lifecycle) :
    ∃ stage' refs', Invariant value (s.afterRelease t after outcome) stage' refs' place cells locals := by
  obtain ⟨positive, used⟩ := inv.referenced held
  obtain ⟨new', last', proposed⟩ := Lifecycle.releaseReference_counted inv.generation used positive
  cases outcome with
  | refused error => cases proposed.symm.trans allowed
  | panicked reason => cases proposed.symm.trans allowed
  | retry proposal =>
    refine ⟨stage, refs, inv.turn duty.symm (iff_of_true trivial held) nofun ?_⟩
    intro resume returning
    exact absurd returning (after.duty_ne_returning resume)
  | committed new last =>
    obtain ⟨generation, _, same, state, fewer, finished⟩ := Lifecycle.releaseReference_propose allowed
    have member : t ∈ refs := (inv.threads t).ref.mpr held
    have refcount : new.refcount = (refs.erase t).card := by
      have total := inv.refcount
      rw [Finset.card_erase_of_mem member]
      omega
    cases last with
    | true =>
      obtain ⟨zombie, zero⟩ := finished.mp rfl
      obtain ⟨stage', kept⟩ := inv.dropZombie held duty (same.trans generation) zombie state zero refcount
      exact ⟨stage', refs.erase t, kept⟩
    | false =>
      have left : new.state = .zombie → 0 < new.refcount := by
        intro zombie
        by_contra none
        exact Bool.false_ne_true (finished.mpr ⟨state.symm.trans zombie, by omega⟩)
      by_cases quiet : after.duty = .none
      · exact ⟨stage, refs.erase t, inv.dropQuietly held (duty.trans quiet) quiet (same.trans generation) state refcount
          left⟩
      · obtain ⟨stage', kept⟩ := inv.dropLast quiet duty (same.trans generation) state refcount
        exact ⟨stage', refs.erase t, kept⟩

theorem Invariant.afterMark {outcome : Outcome (Lifecycle.markUnallocated span.generation)}
    (duty : (s.pc t).duty = .removing) (unreferenced : ¬ (s.pc t).HoldsRef) (allowed : outcome.Of s.lifecycle) :
    ∃ stage', Invariant value (s.afterMark t outcome) stage' refs place cells locals := by
  have suits := inv.suits (t := t)
  rw [duty] at suits
  cases suits
  obtain ⟨handles, before, contents, shows⟩ := inv.facts
  have others : ∀ stage' : Stage T, (∀ u, u ≠ t → stage'.duty u = .none) → ∀ u, u ≠ t →
      stage'.duty u = (Stage.removing t).duty u ∧ (u ∈ refs ↔ u ∈ refs) := by
    intro stage' loose u differ
    rw [loose u differ]
    exact ⟨by simp [Stage.duty, differ], Iff.rfl⟩
  have outside : t ∈ refs ↔ False := by simpa [unreferenced] using (inv.threads t).ref
  cases outcome with
  | refused error => exact absurd ⟨before, inv.generation⟩ (Lifecycle.markUnallocated_refuse allowed)
  | panicked reason => exact absurd allowed Lifecycle.markUnallocated_ne_panic
  | retry proposal =>
    exact ⟨_, inv.turn duty.symm (iff_of_false id unreferenced) False.elim (by simp [Pc.duty])⟩
  | committed new unallocated =>
    obtain ⟨generation, _, same, refcount, state, free⟩ := Lifecycle.markUnallocated_propose allowed
    cases unallocated with
    | true =>
      refine ⟨.returning t .removed t, inv.commit s.trace (same.trans generation)
        (refcount.trans inv.refcount) ⟨?_, outside, False.elim⟩ (others _ ?_) (by simp) (by simp) ?_ inv.clean inv.honest⟩
      · simp [Pc.duty, Stage.duty]
      · intro u differ
        simp [Stage.duty, differ]
      · refine ⟨handles, ?_, ?_, ?_, shows.removing, rfl, shows.removed, shows.last⟩
        · simp [committed_lifecycle, state]
        · rw [committed_lifecycle, refcount]
          exact free.mp rfl
        · simpa [Ready, System.setPc, System.setLifecycle] using ⟨contents, shows.dropped⟩
    | false =>
      refine ⟨.zombie t, inv.commit { s.trace with
        closed := (t, some 1, true) :: s.trace.closed, removed := (t, true) :: s.trace.removed }
        (same.trans generation) (refcount.trans inv.refcount) ⟨rfl, outside, False.elim⟩ (others _ fun _ _ => rfl)
        (by simp) (by simp) ?_ inv.clean ?_⟩
      · refine ⟨handles, by simp [committed_lifecycle, state], ?_, contents, shows.removing, ?_, ?_, shows.dropped⟩
        · rw [committed_lifecycle, refcount]
          exact Nat.pos_of_ne_zero fun zero => Bool.false_ne_true (free.mpr zero)
        · simp [shows.removed]
        · exact congrArg (List.cons t) shows.last
      · intro e member
        rcases List.mem_cons.mp member with rfl | member
        · simp
        · exact inv.honest e member

theorem Invariant.pass {receiver : T} (idle : s.pc t = .idle) (held : t ∈ s.handles) :
    Invariant value { s with handles := receiver ::ₘ s.handles.erase t } stage refs place cells locals := by
  obtain rfl := inv.live_of_mem held
  refine { inv with count := ?_, threads := ?_, facts := ⟨Multiset.cons_ne_zero, inv.facts.2⟩ }
  · rw [Multiset.card_cons, Multiset.card_erase_add_one held]
    exact inv.count
  · intro u
    refine ⟨(inv.threads u).duty, (inv.threads u).ref, ?_⟩
    intro early
    have differ : u ≠ t := by
      rintro rfl
      rw [idle] at early
      exact early
    exact Multiset.mem_cons_of_mem ((Multiset.mem_erase_of_ne differ).mpr ((inv.threads u).handle early))

end Platypos.Ktrace.Handles
