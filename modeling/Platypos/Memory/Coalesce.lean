import Mathlib.Data.List.Perm.Basic
import Platypos.Memory.Accounting

namespace Platypos.Memory

open Outcome

def AllocatorInner.ledger (s : AllocatorInner) : Ledger := s.runs.map s.arena

/-- The intrusive lists agree: `runs` and `unusedRuns` share no descriptor, and the free list holds
    exactly the free runs. -/
structure Linked (arena : Arena) (runs : List RunId) (tracking : AllocatorTracking) : Prop where
  nodup : (runs ++ tracking.unusedRuns).Nodup
  freeNodup : tracking.free.Nodup
  mem_free : ∀ run, run ∈ tracking.free ↔ run ∈ runs ∧ (arena run).status = .free

@[simp] theorem setRange_status (arena : Arena) (run : RunId) (range : PageFrameRange) (other : RunId) :
    (setRange arena run range other).status = (arena other).status := by
  by_cases same : other = run
  · subst same
    simp [setRange]
  · simp [setRange, same]

@[simp] theorem setRange_self (arena : Arena) (run : RunId) (range : PageFrameRange) :
    setRange arena run range run = ⟨range, (arena run).status⟩ := by
  simp [setRange]

theorem map_update_of_notMem {arena : Arena} {run : RunId} {state : RunState} {list : List RunId}
    (fresh : run ∉ list) : list.map (Function.update arena run state) = list.map arena := by
  apply List.map_congr_left
  intro other member
  rw [Function.update_of_ne]
  rintro rfl
  exact fresh member

theorem Linked.runs_nodup {arena : Arena} {runs : List RunId} {tracking : AllocatorTracking}
    (linked : Linked arena runs tracking) : runs.Nodup := (List.nodup_append.mp linked.nodup).1

theorem Linked.retire {arena arena' : Arena} {runs runs' : List RunId} {tracking : AllocatorTracking}
    {current : RunId} (linked : Linked arena runs tracking) (removed : runs.Perm (current :: runs'))
    (statuses : ∀ run, (arena' run).status = (arena run).status) :
    Linked arena' runs' ⟨tracking.free.erase current, tracking.unusedRuns ++ [current]⟩ ∧
      (runs' ++ (tracking.unusedRuns ++ [current])).Perm (runs ++ tracking.unusedRuns) := by
  have perm : (runs' ++ (tracking.unusedRuns ++ [current])).Perm (runs ++ tracking.unusedRuns) := by
    rw [← List.append_assoc]
    exact (List.perm_append_singleton _ _).trans (removed.append_right tracking.unusedRuns).symm
  have fresh := removed.nodup_iff.mp linked.runs_nodup
  refine ⟨⟨perm.nodup_iff.mpr linked.nodup, linked.freeNodup.erase _, ?_⟩, perm⟩
  intro run
  rw [linked.freeNodup.mem_erase_iff, linked.mem_free, statuses, removed.mem_iff, List.mem_cons]
  constructor
  · intro member
    exact ⟨member.2.1.resolve_left member.1, member.2.2⟩
  · intro member
    refine ⟨?_, .inr member.1, member.2⟩
    rintro rfl
    exact (List.nodup_cons.mp fresh).1 member.1

theorem unlinkFree_eq (debug : Bool) {t : Traversal} {current : RunId}
    (linked : Linked t.arena t.cursor.toList t.tracking) (member : current ∈ t.cursor.toList) :
    unlinkFree debug t current = .ok { t.tracking with free := t.tracking.free.erase current } := by
  unfold unlinkFree
  split
  · rename_i kind
    have inFree : current ∈ t.tracking.free := (linked.mem_free current).mpr ⟨member, kind⟩
    rw [Cursor.toList_remove_cursorMutFromPtr]
    simp [debugAssert, check, inFree, Bind.bind, Except.bind, Pure.pure, Except.pure]
  · rename_i kind
    have notFree : current ∉ t.tracking.free := fun inFree => kind ((linked.mem_free current).mp inFree).2
    rw [List.erase_of_not_mem notFree]
    rfl

def retireInto (t : Traversal) (cursor : Cursor RunId) (current survivor : RunId) (range : PageFrameRange) :
    Traversal :=
  ⟨setRange t.arena survivor range, cursor,
    ⟨t.tracking.free.erase current, t.tracking.unusedRuns ++ [current]⟩⟩

section

variable (debug : Bool) {t : Traversal} {before after : List RunId} {current : RunId}
  (position : t.cursor = ⟨before, current :: after⟩) (linked : Linked t.arena t.cursor.toList t.tracking)

include position

theorem canCoalesceNext_ensures :
    Ensures (canCoalesceNext t current)
      (fun can => can = true ↔ ∃ next ∈ after.head?, Ledger.Touches (t.arena current) (t.arena next))
      (fun e => e = .overflow) := by
  unfold canCoalesceNext
  rw [position]
  cases after with
  | nil => simp [Cursor.peekNext]
  | cons next rest =>
    simp only [Cursor.peekNext, List.head?_cons, Option.mem_def, Option.some.injEq, exists_eq_left']
    split
    · rename_i kind
      apply (AddressRange.endOf_ensures _).bind
      intro limit same
      subst same
      simp [Ledger.Touches, kind, RunState.start, RunState.limit]
    · rename_i kind
      simp [Ledger.Touches, kind]

theorem canCoalescePrev_ensures :
    Ensures (canCoalescePrev t current)
      (fun can => can = true ↔ ∃ prev ∈ before.getLast?, Ledger.Touches (t.arena prev) (t.arena current))
      (fun e => e = .overflow) := by
  unfold canCoalescePrev
  rw [position]
  simp only [Cursor.peekPrev]
  cases before.getLast? with
  | none => simp
  | some prev =>
    simp only [Option.mem_def, Option.some.injEq, exists_eq_left']
    split
    · rename_i kind
      apply (AddressRange.endOf_ensures _).bind
      intro limit same
      subst same
      simp [Ledger.Touches, kind, RunState.start, RunState.limit, eq_comm]
    · rename_i kind
      simp only [ensures_pure, Bool.false_eq_true, Ledger.Touches, false_iff]
      intro touching
      exact kind touching.1.symm

include linked

theorem coalesceNext_ensures :
    Ensures (coalesceNext debug t)
      (fun t' => (t' = t ∧ ∀ next ∈ after.head?, ¬ Ledger.Touches (t.arena current) (t.arena next)) ∨
        ∃ next rest, after = next :: rest ∧ Ledger.Touches (t.arena current) (t.arena next) ∧
          t' = retireInto t ⟨before, next :: rest⟩ current next
            (Ledger.join (t.arena current) (t.arena next)).range)
      (fun e => e = .overflow) := by
  have member : current ∈ t.cursor.toList := by simp [position]
  have found : t.cursor.get = some current := by simp [position, Cursor.get]
  unfold coalesceNext
  simp only [found]
  apply (canCoalesceNext_ensures position).bind
  intro can meaning
  cases can with
  | false =>
    left
    refine ⟨rfl, ?_⟩
    intro next first touching
    exact Bool.false_ne_true (meaning.mpr ⟨next, first, touching⟩)
  | true =>
    obtain ⟨next, first, touching⟩ := meaning.mp rfl
    cases after with
    | nil => simp at first
    | cons head rest =>
      simp only [List.head?_cons, Option.mem_def, Option.some.injEq] at first
      subst first
      have removed : t.cursor.remove = ⟨before, head :: rest⟩ := by simp [position, Cursor.remove]
      simp only [ite_true, unlinkFree_eq debug linked member, removed, Cursor.get, List.head?_cons, Bind.bind,
        Except.bind]
      apply (AddressRange.extendLeft_ensures _ _ touching.2).bind
      intro range same
      subst same
      right
      exact ⟨head, rest, rfl, touching, rfl⟩

theorem coalescePrev_ensures :
    Ensures (coalescePrev debug t)
      (fun t' => (t' = t ∧ ∀ prev ∈ before.getLast?, ¬ Ledger.Touches (t.arena prev) (t.arena current)) ∨
        ∃ front prev, before = front ++ [prev] ∧ Ledger.Touches (t.arena prev) (t.arena current) ∧
          t' = retireInto t ⟨front, prev :: after⟩ current prev
            (Ledger.join (t.arena prev) (t.arena current)).range)
      (fun e => e = .overflow) := by
  have member : current ∈ t.cursor.toList := by simp [position]
  have found : t.cursor.get = some current := by simp [position, Cursor.get]
  unfold coalescePrev
  simp only [found]
  apply (canCoalescePrev_ensures position).bind
  intro can meaning
  cases can with
  | false =>
    left
    refine ⟨rfl, ?_⟩
    intro prev last touching
    exact Bool.false_ne_true (meaning.mpr ⟨prev, last, touching⟩)
  | true =>
    obtain ⟨prev, last, touching⟩ := meaning.mp rfl
    rcases List.eq_nil_or_concat before with rfl | ⟨front, back, rfl⟩
    · simp at last
    · simp only [List.concat_eq_append, List.getLast?_concat, Option.mem_def, Option.some.injEq] at last
      subst last
      have removed : t.cursor.remove.movePrev = ⟨front, back :: after⟩ := by
        simp [position, Cursor.remove, Cursor.movePrev]
      simp only [ite_true, unlinkFree_eq debug linked member, removed, Cursor.get, List.head?_cons, Bind.bind,
        Except.bind]
      apply (AddressRange.extendRight_ensures _ _).bind
      intro range same
      subst same
      right
      exact ⟨front, back, List.concat_eq_append, touching, rfl⟩

end

/-- What `coalesce` makes of the run under the cursor. -/
structure Coalesced (t : Traversal) (before : List RunId) (current : RunId) (after : List RunId)
    (s : AllocatorInner) : Prop where
  ledger : s.ledger = Ledger.settle (before.map t.arena) (t.arena current) (after.map t.arena)
  linked : Linked s.arena s.runs s.tracking
  perm : (s.runs ++ s.tracking.unusedRuns).Perm (t.cursor.toList ++ t.tracking.unusedRuns)
  statuses : ∀ run, (s.arena run).status = (t.arena run).status
  unchanged : (∀ next ∈ (after.map t.arena).head?, ¬ Ledger.Touches (t.arena current) next) →
    (∀ prev ∈ (before.map t.arena).getLast?, ¬ Ledger.Touches prev (t.arena current)) → s = t.close

theorem coalesceNext_absorbs (debug : Bool) {t : Traversal} {before after : List RunId} {current : RunId}
    (position : t.cursor = ⟨before, current :: after⟩) (linked : Linked t.arena t.cursor.toList t.tracking) :
    Ensures (coalesceNext debug t)
      (fun t' => ∃ current' after', t'.cursor = ⟨before, current' :: after'⟩ ∧
        Linked t'.arena t'.cursor.toList t'.tracking ∧
        (t'.cursor.toList ++ t'.tracking.unusedRuns).Perm (t.cursor.toList ++ t.tracking.unusedRuns) ∧
        (∀ run, (t'.arena run).status = (t.arena run).status) ∧
        before.map t'.arena = before.map t.arena ∧
        (t'.arena current', after'.map t'.arena) = Ledger.absorbNext (t.arena current) (after.map t.arena) ∧
        ((∀ next ∈ after.head?, ¬ Ledger.Touches (t.arena current) (t.arena next)) →
          t' = t ∧ current' = current ∧ after' = after))
      (fun e => e = .overflow) := by
  apply (coalesceNext_ensures debug position linked).imp
  intro t' result
  rcases result with ⟨rfl, apart⟩ | ⟨next, rest, rfl, touching, rfl⟩
  · refine ⟨current, after, position, linked, .refl _, fun _ => rfl, rfl, ?_, fun _ => ⟨rfl, rfl, rfl⟩⟩
    rw [Ledger.absorbNext_apart]
    simpa using apart
  · have runs : t.cursor.toList = before ++ current :: next :: rest := by simp [position]
    have removed : (before ++ current :: next :: rest).Perm (current :: (before ++ next :: rest)) :=
      List.perm_middle
    have nodup := linked.runs_nodup
    rw [runs] at linked nodup ⊢
    have retired := linked.retire removed
      (setRange_status t.arena next (Ledger.join (t.arena current) (t.arena next)).range)
    have fresh := removed.nodup_iff.mp nodup
    have apart := List.nodup_middle.mp (List.nodup_cons.mp fresh).2
    have notBefore : next ∉ before := fun member => (List.nodup_cons.mp apart).1 (by simp [member])
    have notRest : next ∉ rest := fun member => (List.nodup_cons.mp apart).1 (by simp [member])
    refine ⟨next, rest, rfl, retired.1, retired.2, setRange_status _ _ _, map_update_of_notMem notBefore, ?_, ?_⟩
    · rw [List.map_cons, Ledger.absorbNext_touching touching]
      simp only [retireInto, setRange_self, touching.1]
      rw [setRange, map_update_of_notMem notRest]
      rfl
    · intro apart
      exact absurd touching (apart next (by simp))

theorem coalescePrev_absorbs (debug : Bool) {t : Traversal} {before after : List RunId} {current : RunId}
    (position : t.cursor = ⟨before, current :: after⟩) (linked : Linked t.arena t.cursor.toList t.tracking) :
    Ensures (coalescePrev debug t)
      (fun t' => ∃ before' current', t'.cursor = ⟨before', current' :: after⟩ ∧
        Linked t'.arena t'.cursor.toList t'.tracking ∧
        (t'.cursor.toList ++ t'.tracking.unusedRuns).Perm (t.cursor.toList ++ t.tracking.unusedRuns) ∧
        (∀ run, (t'.arena run).status = (t.arena run).status) ∧
        after.map t'.arena = after.map t.arena ∧
        (before'.map t'.arena, t'.arena current') = Ledger.absorbPrev (before.map t.arena) (t.arena current) ∧
        ((∀ prev ∈ before.getLast?, ¬ Ledger.Touches (t.arena prev) (t.arena current)) → t' = t))
      (fun e => e = .overflow) := by
  apply (coalescePrev_ensures debug position linked).imp
  intro t' result
  rcases result with ⟨rfl, apart⟩ | ⟨front, prev, rfl, touching, rfl⟩
  · refine ⟨before, current, position, linked, .refl _, fun _ => rfl, rfl, ?_, fun _ => rfl⟩
    rw [Ledger.absorbPrev_apart]
    simpa using apart
  · have runs : t.cursor.toList = front ++ prev :: current :: after := by simp [position]
    have removed : (front ++ prev :: current :: after).Perm (current :: (front ++ prev :: after)) := by
      have middle : (front ++ [prev] ++ current :: after).Perm (current :: (front ++ [prev] ++ after)) :=
        List.perm_middle
      simpa using middle
    have nodup := linked.runs_nodup
    rw [runs] at linked nodup ⊢
    have retired := linked.retire removed
      (setRange_status t.arena prev (Ledger.join (t.arena prev) (t.arena current)).range)
    have fresh := List.nodup_middle.mp (List.nodup_cons.mp (removed.nodup_iff.mp nodup)).2
    have notFront : prev ∉ front := fun member => (List.nodup_cons.mp fresh).1 (by simp [member])
    have notAfter : prev ∉ after := fun member => (List.nodup_cons.mp fresh).1 (by simp [member])
    refine ⟨front, prev, rfl, retired.1, retired.2, setRange_status _ _ _, map_update_of_notMem notAfter, ?_, ?_⟩
    · rw [List.map_append, List.map_singleton, Ledger.absorbPrev_touching touching]
      simp only [retireInto, setRange_self]
      rw [setRange, map_update_of_notMem notFront]
      rfl
    · intro apart
      exact absurd touching (apart prev (by simp))

theorem coalesce_ensures (debug : Bool) {t : Traversal} {before after : List RunId} {current : RunId}
    (position : t.cursor = ⟨before, current :: after⟩) (linked : Linked t.arena t.cursor.toList t.tracking) :
    Ensures (coalesce debug t) (Coalesced t before current after) (fun e => e = .overflow) := by
  apply (coalesceNext_absorbs debug position linked).bind
  intro t' next
  obtain ⟨current', after', position', linked', perm, statuses, left, merged, same⟩ := next
  apply (coalescePrev_absorbs debug position' linked').bind
  intro t'' prev
  obtain ⟨before'', current'', position'', linked'', perm', statuses', right, merged', same'⟩ := prev
  have view : (Traversal.close t'').ledger = Ledger.settle (before.map t.arena) (t.arena current) (after.map t.arena) := by
    unfold Ledger.settle
    rw [← merged, ← left, ← merged']
    simp [AllocatorInner.ledger, Traversal.close, position'', right]
  refine ⟨view, linked'', perm'.trans perm, fun run => (statuses' run).trans (statuses run), ?_⟩
  intro apartNext apartPrev
  obtain ⟨rfl, rfl, rfl⟩ := same (by simpa using apartNext)
  rw [same' (by simpa using apartPrev)]

end Platypos.Memory
