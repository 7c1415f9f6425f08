import Platypos.Memory.AddRun

namespace Platypos.Memory

open Outcome

theorem Linked.popUnused {arena arena' : Arena} {runs free unusedRuns : List RunId} {run : RunId}
    (linked : Linked arena runs ⟨free, run :: unusedRuns⟩)
    (statuses : ∀ r ∈ runs, (arena' r).status = (arena r).status) :
    Linked arena' runs ⟨free, unusedRuns⟩ ∧ run ∉ runs ++ unusedRuns := by
  have nodup := List.nodup_cons.mp (List.nodup_middle.mp linked.nodup)
  refine ⟨⟨nodup.2, linked.freeNodup, ?_⟩, nodup.1⟩
  intro r
  rw [linked.mem_free]
  constructor
  · intro found
    exact ⟨found.1, by rw [statuses r found.1]; exact found.2⟩
  · intro found
    exact ⟨found.1, by rw [← statuses r found.1]; exact found.2⟩

theorem Linked.setStatus_allocated {arena : Arena} {runs before after unusedRuns : List RunId} {run : RunId}
    (linked : Linked arena runs ⟨before ++ run :: after, unusedRuns⟩) :
    Linked (setStatus arena run .allocated) runs ⟨before ++ after, unusedRuns⟩ := by
  have nodup := List.nodup_cons.mp (List.nodup_middle.mp linked.freeNodup)
  refine ⟨linked.nodup, nodup.2, ?_⟩
  intro r
  have held := linked.mem_free r
  by_cases same : r = run
  · subst same
    simp [setStatus, nodup.1]
  · simpa [setStatus, same] using held

theorem Linked.setStatus_free {arena : Arena} {runs free unusedRuns : List RunId} {run : RunId}
    (linked : Linked arena runs ⟨free, unusedRuns⟩) (member : run ∈ runs) (absent : run ∉ free) :
    Linked (setStatus arena run .free) runs ⟨run :: free, unusedRuns⟩ := by
  refine ⟨linked.nodup, List.nodup_cons.mpr ⟨absent, linked.freeNodup⟩, ?_⟩
  intro r
  have held := linked.mem_free r
  by_cases same : r = run
  · subst same
    simp [setStatus, member]
  · simpa [setStatus, same] using held

theorem ledger_split {s : AllocatorInner} {before after : List RunId} {run : RunId}
    (runs : s.runs = before ++ run :: after) :
    s.ledger = before.map s.arena ++ s.arena run :: after.map s.arena := by
  simp [AllocatorInner.ledger, runs]

structure Kept (s s' : AllocatorInner) : Prop where
  linked : Linked s'.arena s'.runs s'.tracking
  perm : (s'.runs ++ s'.tracking.unusedRuns).Perm (s.runs ++ s.tracking.unusedRuns)

def NoneRetired (s s' : AllocatorInner) : Prop :=
  ∀ run ∈ s'.tracking.unusedRuns, run ∈ s.tracking.unusedRuns ∧ s'.arena run = s.arena run

structure Allocated (s : AllocatorInner) (count : Nat) (range : PageFrameRange) (s' : AllocatorInner) : Prop
    extends Kept s s' where
  ledger : Ledger.Allocates s.ledger count range s'.ledger
  noneRetired : NoneRetired s s'

theorem allocate_whole {s : AllocatorInner} {before after : List RunId} {run : RunId}
    (linked : Linked s.arena s.runs s.tracking) (free : s.tracking.free = before ++ run :: after) :
    Allocated s (s.arena run).range.size (s.arena run).range ⟨setStatus s.arena run .allocated, s.runs,
      { s.tracking with free := before ++ after }⟩ := by
  have member : run ∈ s.runs ∧ (s.arena run).status = .free := (linked.mem_free run).mp (by simp [free])
  obtain ⟨front, back, runs⟩ := List.append_of_mem member.1
  have nodup := List.nodup_cons.mp (List.nodup_middle.mp (runs ▸ linked.runs_nodup))
  have apart : run ∉ front ∧ run ∉ back := by simpa using nodup.1
  have whole : Linked s.arena s.runs ⟨before ++ run :: after, s.tracking.unusedRuns⟩ := by
    rw [← free]
    exact linked
  refine ⟨⟨whole.setStatus_allocated, .refl _⟩, ?_, ?_⟩
  · have state : s.arena run = ⟨(s.arena run).range, .free⟩ := by rw [← member.2]
    rw [ledger_split runs, ledger_split (s := ⟨setStatus s.arena run .allocated, s.runs, _⟩) runs, state]
    simp only [setStatus, map_update_of_notMem apart.1, map_update_of_notMem apart.2, Function.update_self]
    exact .whole _ _ _
  · intro other unused
    refine ⟨unused, ?_⟩
    simp only [setStatus]
    rw [Function.update_of_ne]
    rintro rfl
    exact (List.disjoint_of_nodup_append linked.nodup) member.1 unused

/-- The failures of a call after which the allocator cannot go on: the descriptors are used up, or the next
    one fails the debug assertion of `Run::initialize`. -/
def OutOfRuns (debug : Bool) (s : AllocatorInner) (e : Panic) : Prop :=
  e = .overflow ∨ (e = .noUnusedRun ∧ s.tracking.unusedRuns = []) ∨
    e = .reinitialized ∧ debug = true ∧ ∃ run ∈ s.tracking.unusedRuns, (s.arena run).status ≠ .unused

theorem initializeRun_ensures (debug : Bool) (arena : Arena) (run : RunId) (range : PageFrameRange)
    (status : Status) :
    Ensures (initializeRun debug arena run range status)
      (fun arena' => arena' = Function.update arena run ⟨range, status⟩)
      (fun e => e = .reinitialized ∧ debug = true ∧ (arena run).status ≠ .unused) := by
  unfold initializeRun debugAssert check
  by_cases fine : debug = true → (arena run).status = .unused
  · rw [if_pos fine]
    exact rfl
  · rw [if_neg fine]
    exact ⟨rfl, by simpa using fine⟩

section Split

variable {s : AllocatorInner} {front back unusedRuns : List RunId} {run unused : RunId} {count : Nat}
  {arena : Arena} (linked : Linked s.arena s.runs s.tracking) (runs : s.runs = front ++ run :: back)
  (kind : (s.arena run).status = .free) (smaller : count < (s.arena run).range.size)
  (stock : s.tracking.unusedRuns = unused :: unusedRuns)
  (contents : arena = Function.update
    (setRange s.arena run ⟨(s.arena run).range.start + count, (s.arena run).range.size - count⟩)
    unused ⟨⟨(s.arena run).range.start, count⟩, .allocated⟩)

include linked stock contents

theorem split_arena (other : RunId) (member : other ∈ s.runs) (differ : other ≠ run) :
    arena other = s.arena other := by
  have apart := List.disjoint_of_nodup_append linked.nodup member
  rw [contents, Function.update_of_ne, setRange, Function.update_of_ne differ]
  rintro rfl
  exact apart (by simp [stock])

include runs

theorem split_arena_run : arena run =
    ⟨⟨(s.arena run).range.start + count, (s.arena run).range.size - count⟩, (s.arena run).status⟩ := by
  have apart := List.disjoint_of_nodup_append linked.nodup (show run ∈ s.runs by simp [runs])
  rw [contents, Function.update_of_ne, setRange_self]
  rintro rfl
  exact apart (by simp [stock])

theorem split_linked : Linked arena s.runs ⟨s.tracking.free, unusedRuns⟩ ∧ unused ∉ s.runs ++ unusedRuns := by
  have whole : Linked s.arena s.runs ⟨s.tracking.free, unused :: unusedRuns⟩ := by
    rw [← stock]
    exact linked
  apply whole.popUnused
  intro other member
  by_cases same : other = run
  · subst same
    rw [split_arena_run linked runs stock contents]
  · rw [split_arena linked stock contents other member same]

theorem split_views : front.map arena = front.map s.arena ∧ back.map arena = back.map s.arena := by
  have nodup := List.nodup_cons.mp (List.nodup_middle.mp (runs ▸ linked.runs_nodup))
  have apart : run ∉ front ∧ run ∉ back := by simpa using nodup.1
  constructor
  · apply List.map_congr_left
    intro other member
    apply split_arena linked stock contents other (by simp [runs, member])
    rintro rfl
    exact apart.1 member
  · apply List.map_congr_left
    intro other member
    apply split_arena linked stock contents other (by simp [runs, member])
    rintro rfl
    exact apart.2 member

theorem split_fits (sorted : Ledger.Sorted s.ledger) : Fits arena ⟨front, run :: back⟩ unused := by
  have first : arena unused = ⟨⟨(s.arena run).range.start, count⟩, .allocated⟩ := by
    rw [contents, Function.update_self]
  have second := split_arena_run linked runs stock contents
  rw [ledger_split runs, Ledger.sorted_append_cons] at sorted
  constructor
  · intro next same
    simp only [List.head?_cons, Option.mem_def, Option.some.injEq] at same
    subst same
    simp [first, second, RunState.limit, RunState.start, AddressRange.limit]
  · intro prev last
    have views := (split_views linked runs stock contents).1
    have member : arena prev ∈ front.map s.arena := by
      rw [← views]
      exact List.mem_map_of_mem (List.mem_of_mem_getLast? last)
    have bound := sorted.2.1 _ member
    rw [first]
    exact bound

include kind smaller

theorem allocate_split {s' : AllocatorInner}
    (added : Added ⟨arena, ⟨front, run :: back⟩, ⟨s.tracking.free, unusedRuns⟩⟩ unused s') :
    Allocated s count ⟨(s.arena run).range.start, count⟩ s' := by
  have first : arena unused = ⟨⟨(s.arena run).range.start, count⟩, .allocated⟩ := by
    rw [contents, Function.update_self]
  have second := split_arena_run linked runs stock contents
  have views := split_views linked runs stock contents
  have same := added.unchanged (.inl (by simp [first]))
  have ledger := added.ledger
  simp only [first, ite_true, List.map_cons, second, views, kind] at ledger
  refine ⟨⟨added.linked, ?_⟩, ?_, ?_⟩
  · rw [stock, runs]
    exact added.perm.trans List.perm_middle.symm
  · have state : s.arena run = ⟨(s.arena run).range, .free⟩ := by rw [← kind]
    rw [ledger, ledger_split runs, state]
    exact .split _ _ _ _ smaller
  · intro other member
    rw [same.2] at member
    have fresh := split_linked linked runs stock contents
    refine ⟨by simp [stock, member], ?_⟩
    have outside : other ∉ s.runs := by
      intro inside
      exact List.disjoint_of_nodup_append fresh.1.nodup inside member
    rw [same.1]
    change arena other = s.arena other
    rw [contents, Function.update_of_ne, setRange, Function.update_of_ne]
    · rintro rfl
      exact outside (by simp [runs])
    · rintro rfl
      exact fresh.2 (by simp [member])

end Split

theorem allocate_ensures (debug : Bool) {s : AllocatorInner} (linked : Linked s.arena s.runs s.tracking)
    (sorted : Ledger.Sorted s.ledger) (count : Nat) :
    Ensures (s.allocate debug count)
      (fun r => (r = (.error .insufficientMemory, s) ∧ ∀ x ∈ s.ledger, x.status = .free → x.range.size < count) ∨
        ∃ range, r.1 = .ok range ∧ Allocated s count range r.2)
      (OutOfRuns debug s) := by
  unfold AllocatorInner.allocate
  simp only [Cursor.get]
  cases place : (Cursor.seek (fun run => decide (count ≤ (s.arena run).range.size)) s.tracking.free).after with
  | nil =>
    left
    refine ⟨rfl, ?_⟩
    intro x member kind
    obtain ⟨run, inside, rfl⟩ := List.mem_map.mp member
    have inFree : run ∈ s.tracking.free := (linked.mem_free run).mpr ⟨inside, kind⟩
    rw [← Cursor.seek_none place] at inFree
    have small := Cursor.seek_before inFree
    simpa using small
  | cons run rest =>
    have free := Cursor.seek_split place
    have enough : count ≤ (s.arena run).range.size := by simpa using Cursor.seek_after place
    have member : run ∈ s.runs ∧ (s.arena run).status = .free := (linked.mem_free run).mp (by rw [free]; simp)
    simp only [List.head?_cons]
    split
    · rename_i whole
      subst whole
      right
      refine ⟨_, rfl, ?_⟩
      simp only [Cursor.remove, place, List.tail_cons, Cursor.toList_mk]
      exact allocate_whole linked free
    · rename_i differ
      apply ((AddressRange.shrinkLeft_ensures _ _ enough).mono (fun a _ => id) fun e => Or.inl).bind
      intro shrunk same
      subst same
      cases stock : s.tracking.unusedRuns with
      | nil => exact .inr (.inl ⟨rfl, rfl⟩)
      | cons unused unusedRuns =>
        obtain ⟨front, back, runs⟩ := List.append_of_mem member.1
        have nodup := List.nodup_cons.mp (List.nodup_middle.mp (runs ▸ linked.runs_nodup))
        have fresh : run ∉ front := fun inside => nodup.1 (by simp [inside])
        have smaller : count < (s.arena run).range.size := by omega
        apply ((initializeRun_ensures debug _ unused _ _).mono (fun a _ => id) ?_).bind
        · intro arena contents
          have ready := split_linked linked runs stock contents
          rw [runs, Cursor.cursorMutFromPtr_split fresh]
          rw [runs] at ready
          apply ((addRun_ensures debug ready.1 ready.2).mono (fun a _ => id) ?_).bind
          · intro s' added
            right
            exact ⟨_, rfl, allocate_split linked runs member.2 smaller stock contents added⟩
          · intro e failed
            have fits := split_fits linked runs stock contents sorted
            rcases failed with failed | failed
            · exact .inl failed
            · exact absurd fits failed.2
        · intro e failed
          refine .inr (.inr ⟨failed.1, failed.2.1, unused, by simp, ?_⟩)
          have stale := failed.2.2
          rwa [setRange_status] at stale

/-- A successful `deallocate`: the first run with that range becomes free and is coalesced. -/
structure Deallocated (s : AllocatorInner) (range : PageFrameRange) (s' : AllocatorInner) : Prop
    extends Kept s s' where
  inUse : ∀ run, (s.arena run).status ≠ .unused → (s'.arena run).status ≠ .unused
  ledger : ∃ pre post, s.ledger = pre ++ ⟨range, .allocated⟩ :: post ∧ (∀ x ∈ pre, x.range ≠ range) ∧
    s'.ledger = Ledger.settle pre ⟨range, .free⟩ post ∧
    ((∀ next ∈ post.head?, ¬ Ledger.Touches ⟨range, .free⟩ next) →
      (∀ prev ∈ pre.getLast?, ¬ Ledger.Touches prev ⟨range, .free⟩) → NoneRetired s s')

theorem Deallocated.releases {s s' : AllocatorInner} {range : PageFrameRange} (done : Deallocated s range s') :
    Ledger.Releases s.ledger range s'.ledger := by
  obtain ⟨pre, post, before, _, after, _⟩ := done.ledger
  rw [before, after]
  exact .release pre range post

/-- A failed `deallocate` changes nothing and tells an unknown range from one that is not allocated. -/
def Rejected (s : AllocatorInner) (range : PageFrameRange) (e : ErrorKind) : Prop :=
  (e = .addressOutOfBounds ∧ ∀ x ∈ s.ledger, x.range ≠ range) ∨
    e = .invalidAddress ∧ ∃ pre x post, s.ledger = pre ++ x :: post ∧ (∀ y ∈ pre, y.range ≠ range) ∧
      x.range = range ∧ x.status ≠ .allocated

theorem deallocate_ensures (debug : Bool) {s : AllocatorInner} (linked : Linked s.arena s.runs s.tracking)
    (range : PageFrameRange) :
    Ensures (s.deallocate debug range)
      (fun r => (∃ e, r = (.error e, s) ∧ Rejected s range e) ∨ r.1 = .ok () ∧ Deallocated s range r.2)
      (fun e => e = .overflow) := by
  unfold AllocatorInner.deallocate
  simp only [Cursor.get]
  have skipped : ∀ x ∈ (Cursor.seek (fun run => decide ((s.arena run).range = range)) s.runs).before.map s.arena,
      x.range ≠ range := by
    intro x member
    obtain ⟨run, inside, rfl⟩ := List.mem_map.mp member
    simpa using Cursor.seek_before inside
  cases place : (Cursor.seek (fun run => decide ((s.arena run).range = range)) s.runs).after with
  | nil =>
    left
    refine ⟨_, rfl, .inl ⟨rfl, ?_⟩⟩
    rw [Cursor.seek_none place] at skipped
    exact skipped
  | cons run rest =>
    have runs := Cursor.seek_split place
    have same : (s.arena run).range = range := by simpa using Cursor.seek_after place
    generalize (Cursor.seek (fun run => decide ((s.arena run).range = range)) s.runs) = cursor at *
    have view := ledger_split runs
    simp only [List.head?_cons]
    split
    · rename_i kind
      left
      exact ⟨_, rfl, .inr ⟨rfl, _, _, _, view, skipped, same, kind⟩⟩
    · rename_i kind
      have allocated : (s.arena run).status = .allocated := by simpa using kind
      have inside : run ∈ s.runs := by simp [runs]
      have absent : run ∉ s.tracking.free := by
        intro member
        rw [linked.mem_free, allocated] at member
        simp at member
      have nodup := List.nodup_cons.mp (List.nodup_middle.mp (runs ▸ linked.runs_nodup))
      have apart : run ∉ cursor.before ∧ run ∉ rest := by simpa using nodup.1
      have ready := Linked.setStatus_free linked inside absent
      have position : cursor = ⟨cursor.before, run :: rest⟩ := by
        rw [← place]
      have whole : cursor.toList = s.runs := by rw [runs, Cursor.toList, place]
      have state : s.arena run = ⟨range, .allocated⟩ := by rw [← same, ← allocated]
      simp only [check, absent, not_false_eq_true, ite_true, Bind.bind, Except.bind]
      rw [← whole] at ready
      apply (coalesce_ensures debug position ready).bind
      intro s' done
      right
      have ledger := done.ledger
      simp only [setStatus, map_update_of_notMem apart.1, map_update_of_notMem apart.2, Function.update_self,
        same] at ledger
      refine ⟨rfl, ⟨done.linked, ?_⟩, ?_, _, _, ?_, skipped, ledger, ?_⟩
      · rw [← whole]
        exact done.perm
      · intro other used
        rw [done.statuses]
        by_cases same : other = run
        · simp [setStatus, same]
        · simpa [setStatus, same] using used
      · rw [view, state]
      · intro next prev
        have still := done.unchanged
        simp only [setStatus, map_update_of_notMem apart.1, map_update_of_notMem apart.2, Function.update_self,
          same] at still
        rw [still next prev]
        intro other unused
        refine ⟨unused, Function.update_of_ne ?_ _ _⟩
        rintro rfl
        exact List.disjoint_of_nodup_append linked.nodup inside unused

end Platypos.Memory
