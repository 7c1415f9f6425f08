import Platypos.Memory.Calls

namespace Platypos.Memory

open Outcome

def Meets (range : PageFrameRange) (x : RunState) : Prop :=
  (range.start ≤ x.start ∧ x.start < range.limit) ∨ x.start < range.start ∧ range.start < x.limit

theorem findNext_before {arena : Arena} {list : List RunId} {run r : RunId}
    (member : r ∈ (findNext arena list run).before) : (arena r).start < (arena run).start := by
  have early := Cursor.seek_before member
  simpa [RunState.start] using early

theorem findNext_after {arena : Arena} {list : List RunId} {run r : RunId}
    (first : r ∈ (findNext arena list run).after.head?) : (arena run).start ≤ (arena r).start := by
  cases place : (findNext arena list run).after with
  | nil => simp [place] at first
  | cons next rest =>
    simp only [place, List.head?_cons, Option.mem_def, Option.some.injEq] at first
    subst first
    have late := Cursor.seek_after place
    simpa [RunState.start] using late

structure Received (s : AllocatorInner) (x : RunState) (s' : AllocatorInner) : Prop extends Kept s s' where
  ledger : Ledger.Receives s.ledger x s'.ledger
  noneRetired : (∀ y ∈ s.ledger, ¬ Ledger.Touches x y ∧ ¬ Ledger.Touches y x) → NoneRetired s s'

section Insertion

variable {s : AllocatorInner} {run : RunId} {unusedRuns : List RunId} {x : RunState} {arena : Arena}
  {cursor : Cursor RunId} (linked : Linked s.arena s.runs s.tracking) (sorted : Ledger.Sorted s.ledger)
  (stock : s.tracking.unusedRuns = run :: unusedRuns) (contents : arena = Function.update s.arena run x)
  (position : cursor = findNext arena s.runs run)

include linked stock contents

theorem inserted_linked : Linked arena s.runs ⟨s.tracking.free, unusedRuns⟩ ∧ run ∉ s.runs ++ unusedRuns ∧
    ∀ other ∈ s.runs, arena other = s.arena other := by
  have whole : Linked s.arena s.runs ⟨s.tracking.free, run :: unusedRuns⟩ := by
    rw [← stock]
    exact linked
  have same : ∀ other ∈ s.runs, arena other = s.arena other := by
    intro other member
    rw [contents, Function.update_of_ne]
    rintro rfl
    exact List.disjoint_of_nodup_append whole.nodup member (by simp)
  have statuses : ∀ other ∈ s.runs, (arena other).status = (s.arena other).status := by
    intro other member
    rw [same other member]
  have popped := whole.popUnused statuses
  exact ⟨popped.1, popped.2, same⟩

include position

theorem inserted_views : cursor.toList = s.runs ∧
    cursor.before.map arena = cursor.before.map s.arena ∧ cursor.after.map arena = cursor.after.map s.arena ∧
    s.ledger = cursor.before.map s.arena ++ cursor.after.map s.arena := by
  have same := (inserted_linked linked stock contents).2.2
  have runs : cursor.toList = s.runs := by
    rw [position]
    exact Cursor.toList_seek _ _
  refine ⟨runs, ?_, ?_, ?_⟩
  · apply List.map_congr_left
    intro r member
    exact same r (by rw [← runs, Cursor.toList]; simp [member])
  · apply List.map_congr_left
    intro r member
    exact same r (by rw [← runs, Cursor.toList]; simp [member])
  · rw [AllocatorInner.ledger, ← runs, Cursor.toList, List.map_append]

theorem inserted_meets (misfit : ¬ Fits arena cursor run) : ∃ y ∈ s.ledger, Meets x.range y := by
  have state : arena run = x := by rw [contents, Function.update_self]
  obtain ⟨runs, left, right, view⟩ := inserted_views linked stock contents position
  rw [← left, ← right] at view
  unfold Fits at misfit
  rw [not_and_or] at misfit
  push Not at misfit
  rw [view]
  rcases misfit with ⟨next, first, overlap⟩ | ⟨prev, last, overlap⟩
  · have late := findNext_after (position ▸ first)
    rw [state] at late overlap
    exact ⟨arena next, List.mem_append_right _ (List.mem_map_of_mem (List.mem_of_mem_head? first)),
      .inl ⟨late, overlap⟩⟩
  · have inside := List.mem_of_mem_getLast? last
    have early := findNext_before (position ▸ inside)
    rw [state] at early overlap
    exact ⟨arena prev, List.mem_append_left _ (List.mem_map_of_mem inside), .inr ⟨early, overlap⟩⟩

include sorted

theorem inserted_received {s' : AllocatorInner} (kind : x.status ≠ .allocated)
    (added : Added ⟨arena, cursor, ⟨s.tracking.free, unusedRuns⟩⟩ run s') : Received s x s' := by
  have state : arena run = x := by rw [contents, Function.update_self]
  obtain ⟨runs, left, right, view⟩ := inserted_views linked stock contents position
  have fits := added.fits
  have ledger := added.ledger
  have still := added.unchanged
  have parts := List.pairwise_append.mp (view ▸ sorted)
  simp only [state, left, right, kind, ite_false, false_or] at ledger still
  simp only [Fits, state] at fits
  refine ⟨⟨added.linked, ?_⟩, ?_, ?_⟩
  · rw [stock, ← runs]
    exact added.perm.trans List.perm_middle.symm
  · rw [ledger, view]
    refine .insert _ _ _ ?_ ?_
    · apply Ledger.Sorted.limit_le_of_last parts.1
      rw [← left]
      simpa using fits.2
    · apply Ledger.Sorted.le_start_of_head parts.2.1
      rw [← right]
      simpa using fits.1
  · intro apart
    rw [view] at apart
    have same := still ⟨fun y first => (apart y (List.mem_append_right _ (List.mem_of_mem_head? first))).1,
      fun y last => (apart y (List.mem_append_left _ (List.mem_of_mem_getLast? last))).2⟩
    intro other member
    rw [same.2] at member
    have fresh := (inserted_linked linked stock contents).2.1
    refine ⟨by simp [stock, member], ?_⟩
    rw [same.1, contents]
    apply Function.update_of_ne
    rintro rfl
    exact fresh (List.mem_append_right _ member)

theorem addRun_received (debug : Bool) (kind : x.status ≠ .allocated) :
    Ensures (addRun debug ⟨arena, cursor, ⟨s.tracking.free, unusedRuns⟩⟩ run) (Received s x)
      (fun e => e = .overflow ∨ e = .overlap ∧ ∃ y ∈ s.ledger, Meets x.range y) := by
  have ready := inserted_linked linked stock contents
  have runs := (inserted_views linked stock contents position).1
  rw [← runs] at ready
  apply (addRun_ensures debug ready.1 ready.2.1).mono
  · intro s' _ added
    exact inserted_received linked sorted stock contents position kind added
  · intro e failed
    rcases failed with failed | failed
    · exact .inl failed
    · exact .inr ⟨failed.1, inserted_meets linked stock contents position failed.2⟩

end Insertion

theorem addAllocatableRange_ensures (debug : Bool) {s : AllocatorInner}
    (linked : Linked s.arena s.runs s.tracking) (sorted : Ledger.Sorted s.ledger) (range : PageFrameRange) :
    Ensures (s.addAllocatableRange debug range) (Received s ⟨range, .free⟩)
      (fun e => e = .overflow ∨ e = .noUnusedRun ∨ e = .overlap ∧ ∃ x ∈ s.ledger, Meets range x) := by
  unfold AllocatorInner.addAllocatableRange
  cases stock : s.tracking.unusedRuns with
  | nil => exact .inr (.inl rfl)
  | cons run unusedRuns =>
    apply (addRun_received linked sorted stock rfl rfl debug (by simp)).mono
    · intro s' _ received
      exact received
    · intro e failed
      rcases failed with failed | failed
      · exact .inl failed
      · exact .inr (.inr failed)

def trackingDescriptors (sizeOfRun : Nat) (access : MemoryAccess) (range : PageFrameRange) : List RunId :=
  descriptors (access.base + range.start * PAGE_SIZE) sizeOfRun (range.size * PAGE_SIZE / sizeOfRun)

theorem descriptors_nodup (ptr sizeOfRun count : Nat) (positive : 0 < sizeOfRun) :
    (descriptors ptr sizeOfRun count).Nodup := by
  unfold descriptors
  apply List.Nodup.map _ List.nodup_range
  intro i j same
  have scaled : i * sizeOfRun = j * sizeOfRun := by simpa using same
  exact Nat.eq_of_mul_eq_mul_right positive scaled

theorem Ledger.Receives.of_nil {x : RunState} {l : Ledger} (step : Receives [] x l) : l = [x] := by
  generalize start : ([] : Ledger) = l₀ at step
  obtain ⟨pre, x, post, _, _⟩ := step
  have parts := List.append_eq_nil_iff.mp start.symm
  rw [parts.1, parts.2]
  rfl

/-- The state after the tracking pages were set up. -/
structure Tracked (sizeOfRun : Nat) (access : MemoryAccess) (range : PageFrameRange) (s : AllocatorInner) :
    Prop where
  positive : 0 < range.size
  ledger : s.ledger = [⟨range, .tracking⟩]
  linked : Linked s.arena s.runs s.tracking
  perm : (s.runs ++ s.tracking.unusedRuns).Perm (trackingDescriptors sizeOfRun access range)
  unused : ∀ run ∈ s.tracking.unusedRuns, (s.arena run).status = .unused

theorem writeRuns_ensures (debug : Bool) (range : PageFrameRange) {entries : List RunId} (nodup : entries.Nodup) :
    Ensures (AllocatorInner.new.writeRuns debug range entries)
      (fun s => entries ≠ [] ∧ s.ledger = [⟨range, .tracking⟩] ∧ Linked s.arena s.runs s.tracking ∧
        (s.runs ++ s.tracking.unusedRuns).Perm entries ∧
        ∀ run ∈ s.tracking.unusedRuns, (s.arena run).status = .unused)
      (fun e => e = .overflow ∨ e = .unwrapNone) := by
  unfold AllocatorInner.writeRuns
  simp only [AllocatorInner.new, List.nil_append, ite_self]
  cases entries with
  | nil => exact .inr rfl
  | cons trackingRun unusedRuns =>
    let written : AllocatorInner := ⟨fun _ => ⟨.empty, .unused⟩, [], ⟨[], trackingRun :: unusedRuns⟩⟩
    have linked : Linked written.arena written.runs written.tracking :=
      ⟨nodup, List.nodup_nil, by simp [written]⟩
    have ready : ∀ e, (e = .reinitialized ∧ debug = true ∧ (written.arena trackingRun).status ≠ .unused) →
        e = Panic.overflow ∨ e = .unwrapNone := by
      intro e failed
      exact absurd rfl failed.2.2
    apply ((initializeRun_ensures debug written.arena trackingRun range .tracking).mono (fun a _ => id) ready).bind
    intro arena contents
    apply (addRun_received linked List.Pairwise.nil rfl contents rfl debug (by simp)).mono
    · intro s _ received
      refine ⟨by simp, received.ledger.of_nil, received.linked, received.perm, ?_⟩
      intro run member
      have kept := received.noneRetired (by simp [AllocatorInner.ledger, written]) run member
      rw [kept.2]
    · intro e failed
      rcases failed with failed | ⟨_, x, member, _⟩
      · exact .inl failed
      · simp [AllocatorInner.ledger, written] at member

theorem usizeMul_ensures (a b : Nat) :
    Ensures (usizeMul a b) (fun c => c = a * b) (fun e => e = .overflow ∨ e = .unwrapNone) := by
  unfold usizeMul
  split
  · exact rfl
  · exact .inl rfl

theorem mapPermanent_ensures (access : MemoryAccess) (range : PageFrameRange) :
    Ensures (access.mapPermanent range)
      (fun r => r = .error .addressOutOfBounds ∨ r = .ok (access.base + range.start * PAGE_SIZE))
      (fun e => e = .overflow ∨ e = .unwrapNone) := by
  apply (usizeMul_ensures _ _).bind
  intro address same
  subst same
  split
  · exact .inr rfl
  · exact .inl rfl

theorem initTrackingSpace_ensures (debug : Bool) (sizeOfRun : Nat) (access : MemoryAccess)
    (range : PageFrameRange) :
    Ensures (AllocatorInner.new.initTrackingSpace debug sizeOfRun access range)
      (fun r => (∃ e, r = (.error e, AllocatorInner.new)) ∨ r.1 = .ok () ∧ Tracked sizeOfRun access range r.2)
      (fun e => e = .overflow ∨ e = .unwrapNone) := by
  unfold AllocatorInner.initTrackingSpace
  apply (usizeMul_ensures _ _).bind
  intro bytes same
  subst same
  simp only
  split
  · exact .inl ⟨_, rfl⟩
  · have fits : range.size * PAGE_SIZE / sizeOfRun * sizeOfRun ≤ range.size * PAGE_SIZE := Nat.div_mul_le_self _ _
    simp only [check, fits, ite_true]
    apply (mapPermanent_ensures access range).bind
    intro mapped outcome
    rcases outcome with rfl | rfl
    · exact .inl ⟨_, rfl⟩
    · have nodup : (trackingDescriptors sizeOfRun access range).Nodup := by
        rcases Nat.eq_zero_or_pos sizeOfRun with zero | positive
        · simp [trackingDescriptors, descriptors, zero]
        · exact descriptors_nodup _ _ _ positive
      apply (writeRuns_ensures debug range nodup).bind
      intro s written
      right
      refine ⟨rfl, ?_, written.2.1, written.2.2.1, written.2.2.2.1, written.2.2.2.2⟩
      by_contra empty
      have zero : range.size = 0 := by omega
      exact written.1 (by simp [trackingDescriptors, descriptors, zero])

end Platypos.Memory
