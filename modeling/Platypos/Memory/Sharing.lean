import Platypos.Memory.BootstrapSafety
import Platypos.Sync.Exclusion

namespace Platypos.Memory

open Outcome Exec Schedule Interleave Sync

section Building

variable {debug : Bool} {sizeOfRun : Nat} {access : MemoryAccess} {sort : UnstableSort} {memoryMap : List Region}
  {reserved : List PageFrameRange} {tracking : PageFrameRange} {ranges : List PageFrameRange} {frame : Nat}

/-- The frames that a region adds are frames of the region. -/
theorem rangeOf_ensures (tracking : PageFrameRange) (r : Region) :
    Ensures (rangeOf tracking r) (fun range => ∀ frame ∈ range, r.Holds (frame * PAGE_SIZE)) fun _ => True := by
  have aligned : Ensures (fromStart r.start) (fun start => r.start = start * PAGE_SIZE) fun _ => True := by
    unfold fromStart
    split
    · simp only [ensures_ok, PAGE_SIZE] at *
      omega
    · trivial
  have sized : Ensures (r.size.mapError BuildPanic.memory) (fun size => r.limit = r.start + size) fun _ => True := by
    unfold Region.size usizeSub
    split
    · exact (Nat.add_sub_of_le (by assumption)).symm
    · trivial
  apply aligned.bind
  intro start first
  apply sized.bind
  intro size last
  split
  case isFalse => trivial
  rename_i whole
  have inside : ∀ frame, start ≤ frame → frame < start + size / PAGE_SIZE → r.Holds (frame * PAGE_SIZE) := by
    intro frame after before
    simp only [Region.Holds, PAGE_SIZE] at *
    omega
  dsimp only
  split
  · apply Ensures.mapError _ fun _ _ => trivial
    · exact fun _ => True
    unfold AddressRange.shrinkLeft usizeSub
    split
    · rename_i fits
      refine Ensures.bind (ensures_ok.mpr rfl) ?_
      rintro _ rfl
      refine ((usizeAdd_ensures _ _).mono (fun _ _ => id) fun _ _ => trivial).bind ?_
      rintro _ rfl frame member
      rw [AddressRange.mem_iff] at member
      simp only [AddressRange.fromStartSize] at member fits
      exact inside frame (by omega) (by omega)
    · trivial
  · intro frame member
    exact inside frame member.1 member.2

theorem mergeRanges_subset (sorted : SortedByStart ranges) {merged : List PageFrameRange}
    (done : mergeRanges ranges = .ok merged) (covered : Covered merged frame) : Covered ranges frame := by
  cases ranges with
  | nil =>
    cases done
    exact covered
  | cons prev rest =>
    rw [mergeRanges_cons] at done
    cases rest with
    | nil =>
      cases done
      exact covered
    | cons cur rest =>
      rw [mergeInto_eq_combine sorted (fits_of_mergeInto sorted done)] at done
      cases done
      exact combine_subset sorted covered

theorem allocatableRanges_usable (done : allocatableRanges sort memoryMap tracking = .ok ranges)
    (covered : Covered ranges frame) : UsableFrame memoryMap frame := by
  obtain ⟨found, collected, merged⟩ := bind_eq_ok.mp done
  obtain ⟨range, member, inside⟩ := mergeRanges_subset (sort.sorted found) (mapError_eq_ok.mp merged) covered
  obtain ⟨r, listed, same⟩ := mem_of_mapM_ok collected ((sort.perm found).mem_iff.mp member)
  obtain ⟨region, usable⟩ := List.mem_filter.mp listed
  exact ⟨r, region, usable, (rangeOf_ensures tracking r).of_ok same frame inside⟩

/-- An allocator that was built is one that was initialised, with memory of the map only. -/
theorem build_initialises {allocator : AllocatorInner}
    (built : build debug sizeOfRun access sort memoryMap reserved = .ok (.ok allocator)) :
    ∃ tracking ranges, allocatableRanges sort memoryMap tracking = .ok ranges ∧
      initialise debug sizeOfRun access tracking ranges = .ok (.ok allocator) := by
  obtain ⟨found, _, built⟩ := bind_eq_ok.mp built
  cases found with
  | error e => cases built
  | ok pair =>
    obtain ⟨scratch, tracking⟩ := pair
    obtain ⟨mapped, _, built⟩ := bind_eq_ok.mp built
    cases mapped with
    | error e => cases built
    | ok _ =>
      obtain ⟨length, _, built⟩ := bind_eq_ok.mp built
      obtain ⟨ranges, collected, built⟩ := bind_eq_ok.mp built
      obtain ⟨result, initialised, built⟩ := bind_eq_ok.mp built
      refine ⟨tracking, ranges, collected, ?_⟩
      cases result with
      | error e => cases built
      | ok allocator' =>
        obtain ⟨_, _, built⟩ := bind_eq_ok.mp built
        cases built
        exact mapError_eq_ok.mp initialised

end Building

section Ledgers

variable {memory : Nat → Prop} {tracking : List PageFrameRange} {out : Multiset PageFrameRange} {l : Ledger} {frame : Nat}

theorem Ledger.Sound.once (sound : Ledger.Sound memory tracking out l) : out.countP (fun r => frame ∈ r) ≤ 1 := by
  have counted := sound.sorted.countP_covers frame
  have fewer : (Ledger.rangesOf .allocated l).countP (fun r => decide (frame ∈ r)) ≤
      l.countP fun x => decide (Intervals.Covers RunState.start RunState.limit x frame) := by
    rw [Ledger.rangesOf, List.countP_map, List.countP_filter]
    apply List.countP_mono_left
    intro x _ both
    exact (Bool.and_eq_true_iff.mp both).1
  rw [← sound.allocated, Multiset.coe_countP]
  refine Nat.le_trans fewer ?_
  rw [counted]
  split
  · exact Nat.le_refl 1
  · exact Nat.zero_le 1

theorem Ledger.Sound.not_tracking (sound : Ledger.Sound memory tracking out l) {r r' : PageFrameRange} (member : r ∈ out)
    (member' : r' ∈ tracking) (inside : frame ∈ r) : frame ∉ r' := by
  intro inside'
  rw [← sound.tracked, Ledger.mem_rangesOf] at member'
  have same := sound.sorted.covers_unique (sound.mem_out.mp member) member' inside inside'
  cases same

end Ledgers

section Sharing

variable {P : Type} [DecidableEq P]

/-- The allocator behind its lock, with the processors and interrupt handlers that call it. -/
abbrev Shared (P : Type) := Machine P Unit AllocatorInner Call Reply Panic

/-- The allocations, of whatever processor, that have been returned and not yet given back. -/
def Shared.granted (s : Shared P) : Multiset PageFrameRange :=
  outstanding ((own () s.log).map Prod.fst) ((own () s.log).map Prod.snd)

variable {debug : Bool} {sizeOfRun : Nat} {access : MemoryAccess} {sort : UnstableSort} {memoryMap : List Region}
  {reserved : List PageFrameRange} {allocator : AllocatorInner} {s : Shared P} {enabled : P → Bool}
  {schedule : List (P × Act Unit Call)}

theorem Shared.represents (built : build debug sizeOfRun access sort memoryMap reserved = .ok (.ok allocator))
    (reached : run (Machine.step (AllocatorInner.call debug)) (Machine.start enabled fun _ => allocator) schedule =
      some s) :
    ∃ tracking ranges value, (∀ frame, Covered ranges frame → UsableFrame memoryMap frame) ∧
      Represents (trackingDescriptors sizeOfRun access tracking) (Handed tracking ranges) tracking s.granted value ∧
      ∀ current, s.value () = some current → current = value := by
  obtain ⟨tracking, ranges, collected, initialised⟩ := build_initialises built
  obtain ⟨value, history, current, _⟩ := (Machine.run_owned reached).2 ()
  exact ⟨tracking, ranges, value, fun frame => allocatableRanges_usable collected,
    (calls_ensures debug (initialise_represents initialised) _).of_ok history, current⟩

theorem Shared.granted_usable (built : build debug sizeOfRun access sort memoryMap reserved = .ok (.ok allocator))
    (reached : run (Machine.step (AllocatorInner.call debug)) (Machine.start enabled fun _ => allocator) schedule =
      some s) {r : PageFrameRange} (member : r ∈ s.granted) {frame : Nat} (inside : frame ∈ r) :
    UsableFrame memoryMap frame := by
  obtain ⟨tracking, ranges, value, usable, held, _⟩ := Shared.represents built reached
  obtain ⟨r', listed, inside'⟩ := held.sound.inside (held.sound.mem_out.mp member) inside
  rcases List.mem_cons.mp listed with rfl | listed
  · exact absurd inside' (held.sound.not_tracking member (List.mem_singleton_self _) inside)
  · exact usable frame ⟨r', listed, inside'⟩

/-- Whatever processors and interrupt handlers allocate and release through the lock, no frame is given out twice,
    and only usable memory is. -/
theorem shared_frames_given_once (built : build debug sizeOfRun access sort memoryMap reserved = .ok (.ok allocator))
    (reached : run (Machine.step (AllocatorInner.call debug)) (Machine.start enabled fun _ => allocator) schedule =
      some s) (frame : Nat) :
    s.granted.countP (fun r => frame ∈ r) ≤ 1 ∧ ∀ r ∈ s.granted, frame ∈ r → UsableFrame memoryMap frame := by
  obtain ⟨tracking, ranges, value, _, held, _⟩ := Shared.represents built reached
  exact ⟨held.sound.once, fun r member inside => Shared.granted_usable built reached member inside⟩

/-- Two processors allocate. The second one is in a handler, and spins while the first is at it. -/
def rivals : List (Bool × Act Unit Call) :=
  [(false, .call (.lock ())), (false, .advance), (false, .advance), (true, .interrupt), (true, .call (.lock ())),
    (true, .advance), (true, .advance), (false, .operate () (.allocate 2)), (false, .finish), (true, .advance),
    (false, .drop 0), (true, .advance), (true, .operate () (.allocate 3)), (false, .advance), (true, .finish)]

theorem rivals_run :
    ∃ allocator, build true 64 ⟨0⟩ insertionSort scatteredMap [⟨0, 2⟩] = .ok (.ok allocator) ∧ ∃ s : Shared Bool,
      run (Machine.step (AllocatorInner.call true)) (Machine.start (fun _ => true) fun _ => allocator) rivals = some s ∧
        s.log = [((), .allocate 2, .range ⟨14, 2⟩), ((), .allocate 3, .range ⟨18, 3⟩)] ∧ (s.value ()).isSome := by
  have ran : (((build true 64 ⟨0⟩ insertionSort scatteredMap [⟨0, 2⟩]).toOption.bind Except.toOption).bind
      fun allocator => (run (Machine.step (AllocatorInner.call true)) (Machine.start (fun _ => true) fun _ => allocator)
        rivals).map fun s : Shared Bool => (s.log, (s.value ()).isSome)) =
      some ([((), .allocate 2, .range ⟨14, 2⟩), ((), .allocate 3, .range ⟨18, 3⟩)], true) := by decide +kernel
  obtain ⟨allocator, built, ran⟩ := Option.bind_eq_some_iff.mp ran
  obtain ⟨result, returned, built⟩ := Option.bind_eq_some_iff.mp built
  obtain ⟨s, reached, seen⟩ := Option.map_eq_some_iff.mp ran
  obtain ⟨log, there⟩ := Prod.mk.inj seen
  refine ⟨allocator, ?_, s, reached, log, there⟩
  rw [toOption_eq_some.mp returned, toOption_eq_some.mp built]

theorem shared_frames_given_once_rivals :
    ∃ allocator, build true 64 ⟨0⟩ insertionSort scatteredMap [⟨0, 2⟩] = .ok (.ok allocator) ∧ ∃ s : Shared Bool,
      run (Machine.step (AllocatorInner.call true)) (Machine.start (fun _ => true) fun _ => allocator) rivals = some s ∧
        s.granted = {⟨14, 2⟩, ⟨18, 3⟩} ∧ ∀ frame, s.granted.countP (fun r => frame ∈ r) ≤ 1 := by
  obtain ⟨allocator, built, s, reached, log, _⟩ := rivals_run
  refine ⟨allocator, built, s, reached, ?_, fun frame => (shared_frames_given_once built reached frame).1⟩
  rw [Shared.granted, log]
  decide

theorem descriptor_within {tracking : PageFrameRange} {run frame : Nat}
    (member : run ∈ trackingDescriptors sizeOfRun access tracking) (outside : frame ∉ tracking) :
    run + sizeOfRun ≤ access.base + frame * PAGE_SIZE ∨ access.base + (frame + 1) * PAGE_SIZE ≤ run := by
  obtain ⟨i, listed, rfl⟩ : ∃ i : Nat, i < tracking.size * PAGE_SIZE / sizeOfRun ∧
      access.base + tracking.start * PAGE_SIZE + i * sizeOfRun = run := by
    simpa only [trackingDescriptors, descriptors, List.mem_map, List.mem_range] using member
  have fits : (i + 1) * sizeOfRun ≤ tracking.size * PAGE_SIZE :=
    Nat.le_trans (Nat.mul_le_mul_right _ listed) (Nat.div_mul_le_self _ _)
  rw [AddressRange.mem_iff, not_and_or] at outside
  rw [Nat.add_mul, Nat.one_mul] at fits
  simp only [PAGE_SIZE] at *
  omega

/-- The descriptors that the lists are made of stay clear of all memory that is given out. -/
theorem shared_descriptors_not_given (built : build debug sizeOfRun access sort memoryMap reserved = .ok (.ok allocator))
    (reached : run (Machine.step (AllocatorInner.call debug)) (Machine.start enabled fun _ => allocator) schedule =
      some s) {value : AllocatorInner} (there : s.value () = some value) :
    ∀ run ∈ value.runs ++ value.tracking.unusedRuns, ∀ r ∈ s.granted, ∀ frame ∈ r,
      run + sizeOfRun ≤ access.base + frame * PAGE_SIZE ∨ access.base + (frame + 1) * PAGE_SIZE ≤ run := by
  obtain ⟨tracking, ranges, value', _, held, current⟩ := Shared.represents built reached
  obtain rfl := current value there
  intro run listed r member frame inside
  apply descriptor_within (held.perm.mem_iff.mp listed)
  exact held.sound.not_tracking member (List.mem_singleton_self _) inside

theorem shared_descriptors_not_given_rivals :
    ∃ (s : Shared Bool) (value : AllocatorInner), s.value () = some value ∧ s.granted = {⟨14, 2⟩, ⟨18, 3⟩} ∧
      ∀ run ∈ value.runs ++ value.tracking.unusedRuns, run + 64 ≤ 18 * PAGE_SIZE ∨ 19 * PAGE_SIZE ≤ run := by
  obtain ⟨allocator, built, s, reached, log, there⟩ := rivals_run
  obtain ⟨value, same⟩ := Option.isSome_iff_exists.mp there
  have granted : s.granted = {⟨14, 2⟩, ⟨18, 3⟩} := by
    rw [Shared.granted, log]
    decide
  refine ⟨s, value, same, granted, ?_⟩
  intro run listed
  have clear := shared_descriptors_not_given built reached same run listed ⟨18, 3⟩ (by rw [granted]; decide) 18
    (by decide)
  rwa [Nat.zero_add, Nat.zero_add] at clear

end Sharing

end Platypos.Memory
