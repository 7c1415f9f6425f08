import Platypos.Memory.FreeBlocks
import Platypos.Memory.Layout

namespace Platypos.Memory

open Outcome Scan Intervals

theorem displayFree_ok {arena : Arena} {runs : List RunId} (roomy : Roomy arena runs) {run : Option RunId}
    (listed : ∀ r ∈ run, r ∈ runs) : displayFree arena run = .ok () := by
  cases run with
  | none => rfl
  | some r =>
    rw [displayFree, AddressRange.endOf_fits (roomy r (listed r rfl))]
    rfl

theorem displayState_ok (debug : Bool) {s : AllocatorInner} (linked : Linked s.arena s.runs s.tracking)
    (roomy : Roomy s.arena s.runs) : displayState debug s = .ok () := by
  apply forM_ok
  intro run member
  unfold displayRun
  rw [AddressRange.endOf_fits (roomy run member)]
  simp only [Bind.bind, Except.bind]
  split
  · rename_i free
    have inFree : run ∈ s.tracking.free := (linked.mem_free run).mpr ⟨member, free⟩
    obtain ⟨before, after, split, fresh⟩ := List.eq_append_cons_of_mem inFree
    have listed : ∀ r ∈ before ++ run :: after, r ∈ s.runs := by
      rw [← split]
      exact fun r inList => ((linked.mem_free r).mp inList).1
    have position : Cursor.cursorMutFromPtr s.tracking.free run = ⟨before, run :: after⟩ := by
      rw [split, Cursor.cursorMutFromPtr_split fresh]
    have previous : displayFree s.arena (Cursor.peekPrev ⟨before, run :: after⟩) = .ok () := by
      apply displayFree_ok roomy
      intro r last
      exact listed r (List.mem_append_left _ (List.mem_of_getLast? last))
    have next : displayFree s.arena (Cursor.peekNext ⟨before, run :: after⟩) = .ok () := by
      apply displayFree_ok roomy
      intro r first
      exact listed r (List.mem_append_right _ (List.mem_cons_of_mem _ (List.mem_of_mem_head? first)))
    simp only [debugAssert, check, inFree, implies_true, ite_true, position, previous, next]
  · rfl

/-- The usable frames that do not hold the tracking structures. -/
def Remaining (memoryMap : List Region) (chosen : Region) (frame : Nat) : Prop :=
  UsableFrame memoryMap frame ∧ frame ∉ trackingOf chosen

section Building

variable {memoryMap : List Region} {chosen : Region} {ranges : List PageFrameRange} (layout : Layout memoryMap)
  (allocatable : Allocatable memoryMap chosen ranges)

include allocatable

theorem Allocatable.spread : Spread (trackingOf chosen) ranges := by
  have disjoint : ranges.Pairwise AddressRange.Disjoint := by
    apply allocatable.separated.imp
    intro r r' gap frame inside inside'
    obtain ⟨_, stop⟩ := inside
    obtain ⟨start, _⟩ := inside'
    omega
  refine ⟨List.pairwise_cons.mpr ⟨?_, disjoint⟩, ?_⟩
  · intro r listed frame tracked inside
    exact ((allocatable.covered frame).mp ⟨r, listed, inside⟩).2 tracked
  · intro r listed empty
    exact absurd empty (Nat.ne_of_gt (allocatable.nonempty r listed))

theorem Allocatable.remaining (frame : Nat) :
    FreeFrame (Handed (trackingOf chosen) ranges) (trackingOf chosen) 0 frame ↔ Remaining memoryMap chosen frame := by
  rw [Remaining, ← allocatable.covered frame]
  simp only [FreeFrame, Handed, Covered, List.mem_cons, exists_eq_or_imp, Multiset.notMem_zero, false_implies,
    implies_true, and_true]
  constructor
  · intro handed
    exact handed.1.resolve_left handed.2
  · intro covered
    exact ⟨.inr covered, ((allocatable.covered frame).mp covered).2⟩

include layout

theorem Allocatable.fits : ∀ r ∈ ranges, r.limit < 2^64 :=
  layout.ranges_fit allocatable.nonempty fun frame inside => ((allocatable.covered frame).mp inside).1

end Building

/-- Bootstrapping hands every usable frame to the allocator. The tracking pages are the start of the first
    region that the search accepts, and the free runs are the maximal blocks of what remains. -/
theorem build_accounts_for_memory (debug : Bool) (sizeOfRun : Nat) (access : MemoryAccess) (sort : UnstableSort)
    {memoryMap : List Region} {reserved : List PageFrameRange} {chosen : Region} (layout : Layout memoryMap)
    (addressable : ∀ p ∈ reserved, Addressable p) (first : First (Qualifies reserved) memoryMap chosen)
    (mapped : (scratchOf chosen).start * PAGE_SIZE < 2^63)
    (room : ∀ ranges, allocatableRanges sort memoryMap (trackingOf chosen) = .ok ranges →
      ranges.length < (trackingOf chosen).size * PAGE_SIZE / sizeOfRun) :
    ∃ s, build debug sizeOfRun access sort memoryMap reserved = .ok (.ok s) ∧
      Ledger.rangesOf .tracking s.ledger = [trackingOf chosen] ∧
      (Ledger.rangesOf .free s.ledger).Pairwise (fun r r' => r.limit < r'.start) ∧
      (∀ r, r ∈ Ledger.rangesOf .free s.ledger ↔ Block (Remaining memoryMap chosen) r.start r.limit) ∧
      ∀ x ∈ s.ledger, x.status = .free ∨ x.status = .tracking := by
  obtain ⟨ranges, collected, allocatable⟩ := allocatableRanges_spec sort layout first.mem first.holds.1
  have tracking : (trackingOf chosen).start * PAGE_SIZE < 2^63 ∧ (trackingOf chosen).size * PAGE_SIZE < 2^63 := by
    simp only [scratchOf, trackingOf, SCRATCH_PAGES, PAGE_SIZE] at mapped ⊢
    omega
  obtain ⟨s, built⟩ := initialise_completes debug access tracking.1 tracking.2 (room ranges collected)
    allocatable.spread (allocatable.fits layout)
  have prepared := initialise_prepared built
  have shown : displayState debug s = .ok () := by
    apply displayState_ok debug prepared.represents.linked
    apply prepared.roomy
    rw [List.forall_mem_cons]
    refine ⟨?_, allocatable.fits layout⟩
    simp only [trackingOf, AddressRange.limit, SCRATCH_PAGES, PAGE_SIZE] at tracking ⊢
    omega
  have done : build debug sizeOfRun access sort memoryMap reserved = .ok (.ok s) := by
    have length : (scratchOf chosen).size * PAGE_SIZE < 2^64 := by
      change MIN_TRACKING_PAGES * PAGE_SIZE < 2^64
      decide
    unfold build MemoryAccess.withMemory MemoryAccess.mapPermanent AddressRange.startAddress setup
    rw [findScratch_first layout.aligned addressable first]
    simp only [Bind.bind, Except.bind, usizeMul_fits (lt_trans mapped (by decide)), if_pos mapped, Pure.pure,
      Except.pure, mapError_ok, usizeMul_fits length, collected, built, shown]
  have canonical := initialise_canonical allocatable.nonempty built
  have sound := canonical.sound
  refine ⟨s, done, sound.tracked, sound.free_separated canonical.tight, ?_, ?_⟩
  · intro r
    have same : FreeFrame (Handed (trackingOf chosen) ranges) (trackingOf chosen) 0 =
        Remaining memoryMap chosen := by
      funext frame
      exact propext (allocatable.remaining frame)
    rw [← same]
    exact sound.free_iff_block canonical.tight r
  · intro x member
    rcases sound.status member with free | tracked | ⟨_, impossible⟩
    · exact .inl free
    · exact .inr tracked.1
    · simp at impossible

def scatteredMap : List Region :=
  [⟨.usable, 0x16000, 0x18000⟩, ⟨.reserved, 5, 3⟩, ⟨.usable, 0x10000, 0x16000⟩, ⟨.usable, 0xe000, 0x10000⟩]

theorem scatteredMap_layout : Layout scatteredMap := by
  refine ⟨?_, ?_, ?_⟩
  · intro r member usable
    simp only [scatteredMap, List.mem_cons, List.not_mem_nil, or_false] at member
    rcases member with rfl | rfl | rfl | rfl
    · exact ⟨by decide, by decide, by decide, by decide⟩
    · cases usable
    · exact ⟨by decide, by decide, by decide, by decide⟩
    · exact ⟨by decide, by decide, by decide, by decide⟩
  · decide
  · have usable : scatteredMap.filter Region.usable =
        [⟨.usable, 0x16000, 0x18000⟩, ⟨.usable, 0x10000, 0x16000⟩, ⟨.usable, 0xe000, 0x10000⟩] := rfl
    rw [usable]
    simp only [List.pairwise_cons, List.mem_cons, List.not_mem_nil, or_false, forall_eq_or_imp, forall_eq,
      Region.Holds]
    refine ⟨⟨?_, ?_⟩, ?_, by simp⟩ <;> intro address <;> omega

theorem scatteredMap_frames (frame : Nat) : UsableFrame scatteredMap frame ↔ 14 ≤ frame ∧ frame < 24 := by
  simp only [UsableFrame, scatteredMap, Region.usable, Region.Holds, PAGE_SIZE, List.mem_cons, List.not_mem_nil,
    or_false, exists_eq_or_imp, exists_eq_left, decide_true, true_and, reduceCtorEq, decide_false, Bool.false_eq_true,
    false_and, false_or]
  omega

theorem build_accounts_for_scattered_map :
    ∃ s, build true 64 ⟨0⟩ insertionSort scatteredMap [⟨0, 2⟩] = .ok (.ok s) ∧
      Ledger.rangesOf .tracking s.ledger = [⟨16, 2⟩] ∧ ⟨18, 6⟩ ∈ Ledger.rangesOf .free s.ledger := by
  have small : ¬ Qualifies [⟨0, 2⟩] ⟨.usable, 0x16000, 0x18000⟩ := by decide
  have unusable : ¬ Qualifies [⟨0, 2⟩] ⟨.reserved, 5, 3⟩ := by decide
  have qualifies : Qualifies [⟨0, 2⟩] ⟨.usable, 0x10000, 0x16000⟩ := by decide
  have first : First (Qualifies [⟨0, 2⟩]) scatteredMap ⟨.usable, 0x10000, 0x16000⟩ := by
    rw [scatteredMap, first_cons_of_not small, first_cons_of_not unusable]
    exact first_cons_self qualifies
  have collected : allocatableRanges insertionSort scatteredMap ⟨16, 2⟩ = .ok [⟨14, 2⟩, ⟨18, 6⟩] := rfl
  obtain ⟨s, built, tracking, _, free, _⟩ := build_accounts_for_memory true 64 ⟨0⟩ insertionSort
    scatteredMap_layout (by simp [Addressable, AddressRange.limit, PAGE_SIZE]) first (by decide) (by
      intro ranges done
      have same : ranges = [⟨14, 2⟩, ⟨18, 6⟩] := Except.ok.inj (done.symm.trans collected)
      rw [same]
      decide)
  refine ⟨s, built, tracking, (free ⟨18, 6⟩).mpr ⟨by decide, ?_, ?_, ?_⟩⟩
  · intro n after before
    rw [Remaining, scatteredMap_frames, AddressRange.mem_iff]
    simp only [trackingOf, AddressRange.limit, SCRATCH_PAGES, PAGE_SIZE] at after before ⊢
    omega
  · rw [Remaining, scatteredMap_frames]
    simp [AddressRange.limit]
  · intro n before
    rw [Remaining, scatteredMap_frames, AddressRange.mem_iff]
    simp only [trackingOf, SCRATCH_PAGES, PAGE_SIZE] at before ⊢
    omega

/-- Scratch pages in the upper half of the address space are refused by `map_permanent`. -/
theorem build_unmapped (debug : Bool) (sizeOfRun : Nat) (access : MemoryAccess) (sort : UnstableSort)
    {memoryMap : List Region} {reserved : List PageFrameRange} {chosen : Region}
    (aligned : ∀ r ∈ memoryMap, r.usable = true → r.Aligned) (addressable : ∀ p ∈ reserved, Addressable p)
    (first : First (Qualifies reserved) memoryMap chosen) (high : 2^63 ≤ (scratchOf chosen).start * PAGE_SIZE) :
    build debug sizeOfRun access sort memoryMap reserved = .ok (.error .addressOutOfBounds) := by
  have large := first.holds.1
  have inSpace := (aligned chosen first.mem large.1).inSpace
  have fits : (scratchOf chosen).start * PAGE_SIZE < 2^64 := by
    have bytes := large.2
    simp only [scratchOf, MIN_TRACKING_PAGES, SCRATCH_PAGES, PAGE_SIZE] at bytes ⊢
    omega
  unfold build MemoryAccess.withMemory MemoryAccess.mapPermanent AddressRange.startAddress
  rw [findScratch_first aligned addressable first]
  simp only [Bind.bind, Except.bind, usizeMul_fits fits, if_neg (not_lt.mpr high), Pure.pure, Except.pure,
    mapError_ok]

/-- A well-formed map may still ask for scratch pages that cannot be mapped, or list a reserved range that
    overflows in `address_range`. -/
theorem build_stops_at_address_bounds :
    (Layout [⟨.usable, 0x8000000000000000, 0x8000000000004000⟩] ∧
      Qualifies [] ⟨.usable, 0x8000000000000000, 0x8000000000004000⟩ ∧
      build true 64 ⟨0⟩ insertionSort [⟨.usable, 0x8000000000000000, 0x8000000000004000⟩] [] =
        .ok (.error .addressOutOfBounds)) ∧
    Layout [⟨.usable, 0x1000, 0x6000⟩] ∧ Qualifies [⟨0x10000000000000, 1⟩] ⟨.usable, 0x1000, 0x6000⟩ ∧
      build true 64 ⟨0⟩ insertionSort [⟨.usable, 0x1000, 0x6000⟩] [⟨0x10000000000000, 1⟩] =
        .error (.memory .overflow) := by
  have single : ∀ r : Region, r.Aligned → r.start < r.limit → Layout [r] := by
    intro r aligned nonempty
    refine ⟨?_, ?_, ?_⟩
    · intro r' member _
      rw [List.mem_singleton] at member
      exact member ▸ aligned
    · intro r' member _
      rw [List.mem_singleton] at member
      exact member ▸ nonempty
    · exact (List.pairwise_singleton _ r).filter _
  have high : Layout [⟨.usable, 0x8000000000000000, 0x8000000000004000⟩] :=
    single _ ⟨by decide, by decide, by decide, by decide⟩ (by decide)
  have qualifies : Qualifies [] ⟨.usable, 0x8000000000000000, 0x8000000000004000⟩ := by decide
  have refused := build_unmapped true 64 ⟨0⟩ insertionSort high.aligned (by simp) (first_cons_self qualifies)
    (by decide)
  exact ⟨⟨high, qualifies, refused⟩, single _ ⟨by decide, by decide, by decide, by decide⟩ (by decide), by decide, rfl⟩

end Platypos.Memory
