import Platypos.Memory.Merge

namespace Platypos.Memory

open Outcome Scan

/-- A memory map as firmware should report it. Its usable regions are non-empty, consist of whole pages and
    share no address; they may touch, and the regions may come in any order. -/
structure Layout (memoryMap : List Region) : Prop where
  aligned : ∀ r ∈ memoryMap, r.usable = true → r.Aligned
  nonempty : ∀ r ∈ memoryMap, r.usable = true → r.start < r.limit
  disjoint : (memoryMap.filter Region.usable).Pairwise fun r r' => ∀ address, r.Holds address → ¬ r'.Holds address

def framesOf (r : Region) : PageFrameRange := ⟨r.start / PAGE_SIZE, (r.limit - r.start) / PAGE_SIZE⟩

def UsableFrame (memoryMap : List Region) (frame : Nat) : Prop :=
  ∃ r ∈ memoryMap, r.usable = true ∧ r.Holds (frame * PAGE_SIZE)

theorem mem_framesOf {r : Region} (aligned : r.Aligned) {frame : Nat} :
    frame ∈ framesOf r ↔ r.Holds (frame * PAGE_SIZE) := by
  obtain ⟨ordered, start, limit, _⟩ := aligned
  rw [AddressRange.mem_iff]
  simp only [framesOf, Region.Holds, PAGE_SIZE] at start limit ⊢
  omega

/-- The pages of a range that the tracking pages leave. -/
def carve (tracking range : PageFrameRange) : PageFrameRange :=
  if range.start = tracking.start then ⟨range.start + MIN_TRACKING_PAGES, range.size - MIN_TRACKING_PAGES⟩ else range

theorem rangeOf_eq {tracking : PageFrameRange} {r : Region} (aligned : r.Aligned)
    (large : (framesOf r).start = tracking.start → MIN_TRACKING_PAGES ≤ (framesOf r).size) :
    rangeOf tracking r = .ok (carve tracking (framesOf r)) := by
  have whole : (r.limit - r.start) % PAGE_SIZE = 0 := by
    obtain ⟨ordered, start, limit, _⟩ := aligned
    simp only [PAGE_SIZE] at start limit ⊢
    omega
  unfold rangeOf carve
  rw [aligned.fromStart_eq, aligned.size_eq]
  simp only [mapError_ok, Bind.bind, Except.bind, if_pos whole]
  by_cases same : (framesOf r).start = tracking.start
  · have inSpace := aligned.inSpace
    have size := large same
    have start : (framesOf r).start + MIN_TRACKING_PAGES < 2^64 := by
      simp only [framesOf, MIN_TRACKING_PAGES, PAGE_SIZE] at size ⊢
      omega
    have shrunk : (framesOf r).shrinkLeft MIN_TRACKING_PAGES =
        .ok ⟨(framesOf r).start + MIN_TRACKING_PAGES, (framesOf r).size - MIN_TRACKING_PAGES⟩ := by
      unfold AddressRange.shrinkLeft
      rw [usizeSub_fits size, usizeAdd_fits start]
      rfl
    rw [if_pos same]
    refine (if_pos same).trans ?_
    exact congrArg (Except.mapError BuildPanic.memory) shrunk
  · rw [if_neg same]
    exact if_neg same

section Carving

variable {memoryMap : List Region} {chosen : Region} (layout : Layout memoryMap) (member : chosen ∈ memoryMap)
  (large : Large chosen)

include layout in
theorem Layout.unique {r r' : Region} (member : r ∈ memoryMap) (usable : r.usable = true) (member' : r' ∈ memoryMap)
    (usable' : r'.usable = true) {address : Nat} (holds : r.Holds address) (holds' : r'.Holds address) : r = r' := by
  by_contra differ
  have symmetric : Std.Symm fun r r' : Region => ∀ address, r.Holds address → ¬ r'.Holds address :=
    ⟨fun _ _ apart address holds holds' => apart address holds' holds⟩
  exact layout.disjoint.forall (List.mem_filter.mpr ⟨member, usable⟩) (List.mem_filter.mpr ⟨member', usable'⟩)
    differ address holds holds'

include layout in
theorem Layout.frames_nonempty {r : Region} (member : r ∈ memoryMap) (usable : r.usable = true) :
    0 < (framesOf r).size := by
  have positive := layout.nonempty r member usable
  obtain ⟨ordered, start, limit, _⟩ := layout.aligned r member usable
  simp only [framesOf, PAGE_SIZE] at start limit ⊢
  omega

include layout in
theorem Layout.ranges_fit {ranges : List PageFrameRange} (nonempty : ∀ r ∈ ranges, 0 < r.size)
    (usable : ∀ frame, Covered ranges frame → UsableFrame memoryMap frame) : ∀ r ∈ ranges, r.limit < 2^64 := by
  intro r listed
  have last := AddressRange.last_mem (Nat.ne_of_gt (nonempty r listed))
  obtain ⟨region, member, usable, holds⟩ := usable _ ⟨r, listed, last⟩
  have inSpace := (layout.aligned region member usable).inSpace
  have bound := holds.2
  simp only [PAGE_SIZE] at bound
  omega

include large in
theorem Large.frames : MIN_TRACKING_PAGES + SCRATCH_PAGES ≤ (framesOf chosen).size := by
  have bytes := large.2
  simp only [framesOf, MIN_TRACKING_PAGES, SCRATCH_PAGES, PAGE_SIZE] at bytes ⊢
  omega

include layout member large

-- Only the region that the tracking pages were found in starts where they do.
theorem Layout.eq_chosen {r : Region} (member' : r ∈ memoryMap) (usable : r.usable = true)
    (same : (framesOf r).start = (trackingOf chosen).start) : r = chosen := by
  have start := (layout.aligned r member' usable).start
  have start' := (layout.aligned chosen member large.1).start
  have address : r.start = chosen.start := by
    simp only [framesOf, trackingOf, PAGE_SIZE] at same start start'
    omega
  exact layout.unique member' usable member large.1 ⟨le_rfl, layout.nonempty r member' usable⟩
    ⟨le_of_eq address.symm, address ▸ layout.nonempty chosen member large.1⟩

theorem Layout.carve_size {r : Region} (member' : r ∈ memoryMap) (usable : r.usable = true) :
    0 < (carve (trackingOf chosen) (framesOf r)).size := by
  unfold carve
  split
  · rename_i same
    have frames := large.frames
    rw [layout.eq_chosen member large member' usable same]
    simp only [MIN_TRACKING_PAGES, SCRATCH_PAGES] at frames ⊢
    omega
  · exact layout.frames_nonempty member' usable

theorem Layout.mem_carve {r : Region} (member' : r ∈ memoryMap) (usable : r.usable = true) {frame : Nat} :
    frame ∈ carve (trackingOf chosen) (framesOf r) ↔ frame ∈ framesOf r ∧ frame ∉ trackingOf chosen := by
  have frames := large.frames
  unfold carve
  split
  · rename_i same
    rw [layout.eq_chosen member large member' usable same]
    simp only [AddressRange.mem_iff, trackingOf, framesOf, MIN_TRACKING_PAGES, SCRATCH_PAGES] at frames ⊢
    omega
  · rename_i differ
    refine ⟨fun inside => ⟨inside, fun tracked => ?_⟩, And.left⟩
    have held : frame ∈ framesOf chosen := by
      rw [AddressRange.mem_iff] at tracked ⊢
      simp only [trackingOf, framesOf, MIN_TRACKING_PAGES, SCRATCH_PAGES] at frames tracked ⊢
      omega
    rw [mem_framesOf (layout.aligned _ member' usable)] at inside
    rw [mem_framesOf (layout.aligned _ member large.1)] at held
    have one := layout.unique member' usable member large.1 inside held
    subst one
    exact differ rfl

theorem collectRanges_eq : collectRanges memoryMap (trackingOf chosen) =
    .ok ((memoryMap.filter Region.usable).map fun r => carve (trackingOf chosen) (framesOf r)) := by
  apply mapM_ok
  intro r listed
  obtain ⟨member', usable⟩ := List.mem_filter.mp listed
  apply rangeOf_eq (layout.aligned r member' usable)
  intro same
  have frames := large.frames
  rw [layout.eq_chosen member large member' usable same]
  simp only [MIN_TRACKING_PAGES, SCRATCH_PAGES] at frames ⊢
  omega

theorem carved_disjoint : ((memoryMap.filter Region.usable).map fun r =>
    carve (trackingOf chosen) (framesOf r)).Pairwise AddressRange.Disjoint := by
  rw [List.pairwise_map]
  apply layout.disjoint.imp_of_mem
  intro r r' listed listed' apart frame inside inside'
  obtain ⟨member', usable⟩ := List.mem_filter.mp listed
  obtain ⟨member'', usable'⟩ := List.mem_filter.mp listed'
  rw [layout.mem_carve member large member' usable, mem_framesOf (layout.aligned r member' usable)] at inside
  rw [layout.mem_carve member large member'' usable', mem_framesOf (layout.aligned r' member'' usable')] at inside'
  exact apart _ inside.1 inside'.1

theorem carved_covered (frame : Nat) : Covered ((memoryMap.filter Region.usable).map fun r =>
    carve (trackingOf chosen) (framesOf r)) frame ↔ UsableFrame memoryMap frame ∧ frame ∉ trackingOf chosen := by
  simp only [Covered, List.mem_map, List.mem_filter, exists_exists_and_eq_and]
  constructor
  · intro found
    obtain ⟨r, ⟨member', usable⟩, inside⟩ := found
    rw [layout.mem_carve member large member' usable, mem_framesOf (layout.aligned r member' usable)] at inside
    exact ⟨⟨r, member', usable, inside.1⟩, inside.2⟩
  · intro remaining
    obtain ⟨⟨r, member', usable, holds⟩, untracked⟩ := remaining
    refine ⟨r, ⟨member', usable⟩, ?_⟩
    rw [layout.mem_carve member large member' usable, mem_framesOf (layout.aligned r member' usable)]
    exact ⟨holds, untracked⟩

end Carving

/-- Ranges in order that share no frame end before the next one starts. -/
theorem ordered_of_disjoint {ranges : List PageFrameRange} (sorted : SortedByStart ranges)
    (disjoint : ranges.Pairwise AddressRange.Disjoint) (nonempty : ∀ r ∈ ranges, 0 < r.size) :
    ranges.Pairwise fun r r' => r.limit ≤ r'.start := by
  apply (sorted.and disjoint).imp_of_mem
  intro r r' _ member' both
  obtain ⟨order, apart⟩ := both
  by_contra overlap
  have positive := nonempty r' member'
  apply apart r'.start
  · exact ⟨order, not_le.mp overlap⟩
  · rw [AddressRange.mem_iff]
    omega

theorem widening_of_ordered {ranges : List PageFrameRange}
    (ordered : ranges.Pairwise fun r r' => r.limit ≤ r'.start) : Widening ranges := by
  intro front r back split _ earlier member
  rw [split, List.pairwise_append] at ordered
  exact le_trans (ordered.2.2 earlier member r (by simp)) (Nat.le_add_right _ _)

theorem combine_nonempty {prev : PageFrameRange} {rest : List PageFrameRange} (sorted : SortedByStart (prev :: rest))
    (nonempty : ∀ r ∈ prev :: rest, 0 < r.size) : ∀ r ∈ combine prev rest, 0 < r.size := by
  induction rest generalizing prev with
  | nil => simpa [combine] using nonempty
  | cons cur rest ih =>
    have order : prev.start ≤ cur.start := (List.pairwise_cons.mp sorted).1 cur (by simp)
    simp only [List.forall_mem_cons] at nonempty
    rw [combine]
    split
    · apply ih (sorted_joined sorted)
      rw [List.forall_mem_cons]
      refine ⟨?_, nonempty.2.2⟩
      simp only [AddressRange.limit]
      omega
    · rw [List.forall_mem_cons]
      exact ⟨nonempty.1, ih (List.pairwise_cons.mp sorted).2 (List.forall_mem_cons.mpr nonempty.2)⟩

theorem mergeRanges_nonempty {ranges merged : List PageFrameRange} (sorted : SortedByStart ranges)
    (fits : ∀ r ∈ ranges, r.limit < 2^64) (nonempty : ∀ r ∈ ranges, 0 < r.size)
    (done : mergeRanges ranges = .ok merged) : ∀ r ∈ merged, 0 < r.size := by
  cases ranges with
  | nil =>
    have none := Except.ok.inj done
    subst none
    simp
  | cons prev rest =>
    rw [mergeRanges_cons, mergeInto_eq_combine sorted fits] at done
    have same := Except.ok.inj done
    subst same
    exact combine_nonempty sorted nonempty

/-- What the allocator is given: separate non-empty ranges over the usable frames without the tracking pages. -/
structure Allocatable (memoryMap : List Region) (chosen : Region) (ranges : List PageFrameRange) : Prop where
  separated : ranges.Pairwise fun r r' => r.limit < r'.start
  nonempty : ∀ r ∈ ranges, 0 < r.size
  covered : ∀ frame, Covered ranges frame ↔ UsableFrame memoryMap frame ∧ frame ∉ trackingOf chosen

theorem allocatableRanges_spec (sort : UnstableSort) {memoryMap : List Region} {chosen : Region}
    (layout : Layout memoryMap) (member : chosen ∈ memoryMap) (large : Large chosen) :
    ∃ ranges, allocatableRanges sort memoryMap (trackingOf chosen) = .ok ranges ∧
      Allocatable memoryMap chosen ranges := by
  let carved := (memoryMap.filter Region.usable).map fun r => carve (trackingOf chosen) (framesOf r)
  have perm := sort.perm carved
  have sorted := sort.sorted carved
  have nonempty : ∀ r ∈ sort.sortByStart carved, 0 < r.size := by
    intro r listed
    obtain ⟨region, source, rfl⟩ := List.mem_map.mp (perm.mem_iff.mp listed)
    obtain ⟨member', usable⟩ := List.mem_filter.mp source
    exact layout.carve_size member large member' usable
  have covered : ∀ frame, Covered (sort.sortByStart carved) frame ↔
      UsableFrame memoryMap frame ∧ frame ∉ trackingOf chosen := by
    intro frame
    rw [← carved_covered layout member large frame]
    simp only [Covered, perm.mem_iff, carved]
  have fits := layout.ranges_fit nonempty fun frame inside => ((covered frame).mp inside).1
  have disjoint : (sort.sortByStart carved).Pairwise AddressRange.Disjoint := by
    refine (perm.pairwise_iff ?_).mpr (carved_disjoint layout member large)
    intro r r' apart frame inside inside'
    exact apart frame inside' inside
  have widening := widening_of_ordered (ordered_of_disjoint sorted disjoint nonempty)
  obtain ⟨merged, done, preserved⟩ := mergeRanges_merged sorted (fun _ => fits) widening
  refine ⟨merged, ?_, preserved.separated, mergeRanges_nonempty sorted fits nonempty done,
    fun frame => (preserved.covered frame).trans (covered frame)⟩
  unfold allocatableRanges
  rw [collectRanges_eq layout member large]
  exact congrArg (Except.mapError BuildPanic.memory) done

end Platypos.Memory
