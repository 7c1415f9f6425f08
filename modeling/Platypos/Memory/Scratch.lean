import Platypos.Library.Scan
import Platypos.Memory.Bootstrap
import Platypos.Memory.Headroom

namespace Platypos.Memory

open Outcome Scan

@[simp] theorem mapError_ok {α : Type} (a : α) (f : Panic → BuildPanic) :
    (Except.ok a : Except Panic α).mapError f = .ok a := rfl

/-- A region of whole pages. Addresses are machine words. -/
structure Region.Aligned (r : Region) : Prop where
  ordered : r.start ≤ r.limit
  start : r.start % PAGE_SIZE = 0
  limit : r.limit % PAGE_SIZE = 0
  inSpace : r.limit < 2^64

/-- The byte addresses of the range are machine words. -/
def Addressable (p : PageFrameRange) : Prop := p.limit * PAGE_SIZE < 2^64

/-- What `intersects` tests for a reserved range and a region: a common address or a common end. -/
def Meeting (p : PageFrameRange) (r : Region) : Prop :=
  p.start * PAGE_SIZE ≤ r.limit ∧ r.start ≤ p.limit * PAGE_SIZE

instance (p : PageFrameRange) (r : Region) : Decidable (Meeting p r) := inferInstanceAs (Decidable (_ ∧ _))

def Large (r : Region) : Prop :=
  r.usable = true ∧ (MIN_TRACKING_PAGES + SCRATCH_PAGES) * PAGE_SIZE ≤ r.limit - r.start

instance (r : Region) : Decidable (Large r) := inferInstanceAs (Decidable (_ ∧ _))

/-- The regions that the search accepts. -/
def Qualifies (reserved : List PageFrameRange) (r : Region) : Prop := Large r ∧ ∀ p ∈ reserved, ¬ Meeting p r

instance (reserved : List PageFrameRange) (r : Region) : Decidable (Qualifies reserved r) :=
  inferInstanceAs (Decidable (_ ∧ ∀ p ∈ _, ¬ _))

theorem Addressable.fits {p : PageFrameRange} (addressable : Addressable p) :
    p.start * PAGE_SIZE + p.size * PAGE_SIZE = p.limit * PAGE_SIZE ∧ p.limit * PAGE_SIZE < 2^64 :=
  ⟨(Nat.add_mul _ _ _).symm, addressable⟩

theorem addressRange_eq {p : PageFrameRange} (addressable : Addressable p) :
    p.addressRange = .ok ⟨p.start * PAGE_SIZE, p.size * PAGE_SIZE⟩ := by
  have fits := addressable.fits
  unfold AddressRange.addressRange AddressRange.startAddress
  rw [usizeMul_fits (by omega), usizeMul_fits (by omega)]
  rfl

theorem intersects_eq {r other : AddressRange} (fits : r.limit < 2^64) (fits' : other.limit < 2^64) :
    r.intersects other = .ok (decide (r.start ≤ other.limit ∧ other.start ≤ r.limit)) := by
  unfold AddressRange.intersects
  rw [AddressRange.endOf_fits fits', AddressRange.endOf_fits fits]
  simp only [Bind.bind, Except.bind]
  by_cases early : r.start ≤ other.limit
  · simp [early, Pure.pure, Except.pure]
  · simp [early, Pure.pure, Except.pure]

section Region

variable {r : Region} (aligned : r.Aligned)

include aligned

theorem Region.Aligned.range_eq : r.range = .ok ⟨r.start, r.limit - r.start⟩ := if_pos aligned.ordered

theorem Region.Aligned.size_eq : r.size = .ok (r.limit - r.start) := usizeSub_fits aligned.ordered

theorem Region.Aligned.fromStart_eq : fromStart r.start = .ok (r.start / PAGE_SIZE) := if_pos aligned.start

theorem overlapsReserved_eq {reserved : List PageFrameRange} (addressable : ∀ p ∈ reserved, Addressable p) :
    overlapsReserved r reserved = .ok (decide (∃ p ∈ reserved, Meeting p r)) := by
  induction reserved with
  | nil => rfl
  | cons p rest ih =>
    rw [List.forall_mem_cons] at addressable
    have fits := addressable.1.fits
    have ordered := aligned.ordered
    have inSpace := aligned.inSpace
    have whole : (⟨r.start, r.limit - r.start⟩ : AddressRange).limit = r.limit := by
      simp only [AddressRange.limit]
      omega
    have test : (AddressRange.mk (p.start * PAGE_SIZE) (p.size * PAGE_SIZE)).intersects ⟨r.start, r.limit - r.start⟩ =
        .ok (decide (Meeting p r)) := by
      have bytes : (AddressRange.mk (p.start * PAGE_SIZE) (p.size * PAGE_SIZE)).limit = p.limit * PAGE_SIZE := fits.1
      rw [intersects_eq (by omega) (by omega), whole, bytes]
      rfl
    unfold overlapsReserved
    rw [addressRange_eq addressable.1, aligned.range_eq, ih addressable.2]
    simp only [mapError_ok, Bind.bind, Except.bind, test]
    by_cases meeting : Meeting p r
    · simp [meeting, Pure.pure, Except.pure]
    · simp [meeting]

end Region

def trackingOf (r : Region) : PageFrameRange := ⟨r.start / PAGE_SIZE, SCRATCH_PAGES⟩

def scratchOf (r : Region) : PageFrameRange := ⟨r.start / PAGE_SIZE + SCRATCH_PAGES, MIN_TRACKING_PAGES⟩

section Search

variable {memoryMap : List Region} {reserved : List PageFrameRange} {r : Region}
  (aligned : ∀ r ∈ memoryMap, r.usable = true → r.Aligned) (addressable : ∀ p ∈ reserved, Addressable p)

include addressable

theorem scratchIn_qualifies (aligned : r.usable = true → r.Aligned) (qualifies : Qualifies reserved r) :
    scratchIn reserved r = .ok (some (scratchOf r, trackingOf r)) := by
  have whole := aligned qualifies.1.1
  have clear : ¬ ∃ p ∈ reserved, Meeting p r := by
    intro found
    obtain ⟨p, member, meeting⟩ := found
    exact qualifies.2 p member meeting
  have tracked : (AddressRange.fromStartSize (r.start / PAGE_SIZE) SCRATCH_PAGES).endOf =
      .ok (r.start / PAGE_SIZE + SCRATCH_PAGES) := by
    have inSpace := whole.inSpace
    have large := qualifies.1.2
    apply usizeAdd_fits
    simp only [AddressRange.fromStartSize, SCRATCH_PAGES, MIN_TRACKING_PAGES, PAGE_SIZE] at large ⊢
    omega
  unfold scratchIn
  rw [if_pos qualifies.1.1, whole.size_eq, overlapsReserved_eq whole addressable, whole.fromStart_eq]
  simp only [mapError_ok, Bind.bind, Except.bind, if_pos qualifies.1.2, decide_eq_false clear, tracked]
  rfl

theorem scratchIn_refused (aligned : r.usable = true → r.Aligned) (refused : ¬ Qualifies reserved r) :
    scratchIn reserved r = .ok none := by
  unfold scratchIn
  by_cases usable : r.usable = true
  · have whole := aligned usable
    rw [if_pos usable, whole.size_eq]
    by_cases large : (MIN_TRACKING_PAGES + SCRATCH_PAGES) * PAGE_SIZE ≤ r.limit - r.start
    · have meeting : ∃ p ∈ reserved, Meeting p r := by
        by_contra clear
        exact refused ⟨⟨usable, large⟩, fun p member meeting => clear ⟨p, member, meeting⟩⟩
      simp only [mapError_ok, Bind.bind, Except.bind, if_pos large, overlapsReserved_eq whole addressable,
        decide_eq_true meeting]
      rfl
    · simp only [mapError_ok, Bind.bind, Except.bind, if_neg large]
      rfl
  · rw [if_neg usable]
    rfl

include aligned

theorem findScratch_first (first : First (Qualifies reserved) memoryMap r) :
    findScratch memoryMap reserved = .ok (.ok (scratchOf r, trackingOf r)) := by
  have found := findSomeM_first (fun r member => scratchIn_qualifies addressable (aligned r member))
    (fun r member => scratchIn_refused addressable (aligned r member)) first
  unfold findScratch
  rw [found]
  rfl

theorem findScratch_none (none : ∀ r ∈ memoryMap, ¬ Qualifies reserved r) :
    findScratch memoryMap reserved = .ok (.error .insufficientMemory) := by
  have missing := findSomeM_none (fun r member => scratchIn_refused addressable (aligned r member)) none
  unfold findScratch
  rw [missing]
  rfl

end Search

def Region.Holds (r : Region) (address : Nat) : Prop := r.start ≤ address ∧ address < r.limit

def HoldsByte (p : PageFrameRange) (address : Nat) : Prop :=
  p.start * PAGE_SIZE ≤ address ∧ address < p.limit * PAGE_SIZE

/-- The regions that could serve: large enough, and no address in common with a reserved range. -/
def Suitable (reserved : List PageFrameRange) (r : Region) : Prop :=
  Large r ∧ ∀ p ∈ reserved, ∀ address, HoldsByte p address → ¬ r.Holds address

theorem Qualifies.suitable {reserved : List PageFrameRange} {r : Region} (qualifies : Qualifies reserved r) :
    Suitable reserved r := by
  refine ⟨qualifies.1, ?_⟩
  intro p member address inside holds
  exact qualifies.2 p member ⟨le_trans inside.1 (le_of_lt holds.2), le_trans holds.1 (le_of_lt inside.2)⟩

def Inside (range : PageFrameRange) (r : Region) : Prop :=
  r.start ≤ range.start * PAGE_SIZE ∧ range.limit * PAGE_SIZE ≤ r.limit

theorem Inside.avoids {reserved : List PageFrameRange} {range p : PageFrameRange} {r : Region}
    (inside : Inside range r) (suitable : Suitable reserved r) (member : p ∈ reserved) : range.Disjoint p := by
  intro frame held held'
  obtain ⟨start, stop⟩ := held
  obtain ⟨start', stop'⟩ := held'
  obtain ⟨lower, upper⟩ := inside
  apply suitable.2 p member (frame * PAGE_SIZE)
  · exact ⟨Nat.mul_le_mul_right _ start', Nat.mul_lt_mul_of_pos_right stop' (by decide)⟩
  · refine ⟨le_trans lower (Nat.mul_le_mul_right _ start), lt_of_lt_of_le ?_ upper⟩
    exact Nat.mul_lt_mul_of_pos_right stop (by decide)

theorem scratchOf_disjoint (r : Region) : (scratchOf r).Disjoint (trackingOf r) := by
  intro frame held held'
  rw [AddressRange.mem_iff] at held held'
  simp only [scratchOf, trackingOf] at held held'
  omega

/-- The two ranges of a region are its first four pages. -/
theorem inside_iff {r chosen : Region} (aligned : chosen.start % PAGE_SIZE = 0) :
    Inside (scratchOf chosen) r ∧ Inside (trackingOf chosen) r ↔
      r.start ≤ chosen.start ∧ chosen.start + (MIN_TRACKING_PAGES + SCRATCH_PAGES) * PAGE_SIZE ≤ r.limit := by
  simp only [Inside, scratchOf, trackingOf, AddressRange.limit, MIN_TRACKING_PAGES, SCRATCH_PAGES,
    PAGE_SIZE] at aligned ⊢
  omega

/-- What the search is for: disjoint scratch and tracking ranges in the first suitable region. -/
structure Located (memoryMap : List Region) (reserved : List PageFrameRange) (scratch tracking : PageFrameRange) :
    Prop where
  disjoint : scratch.Disjoint tracking
  inFirst : ∃ region, First (Suitable reserved) memoryMap region ∧ Inside scratch region ∧ Inside tracking region
  unreserved : ∀ p ∈ reserved, scratch.Disjoint p ∧ tracking.Disjoint p

/-- The search finds the first suitable region exactly when the first region it accepts starts inside that one.
    It turns down a suitable region that touches a reserved range or has an empty one inside. -/
theorem scratch_search_complete_iff {memoryMap : List Region} {reserved : List PageFrameRange}
    (aligned : ∀ r ∈ memoryMap, r.Aligned) (addressable : ∀ p ∈ reserved, Addressable p) :
    ((findScratch memoryMap reserved = .ok (.error .insufficientMemory) ↔
        ¬ ∃ r ∈ memoryMap, Suitable reserved r) ∧
      ((∃ r ∈ memoryMap, Suitable reserved r) → ∃ scratch tracking,
        findScratch memoryMap reserved = .ok (.ok (scratch, tracking)) ∧
          Located memoryMap reserved scratch tracking)) ↔
      ∀ region, First (Suitable reserved) memoryMap region →
        ∃ chosen, First (Qualifies reserved) memoryMap chosen ∧ region.start ≤ chosen.start ∧
          chosen.start + (MIN_TRACKING_PAGES + SCRATCH_PAGES) * PAGE_SIZE ≤ region.limit := by
  have usableAligned : ∀ r ∈ memoryMap, r.usable = true → r.Aligned := fun r member _ => aligned r member
  constructor
  · intro correct region first
    obtain ⟨scratch, tracking, found, located⟩ := correct.2 ⟨region, first.mem, first.holds⟩
    have accepted : ∃ r ∈ memoryMap, Qualifies reserved r := by
      by_contra none
      push Not at none
      rw [findScratch_none usableAligned addressable none] at found
      cases found
    obtain ⟨chosen, firstChosen⟩ := exists_first accepted
    rw [findScratch_first usableAligned addressable firstChosen] at found
    obtain ⟨rfl, rfl⟩ := Prod.mk.inj (Except.ok.inj (Except.ok.inj found))
    obtain ⟨region', first', inside⟩ := located.inFirst
    have same := first.unique first'
    subst same
    exact ⟨chosen, firstChosen, (inside_iff (aligned chosen firstChosen.mem).start).mp inside⟩
  · intro condition
    have positive : (∃ r ∈ memoryMap, Suitable reserved r) → ∃ scratch tracking,
        findScratch memoryMap reserved = .ok (.ok (scratch, tracking)) ∧
          Located memoryMap reserved scratch tracking := by
      intro found
      obtain ⟨region, first⟩ := exists_first found
      obtain ⟨chosen, firstChosen, bounds⟩ := condition region first
      have inside := (inside_iff (aligned chosen firstChosen.mem).start).mpr bounds
      exact ⟨scratchOf chosen, trackingOf chosen, findScratch_first usableAligned addressable firstChosen,
        scratchOf_disjoint chosen, ⟨region, first, inside⟩,
        fun p member => ⟨inside.1.avoids first.holds member, inside.2.avoids first.holds member⟩⟩
    refine ⟨⟨?_, ?_⟩, positive⟩
    · intro missing found
      obtain ⟨scratch, tracking, result, _⟩ := positive found
      rw [missing] at result
      cases result
    · intro none
      apply findScratch_none usableAligned addressable
      intro r member qualifies
      exact none ⟨r, member, qualifies.suitable⟩

theorem scratch_search_complete_apart :
    ∃ scratch tracking, findScratch [⟨.usable, 0x1000, 0x6000⟩] [⟨7, 2⟩] = .ok (.ok (scratch, tracking)) ∧
      Located [⟨.usable, 0x1000, 0x6000⟩] [⟨7, 2⟩] scratch tracking := by
  have qualifies : Qualifies [⟨7, 2⟩] ⟨.usable, 0x1000, 0x6000⟩ := by decide
  have aligned : ∀ r ∈ [(⟨.usable, 0x1000, 0x6000⟩ : Region)], r.Aligned := by
    intro r member
    rw [List.mem_singleton] at member
    subst member
    exact ⟨by decide, by decide, by decide, by decide⟩
  refine ((scratch_search_complete_iff aligned (by simp [Addressable, AddressRange.limit, PAGE_SIZE])).mpr ?_).2
    ⟨_, List.mem_singleton_self _, qualifies.suitable⟩
  intro region first
  have member := first.mem
  rw [List.mem_singleton] at member
  subst member
  exact ⟨_, first_cons_self qualifies, by decide, by decide⟩

/-- A reserved range that ends where the only region starts, or an empty one inside it, leaves nothing. -/
theorem touching_region_refused :
    (Suitable [⟨0, 1⟩] ⟨.usable, 0x1000, 0x6000⟩ ∧
      findScratch [⟨.usable, 0x1000, 0x6000⟩] [⟨0, 1⟩] = .ok (.error .insufficientMemory)) ∧
    Suitable [⟨3, 0⟩] ⟨.usable, 0x1000, 0x6000⟩ ∧
      findScratch [⟨.usable, 0x1000, 0x6000⟩] [⟨3, 0⟩] = .ok (.error .insufficientMemory) := by
  refine ⟨⟨⟨by decide, ?_⟩, rfl⟩, ⟨by decide, ?_⟩, rfl⟩
  · intro p member address inside holds
    rw [List.mem_singleton] at member
    subst member
    simp only [HoldsByte, Region.Holds, AddressRange.limit, PAGE_SIZE] at inside holds
    omega
  · intro p member address inside holds
    rw [List.mem_singleton] at member
    subst member
    simp only [HoldsByte, Region.Holds, AddressRange.limit, PAGE_SIZE] at inside holds
    omega

end Platypos.Memory
