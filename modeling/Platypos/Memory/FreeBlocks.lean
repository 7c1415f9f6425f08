import Platypos.Memory.Canonical

namespace Platypos.Memory

open Intervals

/-- A frame of the given memory that is neither used for tracking nor part of an outstanding allocation. -/
def FreeFrame (memory : Nat → Prop) (tracking : PageFrameRange) (out : Multiset PageFrameRange) (frame : Nat) :
    Prop :=
  memory frame ∧ frame ∉ tracking ∧ ∀ r ∈ out, frame ∉ r

namespace Ledger

variable {memory : Nat → Prop} {tracking : PageFrameRange} {out : Multiset PageFrameRange} {l : Ledger}
  (sound : Sound memory [tracking] out l) (tight : Tight l)

include sound

theorem Sound.status {x : RunState} (member : x ∈ l) :
    x.status = .free ∨ (x.status = .tracking ∧ x.range = tracking) ∨ x.status = .allocated ∧ x.range ∈ out := by
  cases kind : x.status with
  | free => exact .inl rfl
  | allocated =>
    refine .inr (.inr ⟨rfl, ?_⟩)
    rw [sound.mem_out, ← kind]
    exact member
  | tracking =>
    have listed : x.range ∈ rangesOf .tracking l := by
      rw [mem_rangesOf, ← kind]
      exact member
    rw [sound.tracked, List.mem_singleton] at listed
    exact .inr (.inl ⟨rfl, listed⟩)
  | unused => exact absurd kind (sound.inUse x member)

theorem Sound.free_covered (frame : Nat) :
    Covered (rangesOf .free l) frame ↔ FreeFrame memory tracking out frame := by
  constructor
  · intro found
    obtain ⟨r, listed, inside⟩ := found
    rw [mem_rangesOf] at listed
    have alone : ∀ r' status, status ≠ .free → (⟨r', status⟩ : RunState) ∈ l → frame ∉ r' := by
      intro r' status other listed' inside'
      have one := sound.sorted.covers_unique listed listed' inside inside'
      exact other (congrArg RunState.status one).symm
    refine ⟨sound.inside listed inside, alone tracking .tracking (by simp) ?_, ?_⟩
    · rw [← mem_rangesOf, sound.tracked]
      exact List.mem_singleton_self _
    · intro r' member
      exact alone r' .allocated (by simp) (sound.mem_out.mp member)
  · intro free
    obtain ⟨held, untracked, unallocated⟩ := free
    obtain ⟨x, member, inside⟩ := (sound.covered frame).mpr held
    rcases sound.status member with kind | ⟨_, whole⟩ | ⟨_, listed⟩
    · refine ⟨x.range, ?_, inside⟩
      rw [mem_rangesOf, ← kind]
      exact member
    · exact absurd (whole ▸ inside) untracked
    · exact absurd inside (unallocated x.range listed)

include tight

theorem Sound.free_separated : (rangesOf .free l).Pairwise fun r r' => r.limit < r'.start := by
  have separated := (tight.normal sound.sorted).separated
  rw [rangesOf, List.pairwise_map]
  apply (separated.filter _).imp_of_mem
  intro x y left right apart
  have free : x.status = .free := by simpa using (List.mem_filter.mp left).2
  have free' : y.status = .free := by simpa using (List.mem_filter.mp right).2
  apply apart
  simp [owner, free, free']

omit sound in
theorem Tight.free_nonempty {r : PageFrameRange} (listed : r ∈ rangesOf .free l) : r.start < r.limit := by
  have positive : 0 < r.size := tight.positive _ (mem_rangesOf.mp listed)
  simp only [AddressRange.limit]
  omega

/-- The free runs are the maximal blocks of free frames. -/
theorem Sound.free_iff_block (r : PageFrameRange) :
    r ∈ rangesOf .free l ↔ Block (FreeFrame memory tracking out) r.start r.limit := by
  have blocks := exists_iff_block (sound.free_separated tight) (fun _ => tight.free_nonempty)
    (a := r.start) (b := r.limit)
  have same : (fun frame => ∃ x ∈ rangesOf .free l, Covers AddressRange.start AddressRange.limit x frame) =
      FreeFrame memory tracking out := by
    funext frame
    exact propext (sound.free_covered frame)
  rw [same] at blocks
  rw [← blocks]
  constructor
  · intro listed
    exact ⟨r, listed, rfl, rfl⟩
  · intro found
    obtain ⟨⟨start, size⟩, listed, start', limit⟩ := found
    obtain ⟨start'', size'⟩ := r
    simp only [AddressRange.limit] at start' limit
    have width : size = size' := by omega
    rwa [start', width] at listed

/-- Free frames in a row lie in one free run. -/
theorem Sound.exists_free_run {count : Nat} (some : 0 < count) :
    (∃ first, ∀ frame, first ≤ frame → frame < first + count → FreeFrame memory tracking out frame) ↔
      ∃ r ∈ rangesOf .free l, count ≤ r.size := by
  constructor
  · intro found
    obtain ⟨first, free⟩ := found
    obtain ⟨r, listed, start, stop⟩ := (sound.free_covered first).mpr (free first le_rfl (by omega))
    refine ⟨r, listed, ?_⟩
    by_contra short
    apply not_covered_hi (sound.free_separated tight) (fun _ => tight.free_nonempty) listed
    refine (sound.free_covered r.limit).mpr (free r.limit (le_of_lt stop) ?_)
    simp only [AddressRange.limit] at stop ⊢
    omega
  · intro found
    obtain ⟨r, listed, enough⟩ := found
    refine ⟨r.start, ?_⟩
    intro frame start stop
    refine (sound.free_covered frame).mp ⟨r, listed, start, ?_⟩
    simp only [AddressRange.limit]
    omega

end Ledger

end Platypos.Memory
