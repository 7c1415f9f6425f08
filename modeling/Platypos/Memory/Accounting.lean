import Mathlib.Data.Multiset.AddSub
import Platypos.Memory.LedgerSteps

namespace Platypos.Memory.Ledger

/-- An allocation of `count` frames takes a free run whole or splits its start off. -/
inductive Allocates : Ledger → Nat → PageFrameRange → Ledger → Prop where
  | whole (pre : Ledger) (range : PageFrameRange) (post : Ledger) :
      Allocates (pre ++ ⟨range, .free⟩ :: post) range.size range (pre ++ ⟨range, .allocated⟩ :: post)
  | split (pre : Ledger) (range : PageFrameRange) (count : Nat) (post : Ledger) (smaller : count < range.size) :
      Allocates (pre ++ ⟨range, .free⟩ :: post) count ⟨range.start, count⟩
        (pre ++ ⟨⟨range.start, count⟩, .allocated⟩ ::
          ⟨⟨range.start + count, range.size - count⟩, .free⟩ :: post)

inductive Releases : Ledger → PageFrameRange → Ledger → Prop where
  | release (pre : Ledger) (range : PageFrameRange) (post : Ledger) :
      Releases (pre ++ ⟨range, .allocated⟩ :: post) range (settle pre ⟨range, .free⟩ post)

inductive Receives : Ledger → RunState → Ledger → Prop where
  | insert (pre : Ledger) (x : RunState) (post : Ledger) (left : ∀ y ∈ pre, y.limit ≤ x.start)
      (right : ∀ y ∈ post, x.limit ≤ y.start) :
      Receives (pre ++ post) x (settle pre x post)

def rangesOf (status : Status) (l : Ledger) : List PageFrameRange :=
  (l.filter fun x => decide (x.status = status)).map RunState.range

theorem mem_rangesOf {status : Status} {l : Ledger} {range : PageFrameRange} :
    range ∈ rangesOf status l ↔ ⟨range, status⟩ ∈ l := by
  simp only [rangesOf, List.mem_map, List.mem_filter, decide_eq_true_eq]
  constructor
  · intro found
    obtain ⟨⟨_, _⟩, ⟨member, rfl⟩, rfl⟩ := found
    exact member
  · intro member
    exact ⟨_, ⟨member, rfl⟩, rfl⟩

theorem rangesOf_append (status : Status) (l l' : Ledger) :
    rangesOf status (l ++ l') = rangesOf status l ++ rangesOf status l' := by
  simp [rangesOf]

theorem rangesOf_cons (status : Status) (x : RunState) (l : Ledger) :
    rangesOf status (x :: l) = if x.status = status then x.range :: rangesOf status l else rangesOf status l := by
  by_cases same : x.status = status <;> simp [rangesOf, same]

theorem rangesOf_settle {status : Status} {pre post : Ledger} {x : RunState} (differ : status ≠ x.status) :
    rangesOf status (settle pre x post) = rangesOf status pre ++ rangesOf status post := by
  have whole : rangesOf status (pre ++ x :: post) = rangesOf status pre ++ rangesOf status post := by
    rw [rangesOf_append, rangesOf_cons, if_neg (Ne.symm differ)]
  apply settle_preserves fun l => rangesOf status l = rangesOf status pre ++ rangesOf status post
  · intro l l' step held
    rw [← held, rangesOf, rangesOf, step.filter differ]
  · exact whole

theorem covered_settle (pre : Ledger) (x : RunState) (post : Ledger) (frame : Nat) :
    (∃ y ∈ settle pre x post, frame ∈ y.range) ↔ ∃ y ∈ pre ++ x :: post, frame ∈ y.range := by
  apply settle_preserves fun l => (∃ y ∈ l, frame ∈ y.range) ↔ ∃ y ∈ pre ++ x :: post, frame ∈ y.range
  · intro l l' step held
    exact (step.covered frame).trans held
  · exact Iff.rfl

/-- The books are in order: the runs are sorted, cover exactly `memory`, and the allocated and the tracking
    runs are the recorded ones. -/
structure Sound (memory : Nat → Prop) (tracking : List PageFrameRange) (out : Multiset PageFrameRange)
    (l : Ledger) : Prop where
  sorted : Sorted l
  covered : ∀ frame, (∃ x ∈ l, frame ∈ x.range) ↔ memory frame
  allocated : (rangesOf .allocated l : Multiset PageFrameRange) = out
  tracked : rangesOf .tracking l = tracking
  inUse : ∀ x ∈ l, x.status ≠ .unused

variable {memory : Nat → Prop} {tracking : List PageFrameRange} {out : Multiset PageFrameRange} {l l' : Ledger}

theorem Sound.mem_out (sound : Sound memory tracking out l) {range : PageFrameRange} :
    range ∈ out ↔ ⟨range, .allocated⟩ ∈ l := by
  rw [← sound.allocated, Multiset.mem_coe, mem_rangesOf]

theorem Sound.inside (sound : Sound memory tracking out l) {x : RunState} (member : x ∈ l) {frame : Nat}
    (inside : frame ∈ x.range) : memory frame := (sound.covered frame).mp ⟨x, member, inside⟩

theorem sorted_disjoint {pre post : Ledger} {x y : RunState} (sorted : Sorted (pre ++ x :: post))
    (member : y ∈ pre ++ post) : x.range.Disjoint y.range := by
  rw [sorted_append_cons] at sorted
  intro frame inner outer
  rw [AddressRange.mem_iff] at inner outer
  simp only [RunState.limit, RunState.start, AddressRange.limit] at sorted
  rcases List.mem_append.mp member with member | member
  · have apart := sorted.2.1 y member
    omega
  · have apart := sorted.2.2 y member
    omega

theorem Allocates.size {count : Nat} {range : PageFrameRange} (step : Allocates l count range l') :
    range.size = count := by
  cases step <;> rfl

theorem Allocates.sorted {count : Nat} {range : PageFrameRange} (step : Allocates l count range l')
    (sorted : Sorted l) : Sorted l' := by
  cases step with
  | whole pre _ post =>
    rw [sorted_append_cons] at sorted ⊢
    exact sorted
  | split pre range _ post smaller =>
    rw [sorted_append_cons] at sorted
    rw [sorted_append_cons, sorted_append_cons]
    simp only [List.mem_cons, forall_eq_or_imp, RunState.limit, RunState.start, AddressRange.limit] at sorted ⊢
    refine ⟨⟨sorted.1, ?_, ?_⟩, sorted.2.1, le_rfl, ?_⟩
    · intro y member
      have apart := sorted.2.1 y member
      omega
    · intro y member
      have apart := sorted.2.2 y member
      omega
    · intro y member
      have apart := sorted.2.2 y member
      omega

theorem Allocates.covered {count : Nat} {range : PageFrameRange} (step : Allocates l count range l')
    (frame : Nat) : (∃ x ∈ l', frame ∈ x.range) ↔ ∃ x ∈ l, frame ∈ x.range := by
  cases step with
  | whole => simp only [List.mem_append, List.mem_cons, or_and_right, exists_or, exists_eq_left]
  | split pre range _ post smaller =>
    have parts : frame ∈ range ↔ frame ∈ AddressRange.mk range.start count ∨
        frame ∈ AddressRange.mk (range.start + count) (range.size - count) := by
      simp only [AddressRange.mem_iff]
      omega
    simp only [List.mem_append, List.mem_cons, or_and_right, exists_or, exists_eq_left, parts, or_assoc]

theorem Allocates.rangesOf {count : Nat} {range : PageFrameRange} (step : Allocates l count range l') :
    (rangesOf .allocated l' : Multiset PageFrameRange) = range ::ₘ (Ledger.rangesOf .allocated l : Multiset _) ∧
      Ledger.rangesOf .tracking l' = Ledger.rangesOf .tracking l := by
  cases step <;> simp [rangesOf_append, rangesOf_cons, ← Multiset.coe_add, ← Multiset.cons_coe, Multiset.add_cons]

theorem Allocates.inUse {count : Nat} {range : PageFrameRange} (step : Allocates l count range l')
    (held : ∀ x ∈ l, x.status ≠ .unused) : ∀ x ∈ l', x.status ≠ .unused := by
  cases step <;> simp_all [or_imp, forall_and]

theorem Sound.allocates {count : Nat} {range : PageFrameRange} (sound : Sound memory tracking out l)
    (step : Allocates l count range l') : Sound memory tracking (range ::ₘ out) l' where
  sorted := step.sorted sound.sorted
  covered frame := (step.covered frame).trans (sound.covered frame)
  allocated := by rw [step.rangesOf.1, sound.allocated]
  tracked := by rw [step.rangesOf.2, sound.tracked]
  inUse := step.inUse sound.inUse

theorem Sound.allocated_fresh {count : Nat} {range : PageFrameRange} (sound : Sound memory tracking out l)
    (step : Allocates l count range l') :
    (∀ frame ∈ range, memory frame) ∧ (∀ r ∈ tracking, range.Disjoint r) ∧ ∀ r ∈ out, range.Disjoint r := by
  have after := sound.allocates step
  have place : ∃ pre post, l' = pre ++ ⟨range, .allocated⟩ :: post := by
    cases step with
    | whole pre _ post => exact ⟨pre, post, rfl⟩
    | split pre _ _ post => exact ⟨pre, _, rfl⟩
  obtain ⟨pre, post, rfl⟩ := place
  have apart : ∀ r status, (r ∈ rangesOf status (pre ++ post)) → range.Disjoint r := by
    intro r status member
    exact sorted_disjoint after.sorted (mem_rangesOf.mp member)
  have member : (⟨range, .allocated⟩ : RunState) ∈ pre ++ ⟨range, .allocated⟩ :: post := by simp
  refine ⟨fun frame inside => after.inside member inside, ?_, ?_⟩
  · intro r member
    apply apart r .tracking
    rw [← after.tracked] at member
    simpa [rangesOf_append, rangesOf_cons] using member
  · intro r member
    apply apart r .allocated
    have books := after.allocated
    rw [rangesOf_append, rangesOf_cons, if_pos rfl, ← Multiset.coe_add, ← Multiset.cons_coe, Multiset.add_cons,
      Multiset.cons_inj_right] at books
    rw [← books, Multiset.coe_add, Multiset.mem_coe] at member
    rwa [rangesOf_append]

theorem Sound.releases {range : PageFrameRange} (sound : Sound memory tracking out l)
    (step : Releases l range l') : range ∈ out ∧ Sound memory tracking (out.erase range) l' := by
  obtain ⟨pre, range, post⟩ := step
  refine ⟨sound.mem_out.mpr (by simp), ?_, ?_, ?_, ?_, ?_⟩
  · apply settle_preserves Sorted fun _ _ step => step.sorted
    have sorted := sound.sorted
    rw [sorted_append_cons] at sorted ⊢
    exact sorted
  · intro frame
    rw [covered_settle, ← sound.covered frame]
    simp only [List.mem_append, List.mem_cons, or_and_right, exists_or, exists_eq_left]
  · rw [rangesOf_settle (by simp), ← sound.allocated, rangesOf_append, rangesOf_cons, if_pos rfl,
      ← Multiset.coe_add, ← Multiset.coe_add, ← Multiset.cons_coe, Multiset.add_cons, Multiset.erase_cons_head]
  · rw [rangesOf_settle (by simp), ← sound.tracked, rangesOf_append, rangesOf_cons, if_neg (by simp)]
  · apply settle_preserves (fun l => ∀ x ∈ l, x.status ≠ .unused) fun _ _ step => step.statuses (· ≠ .unused)
    have held := sound.inUse
    simp only [List.mem_append, List.mem_cons] at held ⊢
    intro x member
    rcases member with member | rfl | member
    · exact held x (.inl member)
    · simp
    · exact held x (.inr (.inr member))

theorem Sound.receives {x : RunState} (sound : Sound memory tracking out l) (step : Receives l x l')
    (kind : x.status = .free) :
    Sound (fun frame => memory frame ∨ frame ∈ x.range) tracking out l' := by
  obtain ⟨pre, x, post, left, right⟩ := step
  refine ⟨?_, ?_, ?_, ?_, ?_⟩
  · apply settle_preserves Sorted fun _ _ step => step.sorted
    exact sorted_append_cons.mpr ⟨sound.sorted, left, right⟩
  · intro frame
    rw [covered_settle, ← sound.covered frame]
    simp only [List.mem_append, List.mem_cons, or_and_right, exists_or, exists_eq_left]
    rw [or_assoc, or_comm (a := frame ∈ x.range)]
  · rw [rangesOf_settle (by simp [kind]), ← sound.allocated, rangesOf_append]
  · rw [rangesOf_settle (by simp [kind]), ← sound.tracked, rangesOf_append]
  · apply settle_preserves (fun l => ∀ x ∈ l, x.status ≠ .unused) fun _ _ step => step.statuses (· ≠ .unused)
    have held := sound.inUse
    simp only [List.mem_append, List.mem_cons] at held ⊢
    intro y member
    rcases member with member | rfl | member
    · exact held y (.inl member)
    · simp [kind]
    · exact held y (.inr member)

end Platypos.Memory.Ledger
