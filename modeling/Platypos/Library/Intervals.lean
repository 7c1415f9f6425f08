import Mathlib.Data.List.Chain
import Mathlib.Data.List.Nodup

namespace Intervals

universe u v

variable {α : Type u} {L : Type v} {lo hi : α → Nat} {label : α → L}

def Covers (lo hi : α → Nat) (x : α) (n : Nat) : Prop := lo x ≤ n ∧ n < hi x

instance (x : α) (n : Nat) : Decidable (Covers lo hi x n) := inferInstanceAs (Decidable (_ ∧ _))

def Ordered (lo hi : α → Nat) (xs : List α) : Prop := xs.Pairwise fun x y => hi x ≤ lo y

theorem Ordered.not_covers_tail {x : α} {xs : List α} (order : Ordered lo hi (x :: xs)) {y : α}
    (member : y ∈ xs) {n : Nat} (inside : Covers lo hi x n) : ¬ Covers lo hi y n := by
  have apart := (List.pairwise_cons.mp order).1 y member
  unfold Covers at *
  omega

theorem Ordered.covers_unique {xs : List α} (order : Ordered lo hi xs) {x y : α} (left : x ∈ xs) (right : y ∈ xs)
    {n : Nat} (inside : Covers lo hi x n) (inside' : Covers lo hi y n) : x = y := by
  induction xs with
  | nil => simp at left
  | cons z xs ih =>
    rcases List.mem_cons.mp left with first | later
    · rcases List.mem_cons.mp right with first' | later'
      · exact first.trans first'.symm
      · exact absurd inside' (order.not_covers_tail later' (first ▸ inside))
    · rcases List.mem_cons.mp right with first' | later'
      · exact absurd inside (order.not_covers_tail later (first' ▸ inside'))
      · exact ih (List.pairwise_cons.mp order).2 later later'

theorem Ordered.countP_covers {xs : List α} (order : Ordered lo hi xs) (n : Nat) :
    xs.countP (fun x => decide (Covers lo hi x n)) = if ∃ x ∈ xs, Covers lo hi x n then 1 else 0 := by
  induction xs with
  | nil => simp
  | cons x xs ih =>
    have rest := ih (List.pairwise_cons.mp order).2
    by_cases inside : Covers lo hi x n
    · have none : ¬ ∃ y ∈ xs, Covers lo hi y n := by
        intro found
        obtain ⟨y, member, covered⟩ := found
        exact order.not_covers_tail member inside covered
      rw [if_neg none] at rest
      simp [rest, inside]
    · simp [rest, inside]

def Labels (lo hi : α → Nat) (label : α → L) (xs : List α) (n : Nat) (l : L) : Prop :=
  ∃ x ∈ xs, Covers lo hi x n ∧ label x = l

/-- A normal form of labelled intervals: no interval is empty, and none could be joined to its successor. -/
structure Normal (lo hi : α → Nat) (label : α → L) (xs : List α) : Prop where
  ordered : Ordered lo hi xs
  nonempty : ∀ x ∈ xs, lo x < hi x
  maximal : xs.IsChain fun x y => hi x = lo y → label x ≠ label y

theorem Normal.tail {x : α} {xs : List α} (normal : Normal lo hi label (x :: xs)) :
    Normal lo hi label xs :=
  ⟨(List.pairwise_cons.mp normal.ordered).2, fun y member => normal.nonempty y (List.mem_cons_of_mem _ member),
    normal.maximal.tail⟩

theorem Normal.labels_head {x : α} {xs : List α} (normal : Normal lo hi label (x :: xs)) {n : Nat}
    (inside : Covers lo hi x n) {l : L} (labelled : Labels lo hi label (x :: xs) n l) : label x = l := by
  obtain ⟨y, member, covered, same⟩ := labelled
  rcases List.mem_cons.mp member with rfl | member
  · exact same
  · exact absurd covered (normal.ordered.not_covers_tail member inside)

theorem Normal.head_le {x : α} {xs : List α} (normal : Normal lo hi label (x :: xs)) {n : Nat} {l : L}
    (labelled : Labels lo hi label (x :: xs) n l) : lo x ≤ n := by
  obtain ⟨y, member, covered, _⟩ := labelled
  rcases List.mem_cons.mp member with rfl | member
  · exact covered.1
  · have apart := (List.pairwise_cons.mp normal.ordered).1 y member
    have positive := normal.nonempty x (by simp)
    have start := covered.1
    omega

theorem Normal.labels_tail_iff {x : α} {xs : List α} (normal : Normal lo hi label (x :: xs)) {n : Nat} {l : L} :
    Labels lo hi label xs n l ↔ hi x ≤ n ∧ Labels lo hi label (x :: xs) n l := by
  constructor
  · intro labelled
    obtain ⟨y, member, covered, same⟩ := labelled
    have apart := (List.pairwise_cons.mp normal.ordered).1 y member
    exact ⟨le_trans apart covered.1, y, List.mem_cons_of_mem _ member, covered, same⟩
  · intro labelled
    obtain ⟨beyond, y, member, covered, same⟩ := labelled
    rcases List.mem_cons.mp member with rfl | member
    · have inside := covered.2
      omega
    · exact ⟨y, member, covered, same⟩

theorem Normal.label_stops {x : α} {xs : List α} (normal : Normal lo hi label (x :: xs)) :
    ¬ Labels lo hi label (x :: xs) (hi x) (label x) := by
  intro labelled
  obtain ⟨y, member, covered, same⟩ := labelled
  rcases List.mem_cons.mp member with rfl | member
  · exact absurd covered.2 (lt_irrefl _)
  · cases xs with
    | nil => simp at member
    | cons z xs =>
      have first := (List.pairwise_cons.mp normal.ordered).1 z (by simp)
      have positive := normal.nonempty z (by simp)
      have start := covered.1
      have joined := List.isChain_cons_cons.mp normal.maximal |>.1
      rcases List.mem_cons.mp member with rfl | member
      · exact joined (le_antisymm first start) same.symm
      · have later := (List.pairwise_cons.mp normal.tail.ordered).1 y member
        omega

theorem Normal.lo_head_le {x y : α} {xs ys : List α} (left : Normal lo hi label (x :: xs))
    (right : Normal lo hi label (y :: ys))
    (same : ∀ n l, Labels lo hi label (x :: xs) n l → Labels lo hi label (y :: ys) n l) : lo y ≤ lo x :=
  right.head_le (same (lo x) (label x) ⟨x, by simp, ⟨le_rfl, left.nonempty x (by simp)⟩, rfl⟩)

theorem Normal.hi_head_le {x y : α} {xs ys : List α} (right : Normal lo hi label (y :: ys))
    (same : ∀ n l, Labels lo hi label (x :: xs) n l → Labels lo hi label (y :: ys) n l)
    (start : lo x = lo y) (labels : label x = label y) : hi x ≤ hi y := by
  by_contra longer
  have positive := right.nonempty y (by simp)
  have inside : Covers lo hi x (hi y) := by
    unfold Covers
    omega
  apply right.label_stops
  rw [← labels]
  exact same _ _ ⟨x, by simp, inside, rfl⟩

/-- Normal forms with the same labelling of points are the same list of labelled intervals. -/
theorem Normal.unique {xs ys : List α} (left : Normal lo hi label xs) (right : Normal lo hi label ys)
    (same : ∀ n l, Labels lo hi label xs n l ↔ Labels lo hi label ys n l) :
    xs.map (fun x => (lo x, hi x, label x)) = ys.map fun y => (lo y, hi y, label y) := by
  induction xs generalizing ys with
  | nil =>
    cases ys with
    | nil => rfl
    | cons y ys =>
      have labelled := (same (lo y) (label y)).mpr
        ⟨y, by simp, ⟨le_rfl, right.nonempty y (by simp)⟩, rfl⟩
      obtain ⟨x, member, _⟩ := labelled
      simp at member
  | cons x xs ih =>
    cases ys with
    | nil =>
      have labelled := (same (lo x) (label x)).mp
        ⟨x, by simp, ⟨le_rfl, left.nonempty x (by simp)⟩, rfl⟩
      obtain ⟨y, member, _⟩ := labelled
      simp at member
    | cons y ys =>
      have start : lo x = lo y := le_antisymm (right.lo_head_le left fun n l => (same n l).mpr)
        (left.lo_head_le right fun n l => (same n l).mp)
      have inside : Covers lo hi y (lo x) := by
        have positive := right.nonempty y (by simp)
        unfold Covers
        omega
      have labels : label x = label y := (right.labels_head inside ((same _ _).mp
        ⟨x, by simp, ⟨le_rfl, left.nonempty x (by simp)⟩, rfl⟩)).symm
      have stop : hi x = hi y := le_antisymm (right.hi_head_le (fun n l => (same n l).mp) start labels)
        (left.hi_head_le (fun n l => (same n l).mpr) start.symm labels.symm)
      have rest := ih left.tail right.tail (by
        intro n l
        rw [left.labels_tail_iff, right.labels_tail_iff, stop, same])
      rw [List.map_cons, List.map_cons, rest, start, stop, labels]

/-- Intervals with the same label do not even touch. -/
theorem Normal.separated {xs : List α} (normal : Normal lo hi label xs) :
    xs.Pairwise fun x y => label x = label y → hi x < lo y := by
  induction xs with
  | nil => exact .nil
  | cons x xs ih =>
    refine List.pairwise_cons.mpr ⟨?_, ih normal.tail⟩
    intro y member same
    have apart := (List.pairwise_cons.mp normal.ordered).1
    cases xs with
    | nil => simp at member
    | cons z xs =>
      rcases List.mem_cons.mp member with rfl | later
      · have joined := (List.isChain_cons_cons.mp normal.maximal).1
        exact lt_of_le_of_ne (apart y (by simp)) fun touching => joined touching same
      · have first := apart z (by simp)
        have positive := normal.nonempty z (by simp)
        have second := (List.pairwise_cons.mp normal.tail.ordered).1 y later
        omega

section Coalescing

theorem labels_cons {x : α} {xs : List α} {n : Nat} {l : L} :
    Labels lo hi label (x :: xs) n l ↔ (Covers lo hi x n ∧ label x = l) ∨ Labels lo hi label xs n l := by
  simp [Labels]

/-- `join x y` reaches from the start of `x` to the end of `y`, with the label of `x`. -/
structure Joins (lo hi : α → Nat) (label : α → L) (join : α → α → α) : Prop where
  lo : ∀ x y, lo (join x y) = lo x
  hi : ∀ x y, hi (join x y) = hi y
  label : ∀ x y, label (join x y) = label x

theorem Joins.labels {join : α → α → α} (joins : Joins lo hi label join) {x y : α}
    (touching : label x = label y ∧ hi x = lo y) (forward : lo x ≤ hi x) (forward' : lo y ≤ hi y) {n : Nat} {l : L} :
    (Covers lo hi (join x y) n ∧ label (join x y) = l) ↔
      (Covers lo hi x n ∧ label x = l) ∨ (Covers lo hi y n ∧ label y = l) := by
  obtain ⟨same, touch⟩ := touching
  rw [← same, joins.label, ← or_and_right]
  apply and_congr_left'
  unfold Covers
  rw [joins.lo, joins.hi]
  omega

variable [DecidableEq L]

/-- Joins an interval to its successors for as long as they touch and have the same label. -/
def coalesce (lo hi : α → Nat) (label : α → L) (join : α → α → α) (x : α) : List α → List α
  | [] => [x]
  | y :: ys =>
    if label x = label y ∧ hi x = lo y then
      coalesce lo hi label join (join x y) ys
    else
      x :: coalesce lo hi label join y ys

variable {join : α → α → α} (joins : Joins lo hi label join)

include joins

theorem Joins.keeps (R : Nat → Nat → Prop) (trans : ∀ {a b c}, R a b → R b c → R a c) {x : α} {ys : List α}
    (each : ∀ y ∈ x :: ys, R (lo y) (hi y)) : ∀ y ∈ coalesce lo hi label join x ys, R (lo y) (hi y) := by
  induction ys generalizing x with
  | nil => exact each
  | cons y ys ih =>
    obtain ⟨here, next, later⟩ := by simpa only [List.forall_mem_cons] using each
    unfold coalesce
    split
    · rename_i touching
      refine ih (List.forall_mem_cons.mpr ⟨?_, later⟩)
      rw [joins.lo, joins.hi]
      exact trans (touching.2 ▸ here) next
    · exact List.forall_mem_cons.mpr ⟨here, ih (List.forall_mem_cons.mpr ⟨next, later⟩)⟩

/-- Every point keeps its labels. -/
theorem Joins.labels_coalesce {x : α} {ys : List α} (forward : ∀ y ∈ x :: ys, lo y ≤ hi y) {n : Nat} {l : L} :
    Labels lo hi label (coalesce lo hi label join x ys) n l ↔ Labels lo hi label (x :: ys) n l := by
  induction ys generalizing x with
  | nil => rfl
  | cons y ys ih =>
    obtain ⟨here, next, later⟩ := by simpa only [List.forall_mem_cons] using forward
    unfold coalesce
    split
    · rename_i touching
      have wider : lo (join x y) ≤ hi (join x y) := by
        rw [joins.lo, joins.hi]
        omega
      rw [ih (List.forall_mem_cons.mpr ⟨wider, later⟩), labels_cons, labels_cons, labels_cons,
        joins.labels touching here next, or_assoc]
    · rw [labels_cons, labels_cons, ih (List.forall_mem_cons.mpr ⟨next, later⟩)]

theorem Joins.head_coalesce (x : α) (ys : List α) :
    ∃ z zs, coalesce lo hi label join x ys = z :: zs ∧ lo z = lo x ∧ label z = label x := by
  induction ys generalizing x with
  | nil => exact ⟨x, [], rfl, rfl, rfl⟩
  | cons y ys ih =>
    unfold coalesce
    split
    · obtain ⟨z, zs, same, start, labels⟩ := ih (join x y)
      exact ⟨z, zs, same, start.trans (joins.lo x y), labels.trans (joins.label x y)⟩
    · exact ⟨x, _, rfl, rfl, rfl⟩

theorem Joins.maximal_coalesce (x : α) (ys : List α) :
    (coalesce lo hi label join x ys).IsChain fun x y => hi x = lo y → label x ≠ label y := by
  induction ys generalizing x with
  | nil => exact .singleton x
  | cons y ys ih =>
    unfold coalesce
    split
    · exact ih _
    · rename_i apart
      have rest := ih y
      obtain ⟨z, zs, same, start, labels⟩ := joins.head_coalesce y ys
      rw [same] at rest ⊢
      refine List.isChain_cons_cons.mpr ⟨?_, rest⟩
      rw [start, labels]
      exact fun touch alike => apart ⟨alike, touch⟩

/-- What comes out starts where one of the intervals does, with the label of that one. -/
theorem Joins.source_coalesce {x z : α} {ys : List α} (member : z ∈ coalesce lo hi label join x ys) :
    ∃ y ∈ x :: ys, lo z = lo y ∧ label z = label y := by
  induction ys generalizing x with
  | nil => exact ⟨z, member, rfl, rfl⟩
  | cons y ys ih =>
    unfold coalesce at member
    split at member
    · obtain ⟨w, listed, start, labels⟩ := ih member
      rcases List.mem_cons.mp listed with rfl | listed
      · exact ⟨x, by simp, start.trans (joins.lo x y), labels.trans (joins.label x y)⟩
      · exact ⟨w, by simp [listed], start, labels⟩
    · rcases List.mem_cons.mp member with rfl | member
      · exact ⟨z, by simp, rfl, rfl⟩
      · obtain ⟨w, listed, source⟩ := ih member
        exact ⟨w, List.mem_cons_of_mem _ listed, source⟩

theorem Joins.ordered_coalesce {x : α} {ys : List α} (ordered : Ordered lo hi (x :: ys)) :
    Ordered lo hi (coalesce lo hi label join x ys) := by
  induction ys generalizing x with
  | nil => exact ordered
  | cons y ys ih =>
    obtain ⟨first, rest⟩ := List.pairwise_cons.mp ordered
    unfold coalesce
    split
    · refine ih (List.pairwise_cons.mpr ⟨?_, (List.pairwise_cons.mp rest).2⟩)
      rw [joins.hi]
      exact (List.pairwise_cons.mp rest).1
    · refine List.pairwise_cons.mpr ⟨?_, ih rest⟩
      intro z member
      obtain ⟨w, listed, start, _⟩ := joins.source_coalesce member
      rw [start]
      exact first w listed

/-- Intervals in order come out in normal form. -/
theorem Joins.normal_coalesce {x : α} {ys : List α} (ordered : Ordered lo hi (x :: ys))
    (nonempty : ∀ y ∈ x :: ys, lo y < hi y) : Normal lo hi label (coalesce lo hi label join x ys) :=
  ⟨joins.ordered_coalesce ordered, joins.keeps (· < ·) Nat.lt_trans nonempty, joins.maximal_coalesce x ys⟩

end Coalescing

/-- `[a, b)` is a maximal interval of points in `memory`. -/
structure Block (memory : Nat → Prop) (a b : Nat) : Prop where
  nonempty : a < b
  inside : ∀ n, a ≤ n → n < b → memory n
  stops : ¬ memory b
  starts : ∀ n, n + 1 = a → ¬ memory n

section Separated

variable {xs : List α} (separated : xs.Pairwise fun x y => hi x < lo y) (nonempty : ∀ x ∈ xs, lo x < hi x)

include separated

theorem eq_or_separated {x y : α} (left : x ∈ xs) (right : y ∈ xs) : x = y ∨ hi x < lo y ∨ hi y < lo x := by
  by_contra clash
  rw [not_or, not_or] at clash
  have symmetric : Std.Symm fun x y => hi x < lo y ∨ hi y < lo x := ⟨fun _ _ => Or.symm⟩
  have apart := (separated.imp (S := fun x y => hi x < lo y ∨ hi y < lo x) .inl).forall left right clash.1
  exact apart.elim clash.2.1 clash.2.2

include nonempty

theorem not_covered_hi {x : α} (member : x ∈ xs) : ¬ ∃ y ∈ xs, Covers lo hi y (hi x) := by
  intro found
  obtain ⟨y, member', start, stop⟩ := found
  have positive := nonempty x member
  rcases eq_or_separated separated member member' with rfl | apart | apart <;> omega

theorem not_covered_before {x : α} (member : x ∈ xs) {n : Nat} (before : n + 1 = lo x) :
    ¬ ∃ y ∈ xs, Covers lo hi y n := by
  intro found
  obtain ⟨y, member', start, stop⟩ := found
  have positive := nonempty x member
  rcases eq_or_separated separated member member' with rfl | apart | apart <;> omega

/-- Intervals that do not touch are the maximal intervals of what they cover. -/
theorem exists_iff_block {a b : Nat} :
    (∃ x ∈ xs, lo x = a ∧ hi x = b) ↔ Block (fun n => ∃ x ∈ xs, Covers lo hi x n) a b := by
  constructor
  · intro found
    obtain ⟨x, member, rfl, rfl⟩ := found
    exact ⟨nonempty x member, fun n after before => ⟨x, member, after, before⟩,
      not_covered_hi separated nonempty member, fun n before => not_covered_before separated nonempty member before⟩
  · intro block
    obtain ⟨x, member, start, stop⟩ := block.inside a le_rfl block.nonempty
    have first : lo x = a := by
      by_contra differ
      refine block.starts (a - 1) (by omega) ⟨x, member, ?_, ?_⟩ <;> omega
    refine ⟨x, member, first, ?_⟩
    rcases lt_trichotomy (hi x) b with short | same | long
    · exact absurd (block.inside (hi x) (le_of_lt stop) short) (not_covered_hi separated nonempty member)
    · exact same
    · have positive := block.nonempty
      exact absurd ⟨x, member, by omega, long⟩ block.stops

end Separated

end Intervals
