import Mathlib.Data.List.Sort
import Platypos.Memory.Scratch

namespace Platypos.Memory

open Outcome

def SortedByStart (ranges : List PageFrameRange) : Prop := ranges.Pairwise fun r r' => r.start ≤ r'.start

/-- The merge loop as a recursion: `prev` is the range before the index, `ranges` are those from it on. -/
def mergeInto (prev : PageFrameRange) : List PageFrameRange → Except Panic (List PageFrameRange)
  | [] => return [prev]
  | cur :: rest => do
    if ← prev.intersects cur then
      let limit ← cur.endOf
      let newSize ← usizeSub limit prev.start
      mergeInto (prev.setSize newSize) rest
    else
      let merged ← mergeInto cur rest
      return prev :: merged

theorem mergeLoop_eq (rest : List PageFrameRange) (front : List PageFrameRange) (prev : PageFrameRange)
    {rounds : Nat} (enough : rest.length ≤ rounds) :
    mergeLoop (front ++ prev :: rest) (front.length + 1) rounds = (mergeInto prev rest).map (front ++ ·) := by
  induction rounds generalizing rest front prev with
  | zero =>
    have empty : rest = [] := List.length_eq_zero_iff.mp (Nat.le_zero.mp enough)
    subst empty
    rfl
  | succ rounds ih =>
    cases rest with
    | nil =>
      have before : (front ++ [prev])[front.length]? = some prev := by simp
      have beyond : (front ++ [prev])[front.length + 1]? = none := by simp
      rw [mergeLoop, Nat.add_sub_cancel, before, beyond]
      rfl
    | cons cur rest =>
      have before : (front ++ prev :: cur :: rest)[front.length]? = some prev := by simp
      have here : (front ++ prev :: cur :: rest)[front.length + 1]? = some cur := by simp
      have enough' : rest.length ≤ rounds := Nat.le_of_succ_le_succ enough
      rw [mergeLoop, Nat.add_sub_cancel, before, here, mergeInto]
      simp only
      rcases prev.intersects cur with e | meeting
      · rfl
      cases meeting with
      | false =>
        have step := ih rest (front ++ [prev]) cur enough'
        rw [List.length_append, List.length_singleton, List.append_assoc, List.singleton_append] at step
        simp only [Bind.bind, Except.bind, Bool.false_eq_true, if_false, step]
        cases mergeInto cur rest with
        | error e => rfl
        | ok merged => simp [Except.map, Pure.pure, Except.pure]
      | true =>
        simp only [Bind.bind, Except.bind, if_true]
        rcases cur.endOf with e | limit
        · rfl
        simp only
        rcases usizeSub limit prev.start with e | newSize
        · rfl
        have edited : ((front ++ prev :: cur :: rest).eraseIdx (front.length + 1)).set front.length
            (prev.setSize newSize) = front ++ prev.setSize newSize :: rest := by
          rw [List.eraseIdx_append_of_length_le (Nat.le_add_right _ _), Nat.add_sub_cancel_left]
          simp
        simp only [edited]
        exact ih rest front (prev.setSize newSize) enough'

theorem mergeRanges_cons (prev : PageFrameRange) (rest : List PageFrameRange) :
    mergeRanges (prev :: rest) = mergeInto prev rest := by
  have loop := mergeLoop_eq rest [] prev (Nat.le_succ rest.length)
  rw [mergeRanges, List.length_cons]
  refine loop.trans ?_
  cases mergeInto prev rest <;> rfl

/-- What the loop makes of sorted ranges. A merged range ends where its last part does. -/
def combine (prev : PageFrameRange) : List PageFrameRange → List PageFrameRange
  | [] => [prev]
  | cur :: rest =>
    if cur.start ≤ prev.limit then combine ⟨prev.start, cur.limit - prev.start⟩ rest else prev :: combine cur rest

section Combining

variable {prev cur : PageFrameRange} {rest : List PageFrameRange}

theorem joined_limit (order : prev.start ≤ cur.start) :
    (⟨prev.start, cur.limit - prev.start⟩ : PageFrameRange).limit = cur.limit := by
  simp only [AddressRange.limit]
  omega

theorem sorted_joined (sorted : SortedByStart (prev :: cur :: rest)) :
    SortedByStart (⟨prev.start, cur.limit - prev.start⟩ :: rest) := by
  obtain ⟨first, later⟩ := List.pairwise_cons.mp sorted
  exact List.pairwise_cons.mpr ⟨fun r member => first r (List.mem_cons_of_mem _ member),
    (List.pairwise_cons.mp later).2⟩

theorem mergeInto_cons (sorted : SortedByStart (prev :: cur :: rest)) (fits : prev.limit < 2^64)
    (fits' : cur.limit < 2^64) :
    mergeInto prev (cur :: rest) = if cur.start ≤ prev.limit
      then mergeInto ⟨prev.start, cur.limit - prev.start⟩ rest
      else (mergeInto cur rest).map (prev :: ·) := by
  have order : prev.start ≤ cur.start := (List.pairwise_cons.mp sorted).1 cur (by simp)
  have reached : prev.start ≤ cur.limit := by
    simp only [AddressRange.limit]
    omega
  rw [mergeInto, intersects_eq fits fits', AddressRange.endOf_fits fits']
  simp only [reached, true_and, Bind.bind, Except.bind, usizeSub_fits reached, decide_eq_true_eq]
  split
  · rfl
  · cases mergeInto cur rest <;> rfl

theorem fits_of_endOf {r : AddressRange} {limit : Nat} (done : r.endOf = .ok limit) : r.limit < 2^64 := by
  by_contra large
  have failed : r.endOf = .error .overflow := if_neg large
  rw [failed] at done
  cases done

theorem fits_of_intersects {r other : AddressRange} {meeting : Bool} (reached : r.start ≤ other.limit)
    (done : r.intersects other = .ok meeting) : r.limit < 2^64 ∧ other.limit < 2^64 := by
  unfold AddressRange.intersects at done
  cases stop' : other.endOf with
  | error e =>
    rw [stop'] at done
    cases done
  | ok limit' =>
    have fits' := fits_of_endOf stop'
    rw [AddressRange.endOf_fits fits'] at done
    simp only [Bind.bind, Except.bind, if_pos reached] at done
    cases stop : r.endOf with
    | error e =>
      rw [stop] at done
      cases done
    | ok limit => exact ⟨fits_of_endOf stop, fits'⟩

theorem fits_of_mergeInto_pair (sorted : SortedByStart (prev :: cur :: rest)) {merged : List PageFrameRange}
    (done : mergeInto prev (cur :: rest) = .ok merged) : prev.limit < 2^64 ∧ cur.limit < 2^64 := by
  have order : prev.start ≤ cur.start := (List.pairwise_cons.mp sorted).1 cur (by simp)
  cases test : prev.intersects cur with
  | error e =>
    rw [mergeInto, test] at done
    cases done
  | ok meeting => exact fits_of_intersects (le_trans order (Nat.le_add_right _ _)) test

/-- Merging two or more ranges computes the end of each. -/
theorem fits_of_mergeInto (sorted : SortedByStart (prev :: cur :: rest)) {merged : List PageFrameRange}
    (done : mergeInto prev (cur :: rest) = .ok merged) : ∀ r ∈ prev :: cur :: rest, r.limit < 2^64 := by
  induction rest generalizing prev cur merged with
  | nil =>
    have pair := fits_of_mergeInto_pair sorted done
    simpa using pair
  | cons next rest ih =>
    have pair := fits_of_mergeInto_pair sorted done
    have order : prev.start ≤ cur.start := (List.pairwise_cons.mp sorted).1 cur (by simp)
    rw [mergeInto_cons sorted pair.1 pair.2] at done
    have later : ∀ r ∈ next :: rest, r.limit < 2^64 := by
      split at done
      · exact (List.forall_mem_cons.mp (ih (sorted_joined sorted) done)).2
      · cases tail : mergeInto cur (next :: rest) with
        | error e =>
          rw [tail] at done
          cases done
        | ok merged' => exact (List.forall_mem_cons.mp (ih (List.pairwise_cons.mp sorted).2 tail)).2
    exact List.forall_mem_cons.mpr ⟨pair.1, List.forall_mem_cons.mpr ⟨pair.2, later⟩⟩

theorem mergeInto_eq_combine (sorted : SortedByStart (prev :: rest))
    (fits : ∀ r ∈ prev :: rest, r.limit < 2^64) : mergeInto prev rest = .ok (combine prev rest) := by
  induction rest generalizing prev with
  | nil => rfl
  | cons cur rest ih =>
    simp only [List.forall_mem_cons] at fits
    have order : prev.start ≤ cur.start := (List.pairwise_cons.mp sorted).1 cur (by simp)
    rw [mergeInto_cons sorted fits.1 fits.2.1, combine]
    split
    · apply ih (sorted_joined sorted)
      simp only [List.forall_mem_cons, joined_limit order]
      exact fits.2
    · rw [ih (List.pairwise_cons.mp sorted).2 (by simpa using fits.2)]
      rfl

theorem le_start_of_mem_combine (sorted : SortedByStart (prev :: rest)) :
    ∀ r ∈ combine prev rest, prev.start ≤ r.start := by
  induction rest generalizing prev with
  | nil => simp [combine]
  | cons cur rest ih =>
    have order : prev.start ≤ cur.start := (List.pairwise_cons.mp sorted).1 cur (by simp)
    rw [combine]
    split
    · exact ih (sorted_joined sorted)
    · intro r member
      rcases List.mem_cons.mp member with rfl | member
      · exact le_rfl
      · exact le_trans order (ih (List.pairwise_cons.mp sorted).2 r member)

theorem combine_separated (sorted : SortedByStart (prev :: rest)) :
    (combine prev rest).Pairwise fun r r' => r.limit < r'.start := by
  induction rest generalizing prev with
  | nil => exact List.pairwise_singleton _ _
  | cons cur rest ih =>
    have later := (List.pairwise_cons.mp sorted).2
    rw [combine]
    split
    · exact ih (sorted_joined sorted)
    · rename_i gap
      refine List.pairwise_cons.mpr ⟨?_, ih later⟩
      intro r member
      have bound := le_start_of_mem_combine later r member
      omega

theorem combine_subset (sorted : SortedByStart (prev :: rest)) {frame : Nat}
    (covered : Covered (combine prev rest) frame) : Covered (prev :: rest) frame := by
  induction rest generalizing prev with
  | nil => exact covered
  | cons cur rest ih =>
    have order : prev.start ≤ cur.start := (List.pairwise_cons.mp sorted).1 cur (by simp)
    rw [combine] at covered
    simp only [covered_cons]
    split at covered
    · rename_i touching
      rcases covered_cons.mp (ih (sorted_joined sorted) covered) with inside | later
      · rw [AddressRange.mem_iff] at inside ⊢
        rw [AddressRange.mem_iff]
        simp only [AddressRange.limit] at touching inside
        omega
      · exact .inr (.inr later)
    · rcases covered_cons.mp covered with inside | later
      · exact .inl inside
      · exact .inr (covered_cons.mp (ih (List.pairwise_cons.mp sorted).2 later))

/-- The next range, if there is one, starts beyond the end of `r`. -/
def Closing (r : PageFrameRange) (back : List PageFrameRange) : Prop := ∀ next ∈ back.head?, r.limit < next.start

/-- Each range at which merging stops ends no earlier than the ranges before it. -/
def Widening (ranges : List PageFrameRange) : Prop :=
  ∀ front r back, ranges = front ++ r :: back → Closing r back → ∀ earlier ∈ front, earlier.limit ≤ r.limit

def ClosesAt (n : Nat) (ranges : List PageFrameRange) : Prop :=
  ∃ front r back, ranges = front ++ r :: back ∧ Closing r back ∧ r.limit = n

theorem closesAt_cons {r : PageFrameRange} {n : Nat} :
    ClosesAt n (r :: rest) ↔ (r.limit = n ∧ Closing r rest) ∨ ClosesAt n rest := by
  constructor
  · intro closes
    obtain ⟨front, last, back, split, closing, same⟩ := closes
    cases front with
    | nil =>
      obtain ⟨rfl, rfl⟩ := List.cons.inj split
      exact .inl ⟨same, closing⟩
    | cons first front => exact .inr ⟨front, last, back, (List.cons.inj split).2, closing, same⟩
  · intro closes
    rcases closes with ⟨same, closing⟩ | ⟨front, last, back, rfl, closing, same⟩
    · exact ⟨[], r, rest, rfl, closing, same⟩
    · exact ⟨r :: front, last, back, rfl, closing, same⟩

theorem not_closesAt_nil {n : Nat} : ¬ ClosesAt n [] := by
  intro closes
  obtain ⟨front, last, back, split, _⟩ := closes
  simp at split

theorem widening_cons {r : PageFrameRange} :
    Widening (r :: rest) ↔ (∀ n, ClosesAt n rest → r.limit ≤ n) ∧ Widening rest := by
  constructor
  · intro widening
    refine ⟨?_, ?_⟩
    · intro n closes
      obtain ⟨front, last, back, rfl, closing, rfl⟩ := closes
      exact widening (r :: front) last back rfl closing r (by simp)
    · intro front last back split closing earlier member
      exact widening (r :: front) last back (by rw [split]; rfl) closing earlier (List.mem_cons_of_mem _ member)
  · intro widening front last back split closing earlier member
    cases front with
    | nil => simp at member
    | cons first front =>
      obtain ⟨rfl, rfl⟩ := List.cons.inj split
      rcases List.mem_cons.mp member with rfl | member
      · exact widening.1 last.limit ⟨front, last, back, rfl, closing, rfl⟩
      · exact widening.2 front last back rfl closing earlier member

theorem ClosesAt.start_le {n : Nat} (sorted : SortedByStart (prev :: rest)) (closes : ClosesAt n (prev :: rest)) :
    prev.start ≤ n := by
  obtain ⟨front, last, back, split, _, rfl⟩ := closes
  have member : last ∈ prev :: rest := by simp [split]
  have before : prev.start ≤ last.start := by
    rcases List.mem_cons.mp member with rfl | member
    · exact le_rfl
    · exact (List.pairwise_cons.mp sorted).1 last member
  exact le_trans before (Nat.le_add_right _ _)

-- Merging keeps the end of the later range, so the joined range stops where that one would have.
theorem closesAt_joined {n : Nat} (order : prev.start ≤ cur.start) (touching : cur.start ≤ prev.limit) :
    ClosesAt n (prev :: cur :: rest) ↔ ClosesAt n (⟨prev.start, cur.limit - prev.start⟩ :: rest) := by
  have open' : ¬ Closing prev (cur :: rest) := by
    intro closing
    have gap := closing cur (by simp)
    omega
  rw [closesAt_cons, closesAt_cons, closesAt_cons]
  simp only [open', and_false, false_or]
  simp only [Closing, joined_limit order]

theorem closesAt_apart {n : Nat} (gap : prev.limit < cur.start) :
    ClosesAt n (prev :: cur :: rest) ↔ prev.limit = n ∨ ClosesAt n (cur :: rest) := by
  have closing : Closing prev (cur :: rest) := by simpa [Closing] using gap
  rw [closesAt_cons]
  simp only [closing, and_true]

theorem combine_closing (sorted : SortedByStart (prev :: rest)) {n : Nat} (closes : ClosesAt n (prev :: rest)) :
    ∀ g ∈ combine prev rest, g.limit ≤ n ∨ n < g.start := by
  induction rest generalizing prev with
  | nil =>
    rcases closesAt_cons.mp closes with ⟨rfl, _⟩ | impossible
    · simp [combine]
    · exact absurd impossible not_closesAt_nil
  | cons cur rest ih =>
    have order : prev.start ≤ cur.start := (List.pairwise_cons.mp sorted).1 cur (by simp)
    have later := (List.pairwise_cons.mp sorted).2
    rw [combine]
    split
    · rename_i touching
      exact ih (sorted_joined sorted) ((closesAt_joined order touching).mp closes)
    · rename_i gap
      rw [not_le] at gap
      rw [List.forall_mem_cons]
      rcases (closesAt_apart gap).mp closes with rfl | closes
      · exact ⟨.inl le_rfl, fun g member =>
          .inr (lt_of_lt_of_le gap (le_start_of_mem_combine later g member))⟩
      · exact ⟨.inl (le_trans (le_of_lt gap) (closes.start_le later)), ih later closes⟩

-- The frames from the start of a merged range up to `reach` survive if merging never stops short of it.
theorem combine_reaches (sorted : SortedByStart (prev :: rest)) {reach frame : Nat}
    (closed : ∀ n, ClosesAt n (prev :: rest) → reach ≤ n) (start : prev.start ≤ frame) (stop : frame < reach) :
    Covered (combine prev rest) frame := by
  induction rest generalizing prev with
  | nil =>
    have bound := closed prev.limit (closesAt_cons.mpr (.inl ⟨rfl, by simp [Closing]⟩))
    exact ⟨prev, by simp [combine], start, lt_of_lt_of_le stop bound⟩
  | cons cur rest ih =>
    have order : prev.start ≤ cur.start := (List.pairwise_cons.mp sorted).1 cur (by simp)
    rw [combine]
    split
    · rename_i touching
      exact ih (sorted_joined sorted) (fun n closes => closed n ((closesAt_joined order touching).mpr closes)) start
    · rename_i gap
      have bound := closed prev.limit ((closesAt_apart (not_le.mp gap)).mpr (.inl rfl))
      exact ⟨prev, by simp, start, lt_of_lt_of_le stop bound⟩

theorem widening_joined (sorted : SortedByStart (prev :: cur :: rest)) (widening : Widening (prev :: cur :: rest)) :
    Widening (⟨prev.start, cur.limit - prev.start⟩ :: rest) := by
  have order : prev.start ≤ cur.start := (List.pairwise_cons.mp sorted).1 cur (by simp)
  obtain ⟨_, widening⟩ := widening_cons.mp widening
  rw [widening_cons] at widening ⊢
  rw [joined_limit order]
  exact widening

theorem combine_superset (sorted : SortedByStart (prev :: rest)) (widening : Widening (prev :: rest)) {frame : Nat}
    (covered : Covered (prev :: rest) frame) : Covered (combine prev rest) frame := by
  induction rest generalizing prev with
  | nil => exact covered
  | cons cur rest ih =>
    have order : prev.start ≤ cur.start := (List.pairwise_cons.mp sorted).1 cur (by simp)
    have whole : ∀ r rest, Widening (r :: rest) → ∀ n, ClosesAt n (r :: rest) → r.limit ≤ n := by
      intro r rest widening n closes
      rcases closesAt_cons.mp closes with ⟨rfl, _⟩ | closes
      · exact le_rfl
      · exact (widening_cons.mp widening).1 n closes
    rcases covered_cons.mp covered with ⟨start, stop⟩ | covered
    · exact combine_reaches sorted (whole prev (cur :: rest) widening) start stop
    · rw [combine]
      split
      · have joined := widening_joined sorted widening
        rcases covered_cons.mp covered with ⟨start, stop⟩ | covered
        · rw [← joined_limit order] at stop
          exact combine_reaches (sorted_joined sorted) (whole _ rest joined) (le_trans order start) stop
        · exact ih (sorted_joined sorted) joined (covered_cons.mpr (.inr covered))
      · exact covered_cons.mpr (.inr (ih (List.pairwise_cons.mp sorted).2 (widening_cons.mp widening).2 covered))

theorem widening_of_superset (sorted : SortedByStart (prev :: rest))
    (superset : ∀ frame, Covered (prev :: rest) frame → Covered (combine prev rest) frame) :
    Widening (prev :: rest) := by
  intro front r back split closing earlier member
  by_contra longer
  have before : earlier.start ≤ r.start := by
    rw [split, SortedByStart, List.pairwise_append] at sorted
    exact sorted.2.2 earlier member r (by simp)
  have held : r.limit ∈ earlier := by
    rw [AddressRange.mem_iff]
    simp only [AddressRange.limit] at longer ⊢
    omega
  -- The frame at which merging stops is in no merged range.
  obtain ⟨g, merged, inside⟩ := superset r.limit ⟨earlier, by simp [split, member], held⟩
  rcases combine_closing sorted ⟨front, r, back, split, closing, rfl⟩ g merged with short | beyond
  · exact absurd inside.2 (not_lt.mpr short)
  · exact absurd inside.1 (not_le.mpr beyond)

end Combining

/-- The purpose of the merge: ranges in order that do not even touch, over the same frames. -/
structure Merged (ranges merged : List PageFrameRange) : Prop where
  sorted : SortedByStart merged
  separated : merged.Pairwise fun r r' => r.limit < r'.start
  covered : ∀ frame, Covered merged frame ↔ Covered ranges frame

theorem combine_merged {prev : PageFrameRange} {rest : List PageFrameRange} (sorted : SortedByStart (prev :: rest))
    (widening : Widening (prev :: rest)) : Merged (prev :: rest) (combine prev rest) := by
  have separated := combine_separated sorted
  refine ⟨separated.imp ?_, separated, fun frame => ⟨combine_subset sorted, combine_superset sorted widening⟩⟩
  intro r r' gap
  simp only [AddressRange.limit] at gap
  omega

theorem mergeRanges_merged {ranges : List PageFrameRange} (sorted : SortedByStart ranges)
    (fits : 2 ≤ ranges.length → ∀ r ∈ ranges, r.limit < 2^64) (widening : Widening ranges) :
    ∃ merged, mergeRanges ranges = .ok merged ∧ Merged ranges merged := by
  cases ranges with
  | nil => exact ⟨[], rfl, .nil, .nil, fun _ => Iff.rfl⟩
  | cons prev rest =>
    refine ⟨combine prev rest, ?_, combine_merged sorted widening⟩
    rw [mergeRanges_cons]
    cases rest with
    | nil => rfl
    | cons cur rest => exact mergeInto_eq_combine sorted (fits (by simp))

theorem widening_of_merged {ranges merged : List PageFrameRange} (sorted : SortedByStart ranges)
    (done : mergeRanges ranges = .ok merged) (preserved : Merged ranges merged) :
    (2 ≤ ranges.length → ∀ r ∈ ranges, r.limit < 2^64) ∧ Widening ranges := by
  cases ranges with
  | nil =>
    refine ⟨fun long => absurd long (by decide), ?_⟩
    intro front r back split
    simp at split
  | cons prev rest =>
    rw [mergeRanges_cons] at done
    cases rest with
    | nil =>
      refine ⟨fun long => absurd long (by simp), ?_⟩
      rw [widening_cons]
      exact ⟨fun n closes => absurd closes not_closesAt_nil, fun front r back split => by simp at split⟩
    | cons cur rest =>
      have fits := fits_of_mergeInto sorted done
      rw [mergeInto_eq_combine sorted fits] at done
      have same := Except.ok.inj done
      subst same
      exact ⟨fun _ => fits, widening_of_superset sorted fun frame => (preserved.covered frame).mpr⟩

/-- The sort and the merge loop keep the memory exactly when every range at which merging stops ends no earlier
    than the ranges before it. (The ends of the ranges are computed as soon as there are two of them.) -/
theorem merge_preserves_memory_iff (sort : UnstableSort) (ranges : List PageFrameRange) :
    (∃ merged, mergeRanges (sort.sortByStart ranges) = .ok merged ∧ Merged ranges merged) ↔
      (2 ≤ ranges.length → ∀ r ∈ ranges, r.limit < 2^64) ∧ Widening (sort.sortByStart ranges) := by
  have perm := sort.perm ranges
  have sorted := sort.sorted ranges
  have same : ∀ frame, Covered (sort.sortByStart ranges) frame ↔ Covered ranges frame := by
    intro frame
    simp only [Covered, perm.mem_iff]
  have bounds : (2 ≤ ranges.length → ∀ r ∈ ranges, r.limit < 2^64) ↔
      (2 ≤ (sort.sortByStart ranges).length → ∀ r ∈ sort.sortByStart ranges, r.limit < 2^64) := by
    simp only [perm.mem_iff, perm.length_eq]
  rw [bounds]
  constructor
  · intro done
    obtain ⟨merged, result, preserved⟩ := done
    exact widening_of_merged sorted result
      ⟨preserved.sorted, preserved.separated, fun frame => (preserved.covered frame).trans (same frame).symm⟩
  · intro condition
    obtain ⟨merged, result, preserved⟩ := mergeRanges_merged sorted condition.1 condition.2
    exact ⟨merged, result, preserved.sorted, preserved.separated,
      fun frame => (preserved.covered frame).trans (same frame)⟩

def insertionSort : UnstableSort where
  sortByStart := List.insertionSort fun r r' => r.start ≤ r'.start
  perm := List.perm_insertionSort _
  sorted := by
    have : Std.Total fun (r r' : PageFrameRange) => r.start ≤ r'.start := ⟨fun r r' => le_total r.start r'.start⟩
    have : IsTrans PageFrameRange fun r r' => r.start ≤ r'.start := ⟨fun _ _ _ => le_trans⟩
    exact List.pairwise_insertionSort _

/-- A range inside another one cuts off the rest of it. -/
theorem nested_range_lost :
    mergeRanges (insertionSort.sortByStart [⟨2, 2⟩, ⟨0, 10⟩]) = .ok [⟨0, 4⟩] ∧
      Covered [⟨2, 2⟩, ⟨0, 10⟩] 5 ∧ ¬ Covered [⟨0, 4⟩] 5 := by
  refine ⟨rfl, ⟨⟨0, 10⟩, by simp, by decide⟩, ?_⟩
  rw [covered_cons]
  simp [Covered, AddressRange.mem_iff]

end Platypos.Memory
