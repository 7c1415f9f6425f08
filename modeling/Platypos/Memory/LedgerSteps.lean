import Platypos.Memory.Ledger

namespace Platypos.Memory.Ledger

open Intervals

theorem sorted_append_cons {pre post : Ledger} {x : RunState} :
    Sorted (pre ++ x :: post) ↔ Sorted (pre ++ post) ∧ (∀ y ∈ pre, y.limit ≤ x.start) ∧
      ∀ y ∈ post, x.limit ≤ y.start := by
  simp only [Sorted, Ordered, List.pairwise_append, List.pairwise_cons, List.mem_cons]
  constructor
  · intro sorted
    exact ⟨⟨sorted.1, sorted.2.1.2, fun a ha b hb => sorted.2.2 a ha b (.inr hb)⟩,
      fun y member => sorted.2.2 y member x (.inl rfl), sorted.2.1.1⟩
  · intro parts
    refine ⟨parts.1.1, ⟨parts.2.2, parts.1.2.1⟩, ?_⟩
    intro a ha b hb
    rcases hb with rfl | hb
    · exact parts.2.1 a ha
    · exact parts.1.2.2 a ha b hb

theorem Sorted.limit_le_of_last {l : Ledger} (sorted : Sorted l) {n : Nat}
    (last : ∀ y ∈ l.getLast?, y.limit ≤ n) : ∀ y ∈ l, y.limit ≤ n := by
  intro y member
  rcases List.eq_nil_or_concat l with rfl | ⟨front, z, rfl⟩
  · simp at member
  · rw [List.concat_eq_append] at *
    have bound := last z (by simp)
    have parts := (sorted_append_cons.mp sorted).2.1
    rcases List.mem_append.mp member with member | member
    · have apart := parts y member
      simp only [RunState.start, RunState.limit, AddressRange.limit] at *
      omega
    · rw [List.mem_singleton.mp member]
      exact bound

theorem Sorted.le_start_of_head {l : Ledger} (sorted : Sorted l) {n : Nat}
    (first : ∀ y ∈ l.head?, n ≤ y.start) : ∀ y ∈ l, n ≤ y.start := by
  intro y member
  cases l with
  | nil => simp at member
  | cons z rest =>
    have bound := first z (by simp)
    rcases List.mem_cons.mp member with rfl | member
    · exact bound
    · have apart := (List.pairwise_cons.mp sorted).1 y member
      simp only [RunState.start, RunState.limit, AddressRange.limit] at *
      omega

theorem join_limit {x y : RunState} (touching : Touches x y) : (join x y).limit = y.limit := by
  have start := touching.2
  simp only [RunState.start, RunState.limit, AddressRange.limit, join] at *
  omega

theorem covers_join {x y : RunState} (touching : Touches x y) (n : Nat) :
    Covers RunState.start RunState.limit (join x y) n ↔
      Covers RunState.start RunState.limit x n ∨ Covers RunState.start RunState.limit y n := by
  have start := touching.2
  simp only [Covers, RunState.start, RunState.limit, AddressRange.limit, join] at *
  omega

theorem JoinStep.sorted {status : Status} {l l' : Ledger} (step : JoinStep status l l') (sorted : Sorted l) :
    Sorted l' := by
  obtain ⟨pre, x, y, post, touching, kind⟩ := step
  rw [sorted_append_cons] at sorted
  obtain ⟨tail, left, right⟩ := sorted
  rw [sorted_append_cons] at tail
  rw [sorted_append_cons, join_limit touching]
  exact ⟨tail.1, left, tail.2.2⟩

theorem JoinStep.covered {status : Status} {l l' : Ledger} (step : JoinStep status l l') (n : Nat) :
    (∃ x ∈ l', n ∈ x.range) ↔ ∃ x ∈ l, n ∈ x.range := by
  obtain ⟨pre, x, y, post, touching, kind⟩ := step
  have parts : n ∈ (join x y).range ↔ n ∈ x.range ∨ n ∈ y.range := covers_join touching n
  simp only [List.mem_append, List.mem_cons, or_and_right, exists_or, exists_eq_left, parts, or_assoc]

theorem JoinStep.filter {status other : Status} {l l' : Ledger} (step : JoinStep status l l')
    (differ : other ≠ status) :
    l'.filter (fun x => decide (x.status = other)) = l.filter fun x => decide (x.status = other) := by
  obtain ⟨pre, x, y, post, touching, kind⟩ := step
  have first : x.status ≠ other := fun same => differ (same.symm.trans kind)
  have second : y.status ≠ other := fun same => first (touching.1.symm.trans same)
  simp [first, second, join]

theorem JoinStep.positive {status : Status} {l l' : Ledger} (step : JoinStep status l l')
    (positive : ∀ x ∈ l, 0 < x.range.size) : ∀ x ∈ l', 0 < x.range.size := by
  obtain ⟨pre, x, y, post, touching, kind⟩ := step
  intro z member
  simp only [List.mem_append, List.mem_cons] at member
  rcases member with member | rfl | member
  · exact positive z (by simp [member])
  · have first := positive x (by simp)
    simp only [join]
    omega
  · exact positive z (by simp [member])

theorem JoinStep.statuses {status : Status} {l l' : Ledger} (step : JoinStep status l l') (property : Status → Prop)
    (held : ∀ x ∈ l, property x.status) : ∀ x ∈ l', property x.status := by
  obtain ⟨pre, x, y, post, touching, kind⟩ := step
  intro z member
  simp only [List.mem_append, List.mem_cons] at member
  rcases member with member | rfl | member
  · exact held z (by simp [member])
  · exact held x (by simp)
  · exact held z (by simp [member])

/-- No two neighbours could still be merged. Allocated runs never are. -/
def Maximal (l : Ledger) : Prop := l.IsChain fun x y => x.status = .allocated ∨ ¬ Touches x y

theorem maximal_append_cons {pre post : Ledger} {x : RunState} :
    Maximal (pre ++ x :: post) ↔ Maximal pre ∧ Maximal post ∧
      (∀ y ∈ pre.getLast?, y.status = .allocated ∨ ¬ Touches y x) ∧
      ∀ y ∈ post.head?, x.status = .allocated ∨ ¬ Touches x y := by
  simp only [Maximal, List.isChain_append, List.isChain_cons, List.head?_cons, Option.mem_def,
    Option.some.injEq, forall_eq']
  tauto

theorem maximal_allocated {pre post : Ledger} {x : RunState} (kind : x.status = .allocated)
    (left : Maximal pre) (right : Maximal post) : Maximal (pre ++ x :: post) := by
  rw [maximal_append_cons]
  refine ⟨left, right, ?_, fun y _ => .inl kind⟩
  intro y _
  by_cases same : y.status = .allocated
  · exact .inl same
  · right
    intro touching
    exact same (touching.1.symm.trans kind)

theorem absorbNext_maximal {x : RunState} {post : Ledger} (kind : x.status ≠ .allocated) (right : Maximal post) :
    Maximal (absorbNext x post).2 ∧
      ∀ y ∈ (absorbNext x post).2.head?, ¬ Touches (absorbNext x post).1 y := by
  cases post with
  | nil => exact ⟨right, by simp [absorbNext]⟩
  | cons y rest =>
    have parts := List.isChain_cons.mp right
    by_cases touching : Touches x y
    · rw [absorbNext_touching touching]
      refine ⟨parts.2, ?_⟩
      intro z member merged
      have limits := join_limit touching
      have apart := (parts.1 z member).resolve_left (by rw [touching.1]; exact kind)
      exact apart ⟨merged.1.trans touching.1.symm, merged.2.trans limits⟩
    · have apart : ∀ z ∈ (y :: rest).head?, ¬ Touches x z := by simpa using touching
      rw [absorbNext_apart apart]
      exact ⟨right, apart⟩

theorem absorbPrev_maximal {x : RunState} {pre : Ledger} (left : Maximal pre) :
    Maximal (absorbPrev pre x).1 ∧
      (∀ y ∈ (absorbPrev pre x).1.getLast?, y.status = .allocated ∨ ¬ Touches y (absorbPrev pre x).2) ∧
      ∀ y, Touches (absorbPrev pre x).2 y → Touches x y := by
  rcases List.eq_nil_or_concat pre with rfl | ⟨front, z, rfl⟩
  · exact ⟨left, by simp [absorbPrev], fun y => id⟩
  · rw [List.concat_eq_append] at *
    have parts := maximal_append_cons.mp left
    by_cases touching : Touches z x
    · rw [absorbPrev_touching touching]
      refine ⟨parts.1, parts.2.2.1, ?_⟩
      intro y merged
      have limits := join_limit touching
      exact ⟨merged.1.trans touching.1.symm, merged.2.trans limits⟩
    · have apart : ∀ y ∈ (front ++ [z]).getLast?, ¬ Touches y x := by simpa using touching
      rw [absorbPrev_apart apart]
      exact ⟨left, fun y member => .inr (apart y member), fun y => id⟩

theorem settle_maximal {pre post : Ledger} {x : RunState} (kind : x.status ≠ .allocated)
    (left : Maximal pre) (right : Maximal post) : Maximal (settle pre x post) := by
  have next := absorbNext_maximal kind right
  have prev := absorbPrev_maximal (x := (absorbNext x post).1) left
  unfold settle
  rw [maximal_append_cons]
  refine ⟨prev.1, next.1, prev.2.1, ?_⟩
  intro y member
  right
  intro touching
  exact next.2 y member (prev.2.2 y touching)

end Platypos.Memory.Ledger
