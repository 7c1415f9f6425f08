import Mathlib.Logic.Function.Basic

namespace TaggedStack

universe u v w

/-- Where a process stands on a stack whose head is swapped: off it, in a pop that has loaded the head, in a pop
    that has read the successor too, or in a push whose word is ready. -/
inductive Phase (W : Type u) where
  | away
  | loaded (old : W)
  | swapping (old new : W)
  | pending (word : W)

variable {W : Type u} {I : Type v} {P : Type w}

def Phase.seen : Phase W → Option W
  | .loaded old => some old
  | .swapping old _ => some old
  | _ => none

/-- A word that carries a tag of at least `floor` is installed once, so a pop that still finds it at the head
    holds the current successor. Tags below `floor` may recur. -/
structure Tagged (floor : Nat) (tag : W → Nat) (cell : W → I) (count : Nat) (next : I → W) (chain : List W)
    (phase : P → Phase W) : Prop where
  chained : ∀ x ∈ chain, tag x < max floor count
  seen : ∀ p x, (phase p).seen = some x → tag x < max floor count
  drawn : ∀ p x, phase p = .pending x → tag x < count
  unseen : ∀ p x, phase p = .pending x → floor ≤ tag x → x ∉ chain ∧ ∀ q, (phase q).seen ≠ some x
  apart : ∀ p q x y, phase p = .pending x → phase q = .pending y → tag x = tag y → p = q
  current : ∀ p old new, phase p = .swapping old new → floor ≤ tag old → old ∈ chain → new = next (cell old)

theorem update_cases [DecidableEq P] {α : Type*} {f : P → α} {p q : P} {a b : α}
    (moved : Function.update f p a q = b) : (q = p ∧ a = b) ∨ (q ≠ p ∧ f q = b) := by
  by_cases same : q = p
  · rw [same, Function.update_self] at moved
    exact .inl ⟨same, moved⟩
  · rw [Function.update_of_ne same] at moved
    exact .inr ⟨same, moved⟩

namespace Tagged

variable {floor : Nat} {tag : W → Nat} {cell : W → I} {count : Nat} {next : I → W} {chain : List W}
  {phase : P → Phase W} {p : P} {x : W}

theorem write [DecidableEq I] (tagged : Tagged floor tag cell count next chain phase) {i : I}
    (outside : ∀ x ∈ chain, cell x ≠ i) : Tagged floor tag cell count (Function.update next i x) chain phase := by
  refine { tagged with current := ?_ }
  intro q old new swapping tagged' member
  rw [Function.update_of_ne (outside old member)]
  exact tagged.current q old new swapping tagged' member

theorem tail (tagged : Tagged floor tag cell count next (x :: chain) phase) :
    Tagged floor tag cell count next chain phase where
  chained y member := tagged.chained y (List.mem_cons_of_mem x member)
  seen := tagged.seen
  drawn := tagged.drawn
  unseen p y pending high :=
    ⟨fun member => (tagged.unseen p y pending high).1 (List.mem_cons_of_mem x member),
      (tagged.unseen p y pending high).2⟩
  apart := tagged.apart
  current p old new swapping high member := tagged.current p old new swapping high (List.mem_cons_of_mem x member)

variable [DecidableEq P]

theorem move (tagged : Tagged floor tag cell count next chain phase) {b : Phase W}
    (quiet : ∀ x, b ≠ .pending x) (known : ∀ x, b.seen = some x → (phase p).seen = some x ∨ x ∈ chain)
    (fresh : ∀ old new, b = .swapping old new → new = next (cell old)) :
    Tagged floor tag cell count next chain (Function.update phase p b) := by
  have pending : ∀ q x, Function.update phase p b q = .pending x → phase q = .pending x := by
    intro q x this
    rcases update_cases this with ⟨_, same⟩ | ⟨_, before⟩
    · exact absurd same (quiet x)
    · exact before
  have seen : ∀ q x, (Function.update phase p b q).seen = some x → (∃ r, (phase r).seen = some x) ∨ x ∈ chain := by
    intro q x this
    rcases update_cases (f := phase) (q := q) rfl with ⟨_, same⟩ | ⟨_, before⟩
    · rw [← same] at this
      rcases known x this with before | member
      · exact .inl ⟨p, before⟩
      · exact .inr member
    · rw [← before] at this
      exact .inl ⟨q, this⟩
  constructor
  · exact tagged.chained
  · intro q x this
    rcases seen q x this with ⟨r, before⟩ | member
    · exact tagged.seen r x before
    · exact tagged.chained x member
  · intro q x this
    exact tagged.drawn q x (pending q x this)
  · intro q x this high
    obtain ⟨outside, unseen⟩ := tagged.unseen q x (pending q x this) high
    refine ⟨outside, ?_⟩
    intro r again
    rcases seen r x again with ⟨r', before⟩ | member
    · exact unseen r' before
    · exact outside member
  · intro q r x y first second
    exact tagged.apart q r x y (pending q x first) (pending r y second)
  · intro q old new swapping high member
    rcases update_cases swapping with ⟨_, same⟩ | ⟨_, before⟩
    · exact fresh old new same
    · exact tagged.current q old new before high member

theorem leave (tagged : Tagged floor tag cell count next chain phase) :
    Tagged floor tag cell count next chain (Function.update phase p .away) :=
  tagged.move (by simp) (by simp [Phase.seen]) (by simp)

theorem draw (tagged : Tagged floor tag cell count next chain phase) (drawn : tag x = count) :
    Tagged floor tag cell (count + 1) next chain (Function.update phase p (.pending x)) := by
  have seen : ∀ q y, (Function.update phase p (.pending x) q).seen = some y → (phase q).seen = some y := by
    intro q y this
    rcases update_cases (f := phase) (q := q) rfl with ⟨_, same⟩ | ⟨_, before⟩
    · rw [← same] at this
      cases this
    · rwa [← before] at this
  have pending : ∀ q y, Function.update phase p (.pending x) q = .pending y →
      (q = p ∧ y = x) ∨ phase q = .pending y := by
    intro q y this
    rcases update_cases this with ⟨here, same⟩ | ⟨_, before⟩
    · cases same
      exact .inl ⟨here, rfl⟩
    · exact .inr before
  constructor
  · intro y member
    have bound := tagged.chained y member
    omega
  · intro q y this
    have bound := tagged.seen q y (seen q y this)
    omega
  · intro q y this
    rcases pending q y this with ⟨_, rfl⟩ | before
    · omega
    · have bound := tagged.drawn q y before
      omega
  · intro q y this high
    rcases pending q y this with ⟨_, rfl⟩ | before
    · constructor
      · intro member
        have bound := tagged.chained y member
        omega
      · intro r again
        have bound := tagged.seen r y (seen r y again)
        omega
    · obtain ⟨outside, unseen⟩ := tagged.unseen q y before high
      exact ⟨outside, fun r again => unseen r (seen r y again)⟩
  · intro q r y z first second equal
    rcases pending q y first with ⟨left, rfl⟩ | before <;> rcases pending r z second with ⟨right, rfl⟩ | before'
    · rw [left, right]
    · have bound := tagged.drawn r z before'
      omega
    · have bound := tagged.drawn q y before
      omega
    · exact tagged.apart q r y z before before' equal
  · intro q old new swapping
    rcases update_cases swapping with ⟨_, same⟩ | ⟨_, before⟩
    · cases same
    · exact tagged.current q old new before

theorem push (tagged : Tagged floor tag cell count next chain phase) (pending : phase p = .pending x) :
    Tagged floor tag cell count next (x :: chain) (Function.update phase p .away) := by
  have left := tagged.leave (p := p)
  refine { left with chained := ?_, unseen := ?_, current := ?_ }
  · intro y member
    rcases List.mem_cons.mp member with rfl | member
    · have bound := tagged.drawn p y pending
      omega
    · exact tagged.chained y member
  · intro q y this high
    refine ⟨?_, (left.unseen q y this high).2⟩
    intro member
    rcases List.mem_cons.mp member with rfl | member
    · rcases update_cases this with ⟨_, same⟩ | ⟨other, before⟩
      · cases same
      · exact other (tagged.apart q p y y before pending rfl)
    · exact (left.unseen q y this high).1 member
  · intro q old new swapping high member
    rcases List.mem_cons.mp member with rfl | member
    · rcases update_cases swapping with ⟨_, same⟩ | ⟨_, before⟩
      · cases same
      · have again : (phase q).seen = some old := by rw [before]; rfl
        exact absurd again ((tagged.unseen p old pending high).2 q)
    · exact left.current q old new swapping high member

end Tagged

end TaggedStack
