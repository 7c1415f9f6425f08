import Mathlib.Logic.Relation
import Platypos.Library.Intervals
import Platypos.Memory.RootAllocator

namespace Platypos.Memory

open Intervals

def RunState.start (x : RunState) : Nat := x.range.start

def RunState.limit (x : RunState) : Nat := x.range.limit

/-- What the run list says about memory, without the descriptors that carry it. -/
abbrev Ledger := List RunState

namespace Ledger

def Sorted (l : Ledger) : Prop := Ordered RunState.start RunState.limit l

def Touches (x y : RunState) : Prop := y.status = x.status ∧ y.start = x.limit

instance (x y : RunState) : Decidable (Touches x y) := inferInstanceAs (Decidable (_ ∧ _))

def join (x y : RunState) : RunState := ⟨⟨x.range.start, x.range.size + y.range.size⟩, x.status⟩

def absorbNext (x : RunState) (post : Ledger) : RunState × Ledger :=
  match post with
  | [] => (x, [])
  | y :: rest => if Touches x y then (join x y, rest) else (x, y :: rest)

def absorbPrev (pre : Ledger) (x : RunState) : Ledger × RunState :=
  match pre.getLast? with
  | none => (pre, x)
  | some y => if Touches y x then (pre.dropLast, join y x) else (pre, x)

/-- The ledger around a run after it has been merged with its neighbours where possible. -/
def settle (pre : Ledger) (x : RunState) (post : Ledger) : Ledger :=
  (absorbPrev pre (absorbNext x post).1).1 ++
    (absorbPrev pre (absorbNext x post).1).2 :: (absorbNext x post).2

theorem absorbNext_apart {x : RunState} {post : Ledger} (apart : ∀ y ∈ post.head?, ¬ Touches x y) :
    absorbNext x post = (x, post) := by
  cases post with
  | nil => rfl
  | cons y rest =>
    have differ := apart y (by simp)
    simp [absorbNext, differ]

theorem absorbNext_touching {x y : RunState} {rest : Ledger} (touching : Touches x y) :
    absorbNext x (y :: rest) = (join x y, rest) := by
  simp [absorbNext, touching]

theorem absorbPrev_apart {x : RunState} {pre : Ledger} (apart : ∀ y ∈ pre.getLast?, ¬ Touches y x) :
    absorbPrev pre x = (pre, x) := by
  unfold absorbPrev
  cases last : pre.getLast? with
  | none => rfl
  | some y =>
    have differ := apart y last
    simp [differ]

theorem absorbPrev_touching {x y : RunState} {front : Ledger} (touching : Touches y x) :
    absorbPrev (front ++ [y]) x = (front, join y x) := by
  simp [absorbPrev, touching]

theorem settle_apart {pre post : Ledger} {x : RunState} (next : ∀ y ∈ post.head?, ¬ Touches x y)
    (prev : ∀ y ∈ pre.getLast?, ¬ Touches y x) : settle pre x post = pre ++ x :: post := by
  rw [settle, absorbNext_apart next, absorbPrev_apart prev]

inductive JoinStep (status : Status) : Ledger → Ledger → Prop where
  | merge (pre : Ledger) (x y : RunState) (post : Ledger) (touching : Touches x y) (kind : x.status = status) :
      JoinStep status (pre ++ x :: y :: post) (pre ++ join x y :: post)

theorem absorbNext_joins (pre : Ledger) (x : RunState) (post : Ledger) :
    (absorbNext x post).1.status = x.status ∧
      Relation.ReflTransGen (JoinStep x.status) (pre ++ x :: post)
        (pre ++ (absorbNext x post).1 :: (absorbNext x post).2) := by
  cases post with
  | nil => exact ⟨rfl, .refl⟩
  | cons y rest =>
    by_cases touching : Touches x y
    · rw [absorbNext_touching touching]
      exact ⟨rfl, .single (.merge pre x y rest touching rfl)⟩
    · rw [absorbNext_apart (by simpa using touching)]
      exact ⟨rfl, .refl⟩

theorem absorbPrev_joins (pre : Ledger) (x : RunState) (post : Ledger) :
    Relation.ReflTransGen (JoinStep x.status) (pre ++ x :: post)
      ((absorbPrev pre x).1 ++ (absorbPrev pre x).2 :: post) := by
  rcases List.eq_nil_or_concat pre with rfl | ⟨front, y, rfl⟩
  · exact .refl
  · rw [List.concat_eq_append]
    by_cases touching : Touches y x
    · rw [absorbPrev_touching touching, List.append_assoc, List.singleton_append]
      exact .single (.merge front y x post touching touching.1.symm)
    · rw [absorbPrev_apart (by simpa using touching)]

theorem settle_joins (pre : Ledger) (x : RunState) (post : Ledger) :
    Relation.ReflTransGen (JoinStep x.status) (pre ++ x :: post) (settle pre x post) := by
  have next := absorbNext_joins pre x post
  have prev := absorbPrev_joins pre (absorbNext x post).1 (absorbNext x post).2
  rw [next.1] at prev
  exact next.2.trans prev

theorem settle_preserves (property : Ledger → Prop) {pre post : Ledger} {x : RunState}
    (kept : ∀ l l', JoinStep x.status l l' → property l → property l')
    (initial : property (pre ++ x :: post)) : property (settle pre x post) := by
  have joins := settle_joins pre x post
  generalize settle pre x post = final at joins
  induction joins with
  | refl => exact initial
  | tail _ step ih => exact kept _ _ step ih

end Ledger

end Platypos.Memory
