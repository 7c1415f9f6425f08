import Mathlib.Data.List.Induction

namespace Nesting

universe u

variable {ι : Type u}

/-- An event of a program with scopes. -/
inductive Scope (ι : Type u) where
  | enter (i : ι)
  | leave (i : ι)

/-- Every scope that is entered is left, the innermost first. -/
inductive Balanced : List (Scope ι) → Prop where
  | nil : Balanced []
  | wrap (i : ι) {inner rest : List (Scope ι)} (inside : Balanced inner) (after : Balanced rest) :
      Balanced (.enter i :: (inner ++ .leave i :: rest))

theorem Balanced.append {l l' : List (Scope ι)} (first : Balanced l) (second : Balanced l') : Balanced (l ++ l') := by
  induction first with
  | nil => exact second
  | wrap i inside after _ ih =>
    rw [List.cons_append, List.append_assoc, List.cons_append]
    exact .wrap i inside ih

/-- Only the innermost of the scopes that are open is ever left. Scopes may stay open. -/
def Nested (l : List (Scope ι)) : Prop :=
  ∀ before i after, l = before ++ .leave i :: after →
    ∃ outer inner, before = outer ++ .enter i :: inner ∧ Balanced inner

theorem nested_nil : Nested ([] : List (Scope ι)) := by
  intro before i after split
  cases before <;> cases split

theorem Nested.left {l l' : List (Scope ι)} (nested : Nested (l ++ l')) : Nested l := by
  rintro before i after rfl
  exact nested before i (after ++ l') (by rw [List.append_assoc, List.cons_append])

theorem Nested.snoc {l : List (Scope ι)} {event : Scope ι} (nested : Nested l)
    (last : ∀ i, event = .leave i → ∃ outer inner, l = outer ++ .enter i :: inner ∧ Balanced inner) :
    Nested (l ++ [event]) := by
  intro before i after split
  rcases List.eq_nil_or_concat after with rfl | ⟨after', final, rfl⟩
  · obtain ⟨rfl, same⟩ := List.append_inj' split rfl
    exact last i (List.singleton_inj.mp same)
  · rw [List.concat_eq_append, ← List.cons_append, ← List.append_assoc] at split
    exact nested before i after' (List.append_inj' split rfl).1

/-- The events leave the stack open: between its scopes everything is balanced. -/
def Opens : List (Scope ι) → List ι → Prop
  | l, [] => Balanced l
  | l, i :: stack => ∃ outer inner, l = outer ++ .enter i :: inner ∧ Balanced inner ∧ Opens outer stack

theorem Opens.append {l l' : List (Scope ι)} {stack : List ι} (opens : Opens l stack) (balanced : Balanced l') :
    Opens (l ++ l') stack := by
  cases stack with
  | nil => exact Balanced.append opens balanced
  | cons i stack =>
    obtain ⟨outer, inner, rfl, inside, below⟩ := opens
    exact ⟨outer, inner ++ l', by rw [List.append_assoc, List.cons_append], inside.append balanced, below⟩

variable [DecidableEq ι]

/-- A stack, its top first, of the scopes that are open. -/
def follow : List ι → List (Scope ι) → Option (List ι)
  | stack, [] => some stack
  | stack, .enter i :: l => follow (i :: stack) l
  | stack, .leave i :: l => if stack.head? = some i then follow stack.tail l else none

theorem follow_append (stack : List ι) (l l' : List (Scope ι)) :
    follow stack (l ++ l') = (follow stack l).bind fun stack' => follow stack' l' := by
  induction l generalizing stack with
  | nil => rfl
  | cons event l ih =>
    cases event with
    | enter i => exact ih (i :: stack)
    | leave i =>
      simp only [List.cons_append, follow]
      split
      · exact ih stack.tail
      · rfl

theorem Balanced.follow {l : List (Scope ι)} (balanced : Balanced l) (stack : List ι) : follow stack l = some stack := by
  induction balanced generalizing stack with
  | nil => rfl
  | wrap i inside after ih ih' => simp [Nesting.follow, follow_append, ih, ih']

theorem nested_of_follow {l : List (Scope ι)} {stack : List ι} (followed : follow [] l = some stack) :
    Nested l ∧ Opens l stack := by
  induction l using List.reverseRecOn generalizing stack with
  | nil =>
    cases followed
    exact ⟨nested_nil, .nil⟩
  | append_singleton l event ih =>
    rw [follow_append] at followed
    obtain ⟨before, earlier, last⟩ := Option.bind_eq_some_iff.mp followed
    obtain ⟨nested, opens⟩ := ih earlier
    cases event with
    | enter i =>
      cases last
      exact ⟨nested.snoc nofun, l, [], rfl, .nil, opens⟩
    | leave i =>
      simp only [follow] at last
      split at last
      · rename_i top
        cases last
        cases before with
        | nil => cases top
        | cons j below =>
          cases top
          obtain ⟨outer, inner, rfl, inside, deeper⟩ := opens
          refine ⟨nested.snoc ?_, ?_⟩
          · rintro _ ⟨⟩
            exact ⟨outer, inner, rfl, inside⟩
          · rw [List.append_assoc]
            exact deeper.append (.wrap i inside .nil)
      · cases last

/-- A stack checks nesting. -/
theorem nested_iff_follow {l : List (Scope ι)} : Nested l ↔ (follow [] l).isSome := by
  constructor
  · intro nested
    induction l using List.reverseRecOn with
    | nil => rfl
    | append_singleton l event ih =>
      obtain ⟨stack, earlier⟩ := Option.isSome_iff_exists.mp (ih nested.left)
      rw [follow_append, earlier]
      cases event with
      | enter i => rfl
      | leave i =>
        obtain ⟨outer, inner, rfl, inside⟩ := nested l i [] rfl
        rw [follow_append] at earlier
        obtain ⟨below, _, rest⟩ := Option.bind_eq_some_iff.mp earlier
        cases (inside.follow (i :: below)).symm.trans rest
        simp [follow]
  · intro followed
    obtain ⟨stack, same⟩ := Option.isSome_iff_exists.mp followed
    exact (nested_of_follow same).1

instance (l : List (Scope ι)) : Decidable (Nested l) := decidable_of_iff _ nested_iff_follow.symm

end Nesting
