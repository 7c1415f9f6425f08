import Mathlib.Data.List.Basic

namespace Outcome

universe u v

variable {ε : Type v} {α β : Type u}

/-- A fallible computation either returns a value satisfying `post` or fails with one of `failures`. -/
def Ensures (x : Except ε α) (post : α → Prop) (failures : ε → Prop) : Prop :=
  match x with
  | .ok a => post a
  | .error e => failures e

@[simp] theorem ensures_ok {a : α} {post : α → Prop} {failures : ε → Prop} :
    Ensures (.ok a) post failures ↔ post a := Iff.rfl

@[simp] theorem ensures_pure {a : α} {post : α → Prop} {failures : ε → Prop} :
    Ensures (pure a) post failures ↔ post a := Iff.rfl

@[simp] theorem ensures_error {e : ε} {post : α → Prop} {failures : ε → Prop} :
    Ensures (.error e) post failures ↔ failures e := Iff.rfl

theorem Ensures.mono {x : Except ε α} {post post' : α → Prop} {failures failures' : ε → Prop}
    (spec : Ensures x post failures) (weaker : ∀ a, x = .ok a → post a → post' a)
    (allowed : ∀ e, failures e → failures' e) : Ensures x post' failures' := by
  cases x with
  | ok a => exact weaker a rfl spec
  | error e => exact allowed e spec

theorem Ensures.imp {x : Except ε α} {post post' : α → Prop} {failures : ε → Prop}
    (spec : Ensures x post failures) (weaker : ∀ a, post a → post' a) : Ensures x post' failures :=
  spec.mono (fun a _ => weaker a) fun _ => id

theorem Ensures.bind {x : Except ε α} {f : α → Except ε β} {mid : α → Prop} {post : β → Prop}
    {failures : ε → Prop} (first : Ensures x mid failures)
    (rest : ∀ a, mid a → Ensures (f a) post failures) : Ensures (x >>= f) post failures := by
  cases x with
  | ok a => exact rest a first
  | error e => exact first

theorem ensures_any (x : Except ε α) : Ensures x (fun _ => True) fun _ => True := by
  cases x <;> trivial

theorem Ensures.and {x : Except ε α} {post post' : α → Prop} {failures failures' : ε → Prop}
    (first : Ensures x post failures) (second : Ensures x post' failures') :
    Ensures x (fun a => post a ∧ post' a) failures := by
  cases x with
  | ok a => exact ⟨first, second⟩
  | error e => exact first

theorem Ensures.mapError {ε' : Type v} {f : ε → ε'} {x : Except ε α} {post : α → Prop} {failures : ε → Prop}
    {failures' : ε' → Prop} (spec : Ensures x post failures) (mapped : ∀ e, failures e → failures' (f e)) :
    Ensures (x.mapError f) post failures' := by
  cases x with
  | ok a => exact spec
  | error e => exact mapped e spec

theorem Ensures.of_ok {x : Except ε α} {post : α → Prop} {failures : ε → Prop} {a : α}
    (spec : Ensures x post failures) (same : x = .ok a) : post a := by
  subst same
  exact spec

theorem Ensures.of_error {x : Except ε α} {post : α → Prop} {failures : ε → Prop} {e : ε}
    (spec : Ensures x post failures) (same : x = .error e) : failures e := by
  subst same
  exact spec

def failure (x : Except ε α) : Option ε :=
  match x with
  | .ok _ => none
  | .error e => some e

theorem eq_error_of_failure {x : Except ε α} {e : ε} (failed : failure x = some e) : x = .error e := by
  cases x with
  | ok a => cases failed
  | error e' => rw [Option.some.inj failed]

theorem mapM_ok {f : α → Except ε β} {g : α → β} {xs : List α} (each : ∀ x ∈ xs, f x = .ok (g x)) :
    xs.mapM f = .ok (xs.map g) := by
  induction xs with
  | nil => rfl
  | cons x xs ih =>
    rw [List.forall_mem_cons] at each
    rw [List.mapM_cons, each.1, ih each.2]
    rfl

theorem mem_of_mapM_ok {f : α → Except ε β} {xs : List α} {ys : List β} (done : xs.mapM f = .ok ys) {y : β}
    (member : y ∈ ys) : ∃ x ∈ xs, f x = .ok y := by
  induction xs generalizing ys with
  | nil =>
    cases done
    cases member
  | cons x xs ih =>
    rw [List.mapM_cons] at done
    cases first : f x with
    | error e =>
      rw [first] at done
      cases done
    | ok z =>
      cases rest : xs.mapM f with
      | error e =>
        rw [first, rest] at done
        cases done
      | ok zs =>
        rw [first, rest] at done
        cases done
        rcases List.mem_cons.mp member with rfl | later
        · exact ⟨x, List.mem_cons_self, first⟩
        · obtain ⟨x', member', same⟩ := ih rest later
          exact ⟨x', List.mem_cons_of_mem _ member', same⟩

theorem ok_of_mapM_ok {f : α → Except ε β} {xs : List α} {ys : List β} (done : xs.mapM f = .ok ys) {x : α}
    (member : x ∈ xs) : ∃ y, f x = .ok y := by
  induction xs generalizing ys with
  | nil => cases member
  | cons z xs ih =>
    rw [List.mapM_cons] at done
    cases first : f z with
    | error e =>
      rw [first] at done
      cases done
    | ok y =>
      cases rest : xs.mapM f with
      | error e =>
        rw [first, rest] at done
        cases done
      | ok ys =>
        rcases List.mem_cons.mp member with rfl | later
        · exact ⟨y, first⟩
        · exact ih rest later

theorem forM_ok {f : α → Except ε PUnit} {xs : List α} (each : ∀ x ∈ xs, f x = .ok ⟨⟩) :
    xs.forM f = .ok ⟨⟩ := by
  induction xs with
  | nil => rfl
  | cons x xs ih =>
    rw [List.forall_mem_cons] at each
    rw [List.forM, each.1]
    exact ih each.2

/-- A loop whose every turn succeeds and keeps an invariant. -/
theorem foldlM_ok {f : β → α → Except ε β} {inv : β → Prop} {xs : List α}
    (turn : ∀ x ∈ xs, ∀ b, inv b → ∃ b', f b x = .ok b' ∧ inv b') {b : β} (start : inv b) :
    ∃ b', xs.foldlM f b = .ok b' ∧ inv b' := by
  induction xs generalizing b with
  | nil => exact ⟨b, rfl, start⟩
  | cons x xs ih =>
    obtain ⟨here, later⟩ := List.forall_mem_cons.mp turn
    obtain ⟨b₁, first, kept⟩ := here b start
    obtain ⟨b₂, rest, kept'⟩ := ih later kept
    refine ⟨b₂, ?_, kept'⟩
    rw [List.foldlM_cons, first]
    exact rest

theorem map_eq_ok {x : Except ε α} {f : α → β} {b : β} : x.map f = .ok b ↔ ∃ a, x = .ok a ∧ f a = b := by
  cases x <;> simp [Except.map]

theorem bind_eq_ok {x : Except ε α} {f : α → Except ε β} {b : β} :
    x >>= f = .ok b ↔ ∃ a, x = .ok a ∧ f a = .ok b := by
  cases x with
  | ok a =>
    refine ⟨fun done => ⟨a, rfl, done⟩, ?_⟩
    rintro ⟨_, ⟨⟩, done⟩
    exact done
  | error e => exact iff_of_false (fun done => by cases done) fun ⟨_, done, _⟩ => by cases done

theorem toOption_eq_some {x : Except ε α} {a : α} : x.toOption = some a ↔ x = .ok a := by
  cases x <;> simp [Except.toOption]

theorem mapError_eq_ok {ε' : Type v} {g : ε → ε'} {x : Except ε α} {a : α} : x.mapError g = .ok a ↔ x = .ok a := by
  cases x <;> simp [Except.mapError]

theorem mapError_bind {ε' : Type v} (g : ε → ε') (x : Except ε α) (f : α → Except ε β) :
    (x >>= f).mapError g = x.mapError g >>= fun a => (f a).mapError g := by
  cases x <;> rfl

end Outcome
