import Mathlib.Data.List.Basic

namespace PrefixCodec

universe u

variable {B ε α β : Type u} {eof : ε}

theorem run_bind_ok {p : StateT (List B) (Except ε) α} {f : α → StateT (List B) (Except ε) β} {input : List B}
    {outcome : β × List B} (run : (p >>= f).run input = .ok outcome) :
    ∃ a middle, p.run input = .ok (a, middle) ∧ (f a).run middle = .ok outcome := by
  rw [StateT.run_bind] at run
  cases first : p.run input with
  | error error =>
    rw [first] at run
    cases run
  | ok result =>
    obtain ⟨a, middle⟩ := result
    rw [first] at run
    exact ⟨a, middle, rfl, run⟩

/-- A parser recognises these bytes as `a`, whatever follows them, and asks for more if they are cut short. -/
structure Reads (eof : ε) (p : StateT (List B) (Except ε) α) (bytes : List B) (a : α) : Prop where
  whole : ∀ rest, p.run (bytes ++ rest) = .ok (a, rest)
  cut : ∀ front back, bytes = front ++ back → back ≠ [] → p.run front = .error eof

namespace Reads

variable {p : StateT (List B) (Except ε) α} {f : α → StateT (List B) (Except ε) β} {bytes bytes' : List B} {a : α} {b : β}

theorem pure (a : α) : Reads eof (Pure.pure a : StateT (List B) (Except ε) α) [] a where
  whole _ := rfl
  cut _ _ split more := absurd (List.append_eq_nil_iff.mp split.symm).2 more

theorem bind (first : Reads eof p bytes a) (second : Reads eof (f a) bytes' b) :
    Reads eof (p >>= f) (bytes ++ bytes') b where
  whole rest := by
    rw [StateT.run_bind, List.append_assoc, first.whole]
    exact second.whole rest
  cut front back split more := by
    rw [StateT.run_bind]
    rcases List.append_eq_append_iff.mp split with ⟨middle, inFirst, later⟩ | ⟨middle, later, inSecond⟩
    · subst inFirst
      rw [first.whole]
      exact second.cut middle back later more
    · cases middle with
      | nil =>
        rw [List.append_nil] at later
        rw [List.nil_append] at inSecond
        have read := first.whole []
        rw [List.append_nil, later] at read
        rw [read]
        exact second.cut [] back (by rw [inSecond, List.nil_append]) more
      | cons x middle =>
        rw [first.cut front (x :: middle) later (by simp)]
        rfl

theorem last (g : α → β) (reads : Reads eof p bytes a) : Reads eof (p >>= fun a => Pure.pure (g a)) bytes (g a) := by
  have both : Reads eof (p >>= fun a => Pure.pure (g a)) (bytes ++ []) (g a) := reads.bind (pure (g a))
  rwa [List.append_nil] at both

end Reads

/-- A parser that succeeds has taken at least this many bytes off the front. -/
def Consumes (least : Nat) (p : StateT (List B) (Except ε) α) : Prop :=
  ∀ input a rest, p.run input = .ok (a, rest) → ∃ used, input = used ++ rest ∧ least ≤ used.length

namespace Consumes

variable {p : StateT (List B) (Except ε) α} {f : α → StateT (List B) (Except ε) β} {least : Nat}

theorem pure (a : α) : Consumes 0 (Pure.pure a : StateT (List B) (Except ε) α) := by
  intro input a' rest run
  cases run
  exact ⟨[], rfl, Nat.le_refl 0⟩

theorem throw (error : ε) : Consumes least (MonadExcept.throw error : StateT (List B) (Except ε) α) := by
  intro input a rest run
  cases run

theorem bind (first : Consumes least p) (second : ∀ a, Consumes 0 (f a)) : Consumes least (p >>= f) := by
  intro input b rest run
  obtain ⟨a, middle, one, two⟩ := run_bind_ok run
  obtain ⟨used, rfl, enough⟩ := first input a middle one
  obtain ⟨used', rfl, _⟩ := second a middle b rest two
  refine ⟨used ++ used', by rw [List.append_assoc], ?_⟩
  rw [List.length_append]
  omega

theorem add {more : Nat} (first : Consumes least p) (second : ∀ a, Consumes more (f a)) :
    Consumes (least + more) (p >>= f) := by
  intro input b rest run
  obtain ⟨a, middle, one, two⟩ := run_bind_ok run
  obtain ⟨used, rfl, enough⟩ := first input a middle one
  obtain ⟨used', rfl, enough'⟩ := second a middle b rest two
  refine ⟨used ++ used', by rw [List.append_assoc], ?_⟩
  rw [List.length_append]
  omega

theorem any (consumes : Consumes least p) : Consumes 0 p := by
  intro input a rest run
  obtain ⟨used, split, _⟩ := consumes input a rest run
  exact ⟨used, split, Nat.zero_le _⟩

end Consumes

/-- A parser that does not ask for more gives the same answer if there is more. -/
structure Settles (eof : ε) (p : StateT (List B) (Except ε) α) : Prop where
  ok : ∀ input a rest, p.run input = .ok (a, rest) → ∀ more, p.run (input ++ more) = .ok (a, rest ++ more)
  error : ∀ input error, p.run input = .error error → error ≠ eof → ∀ more, p.run (input ++ more) = .error error

namespace Settles

variable {p : StateT (List B) (Except ε) α} {f : α → StateT (List B) (Except ε) β}

theorem pure (a : α) : Settles eof (Pure.pure a : StateT (List B) (Except ε) α) where
  ok input a' rest run more := by
    cases run
    rfl
  error _ _ run := by cases run

theorem throw (error : ε) : Settles eof (MonadExcept.throw error : StateT (List B) (Except ε) α) where
  ok _ _ _ run := by cases run
  error _ _ run _ _ := run

theorem bind (first : Settles eof p) (second : ∀ a, Settles eof (f a)) : Settles eof (p >>= f) where
  ok input b rest run more := by
    obtain ⟨a, middle, one, two⟩ := run_bind_ok run
    rw [StateT.run_bind, first.ok input a middle one more]
    exact (second a).ok middle b rest two more
  error input error run final more := by
    rw [StateT.run_bind] at run ⊢
    cases one : p.run input with
    | error error' =>
      rw [one] at run
      cases run
      rw [first.error input error one final more]
      rfl
    | ok result =>
      obtain ⟨a, middle⟩ := result
      rw [one] at run
      rw [first.ok input a middle one more]
      exact (second a).error middle error run final more

end Settles

/-- Everything the parser accepts from fewer than `bound` bytes has this property. -/
structure Yields (bound : Nat) (q : α → Prop) (p : StateT (List B) (Except ε) α) : Prop where
  holds : ∀ input a rest, input.length < bound → p.run input = .ok (a, rest) → q a

namespace Yields

variable {p : StateT (List B) (Except ε) α} {f : α → StateT (List B) (Except ε) β} {q : α → Prop} {r : β → Prop}
  {bound : Nat}

theorem pure {a : α} (holds : q a) : Yields bound q (Pure.pure a : StateT (List B) (Except ε) α) where
  holds input a' rest _ run := by
    cases run
    exact holds

theorem throw (error : ε) : Yields bound q (MonadExcept.throw error : StateT (List B) (Except ε) α) where
  holds _ _ _ _ run := by cases run

theorem bind (first : Yields bound q p) (consumes : Consumes 0 p) (second : ∀ a, q a → Yields bound r (f a)) :
    Yields bound r (p >>= f) where
  holds input b rest short run := by
    obtain ⟨a, middle, one, two⟩ := run_bind_ok run
    obtain ⟨used, rfl, _⟩ := consumes input a middle one
    have fewer : middle.length < bound := by
      rw [List.length_append] at short
      omega
    exact (second a (first.holds _ a middle short one)).holds middle b rest fewer two

end Yields

end PrefixCodec
