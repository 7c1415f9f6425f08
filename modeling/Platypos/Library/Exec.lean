import Platypos.Library.Outcome

namespace Exec

open Outcome

universe u v w

variable {ε : Type v} {α : Type w} {σ β : Type u}

/-- Runs of a machine whose every step may fail: the outputs so far and the state reached. -/
def exec (step : σ → α → Except ε (β × σ)) : σ → List α → Except ε (List β × σ)
  | s, [] => .ok ([], s)
  | s, a :: as => do
    let (b, s') ← step s a
    let (bs, s'') ← exec step s' as
    return (b :: bs, s'')

theorem exec_cons_ok {step : σ → α → Except ε (β × σ)} {s final : σ} {a : α} {as : List α}
    {outs : List β} (run : exec step s (a :: as) = .ok (outs, final)) :
    ∃ b s' bs, step s a = .ok (b, s') ∧ exec step s' as = .ok (bs, final) ∧ outs = b :: bs := by
  simp only [exec, Bind.bind, Except.bind] at run
  cases first : step s a with
  | error e => simp [first] at run
  | ok next =>
    obtain ⟨b, s'⟩ := next
    simp only [first] at run
    cases rest : exec step s' as with
    | error e => simp [rest] at run
    | ok tail =>
      obtain ⟨bs, s''⟩ := tail
      simp only [rest, Pure.pure, Except.pure, Except.ok.injEq, Prod.mk.injEq] at run
      exact ⟨b, s', bs, rfl, by rw [rest, run.2], run.1.symm⟩

theorem exec_cons_of_ok {step : σ → α → Except ε (β × σ)} {s s' : σ} {a : α} {b : β} {as : List α}
    (first : step s a = .ok (b, s')) :
    exec step s (a :: as) = (exec step s' as).map fun r => (b :: r.1, r.2) := by
  simp only [exec, first, Bind.bind, Except.bind]
  cases exec step s' as <;> rfl

theorem exec_append_ok {step : σ → α → Except ε (β × σ)} {s mid final : σ} {as as' : List α}
    {bs bs' : List β} (first : exec step s as = .ok (bs, mid))
    (second : exec step mid as' = .ok (bs', final)) :
    exec step s (as ++ as') = .ok (bs ++ bs', final) := by
  induction as generalizing s bs with
  | nil =>
    simp only [exec, Except.ok.injEq, Prod.mk.injEq] at first
    obtain ⟨rfl, rfl⟩ := first
    exact second
  | cons a as ih =>
    obtain ⟨b, s', rest, one, many, rfl⟩ := exec_cons_ok first
    rw [List.cons_append, exec_cons_of_ok one, ih many]
    rfl

/-- No step of the run fails. -/
def Completes (step : σ → α → Except ε (β × σ)) (s : σ) (as : List α) : Prop :=
  ∃ outs final, exec step s as = .ok (outs, final)

theorem completes_cons_of_ok {step : σ → α → Except ε (β × σ)} {s s' : σ} {a : α} {b : β} {as : List α}
    (first : step s a = .ok (b, s')) : Completes step s (a :: as) ↔ Completes step s' as := by
  unfold Completes
  rw [exec_cons_of_ok first]
  cases exec step s' as with
  | error e => simp [Except.map]
  | ok r => exact iff_of_true ⟨b :: r.1, r.2, rfl⟩ ⟨r.1, r.2, rfl⟩

theorem not_completes_cons_of_error {step : σ → α → Except ε (β × σ)} {s : σ} {a : α} {e : ε} {as : List α}
    (first : step s a = .error e) : ¬ Completes step s (a :: as) := by
  rintro ⟨outs, final, run⟩
  obtain ⟨b, s', bs, second, _⟩ := exec_cons_ok run
  cases first.symm.trans second

def Always (step : σ → α → Except ε (β × σ)) (property : σ → Prop) (s : σ) (as : List α) : Prop :=
  ∀ reached outs final, reached <+: as → exec step s reached = .ok (outs, final) → property final

theorem always_nil {step : σ → α → Except ε (β × σ)} {property : σ → Prop} {s : σ} :
    Always step property s [] ↔ property s := by
  constructor
  · intro always
    exact always [] [] s List.nil_prefix rfl
  · intro start reached outs final short run
    rw [List.prefix_nil] at short
    subst short
    simp only [exec, Except.ok.injEq, Prod.mk.injEq] at run
    exact run.2 ▸ start

theorem always_cons {step : σ → α → Except ε (β × σ)} {property : σ → Prop} {s : σ} {a : α} {as : List α} :
    Always step property s (a :: as) ↔
      property s ∧ ∀ b s', step s a = .ok (b, s') → Always step property s' as := by
  constructor
  · intro always
    refine ⟨always [] [] s List.nil_prefix rfl, ?_⟩
    intro b s' first reached outs final short run
    apply always (a :: reached) (b :: outs) final (List.cons_prefix_cons.mpr ⟨rfl, short⟩)
    rw [exec_cons_of_ok first, run]
    rfl
  · intro always reached outs final short run
    cases reached with
    | nil =>
      simp only [exec, Except.ok.injEq, Prod.mk.injEq] at run
      exact run.2 ▸ always.1
    | cons a' reached =>
      rw [List.cons_prefix_cons] at short
      obtain ⟨rfl, short⟩ := short
      obtain ⟨b, s', bs, first, rest, _⟩ := exec_cons_ok run
      exact always.2 b s' first reached bs final short rest

/-- Every step of the run that can be taken is taken where the condition holds. -/
def Meets (step : σ → α → Except ε (β × σ)) (condition : σ → α → Prop) : σ → List α → Prop
  | _, [] => True
  | s, a :: as => condition s a ∧ ∀ b s', step s a = .ok (b, s') → Meets step condition s' as

theorem meets_cons_of_ok {step : σ → α → Except ε (β × σ)} {condition : σ → α → Prop} {s s' : σ} {a : α} {b : β}
    {as : List α} (first : step s a = .ok (b, s')) :
    Meets step condition s (a :: as) ↔ condition s a ∧ Meets step condition s' as := by
  refine and_congr_right fun _ => ⟨fun rest => rest b s' first, ?_⟩
  intro rest b' s'' second
  cases first.symm.trans second
  exact rest

theorem meets_cons_of_error {step : σ → α → Except ε (β × σ)} {condition : σ → α → Prop} {s : σ} {a : α} {e : ε}
    {as : List α} (first : step s a = .error e) : Meets step condition s (a :: as) ↔ condition s a := by
  refine and_iff_left ?_
  intro b s' second
  cases first.symm.trans second

instance decidableMeets {step : σ → α → Except ε (β × σ)} {condition : σ → α → Prop}
    [∀ s a, Decidable (condition s a)] : ∀ s as, Decidable (Meets step condition s as)
  | _, [] => .isTrue trivial
  | s, a :: as =>
    match first : step s a with
    | .error _ => decidable_of_iff (condition s a) (meets_cons_of_error first).symm
    | .ok (_, s') =>
      have : Decidable (Meets step condition s' as) := decidableMeets s' as
      decidable_of_iff (condition s a ∧ Meets step condition s' as) (meets_cons_of_ok first).symm

section Congr

variable {step step' : σ → α → Except ε (β × σ)} {as : List α}

/-- Machines that take the same steps on the inputs of a run go through the same run. -/
theorem exec_congr (same : ∀ a ∈ as, ∀ s, step s a = step' s a) (s : σ) : exec step s as = exec step' s as := by
  induction as generalizing s with
  | nil => rfl
  | cons a as ih =>
    obtain ⟨here, there⟩ := List.forall_mem_cons.mp same
    rw [exec, exec, here]
    simp only [ih there]

theorem meets_congr {condition : σ → α → Prop} (same : ∀ a ∈ as, ∀ s, step s a = step' s a) (s : σ) :
    Meets step condition s as ↔ Meets step' condition s as := by
  induction as generalizing s with
  | nil => exact Iff.rfl
  | cons a as ih =>
    obtain ⟨here, there⟩ := List.forall_mem_cons.mp same
    rw [Meets, Meets, here]
    simp only [ih there]

end Congr

/-- A ghost value updated by every step from its input and output. -/
def ghost {γ : Type u} (update : γ → α → β → γ) (g : γ) (as : List α) (bs : List β) : γ :=
  (as.zip bs).foldl (fun g ab => update g ab.1 ab.2) g

/-- An invariant of single steps, about the state and a ghost of the history, is an invariant of whole runs,
    and bounds the failures a run can end in. -/
theorem exec_ensures {γ : Type u} {step : σ → α → Except ε (β × σ)} {inv : γ → σ → Prop} {failures : ε → Prop}
    (allowed : α → Prop) (update : γ → α → β → γ)
    (preserved : ∀ g s a, inv g s → allowed a → Ensures (step s a) (fun r => inv (update g a r.1) r.2) failures)
    {g : γ} {s : σ} (start : inv g s) (as : List α) (inputs : ∀ a ∈ as, allowed a) :
    Ensures (exec step s as) (fun r => inv (ghost update g as r.1) r.2) failures := by
  induction as generalizing g s with
  | nil => exact start
  | cons a as ih =>
    apply (preserved g s a start (inputs a (by simp))).bind
    intro r kept
    apply (ih kept fun a member => inputs a (by simp [member])).bind
    intro r' kept'
    exact kept'

/-- An invariant of the outputs so far and the state, kept by single steps, is one of whole runs. -/
theorem exec_history {step : σ → α → Except ε (β × σ)} {inv : List β → σ → Prop} {failures : ε → Prop}
    (preserved : ∀ outs s a, inv outs s → Ensures (step s a) (fun r => inv (outs ++ [r.1]) r.2) failures)
    {outs : List β} {s : σ} (start : inv outs s) (as : List α) :
    Ensures (exec step s as) (fun r => inv (outs ++ r.1) r.2) failures := by
  induction as generalizing outs s with
  | nil =>
    rw [exec, ensures_ok, List.append_nil]
    exact start
  | cons a as ih =>
    apply (preserved outs s a start).bind
    intro r kept
    apply (ih kept).bind
    intro r' kept'
    rw [List.append_assoc] at kept'
    exact kept'

end Exec
