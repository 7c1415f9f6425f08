import Mathlib.Data.List.Infix

namespace Schedule

universe u v

variable {σ : Type u} {α : Type v}

def run (step : σ → α → Option σ) : σ → List α → Option σ
  | s, [] => some s
  | s, a :: as => (step s a).bind fun s' => run step s' as

/-- Every step of the run is taken from a state that meets the condition. -/
def Meets (step : σ → α → Option σ) (condition : σ → α → Prop) : σ → List α → Prop
  | _, [] => True
  | s, a :: as => condition s a ∧ ∀ s', step s a = some s' → Meets step condition s' as

instance decidableMeets (step : σ → α → Option σ) (condition : σ → α → Prop) [∀ s a, Decidable (condition s a)] :
    ∀ s as, Decidable (Meets step condition s as)
  | _, [] => .isTrue trivial
  | s, a :: as =>
    match stepped : step s a with
    | none => decidable_of_iff (condition s a) (by simp [Meets, stepped])
    | some s' =>
      have := decidableMeets step condition s' as
      decidable_of_iff (condition s a ∧ Meets step condition s' as) (by simp [Meets, stepped])

/-- Every state the run goes through has the property, the first and the last included. -/
def Throughout (step : σ → α → Option σ) (property : σ → Prop) (s : σ) (as : List α) : Prop :=
  ∀ visited s', visited <+: as → run step s visited = some s' → property s'

variable {step : σ → α → Option σ} {s final : σ} {a : α} {as : List α}

theorem run_cons : run step s (a :: as) = some final ↔ ∃ s', step s a = some s' ∧ run step s' as = some final := by
  simp only [run, Option.bind_eq_some_iff]

theorem run_append {bs : List α} : run step s (as ++ bs) = (run step s as).bind fun s' => run step s' bs := by
  induction as generalizing s with
  | nil => rfl
  | cons a as ih =>
    simp only [List.cons_append, run, Option.bind_assoc]
    congr 1
    funext s'
    exact ih

theorem run_ensures {inv : σ → Prop} (preserved : ∀ s a s', inv s → step s a = some s' → inv s') (start : inv s)
    (reached : run step s as = some final) : inv final := by
  induction as generalizing s with
  | nil =>
    cases reached
    exact start
  | cons a as ih =>
    obtain ⟨s', stepped, rest⟩ := run_cons.mp reached
    exact ih (preserved s a s' start stepped) rest

/-- If every step that counts as work is paid for by what is granted, by a fall of the potential or by a rise of the
    level, so is the work of the run. -/
theorem run_amortised {works grants : α → Prop} [DecidablePred works] [DecidablePred grants] {fee : Nat}
    {potential level : σ → Nat}
    (paid : ∀ s a s', step s a = some s' → (if works a then 1 else 0) + potential s' + level s ≤
      potential s + (if grants a then fee else 0) + level s') (reached : run step s as = some final) :
    as.countP (fun a => works a) + potential final + level s ≤
      potential s + fee * as.countP (fun a => grants a) + level final := by
  induction as generalizing s with
  | nil =>
    cases reached
    simp only [List.countP_nil]
    omega
  | cons a as ih =>
    obtain ⟨s', stepped, rest⟩ := run_cons.mp reached
    have first := paid s a s' stepped
    have later := ih rest
    rw [List.countP_cons, List.countP_cons, Nat.mul_add]
    by_cases work : works a <;> by_cases grant : grants a <;>
      simp only [work, grant, decide_true, decide_false, if_true, if_false, Bool.false_eq_true] at first ⊢ <;> omega

theorem Throughout.here {property : σ → Prop} (throughout : Throughout step property s as) : property s :=
  throughout [] s List.nil_prefix rfl

theorem Throughout.next {property : σ → Prop} {s' : σ} (throughout : Throughout step property s (a :: as))
    (stepped : step s a = some s') : Throughout step property s' as := by
  intro visited reached short run'
  apply throughout (a :: visited) reached (List.cons_prefix_cons.mpr ⟨rfl, short⟩)
  exact run_cons.mpr ⟨s', stepped, run'⟩

/-- If every step that meets the condition keeps an invariant, the invariant's consequences hold throughout. -/
theorem throughout_of_meets {inv property : σ → Prop} {condition : σ → α → Prop}
    (preserved : ∀ s a s', inv s → condition s a → step s a = some s' → inv s') (holds : ∀ s, inv s → property s)
    (start : inv s) (meets : Meets step condition s as) : Throughout step property s as := by
  induction as generalizing s with
  | nil =>
    intro visited s' short run'
    obtain rfl := List.prefix_nil.mp short
    cases run'
    exact holds s start
  | cons a as ih =>
    intro visited s' short run'
    cases visited with
    | nil =>
      cases run'
      exact holds s start
    | cons b visited =>
      obtain ⟨rfl, shorter⟩ := List.cons_prefix_cons.mp short
      obtain ⟨mid, stepped, rest⟩ := run_cons.mp run'
      exact ih (preserved s b mid start meets.1 stepped) (meets.2 mid stepped) visited s' shorter rest

/-- If an invariant gives the condition for every action that is allowed, a run of such actions meets it. -/
theorem meets_of_allowed {inv : σ → Prop} {condition : σ → α → Prop} {allowed : α → Prop}
    (preserved : ∀ s a s', inv s → condition s a → step s a = some s' → inv s')
    (holds : ∀ s a, inv s → allowed a → condition s a) (start : inv s) (inputs : ∀ a ∈ as, allowed a) :
    Meets step condition s as := by
  induction as generalizing s with
  | nil => trivial
  | cons a as ih =>
    obtain ⟨first, rest⟩ := List.forall_mem_cons.mp inputs
    have met := holds s a start first
    exact ⟨met, fun s' stepped => ih (preserved s a s' start met stepped) rest⟩

theorem Meets.and {condition condition' : σ → α → Prop} (meets : Meets step condition s as)
    (meets' : Meets step condition' s as) : Meets step (fun s a => condition s a ∧ condition' s a) s as := by
  induction as generalizing s with
  | nil => trivial
  | cons a as ih => exact ⟨⟨meets.1, meets'.1⟩, fun s' stepped => ih (meets.2 s' stepped) (meets'.2 s' stepped)⟩

/-- If every step that misses the condition breaks the property, a run that keeps the property meets it. -/
theorem meets_of_throughout {inv property : σ → Prop} {condition : σ → α → Prop}
    (preserved : ∀ s a s', inv s → condition s a → step s a = some s' → inv s')
    (broken : ∀ s a s', inv s → ¬ condition s a → step s a = some s' → ¬ property s') (start : inv s)
    (reached : run step s as = some final) (throughout : Throughout step property s as) :
    Meets step condition s as := by
  induction as generalizing s with
  | nil => trivial
  | cons a as ih =>
    obtain ⟨mid, stepped, rest⟩ := run_cons.mp reached
    have met : condition s a := by
      by_contra missed
      exact broken s a mid start missed stepped (throughout.next stepped).here
    refine ⟨met, ?_⟩
    intro s' stepped'
    obtain rfl : mid = s' := Option.some.inj (stepped.symm.trans stepped')
    exact ih (preserved s a mid start met stepped) rest (throughout.next stepped)

/-- A state from which every step breaks the property is visited by no run that goes on from it and keeps it. -/
theorem Throughout.not_doomed {property doomed : σ → Prop}
    (breaks : ∀ s a s', doomed s → step s a = some s' → ¬ property s')
    (reached : run step s as = some final) (ended : ¬ doomed final) (throughout : Throughout step property s as) :
    Throughout step (fun s => ¬ doomed s) s as := by
  intro visited s' short run' bad
  obtain ⟨rest, rfl⟩ := short
  rw [run_append, run', Option.bind_some] at reached
  cases rest with
  | nil =>
    cases reached
    exact ended bad
  | cons a rest =>
    obtain ⟨next, stepped, _⟩ := run_cons.mp reached
    apply breaks s' a next bad stepped
    apply throughout (visited ++ [a]) next
    · exact (List.prefix_append_right_inj visited).mpr (List.cons_prefix_cons.mpr ⟨rfl, List.nil_prefix⟩)
    · rw [run_append, run', Option.bind_some, run_cons]
      exact ⟨next, stepped, rfl⟩

end Schedule
