import Platypos.Sync.Preemption

namespace Platypos.Sync

namespace Processor

variable {M : Type} {s s' : Processor M} {action : Action M}

/-- A step keeps the spinlocks, takes the one it wants, or gives back that of the guard it drops. -/
theorem Steps.locks (stepped : Steps s action s') :
    s'.locks.Perm s.locks ∧ (∀ position, action = .drop position → s.held[position]?.bind Held.inner = none) ∨
      (∃ mutex, s.wanted = some mutex ∧ s'.locks = mutex :: s.locks ∧ ∃ taken, action = .advance taken) ∨
      ∃ mutex position, action = .drop position ∧ s.held[position]?.bind Held.inner = some mutex ∧
        (mutex :: s'.locks).Perm s.locks := by
  cases stepped with
  | reads call pc => exact .inl ⟨.refl _, nofun⟩
  | disables taken call enableFlag pc => exact .inl ⟨.of_eq (proceed_locks _ _), nofun⟩
  | spins taken mutex guard pc => exact .inl ⟨.refl _, nofun⟩
  | fails taken mutex guard pc => exact .inl ⟨.refl _, nofun⟩
  | restores taken guard pc => exact .inl ⟨.refl _, nofun⟩
  | acquires taken mutex guard pc =>
    refine .inr (.inl ⟨mutex, ?_, rfl, taken, rfl⟩)
    rcases pc with pc | pc <;> simp only [wanted, pc]
  | drops position dropped pc found =>
    have fewer := (perm_of_dropped found).filterMap Held.inner
    cases inner : dropped.inner with
    | none =>
      rw [List.filterMap_cons_none inner] at fewer
      refine .inl ⟨fewer, ?_⟩
      rintro _ ⟨⟩
      rw [found]
      exact inner
    | some mutex =>
      rw [List.filterMap_cons_some inner] at fewer
      exact .inr (.inr ⟨mutex, position, rfl, by rw [found]; exact inner, fewer⟩)

/-- A step that tries a spinlock takes it if it is free. -/
theorem step_wanted [DecidableEq M] {mutex : M} {taken : Bool} (wanted : s.wanted = some mutex)
    (stepped : s.step (.advance taken) = some s') :
    if taken || mutex ∈ s.locks then s'.locks = s.locks else s'.locks = mutex :: s.locks := by
  change s.advance taken = some s' at stepped
  unfold advance at stepped
  unfold Processor.wanted at wanted
  split at wanted
  · rename_i pc
    cases wanted
    simp only [pc] at stepped
    split at stepped <;> cases stepped
    · rw [if_pos (by assumption)]
    · rw [if_neg (by assumption)]
      rfl
  · rename_i pc
    cases wanted
    simp only [pc] at stepped
    split at stepped <;> cases stepped
    · rw [if_pos (by assumption)]
      rfl
    · rw [if_neg (by assumption)]
      rfl
  · cases wanted

end Processor

/-- The part of a machine's step that is a step of the code of the guards. -/
def Act.Runs {M α : Type} : Act M α → Action M → Prop
  | .call made, action => action = .call made
  | .drop position, action => action = .drop position
  | .advance, action => ∃ taken, action = .advance taken
  | _, _ => False

namespace Machine

variable {P M σ α β ε : Type} [DecidableEq P] [DecidableEq M]

/-- Everything a step can do. -/
inductive Steps (operation : σ → α → Except ε (β × σ)) (s : Machine P M σ α β ε) :
    P × Act M α → Machine P M σ α β ε → Prop where
  | controls (p : P) (act : Act M α) (action : Action M) (processor : Processor M) (runs : act.Runs action)
    (stepped : Processor.Steps (s.here p).processor action processor) (unused : (s.here p).use = .nothing)
    (same : processor.locks.Perm (s.here p).processor.locks) :
    Steps operation s (p, act) (s.setContext (s.running p) { s.here p with processor := processor })
  | acquires (p : P) (taken : Bool) (mutex : M) (processor : Processor M)
    (stepped : Processor.Steps (s.here p).processor (.advance taken) processor) (unused : (s.here p).use = .nothing)
    (free : s.locked mutex = false) (locks : processor.locks = mutex :: (s.here p).processor.locks) :
    Steps operation s (p, .advance) { s.setContext (s.running p) { s.here p with processor := processor } with
      locked := Function.update s.locked mutex true }
  | releases (p : P) (position : Nat) (mutex : M) (processor : Processor M)
    (stepped : Processor.Steps (s.here p).processor (.drop position) processor) (unused : (s.here p).use = .nothing)
    (locks : (mutex :: processor.locks).Perm (s.here p).processor.locks) :
    Steps operation s (p, .drop position) { s.setContext (s.running p) { s.here p with processor := processor } with
      locked := Function.update s.locked mutex false }
  | begins (p : P) (mutex : M) (op : α) (value : σ) (unused : (s.here p).use = .nothing)
    (held : mutex ∈ (s.here p).processor.locks) (there : s.value mutex = some value) :
    Steps operation s (p, .operate mutex op) ({ s with value := Function.update s.value mutex none }.setContext
      (s.running p) { s.here p with use := .operating mutex op value })
  | finishes (p : P) (mutex : M) (op : α) (value value' : σ) (answer : β)
    (used : (s.here p).use = .operating mutex op value) (done : operation value op = .ok (answer, value')) :
    Steps operation s (p, .finish) ({ s with
      value := Function.update s.value mutex (some value'), log := s.log ++ [(mutex, op, answer)] }.setContext
      (s.running p) { s.here p with use := .nothing })
  | panics (p : P) (mutex : M) (op : α) (value : σ) (reason : ε)
    (used : (s.here p).use = .operating mutex op value) (failed : operation value op = .error reason) :
    Steps operation s (p, .finish)
      (s.setContext (s.running p) { s.here p with use := .panicked mutex reason })
  | interrupts (p : P) (enabled : (s.here p).processor.enabled = true) :
    Steps operation s (p, .interrupt)
      ({ s with depth := Function.update s.depth p (s.depth p + 1) }.setContext (p, s.depth p + 1) (.start false))
  | returns (p : P) (level : Nat) (above : s.depth p = level + 1) (unused : (s.here p).use = .nothing)
    (released : (s.here p).processor.held = []) :
    Steps operation s (p, .iret) { s with depth := Function.update s.depth p level }
  | halts (p : P) (mutex : M) (reason : ε) (used : (s.here p).use = .panicked mutex reason) :
    Steps operation s (p, .halt) (s.setContext (s.running p)
      { s.here p with processor := { (s.here p).processor with enabled := true } })

section Inversion

variable {operation : σ → α → Except ε (β × σ)} {s s' : Machine P M σ α β ε} {p : P}
  (marked : ∀ mutex ∈ (s.here p).processor.locks, s.locked mutex = true) (unused : (s.here p).use = .nothing)

include unused

theorem steps_of_control {act : Act M α} {action : Action M} (runs : act.Runs action)
    (calm : (s.here p).processor.wanted = none ∨ ∀ taken, action ≠ .advance taken)
    (kept : ∀ position, action = .drop position → (s.here p).processor.held[position]?.bind Held.inner = none)
    (stepped : s.control p action = some s') : Steps operation s (p, act) s' := by
  obtain ⟨processor, moved, rfl⟩ := Option.map_eq_some_iff.mp stepped
  have moved' := Processor.steps_of_step moved
  refine .controls p act action processor runs moved' unused ?_
  rcases moved'.locks with ⟨same, _⟩ | ⟨mutex, wanted, _, taken, rfl⟩ | ⟨mutex, position, rfl, inner, _⟩
  · exact same
  · rcases calm with none | other
    · cases wanted.symm.trans none
    · exact absurd rfl (other taken)
  · cases (kept position rfl).symm.trans inner

include marked

theorem steps_of_advance (stepped : s.advance p = some s') : Steps operation s (p, .advance) s' := by
  unfold Machine.advance at stepped
  split at stepped
  · rename_i none
    exact steps_of_control unused ⟨false, rfl⟩ (.inl none) nofun stepped
  · rename_i mutex wanted
    obtain ⟨s₁, moved, rfl⟩ := Option.map_eq_some_iff.mp stepped
    obtain ⟨processor, ran, rfl⟩ := Option.map_eq_some_iff.mp moved
    have locks := Processor.step_wanted wanted ran
    have moved' := Processor.steps_of_step ran
    cases word : s.locked mutex with
    | true =>
      simp only [word, Bool.true_or, if_true] at locks
      have same : Function.update s.locked mutex true = s.locked := by rw [← word, Function.update_eq_self]
      rw [same]
      exact .controls p .advance _ processor ⟨_, rfl⟩ moved' unused (.of_eq locks)
    | false =>
      have fresh : mutex ∉ (s.here p).processor.locks := by
        intro held
        cases word.symm.trans (marked mutex held)
      simp only [word, Bool.false_or, decide_eq_true_eq, if_neg fresh] at locks
      exact .acquires p _ mutex processor moved' unused word locks

omit marked in
theorem steps_of_drop {position : Nat} (stepped : s.dropGuard p position = some s') :
    Steps operation s (p, .drop position) s' := by
  obtain ⟨s₁, moved, rfl⟩ := Option.map_eq_some_iff.mp stepped
  cases inner : (s.here p).processor.held[position]?.bind Held.inner with
  | none =>
    refine steps_of_control unused rfl (.inr nofun) ?_ moved
    rintro _ ⟨⟩
    exact inner
  | some mutex =>
    obtain ⟨processor, ran, rfl⟩ := Option.map_eq_some_iff.mp moved
    have moved' := Processor.steps_of_step ran
    apply Steps.releases p position mutex processor moved' unused
    rcases moved'.locks with ⟨_, none⟩ | ⟨mutex', _, _, taken, impossible⟩ | ⟨mutex', _, same, inner', locks⟩
    · cases inner.symm.trans (none position rfl)
    · cases impossible
    · cases same
      cases inner.symm.trans inner'
      exact locks

omit marked in
theorem steps_of_operate {mutex : M} {op : α} (stepped : s.operate p mutex op = some s') :
    Steps operation s (p, .operate mutex op) s' := by
  unfold operate at stepped
  split at stepped
  · rename_i value _ there
    split at stepped <;> cases stepped
    exact .begins p mutex op value unused (by assumption) there
  · cases stepped

omit marked in
theorem steps_of_iret (stepped : s.iret p = some s') : Steps operation s (p, .iret) s' := by
  unfold iret at stepped
  split at stepped
  · rename_i level above _ released
    cases stepped
    exact .returns p level above unused released
  · cases stepped

end Inversion

theorem steps_of_step {operation : σ → α → Except ε (β × σ)} {s s' : Machine P M σ α β ε} {p : P} {act : Act M α}
    (marked : ∀ mutex ∈ (s.here p).processor.locks, s.locked mutex = true)
    (stepped : s.step operation (p, act) = some s') : Steps operation s (p, act) s' := by
  cases act with
  | interrupt =>
    simp only [step, interrupt] at stepped
    split at stepped <;> cases stepped
    exact .interrupts p (by assumption)
  | finish =>
    simp only [step, finish] at stepped
    split at stepped
    · rename_i mutex op value used
      split at stepped <;> cases stepped
      · exact .finishes p mutex op value _ _ used (by assumption)
      · exact .panics p mutex op value _ used (by assumption)
    · cases stepped
  | halt =>
    simp only [step, halt] at stepped
    split at stepped <;> cases stepped
    exact .halts p _ _ (by assumption)
  | call call | drop position | advance | operate mutex op | iret =>
    simp only [step] at stepped
    split at stepped
    case isFalse => cases stepped
    rename_i nothing
    have unused : (s.here p).use = .nothing := by
      cases use : (s.here p).use with
      | nothing => rfl
      | operating mutex op value => simp [use, Use.isNothing] at nothing
      | panicked mutex reason => simp [use, Use.isNothing] at nothing
    first
      | exact steps_of_control unused rfl (.inr nofun) nofun stepped
      | exact steps_of_drop unused stepped
      | exact steps_of_advance marked unused stepped
      | exact steps_of_operate unused stepped
      | exact steps_of_iret unused stepped

end Machine

end Platypos.Sync
