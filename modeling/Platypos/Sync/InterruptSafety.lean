import Mathlib.Data.List.Perm.Basic
import Platypos.Sync.Interrupts

namespace Platypos.Sync.Processor

open Schedule

variable {M : Type}

/-- Everything a step can do. -/
inductive Steps (s : Processor M) : Action M → Processor M → Prop where
  | reads (call : Call M) (pc : s.pc = .idle) : Steps s (.call call) { s with pc := .disabling call s.enabled }
  | disables (taken : Bool) (call : Call M) (enableFlag : Bool) (pc : s.pc = .disabling call enableFlag) :
    Steps s (.advance taken) ({ s with enabled := if enableFlag then false else s.enabled }.proceed ⟨enableFlag⟩ call)
  | spins (taken : Bool) (mutex : M) (guard : Guard) (pc : s.pc = .locking mutex guard) : Steps s (.advance taken) s
  | acquires (taken : Bool) (mutex : M) (guard : Guard)
    (pc : s.pc = .locking mutex guard ∨ s.pc = .tryLocking mutex guard) :
    Steps s (.advance taken) { s with pc := .idle, held := .mutex mutex guard :: s.held }
  | fails (taken : Bool) (mutex : M) (guard : Guard) (pc : s.pc = .tryLocking mutex guard) :
    Steps s (.advance taken) { s with pc := .restoring guard }
  | restores (taken : Bool) (guard : Guard) (pc : s.pc = .restoring guard) :
    Steps s (.advance taken) { s with pc := .idle, enabled := if guard.enableFlag then true else s.enabled }
  | drops (position : Nat) (dropped : Held M) (pc : s.pc = .idle) (found : s.held[position]? = some dropped) :
    Steps s (.drop position) { s with pc := .restoring dropped.guard, held := s.held.eraseIdx position }

section Step

variable [DecidableEq M] {s s' : Processor M}

theorem steps_of_advance {taken : Bool} (advanced : s.advance taken = some s') : Steps s (.advance taken) s' := by
  unfold advance at advanced
  split at advanced
  case h_1 => cases advanced
  case h_2 call enableFlag pc =>
    cases advanced
    exact .disables taken call enableFlag pc
  case h_3 mutex guard pc =>
    split at advanced
    · cases advanced
      exact .spins taken mutex guard pc
    · cases advanced
      exact .acquires taken mutex guard (.inl pc)
  case h_4 mutex guard pc =>
    split at advanced
    · cases advanced
      exact .fails taken mutex guard pc
    · cases advanced
      exact .acquires taken mutex guard (.inr pc)
  case h_5 guard pc =>
    cases advanced
    exact .restores taken guard pc

theorem steps_of_step {action : Action M} (stepped : s.step action = some s') : Steps s action s' := by
  cases action with
  | advance taken => exact steps_of_advance stepped
  | call call =>
    simp only [Processor.step] at stepped
    split at stepped
    · rename_i pc
      cases stepped
      exact .reads call pc
    · cases stepped
  | drop position =>
    simp only [Processor.step] at stepped
    split at stepped
    · rename_i dropped pc found
      cases stepped
      exact .drops position dropped pc found
    · cases stepped

end Step

@[simp] theorem proceed_enabled (s : Processor M) (guard : Guard) (call : Call M) :
    (s.proceed guard call).enabled = s.enabled := by
  cases call <;> rfl

theorem perm_of_dropped {held : List (Held M)} {position : Nat} {dropped : Held M}
    (found : held[position]? = some dropped) : (dropped :: held.eraseIdx position).Perm held := by
  obtain ⟨inside, rfl⟩ := List.getElem?_eq_some_iff.mp found
  exact List.getElem_cons_eraseIdx_perm inside

/-- While a call has read the flag and not yet acted on it, the flag is what it read. -/
def Current (s : Processor M) : Prop := ∀ call enableFlag, s.pc = .disabling call enableFlag → enableFlag = s.enabled

theorem Current.step {s s' : Processor M} {action : Action M} (current : s.Current) (stepped : Steps s action s') :
    s'.Current := by
  intro call enableFlag pc
  cases stepped with
  | reads call pc' =>
    cases pc
    rfl
  | disables taken call' flag pc' => cases call' <;> cases pc
  | spins taken mutex guard pc' => exact current call enableFlag pc
  | acquires taken mutex guard pc' => cases pc
  | fails taken mutex guard pc' => cases pc
  | restores taken guard pc' => cases pc
  | drops position dropped pc' found => cases pc

section Balance

variable {s s' : Processor M} {action : Action M} {start : Bool}

/-- The flag, with the flags that the outstanding guards will restore, makes up the flag at the start. -/
structure Balanced (start : Bool) (s : Processor M) : Prop where
  current : s.Current
  sum : s.outstanding.countP Guard.enableFlag + s.enabled.toNat = start.toNat

theorem outstanding_of_none (pc : s.pc.guard = none) : s.outstanding = s.held.map Held.guard := by
  rw [outstanding, pc]
  rfl

theorem outstanding_of_some {guard : Guard} (pc : s.pc.guard = some guard) :
    s.outstanding = guard :: s.held.map Held.guard := by
  rw [outstanding, pc]
  rfl

theorem outstanding_proceed (guard : Guard) (call : Call M) (pc : s.pc.guard = none) :
    (s.proceed guard call).outstanding = guard :: s.outstanding := by
  rw [outstanding_of_none pc]
  cases call <;> rfl

theorem Balanced.step (balanced : s.Balanced start) (stepped : Steps s action s') : s'.Balanced start := by
  refine ⟨balanced.current.step stepped, ?_⟩
  have sum := balanced.sum
  cases stepped with
  | reads call pc =>
    rw [outstanding_of_none (by rw [pc]; rfl)] at sum
    exact sum
  | disables taken call enableFlag pc =>
    -- the flag moves into the new guard
    have same := balanced.current call enableFlag pc
    have unguarded : s.pc.guard = none := by
      rw [pc]
      rfl
    rw [outstanding_proceed _ _ (by exact unguarded), outstanding_of_none (by exact unguarded), List.countP_cons,
      proceed_enabled]
    rw [outstanding_of_none unguarded, ← same] at sum
    cases enableFlag with
    | false => simpa [← same] using sum
    | true => simpa using sum
  | spins taken mutex guard pc => exact sum
  | acquires taken mutex guard pc =>
    have guarded : s.pc.guard = some guard := by
      rcases pc with pc | pc <;> rw [pc] <;> rfl
    rw [outstanding_of_some guarded] at sum
    exact sum
  | fails taken mutex guard pc =>
    rw [outstanding_of_some (by rw [pc]; rfl)] at sum
    exact sum
  | restores taken guard pc =>
    rw [outstanding_of_some (by rw [pc]; rfl), List.countP_cons] at sum
    rw [outstanding_of_none rfl]
    cases saved : guard.enableFlag with
    | false => simpa [saved] using sum
    | true =>
      -- the guard's flag counts for one, so the present flag is off
      have bound := Bool.toNat_le start
      simp only [saved, if_true, Bool.toNat_true] at sum ⊢
      omega
  | drops position dropped pc found =>
    have same := ((perm_of_dropped found).map Held.guard).countP_eq Guard.enableFlag
    rw [outstanding_of_none (by rw [pc]; rfl), ← same] at sum
    exact sum

theorem balanced_start (enabled : Bool) : (Processor.start enabled : Processor M).Balanced enabled :=
  ⟨nofun, Nat.zero_add _⟩

/-- Whatever the order in which guards are made and dropped, the flag is back once none is left. -/
theorem interrupts_restored [DecidableEq M] (enabled : Bool) (schedule : List (Action M)) {s : Processor M}
    (reached : run Processor.step (Processor.start enabled) schedule = some s) (released : s.outstanding = []) :
    s.enabled = enabled := by
  have balanced : s.Balanced enabled :=
    run_ensures (fun _ _ _ inv stepped => inv.step (steps_of_step stepped)) (balanced_start enabled) reached
  have sum := balanced.sum
  rw [released, List.countP_nil, Nat.zero_add] at sum
  cases final : s.enabled <;> cases enabled <;> simp_all

/-- Two guards are dropped in the order they were made, and the third is made in between. -/
theorem interrupts_restored_overlapping :
    ∃ s : Processor Nat, run Processor.step (Processor.start true)
        [.call (.lock 0), .advance false, .advance false, .call (.lock 1), .advance false, .advance false,
          .drop 1, .advance false, .call (.tryLock 1), .advance false, .advance false, .advance false,
          .call .disable, .advance false, .drop 1, .advance false, .drop 0, .advance false] = some s ∧
      s.outstanding = [] ∧ s.enabled = true := by
  refine ⟨_, rfl, rfl, ?_⟩
  exact interrupts_restored true
    [.call (.lock 0), .advance false, .advance false, .call (.lock 1), .advance false, .advance false,
      .drop 1, .advance false, .call (.tryLock 1), .advance false, .advance false, .advance false,
      .call .disable, .advance false, .drop 1, .advance false, .drop 0, .advance false] rfl rfl

end Balance

section Locks

variable {s s' : Processor M} {action : Action M}

/-- No spinlock is held while interrupts are enabled. -/
def Quiet (s : Processor M) : Prop := s.locks ≠ [] → s.enabled = false

/-- A guard that found interrupts enabled is dropped only when no other guard holds a spinlock. -/
def Orderly (s : Processor M) : Action M → Prop
  | .drop position => ∀ dropped ∈ s.held[position]?, dropped.guard.enableFlag = true →
      ((s.held.eraseIdx position).filterMap Held.inner).isEmpty
  | _ => True

instance (s : Processor M) : ∀ action, Decidable (s.Orderly action)
  | .drop position => inferInstanceAs (Decidable (∀ dropped ∈ s.held[position]?, dropped.guard.enableFlag = true →
      ((s.held.eraseIdx position).filterMap Held.inner).isEmpty))
  | .call _ => .isTrue trivial
  | .advance _ => .isTrue trivial

/-- The restore that is due will enable interrupts while a spinlock is held. -/
def Doomed (s : Processor M) : Prop := s.pc = .restoring ⟨true⟩ ∧ s.locks ≠ []

structure Guarded (s : Processor M) : Prop where
  quiet : s.Quiet
  current : s.Current
  acquiring : ∀ mutex guard, s.pc = .locking mutex guard ∨ s.pc = .tryLocking mutex guard → s.enabled = false
  restoring : ∀ guard, s.pc.guard = some guard → guard.enableFlag = true → s.locks = []

theorem proceed_locks (guard : Guard) (call : Call M) : (s.proceed guard call).locks = s.locks := by
  cases call <;> rfl

theorem proceed_guard {guard saved : Guard} {call : Call M} (pc : (s.proceed guard call).pc.guard = some saved) :
    saved = guard := by
  cases call <;> cases pc <;> rfl

theorem locks_of_dropped (position : Nat) (none : s.locks = []) :
    (s.held.eraseIdx position).filterMap Held.inner = [] := by
  have fewer := (List.eraseIdx_sublist s.held position).filterMap Held.inner
  rw [locks] at none
  rw [none] at fewer
  exact List.sublist_nil.mp fewer

theorem Guarded.step (guarded : s.Guarded) (orderly : s.Orderly action) (stepped : Steps s action s') :
    s'.Guarded := by
  have current := guarded.current.step stepped
  cases stepped with
  | reads call pc => exact ⟨guarded.quiet, current, nofun, nofun⟩
  | disables taken call enableFlag pc =>
    have same := guarded.current call enableFlag pc
    have disabled : (if enableFlag = true then false else s.enabled) = false := by
      cases enableFlag with
      | false => exact same.symm
      | true => rfl
    refine ⟨fun _ => ?_, current, fun _ _ _ => ?_, ?_⟩
    · rw [proceed_enabled]
      exact disabled
    · rw [proceed_enabled]
      exact disabled
    · intro guard saved enabled
      obtain rfl := proceed_guard saved
      rw [proceed_locks]
      by_contra locked
      have off := guarded.quiet locked
      rw [← same] at off
      exact absurd enabled (by rw [off]; decide)
  | spins taken mutex guard pc => exact guarded
  | acquires taken mutex guard pc =>
    exact ⟨fun _ => guarded.acquiring mutex guard pc, current, nofun, nofun⟩
  | fails taken mutex guard pc =>
    refine ⟨guarded.quiet, current, nofun, ?_⟩
    intro guard' same saved
    cases same
    exact guarded.restoring guard (by rw [pc]; rfl) saved
  | restores taken guard pc =>
    refine ⟨?_, current, nofun, nofun⟩
    intro locked
    cases saved : guard.enableFlag with
    | false => exact guarded.quiet locked
    | true => exact absurd (guarded.restoring guard (by rw [pc]; rfl) saved) locked
  | drops position dropped pc found =>
    refine ⟨?_, current, nofun, ?_⟩
    · intro locked
      apply guarded.quiet
      intro none
      exact locked (locks_of_dropped position none)
    · intro guard same saved
      cases same
      exact List.isEmpty_iff.mp (orderly dropped found saved)

theorem guarded_start (enabled : Bool) : (Processor.start enabled : Processor M).Guarded :=
  ⟨fun locked => absurd rfl locked, nofun, nofun, nofun⟩

/-- A drop out of order releases its own spinlock and is then due to enable interrupts. -/
theorem doomed_of_disorderly (disorderly : ¬ s.Orderly action) (stepped : Steps s action s') : s'.Doomed := by
  cases stepped with
  | drops position dropped pc found =>
    simp only [Orderly, not_forall, List.isEmpty_iff] at disorderly
    obtain ⟨dropped', found', saved, locked⟩ := disorderly
    obtain rfl : dropped = dropped' := Option.some.inj (found.symm.trans found')
    exact ⟨congrArg Pc.restoring (congrArg Guard.mk saved), locked⟩
  | _ => exact absurd trivial disorderly

theorem Doomed.step (doomed : s.Doomed) (stepped : Steps s action s') : ¬ s'.Quiet := by
  obtain ⟨pc, locked⟩ := doomed
  cases stepped with
  | restores taken guard pc' =>
    cases pc.symm.trans pc'
    intro quiet
    have off := quiet locked
    simp at off
  | _ => simp_all

variable [DecidableEq M]

/-- If guards are dropped in order, no spinlock is ever held with interrupts enabled; and once every call has
    returned, a run in which that was so has dropped its guards in order. -/
theorem locks_held_with_interrupts_off (enabled : Bool) (schedule : List (Action M)) {s : Processor M}
    (reached : run Processor.step (Processor.start enabled) schedule = some s) :
    (Meets Processor.step Orderly (Processor.start enabled) schedule →
      Throughout Processor.step Quiet (Processor.start enabled) schedule) ∧
    (s.pc = .idle → Throughout Processor.step Quiet (Processor.start enabled) schedule →
      Meets Processor.step Orderly (Processor.start enabled) schedule) := by
  have preserved : ∀ (s : Processor M) action s', s.Guarded → s.Orderly action → s.step action = some s' →
      s'.Guarded := fun _ _ _ guarded orderly stepped => guarded.step orderly (steps_of_step stepped)
  constructor
  · intro meets
    exact throughout_of_meets preserved (fun _ guarded => guarded.quiet) (guarded_start enabled) meets
  · intro idle throughout
    have spared : Throughout Processor.step (fun s => ¬ s.Doomed) (Processor.start enabled) schedule := by
      apply throughout.not_doomed _ reached
      · intro doomed
        exact absurd (idle.symm.trans doomed.1) nofun
      · intro s action s' doomed stepped
        exact doomed.step (steps_of_step stepped)
    apply meets_of_throughout preserved _ (guarded_start enabled) reached spared
    intro s action s' guarded disorderly stepped safe
    exact safe (doomed_of_disorderly disorderly (steps_of_step stepped))

theorem locks_held_with_interrupts_off_nested :
    Throughout Processor.step Quiet (Processor.start true : Processor Nat)
      [.call (.lock 0), .advance false, .advance false, .call (.tryLock 0), .advance false, .advance false,
        .advance false, .call (.lock 1), .advance false, .advance false, .drop 0, .advance false, .drop 0,
        .advance false] := by
  apply (locks_held_with_interrupts_off true _ rfl).1
  decide

/-- The guard made first is dropped first: its drop enables interrupts while the second spinlock is held. -/
theorem lock_held_with_interrupts_on :
    ∃ s : Processor Nat, run Processor.step (Processor.start true)
        [.call (.lock 0), .advance false, .advance false, .call (.lock 1), .advance false, .advance false,
          .drop 1, .advance false] = some s ∧ s.locks = [1] ∧ s.enabled = true :=
  ⟨_, rfl, rfl, rfl⟩

end Locks

end Platypos.Sync.Processor
