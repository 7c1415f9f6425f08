import Mathlib.Data.Fintype.Order
import Mathlib.Order.Fin.Basic
import Platypos.Sync.Exclusion

namespace Platypos.Sync

open Schedule

namespace Processor

variable {M : Type} {s s' : Processor M} {action : Action M}

/-- The spinlock that `lock` has been called for and not yet got. -/
def awaited (s : Processor M) : Option M :=
  match s.pc with
  | .disabling (.lock mutex) _ => some mutex
  | .locking mutex _ => some mutex
  | _ => none

/-- The spinlock that is awaited comes after all that are held. -/
def Ascends [LT M] (s : Processor M) : Prop := ∀ mutex, s.awaited = some mutex → ∀ held ∈ s.locks, held < mutex

theorem awaited_proceed {guard : Guard} {call : Call M} {mutex : M} (waits : (s.proceed guard call).awaited = some mutex) :
    call = .lock mutex := by
  cases call with
  | disable => cases waits
  | lock mutex' =>
    cases waits
    rfl
  | tryLock mutex' => cases waits

theorem Ascends.step [LT M] (ascends : s.Ascends) (stepped : Steps s action s')
    (ranked : ∀ mutex, action = .call (.lock mutex) → ∀ held ∈ s.locks, held < mutex) : s'.Ascends := by
  intro mutex waits
  cases stepped with
  | reads call pc =>
    cases call with
    | lock mutex' =>
      cases waits
      exact ranked mutex rfl
    | disable => cases waits
    | tryLock mutex' => cases waits
  | disables taken call enableFlag pc =>
    obtain rfl := awaited_proceed waits
    rw [proceed_locks]
    exact ascends mutex (by simp only [awaited, pc])
  | spins taken mutex' guard pc => exact ascends mutex waits
  | acquires taken mutex' guard pc => cases waits
  | fails taken mutex' guard pc => cases waits
  | restores taken guard pc => cases waits
  | drops position dropped pc found => cases waits

/-- A guard that found interrupts enabled is newer than no spinlock that is held. -/
def Nested (s : Processor M) : Prop :=
  s.held.Pairwise fun newer older => newer.guard.enableFlag = true → older.inner = none

/-- A guard that found interrupts enabled is made where no spinlock is held, and a drop leaves the others as they
    were. -/
theorem Nested.step (nested : s.Nested) (guarded : s.Guarded) (stepped : Steps s action s') : s'.Nested := by
  cases stepped with
  | reads call pc => exact nested
  | disables taken call enableFlag pc =>
    cases call with
    | disable =>
      refine List.pairwise_cons.mpr ⟨?_, nested⟩
      intro older member on
      apply List.filterMap_eq_nil_iff.mp _ older member
      by_contra locked
      have off := guarded.quiet locked
      rw [← guarded.current _ _ pc] at off
      cases off.symm.trans on
    | lock mutex => exact nested
    | tryLock mutex => exact nested
  | spins taken mutex guard pc => exact nested
  | acquires taken mutex guard pc =>
    refine List.pairwise_cons.mpr ⟨?_, nested⟩
    intro older member on
    have saved : s.pc.guard = some guard := by
      rcases pc with pc | pc <;> rw [pc] <;> rfl
    exact List.filterMap_eq_nil_iff.mp (guarded.restoring guard saved on) older member
  | fails taken mutex guard pc => exact nested
  | restores taken guard pc => exact nested
  | drops position dropped pc found => exact nested.sublist (List.eraseIdx_sublist s.held position)

theorem Nested.orderly (nested : s.Nested) : s.Orderly (.drop 0) := by
  intro dropped newest on
  obtain ⟨older, held⟩ := List.head?_eq_some_iff.mp (List.head?_eq_getElem? ▸ newest)
  rw [Nested, held, List.pairwise_cons] at nested
  rw [held, List.eraseIdx_cons_zero, List.isEmpty_iff, List.filterMap_eq_nil_iff]
  intro guard member
  exact nested.1 guard member on

end Processor

namespace Machine

variable {P M σ α β ε : Type} [DecidableEq P] [DecidableEq M]

section Conditions

omit [DecidableEq P] [DecidableEq M]

/-- A guard that found interrupts enabled is dropped only when the context holds no other spinlock. -/
def Orderly (s : Machine P M σ α β ε) : P × Act M α → Prop
  | (p, .drop position) => (s.here p).processor.Orderly (.drop position)
  | _ => True

instance (s : Machine P M σ α β ε) : ∀ act, Decidable (s.Orderly act)
  | (p, .drop position) => inferInstanceAs (Decidable ((s.here p).processor.Orderly (.drop position)))
  | (_, .call _) | (_, .advance) | (_, .operate _ _) | (_, .finish) | (_, .interrupt) | (_, .iret) | (_, .halt) =>
    .isTrue trivial

/-- Of the guards of a context only the one made last is dropped. -/
def Newest : P × Act M α → Prop
  | (_, .drop position) => position = 0
  | _ => True

instance : ∀ act : P × Act M α, Decidable (Newest act)
  | (_, .drop position) => inferInstanceAs (Decidable (position = 0))
  | (_, .call _) | (_, .advance) | (_, .operate _ _) | (_, .finish) | (_, .interrupt) | (_, .iret) | (_, .halt) =>
    .isTrue trivial

/-- A spinlock is waited for only by a context whose other spinlocks all come before it. -/
def Ranked [LT M] (s : Machine P M σ α β ε) : P × Act M α → Prop
  | (p, .call (.lock mutex)) => ∀ held ∈ (s.here p).processor.locks, held < mutex
  | _ => True

instance [LT M] [DecidableLT M] (s : Machine P M σ α β ε) : ∀ act, Decidable (s.Ranked act)
  | (p, .call (.lock mutex)) => inferInstanceAs (Decidable (∀ held ∈ (s.here p).processor.locks, held < mutex))
  | (_, .call .disable) | (_, .call (.tryLock _)) | (_, .drop _) | (_, .advance) | (_, .operate _ _) | (_, .finish)
  | (_, .interrupt) | (_, .iret) | (_, .halt) => .isTrue trivial

/-- The operation of the context has panicked, so that the context will never give back what it holds. -/
def Panicked (s : Machine P M σ α β ε) (c : P × Nat) : Prop := ∃ mutex reason, (s.context c).use = .panicked mutex reason

/-- Spinlocks are held only by contexts that have their processor, and by those that have panicked. -/
def HoldersRun (s : Machine P M σ α β ε) : Prop :=
  ∀ c, (s.context c).processor.locks ≠ [] → c = s.running c.1 ∨ s.Panicked c

/-- The processor has been waiting for a spinlock and does not get it with its next step. -/
def Spins (s : Machine P M σ α β ε) (p : P) : Prop :=
  ∃ mutex guard, (s.here p).processor.pc = .locking mutex guard ∧ s.locked mutex = true

end Conditions

section Each

variable {operation : σ → α → Except ε (β × σ)} {s s' : Machine P M σ α β ε} {act : P × Act M α}

omit [DecidableEq M] in
theorem each_update {property : Processor M → Prop} (each : ∀ c, property (s.context c).processor) {c : P × Nat}
    {context : Context M σ α ε} (contexts : s'.context = Function.update s.context c context)
    (here : property context.processor) (c' : P × Nat) : property (s'.context c').processor := by
  rw [contexts]
  by_cases same : c' = c
  · subst same
    rw [Function.update_self]
    exact here
  · rw [Function.update_of_ne same]
    exact each c'

/-- What the code of the guards keeps on a processor, whatever its flag, holds of every context. -/
theorem each_step {property : Processor M → Prop} (each : ∀ c, property (s.context c).processor)
    (fresh : property (.start false))
    (flagged : ∀ processor, property processor → property { processor with enabled := true })
    (kept : ∀ p code action processor, act = (p, code) → code.Runs action → (s.here p).use = .nothing →
      Processor.Steps (s.here p).processor action processor → property processor)
    (stepped : Steps operation s act s') : ∀ c, property (s'.context c).processor := by
  cases stepped with
  | controls p act action processor runs stepped unused same =>
    exact each_update each rfl (kept p act action processor rfl runs unused stepped)
  | acquires p taken mutex processor stepped unused free locks =>
    exact each_update each rfl (kept p .advance _ processor rfl ⟨taken, rfl⟩ unused stepped)
  | releases p position mutex processor stepped unused locks =>
    exact each_update each rfl (kept p (.drop position) _ processor rfl rfl unused stepped)
  | begins p mutex op value unused held there => exact each_update each rfl (each (s.running p))
  | finishes p mutex op value value' answer used done => exact each_update each rfl (each (s.running p))
  | panics p mutex op value reason used failed => exact each_update each rfl (each (s.running p))
  | halts p mutex reason used => exact each_update each rfl (flagged _ (each (s.running p)))
  | returns p level above unused released => exact each
  | interrupts p enabled => exact each_update each rfl fresh

end Each

section Calm

variable {owner : M → Option (P × Nat)} {operation : σ → α → Except ε (β × σ)} {s s' : Machine P M σ α β ε}
  {act : P × Act M α}

/-- Interrupts are off where spinlocks are held, and were on where a context was interrupted. -/
structure Calm (s : Machine P M σ α β ε) : Prop where
  guarded : ∀ c, (s.context c).processor.Guarded ∨ s.Panicked c
  suspended : ∀ p level, level < s.depth p → (s.context (p, level)).processor.enabled = true

omit [DecidableEq P] [DecidableEq M] in
theorem Calm.holders (calm : s.Calm) (owned : Owned owner s) : s.HoldersRun := by
  rintro ⟨p, level⟩ holds
  rcases Nat.lt_trichotomy level (s.depth p) with below | rfl | above
  · rcases calm.guarded (p, level) with guarded | panicked
    · have off := guarded.quiet holds
      rw [calm.suspended p level below] at off
      cases off
    · exact .inr panicked
  · exact .inl rfl
  · exact absurd (owned.above p level above).1 holds

omit [DecidableEq M] in
theorem Calm.at_running (calm : s.Calm) {p : P} {context : Context M σ α ε}
    (contexts : s'.context = Function.update s.context (s.running p) context) (depth : s'.depth = s.depth)
    (here : context.processor.Guarded ∨ ∃ mutex reason, context.use = .panicked mutex reason) : s'.Calm where
  guarded c := by
    unfold Panicked
    rw [contexts]
    by_cases running : c = s.running p
    · subst running
      simp only [Function.update_self]
      exact here
    · simp only [Function.update_of_ne running]
      exact calm.guarded c
  suspended q level below := by
    rw [depth] at below
    have other : (q, level) ≠ s.running p := by
      rintro ⟨⟩
      exact Nat.lt_irrefl _ below
    rw [contexts, Function.update_of_ne other]
    exact calm.suspended q level below

omit [DecidableEq P] [DecidableEq M] in
theorem Orderly.runs {p : P} {act : Act M α} {action : Action M} (orderly : s.Orderly (p, act)) (runs : act.Runs action) :
    (s.here p).processor.Orderly action := by
  cases act with
  | call call =>
    cases runs
    trivial
  | drop position =>
    cases runs
    exact orderly
  | advance =>
    obtain ⟨taken, rfl⟩ := runs
    trivial
  | operate mutex op | finish | interrupt | iret | halt => cases runs

omit [DecidableEq P] [DecidableEq M] in
/-- While a context has not panicked, what is known of its processor is the invariant of a single processor. -/
theorem Calm.here (calm : s.Calm) {p : P} (unused : (s.here p).use = .nothing) : (s.here p).processor.Guarded := by
  rcases calm.guarded (s.running p) with guarded | ⟨mutex, reason, panicked⟩
  · exact guarded
  · cases unused.symm.trans panicked

theorem Calm.step (calm : s.Calm) (orderly : s.Orderly act) (stepped : Steps operation s act s') : s'.Calm := by
  cases stepped with
  | controls p act action processor runs stepped unused same =>
    exact calm.at_running rfl rfl (.inl ((calm.here unused).step (orderly.runs runs) stepped))
  | acquires p taken mutex processor stepped unused free locks =>
    refine calm.at_running rfl rfl (.inl ((calm.here unused).step ?_ stepped))
    trivial
  | releases p position mutex processor stepped unused locks =>
    refine calm.at_running rfl rfl (.inl ((calm.here unused).step ?_ stepped))
    exact orderly
  | begins p mutex op value unused held there => exact calm.at_running rfl rfl (.inl (calm.here unused))
  | finishes p mutex op value value' answer used done =>
    rcases calm.guarded (s.running p) with guarded | ⟨mutex', reason, panicked⟩
    · exact calm.at_running rfl rfl (.inl guarded)
    · cases used.symm.trans panicked
  | panics p mutex op value reason used failed => exact calm.at_running rfl rfl (.inr ⟨mutex, reason, rfl⟩)
  | halts p mutex reason used => exact calm.at_running rfl rfl (.inr ⟨mutex, reason, used⟩)
  | returns p level above unused released =>
    refine ⟨calm.guarded, ?_⟩
    intro q level' below
    apply calm.suspended q level'
    by_cases same : q = p
    · subst same
      simp only [Function.update_self] at below
      omega
    · simpa only [Function.update_of_ne same] using below
  | interrupts p enabled =>
    refine ⟨?_, ?_⟩
    · intro c
      by_cases handler : c = (p, s.depth p + 1)
      · subst handler
        simp only [setContext, Function.update_self]
        exact .inl (Processor.guarded_start false)
      · simp only [setContext, Panicked, Function.update_of_ne handler]
        exact calm.guarded c
    · intro q level below
      have lower : (q, level) ≠ (p, s.depth p + 1) := by
        rintro ⟨⟩
        simp [setContext] at below
      simp only [setContext, Function.update_of_ne lower]
      by_cases top : (q, level) = s.running p
      · rw [top]
        exact enabled
      · apply calm.suspended q level
        by_cases same : q = p
        · subst same
          have below' : level < s.depth q + 1 := by simpa [setContext] using below
          have differ : level ≠ s.depth q := by
            rintro rfl
            exact top rfl
          omega
        · simpa [setContext, Function.update_of_ne same] using below

omit [DecidableEq P] [DecidableEq M] in
theorem calm_start (enabled : P → Bool) (value : M → σ) : (start enabled value : Machine P M σ α β ε).Calm where
  guarded c := .inl (Processor.guarded_start (enabled c.1))
  suspended _ _ below := absurd below (Nat.not_lt_zero _)

/-- What is known of every state that is reached by dropping guards in order. -/
def Disciplined (s : Machine P M σ α β ε) : Prop := (∃ owner, Owned owner s) ∧ s.Calm

theorem Disciplined.step (disciplined : s.Disciplined) (orderly : s.Orderly act)
    (stepped : s.step operation act = some s') : Steps operation s act s' ∧ s'.Disciplined := by
  obtain ⟨⟨owner, owned⟩, calm⟩ := disciplined
  have moved := steps_of_step (fun mutex held => owned.marked held) stepped
  exact ⟨moved, owned.step moved, calm.step orderly moved⟩

omit [DecidableEq P] [DecidableEq M] in
theorem disciplined_start (enabled : P → Bool) (value : M → σ) :
    (start enabled value : Machine P M σ α β ε).Disciplined :=
  ⟨⟨_, owned_start enabled value⟩, calm_start enabled value⟩

end Calm

/-- If guards are dropped in order, a context that holds a spinlock is never interrupted, unless it has panicked. -/
theorem holders_not_interrupted (operation : σ → α → Except ε (β × σ)) (enabled : P → Bool) (initial : M → σ)
    (schedule : List (P × Act M α))
    (orderly : Meets (step operation) Orderly (start enabled initial : Machine P M σ α β ε) schedule) :
    Throughout (step operation) HoldersRun (start enabled initial : Machine P M σ α β ε) schedule := by
  refine throughout_of_meets ?_ ?_ (disciplined_start enabled initial) orderly
  · intro s act s' disciplined orderly stepped
    exact (disciplined.step orderly stepped).2
  · rintro s ⟨⟨owner, owned⟩, calm⟩
    exact calm.holders owned

/-- Guards that are dropped in the reverse order of their making are dropped in order. -/
theorem orderly_of_newest (operation : σ → α → Except ε (β × σ)) (enabled : P → Bool) (initial : M → σ)
    {schedule : List (P × Act M α)} (newest : ∀ act ∈ schedule, Newest act) :
    Meets (step operation) Orderly (start enabled initial : Machine P M σ α β ε) schedule := by
  have preserved : ∀ (s : Machine P M σ α β ε) act s', (s.Disciplined ∧ ∀ c, (s.context c).processor.Nested) →
      s.Orderly act → s.step operation act = some s' → s'.Disciplined ∧ ∀ c, (s'.context c).processor.Nested := by
    rintro s act s' ⟨disciplined, nested⟩ orderly stepped
    obtain ⟨moved, disciplined'⟩ := disciplined.step orderly stepped
    refine ⟨disciplined', each_step nested .nil (fun _ nested => nested) ?_ moved⟩
    intro p code action processor _ _ unused moved
    exact (nested (s.running p)).step (disciplined.2.here unused) moved
  refine meets_of_allowed preserved ?_ ⟨disciplined_start enabled initial, fun _ => .nil⟩ newest
  rintro s ⟨p, act⟩ ⟨_, nested⟩ last
  cases act with
  | drop position =>
    cases last
    exact (nested (s.running p)).orderly
  | _ => trivial

/-- The handler of the first processor has the lock, and that of the second waits for it. -/
theorem holders_not_interrupted_contended :
    Throughout (step draw) HoldersRun (start (fun _ => true) (fun _ => 10) : Machine Bool Unit Nat Nat Nat Unit)
      contended := by
  apply holders_not_interrupted
  exact orderly_of_newest draw _ _ (by decide)

section Ranks

variable [Preorder M] {owner : M → Option (P × Nat)} {operation : σ → α → Except ε (β × σ)}
  {s s' : Machine P M σ α β ε} {act : P × Act M α}

omit [DecidableEq P] [DecidableEq M] in
theorem Ranked.runs {p : P} {act : Act M α} {action : Action M} (ranked : s.Ranked (p, act)) (runs : act.Runs action)
    (mutex : M) (locks : action = .call (.lock mutex)) : ∀ held ∈ (s.here p).processor.locks, held < mutex := by
  subst locks
  cases act with
  | call call =>
    cases runs
    exact ranked
  | drop position => cases runs
  | advance =>
    obtain ⟨taken, impossible⟩ := runs
    cases impossible
  | operate mutex op | finish | interrupt | iret | halt => cases runs

def Ascends (s : Machine P M σ α β ε) : Prop := ∀ c, (s.context c).processor.Ascends

theorem Ascends.step (ascends : s.Ascends) (ranked : s.Ranked act) (stepped : Steps operation s act s') :
    s'.Ascends := by
  refine each_step ascends nofun (fun _ ascends => ascends) ?_ stepped
  rintro p code action processor rfl runs unused moved
  exact (ascends (s.running p)).step moved (ranked.runs runs)

omit [DecidableEq P] [DecidableEq M] in
theorem ascends_start (enabled : P → Bool) (value : M → σ) :
    (start enabled value : Machine P M σ α β ε).Ascends := fun _ => nofun

omit [DecidableEq P] [DecidableEq M] in
/-- Whoever holds a spinlock is at work, or waits for a later one whose holder is. -/
theorem Owned.worker [WellFoundedGT M] (owned : Owned owner s) (holders : s.HoldersRun) (ascends : s.Ascends)
    (safe : ∀ c, ¬ s.Panicked c) (mutex : M) (taken : s.locked mutex = true) :
    ∃ q, ¬ s.Spins q ∧ (s.here q).processor.locks ≠ [] := by
  induction mutex using WellFoundedGT.induction with
  | ind mutex ih =>
    rw [owned.word] at taken
    obtain ⟨c, holder⟩ := Option.isSome_iff_exists.mp taken
    have held := (owned.holds c mutex).mpr holder
    have running : c = s.running c.1 := (holders c (List.ne_nil_of_mem held)).resolve_right (safe c)
    rw [running] at held
    by_cases spins : s.Spins c.1
    · obtain ⟨next, guard, pc, taken'⟩ := spins
      have waits : (s.here c.1).processor.awaited = some next := by simp only [Processor.awaited, pc]
      exact ih next (ascends (s.running c.1) next waits mutex held) taken'
    · exact ⟨c.1, spins, List.ne_nil_of_mem held⟩

end Ranks

/-- If guards are dropped in order and spinlocks are taken in order, the processors that wait for one never wait for
    each other: one that holds a spinlock is at work. -/
theorem no_deadlock [Preorder M] [WellFoundedGT M] (operation : σ → α → Except ε (β × σ)) (enabled : P → Bool)
    (initial : M → σ) (schedule : List (P × Act M α)) {s : Machine P M σ α β ε}
    (reached : run (step operation) (start enabled initial) schedule = some s)
    (disciplined : Meets (step operation) (fun s act => s.Orderly act ∧ s.Ranked act)
      (start enabled initial : Machine P M σ α β ε) schedule) (safe : ∀ c, ¬ s.Panicked c) {p : P} (spins : s.Spins p) :
    ∃ q, ¬ s.Spins q ∧ (s.here q).processor.locks ≠ [] := by
  have preserved : ∀ (s : Machine P M σ α β ε) act s', (s.Disciplined ∧ s.Ascends) → s.Orderly act ∧ s.Ranked act →
      s.step operation act = some s' → s'.Disciplined ∧ s'.Ascends := by
    rintro s act s' ⟨disciplined, ascends⟩ ⟨orderly, ranked⟩ stepped
    obtain ⟨moved, disciplined'⟩ := disciplined.step orderly stepped
    exact ⟨disciplined', ascends.step ranked moved⟩
  have throughout : Throughout (step operation) (fun s => s.Disciplined ∧ s.Ascends)
      (start enabled initial : Machine P M σ α β ε) schedule :=
    throughout_of_meets preserved (fun _ => id) ⟨disciplined_start enabled initial, ascends_start enabled initial⟩
      disciplined
  obtain ⟨⟨⟨owner, owned⟩, calm⟩, ascends⟩ := throughout schedule s (List.prefix_refl _) reached
  obtain ⟨mutex, guard, _, taken⟩ := spins
  exact owned.worker (calm.holders owned) ascends safe mutex taken

theorem not_panicked {operation : σ → α → Except ε (β × σ)} (total : ∀ value op, ∃ r, operation value op = .ok r)
    {s s' : Machine P M σ α β ε} {act : P × Act M α} (safe : ∀ c, ¬ s.Panicked c) (stepped : Steps operation s act s')
    (c : P × Nat) : ¬ s'.Panicked c := by
  have update : ∀ (context : Context M σ α ε) (c' : P × Nat), s'.context = Function.update s.context c' context →
      (∀ mutex reason, context.use ≠ .panicked mutex reason) → ¬ s'.Panicked c := by
    rintro context c' contexts here ⟨mutex, reason, panicked⟩
    rw [contexts] at panicked
    by_cases same : c = c'
    · subst same
      rw [Function.update_self] at panicked
      exact here mutex reason panicked
    · rw [Function.update_of_ne same] at panicked
      exact safe c ⟨mutex, reason, panicked⟩
  have here : ∀ p mutex reason, (s.here p).use ≠ .panicked mutex reason :=
    fun p mutex reason panicked => safe (s.running p) ⟨mutex, reason, panicked⟩
  cases stepped with
  | controls p act action processor runs stepped unused same => exact update _ _ rfl (here p)
  | acquires p taken mutex processor stepped unused free locks => exact update _ _ rfl (here p)
  | releases p position mutex processor stepped unused locks => exact update _ _ rfl (here p)
  | begins p mutex op value unused held there => exact update _ _ rfl nofun
  | finishes p mutex op value value' answer used done => exact update _ _ rfl nofun
  | panics p mutex op value reason used failed =>
    obtain ⟨r, done⟩ := total value op
    cases done.symm.trans failed
  | halts p mutex reason used => exact absurd used (here p mutex reason)
  | returns p level above unused released => exact safe c
  | interrupts p enabled => exact update _ _ rfl nofun

theorem run_not_panicked {operation : σ → α → Except ε (β × σ)} (total : ∀ value op, ∃ r, operation value op = .ok r)
    {enabled : P → Bool} {initial : M → σ} {schedule : List (P × Act M α)} {s : Machine P M σ α β ε}
    (reached : run (step operation) (start enabled initial) schedule = some s) : ∀ c, ¬ s.Panicked c := by
  have preserved : ∀ (s : Machine P M σ α β ε) act s', ((∃ owner, Owned owner s) ∧ ∀ c, ¬ s.Panicked c) →
      s.step operation act = some s' → (∃ owner, Owned owner s') ∧ ∀ c, ¬ s'.Panicked c := by
    rintro s ⟨p, act⟩ s' ⟨⟨owner, owned⟩, safe⟩ stepped
    have moved := steps_of_step (fun mutex held => owned.marked held) stepped
    exact ⟨owned.step moved, not_panicked total safe moved⟩
  refine (run_ensures preserved ⟨⟨_, owned_start enabled initial⟩, fun c => ?_⟩ reached).2
  rintro ⟨mutex, reason, panicked⟩
  cases panicked

def add (value op : Nat) : Except Unit (Nat × Nat) := .ok (value, value + op)

/-- The first processor takes both locks, and the second one waits for the first of them. -/
def ordered : List (Bool × Act (Fin 2) Nat) :=
  [(false, .call (.lock 0)), (false, .advance), (false, .advance), (true, .call (.lock 0)), (true, .advance),
    (true, .advance), (false, .call (.lock 1)), (false, .advance), (false, .advance)]

theorem no_deadlock_ordered :
    ∃ s : Machine Bool (Fin 2) Nat Nat Nat Unit,
      run (step add) (start (fun _ => true) fun _ => 0) ordered = some s ∧ s.Spins true ∧
        ∃ q, ¬ s.Spins q ∧ (s.here q).processor.locks ≠ [] := by
  have ran : (run (step add) (start (fun _ => true) fun _ => 0 : Machine Bool (Fin 2) Nat Nat Nat Unit) ordered).map
      (fun s => ((s.here true).processor.pc, s.locked 0)) = some (.locking 0 ⟨true⟩, true) := by decide +kernel
  obtain ⟨s, reached, seen⟩ := Option.map_eq_some_iff.mp ran
  obtain ⟨pc, taken⟩ := Prod.mk.inj seen
  have spins : s.Spins true := ⟨0, ⟨true⟩, pc, taken⟩
  have disciplined := (orderly_of_newest add (fun _ => true) (fun _ => 0) (by decide : ∀ act ∈ ordered, Newest act)).and
    (by decide +kernel : Meets _ Ranked _ ordered)
  exact ⟨s, reached, spins, no_deadlock add _ _ ordered reached disciplined
    (run_not_panicked (fun value op => ⟨_, rfl⟩) reached) spins⟩

end Machine

end Platypos.Sync
