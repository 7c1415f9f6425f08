import Mathlib.Data.Fintype.Basic
import Mathlib.Logic.Function.Basic
import Platypos.Library.Schedule

namespace Platypos.Sync.Global

variable (T V : Type)

/-- Where a thread stands between the two accesses of its call. -/
inductive Pc where
  | idle
  | writing (value : V)
  | reading
  | panicked
  deriving DecidableEq, Repr

def Pc.isWriting {V : Type} : Pc V → Bool
  | .writing _ => true
  | _ => false

inductive Event where
  | won (t : T) (value : V)
  | initialized (t : T) (value : V)
  | refused (t : T)
  | got (t : T) (contents : Option V)
  | absent (t : T)
  deriving DecidableEq, Repr

/-- A `Global` and its threads. The contents are `none` while they are `MaybeUninit::uninit()`, and `log` is the
    history, newest first. -/
structure System where
  initialized : Bool
  value : Option V
  pc : T → Pc V
  log : List (Event T V)

inductive Action where
  | tryInit (value : V)
  | init (value : V)
  | tryGet
  | get
  | advance
  deriving DecidableEq, Repr

variable {T V}

namespace System

def new : System T V := ⟨false, none, fun _ => .idle, []⟩

def record (s : System T V) (event : Event T V) : System T V := { s with log := event :: s.log }

section Calls

variable [DecidableEq T]

def setPc (s : System T V) (t : T) (pc : Pc V) : System T V := { s with pc := Function.update s.pc t pc }

@[simp] theorem setPc_self (s : System T V) (t : T) (pc : Pc V) : (s.setPc t pc).pc t = pc :=
  Function.update_self ..

@[simp] theorem setPc_of_ne (s : System T V) (pc : Pc V) {t u : T} (differ : u ≠ t) : (s.setPc t pc).pc u = s.pc u :=
  Function.update_of_ne differ ..

/-- The exchange on `initialized`, and the way out when it fails: `Err(())` for `try_init`, a panic for `init`. -/
def compareExchange (s : System T V) (t : T) (value : V) (failure : Pc V) : System T V :=
  if s.initialized then (s.record (.refused t)).setPc t failure
  else ({ s with initialized := true }.record (.won t value)).setPc t (.writing value)

/-- The load of `initialized`, and the way out when it is not set: `None` for `try_get`, a panic for `get`. -/
def load (s : System T V) (t : T) (failure : Pc V) : System T V :=
  if s.initialized then s.setPc t .reading else (s.record (.absent t)).setPc t failure

def advance (s : System T V) (t : T) : Option (System T V) :=
  match s.pc t with
  | .idle => none
  | .writing value => some (({ s with value := some value }.record (.initialized t value)).setPc t .idle)
  | .reading => some ((s.record (.got t s.value)).setPc t .idle)
  | .panicked => none

def step (s : System T V) : T × Action V → Option (System T V)
  | (t, .advance) => s.advance t
  | (t, action) =>
    match s.pc t with
    | .idle =>
      match action with
      | .tryInit value => some (s.compareExchange t value .idle)
      | .init value => some (s.compareExchange t value .panicked)
      | .tryGet => some (s.load t .idle)
      | .get => some (s.load t .panicked)
      | .advance => none
    | _ => none

end Calls

end System

section Safety

open Schedule

/-- The `try_init` calls whose exchange succeeded. -/
def wins (log : List (Event T V)) : List (T × V) :=
  log.filterMap fun | .won t value => some (t, value) | _ => none

/-- The `try_init` calls that returned `Ok`. -/
def inits (log : List (Event T V)) : List (T × V) :=
  log.filterMap fun | .initialized t value => some (t, value) | _ => none

/-- Every reference handed out shows the value of the `try_init` that won. -/
def System.Exposed (s : System T V) : Prop :=
  ∀ t contents, .got t contents ∈ s.log → ∃ winner value, wins s.log = [(winner, value)] ∧ contents = some value

/-- A reference is taken only while no `try_init` is between its exchange and its write. -/
def System.Settled (s : System T V) : T × Action V → Prop
  | (t, .advance) => s.pc t = .reading → ∀ u, (s.pc u).isWriting = false
  | _ => True

instance [Fintype T] [DecidableEq V] (s : System T V) : ∀ action, Decidable (s.Settled action)
  | (t, .advance) => inferInstanceAs (Decidable (s.pc t = .reading → ∀ u, (s.pc u).isWriting = false))
  | (_, .tryInit _) => .isTrue trivial
  | (_, .init _) => .isTrue trivial
  | (_, .tryGet) => .isTrue trivial
  | (_, .get) => .isTrue trivial

/-- How far initialisation has come. -/
inductive Stage (s : System T V) : Prop where
  | fresh (unset : s.initialized = false) (uninit : s.value = none) (idle : ∀ t value, s.pc t ≠ .writing value)
    (unread : ∀ t, s.pc t ≠ .reading) (won : wins s.log = []) (returned : inits s.log = [])
  | claimed (winner : T) (value : V) (set : s.initialized = true) (uninit : s.value = none)
    (writing : s.pc winner = .writing value) (alone : ∀ t w, s.pc t = .writing w → t = winner)
    (won : wins s.log = [(winner, value)]) (returned : inits s.log = [])
  | written (winner : T) (value : V) (set : s.initialized = true) (init : s.value = some value)
    (idle : ∀ t w, s.pc t ≠ .writing w) (won : wins s.log = [(winner, value)])
    (returned : inits s.log = [(winner, value)])

variable {s s' : System T V}

theorem stage_new : Stage (System.new : System T V) := .fresh rfl rfl nofun nofun rfl rfl

/-- A read after the write shows the winner's value. -/
theorem Stage.settled (stage : Stage s) {t : T} (reading : s.pc t = .reading) (settled : ∀ u, (s.pc u).isWriting = false) :
    ∃ winner value, wins s.log = [(winner, value)] ∧ s.value = some value := by
  cases stage with
  | fresh _ _ _ unread => exact absurd reading (unread t)
  | claimed winner value _ _ writing =>
    have calm := settled winner
    rw [writing] at calm
    cases calm
  | written winner value _ init _ won => exact ⟨winner, value, won, init⟩

/-- A read before the write shows nothing. -/
theorem Stage.unsettled (stage : Stage s) {u : T} {value : V} (writing : s.pc u = .writing value) :
    s.value = none := by
  cases stage with
  | fresh _ uninit => exact uninit
  | claimed _ _ _ uninit => exact uninit
  | written _ _ _ _ idle => exact absurd writing (idle u value)

variable [DecidableEq T] {t : T}

/-- Everything a step can do: go from one place to another, claim the global, write it, or read it. -/
inductive Steps (s : System T V) (t : T) : Action V → System T V → Prop where
  | turns (action : Action V) (pc : Pc V) (log : List (Event T V)) (calls : action ≠ .advance) (idle : s.pc t = .idle)
    (after : ∀ value, pc ≠ .writing value) (reads : pc = .reading → s.initialized = true)
    (won : wins log = wins s.log) (returned : inits log = inits s.log)
    (got : ∀ u contents, .got u contents ∈ log → .got u contents ∈ s.log) :
    Steps s t action ({ s with log := log }.setPc t pc)
  | claims (action : Action V) (value : V) (calls : action ≠ .advance) (unset : s.initialized = false) :
    Steps s t action (({ s with initialized := true }.record (.won t value)).setPc t (.writing value))
  | writes (value : V) (writing : s.pc t = .writing value) :
    Steps s t .advance (({ s with value := some value }.record (.initialized t value)).setPc t .idle)
  | reads (reading : s.pc t = .reading) : Steps s t .advance ((s.record (.got t s.value)).setPc t .idle)

theorem steps_compareExchange {action : Action V} (calls : action ≠ .advance) (idle : s.pc t = .idle) (value : V)
    {failure : Pc V} (after : ∀ value, failure ≠ .writing value) (unread : failure ≠ .reading) :
    Steps s t action (s.compareExchange t value failure) := by
  unfold System.compareExchange
  split
  · exact .turns action failure (.refused t :: s.log) calls idle after (fun reading => absurd reading unread) rfl rfl
      (by simp)
  · rename_i unset
    exact .claims action value calls (Bool.not_eq_true _ ▸ unset)

theorem steps_load {action : Action V} (calls : action ≠ .advance) (idle : s.pc t = .idle) {failure : Pc V}
    (after : ∀ value, failure ≠ .writing value) (unread : failure ≠ .reading) :
    Steps s t action (s.load t failure) := by
  unfold System.load
  split
  · rename_i set
    exact .turns action .reading s.log calls idle nofun (fun _ => set) rfl rfl (fun _ _ => id)
  · exact .turns action failure (.absent t :: s.log) calls idle after (fun reading => absurd reading unread) rfl rfl
      (by simp)

theorem steps_of_step {action : Action V} (stepped : s.step (t, action) = some s') : Steps s t action s' := by
  cases action with
  | advance =>
    simp only [System.step, System.advance] at stepped
    split at stepped
    · cases stepped
    · rename_i value writing
      cases stepped
      exact .writes value writing
    · rename_i reading
      cases stepped
      exact .reads reading
    · cases stepped
  | tryInit value | init value =>
    simp only [System.step] at stepped
    split at stepped
    · rename_i idle
      cases stepped
      refine steps_compareExchange ?_ idle value ?_ ?_ <;> nofun
    · cases stepped
  | tryGet | get =>
    simp only [System.step] at stepped
    split at stepped
    · rename_i idle
      cases stepped
      refine steps_load ?_ idle ?_ ?_ <;> nofun
    · cases stepped

/-- A step that neither claims nor writes leaves the stage as it is. -/
theorem Stage.turn (stage : Stage s) (pc : Pc V) (log : List (Event T V)) (before : ∀ value, s.pc t ≠ .writing value)
    (after : ∀ value, pc ≠ .writing value) (reads : pc = .reading → s.initialized = true)
    (won : wins log = wins s.log) (returned : inits log = inits s.log) : Stage ({ s with log := log }.setPc t pc) := by
  have writers : ∀ u w, Function.update s.pc t pc u = .writing w → s.pc u = .writing w := by
    intro u w writing
    by_cases same : u = t
    · subst same
      rw [Function.update_self] at writing
      exact absurd writing (after w)
    · rwa [Function.update_of_ne same] at writing
  cases stage with
  | fresh unset uninit idle unread none none' =>
    refine .fresh unset uninit (fun u w writing => idle u w (writers u w writing)) ?_ (won.trans none)
      (returned.trans none')
    intro u reading
    by_cases same : u = t
    · subst same
      rw [System.setPc_self] at reading
      exact absurd (reads reading) (by rw [unset]; decide)
    · rw [System.setPc_of_ne _ _ same] at reading
      exact unread u reading
  | claimed winner value set uninit writing alone one none =>
    have other : winner ≠ t := by
      intro same
      exact before value (same ▸ writing)
    refine .claimed winner value set uninit ?_ (fun u w held => alone u w (writers u w held)) (won.trans one)
      (returned.trans none)
    rw [System.setPc_of_ne _ _ other]
    exact writing
  | written winner value set init idle one one' =>
    exact .written winner value set init (fun u w held => idle u w (writers u w held)) (won.trans one)
      (returned.trans one')

theorem Stage.claim (stage : Stage s) (unset : s.initialized = false) (value : V) :
    Stage (({ s with initialized := true }.record (.won t value)).setPc t (.writing value)) := by
  cases stage with
  | fresh _ uninit idle unread won returned =>
    refine .claimed t value rfl uninit (System.setPc_self ..) ?_ (congrArg ((t, value) :: ·) won) returned
    intro u w writing
    by_contra differ
    rw [System.setPc_of_ne _ _ differ] at writing
    exact idle u w writing
  | claimed _ _ set => exact absurd set (by rw [unset]; decide)
  | written _ _ set => exact absurd set (by rw [unset]; decide)

theorem Stage.write (stage : Stage s) {value : V} (writing : s.pc t = .writing value) :
    Stage (({ s with value := some value }.record (.initialized t value)).setPc t .idle) := by
  cases stage with
  | fresh _ _ idle => exact absurd writing (idle t value)
  | claimed winner value' set uninit writing' alone won returned =>
    obtain rfl := alone t value writing
    obtain rfl : value = value' := Pc.writing.inj (writing.symm.trans writing')
    refine .written t value set rfl ?_ won (congrArg ((t, value) :: ·) returned)
    intro u w held
    by_cases same : u = t
    · subst same
      rw [System.setPc_self] at held
      cases held
    · rw [System.setPc_of_ne _ _ same] at held
      exact same (alone u w held)
  | written _ _ _ _ idle => exact absurd writing (idle t value)

theorem Stage.step {action : Action V} (stage : Stage s) (stepped : Steps s t action s') : Stage s' := by
  cases stepped with
  | turns _ pc log calls idle after reads won returned got =>
    refine stage.turn pc log ?_ after reads won returned
    intro value
    rw [idle]
    nofun
  | claims _ value calls unset => exact stage.claim unset value
  | writes value writing => exact stage.write writing
  | reads reading =>
    refine stage.turn .idle (.got t s.value :: s.log) ?_ nofun nofun rfl rfl
    intro value
    rw [reading]
    nofun

theorem unsettled_read {action : Action V} (stage : Stage s) (unsettled : ¬ s.Settled (t, action))
    (stepped : Steps s t action s') : ¬ s'.Exposed := by
  intro exposed
  cases stepped with
  | turns _ pc log calls idle => cases action <;> first | exact unsettled trivial | exact calls rfl
  | claims _ value calls => cases action <;> first | exact unsettled trivial | exact calls rfl
  | writes value writing => simp [System.Settled, writing] at unsettled
  | reads reading =>
    simp only [System.Settled, not_forall] at unsettled
    obtain ⟨_, u, writing⟩ := unsettled
    obtain ⟨_, _, _, shows⟩ := exposed t s.value List.mem_cons_self
    cases pc : s.pc u with
    | writing value =>
      rw [stage.unsettled pc] at shows
      cases shows
    | _ => simp [pc, Pc.isWriting] at writing

theorem System.Exposed.step {action : Action V} (exposed : s.Exposed) (stage : Stage s)
    (settled : s.Settled (t, action)) (stepped : Steps s t action s') : s'.Exposed := by
  intro u contents member
  cases stepped with
  | turns _ pc log calls idle after reads won returned got =>
    obtain ⟨winner, value, one, shows⟩ := exposed u contents (got u contents member)
    exact ⟨winner, value, won.trans one, shows⟩
  | claims _ value calls unset =>
    have old : .got u contents ∈ s.log := by
      simpa [System.setPc, System.record] using member
    obtain ⟨winner, value', one, _⟩ := exposed u contents old
    cases stage with
    | fresh _ _ _ _ won => simp [won] at one
    | claimed _ _ set => simp [unset] at set
    | written _ _ set => simp [unset] at set
  | writes value writing =>
    have old : .got u contents ∈ s.log := by
      simpa [System.setPc, System.record] using member
    exact exposed u contents old
  | reads reading =>
    cases member with
    | head => exact stage.settled reading (settled reading)
    | tail _ old => exact exposed u contents old

/-- At most one `try_init` ever succeeds, and references show its value in every state of exactly those runs that
    take none between its exchange and its write. -/
theorem global_exposes_written_value (schedule : List (T × Action V)) {s : System T V}
    (reached : run System.step System.new schedule = some s) :
    (inits s.log).length ≤ 1 ∧
      (Throughout System.step System.Exposed System.new schedule ↔
        Meets System.step System.Settled System.new schedule) := by
  constructor
  · have stage : Stage s :=
      run_ensures (fun _ _ _ stage stepped => stage.step (steps_of_step stepped)) stage_new reached
    cases stage with
    | fresh _ _ _ _ _ returned => simp [returned]
    | claimed _ _ _ _ _ _ _ returned => simp [returned]
    | written _ _ _ _ _ _ returned => simp [returned]
  · have preserved : ∀ (s : System T V) (a : T × Action V) s', Stage s ∧ s.Exposed → s.Settled a →
        s.step a = some s' → Stage s' ∧ s'.Exposed := by
      intro s a s' inv settled stepped
      have steps := steps_of_step stepped
      exact ⟨inv.1.step steps, inv.2.step inv.1 settled steps⟩
    have unread : (System.new : System T V).Exposed := nofun
    have start : Stage (System.new : System T V) ∧ (System.new : System T V).Exposed := ⟨stage_new, unread⟩
    constructor
    · apply meets_of_throughout preserved _ start reached
      intro s a s' inv unsettled stepped
      exact unsettled_read inv.1 unsettled (steps_of_step stepped)
    · exact throughout_of_meets preserved (fun _ inv => inv.2) start

theorem global_exposes_written_value_race :
    Throughout System.step System.Exposed (System.new : System Bool Nat)
      [(true, .tryGet), (false, .tryInit 7), (true, .init 8), (false, .advance), (false, .get), (false, .advance)] := by
  apply (global_exposes_written_value _ rfl).2.mpr
  decide

/-- A handler runs between the exchange and the write, and is given a reference to nothing. -/
theorem uninitialized_value_exposed :
    ∃ s : System Bool Nat, run System.step System.new [(false, .tryInit 7), (true, .tryGet), (true, .advance)] = some s ∧
      .got true none ∈ s.log ∧ ¬ s.Exposed := by
  refine ⟨_, rfl, List.mem_cons_self, ?_⟩
  intro exposed
  obtain ⟨_, _, _, shows⟩ := exposed true none List.mem_cons_self
  cases shows

end Safety

end Platypos.Sync.Global
