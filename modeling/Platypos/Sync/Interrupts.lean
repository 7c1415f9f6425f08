import Platypos.Library.Schedule

namespace Platypos.Sync

/-- `interrupts::Guard`: the state that its drop restores. -/
structure Guard where
  enableFlag : Bool
  deriving DecidableEq, Repr

variable (M : Type)

/-- A guard in the hands of the program: of `Controller::disable`, or of a locked `InterruptSafeMutex`. -/
inductive Held where
  | interrupts (guard : Guard)
  | mutex (inner : M) (guard : Guard)
  deriving DecidableEq, Repr

inductive Call where
  | disable
  | lock (mutex : M)
  | tryLock (mutex : M)
  deriving DecidableEq, Repr

/-- Where the processor stands inside a call, with its local variables. -/
inductive Pc where
  | idle
  | disabling (call : Call M) (enableFlag : Bool)
  | locking (mutex : M) (guard : Guard)
  | tryLocking (mutex : M) (guard : Guard)
  | restoring (guard : Guard)
  deriving DecidableEq, Repr

structure Processor where
  enabled : Bool
  pc : Pc M
  held : List (Held M)
  deriving DecidableEq, Repr

inductive Action where
  | call (call : Call M)
  | drop (position : Nat)
  | advance (taken : Bool)
  deriving DecidableEq, Repr

variable {M}

namespace Held

def guard : Held M → Guard
  | .interrupts guard => guard
  | .mutex _ guard => guard

def inner : Held M → Option M
  | .interrupts _ => none
  | .mutex inner _ => some inner

end Held

def Pc.guard : Pc M → Option Guard
  | .idle => none
  | .disabling _ _ => none
  | .locking _ guard => some guard
  | .tryLocking _ guard => some guard
  | .restoring guard => some guard

namespace Processor

/-- The inner spinlocks the processor holds. -/
def locks (s : Processor M) : List M := s.held.filterMap Held.inner

/-- Every guard that has been made and not yet dropped, the one a call is working with included. -/
def outstanding (s : Processor M) : List Guard := s.pc.guard.toList ++ s.held.map Held.guard

variable [DecidableEq M]

/-- What a call goes on to do with the guard of `Controller::disable`. -/
def proceed (s : Processor M) (guard : Guard) : Call M → Processor M
  | .disable => { s with pc := .idle, held := .interrupts guard :: s.held }
  | .lock mutex => { s with pc := .locking mutex guard }
  | .tryLock mutex => { s with pc := .tryLocking mutex guard }

/-- The next step of the call. `taken` says whether another processor has the spinlock when it is tried; one that
    the processor has itself is never free. -/
def advance (s : Processor M) (taken : Bool) : Option (Processor M) :=
  match s.pc with
  | .idle => none
  | .disabling call enableFlag =>
    -- force_disable only if interrupts were enabled
    some ({ s with enabled := if enableFlag then false else s.enabled }.proceed ⟨enableFlag⟩ call)
  | .locking mutex guard =>
    if taken || mutex ∈ s.locks then some s
    else some { s with pc := .idle, held := .mutex mutex guard :: s.held }
  | .tryLocking mutex guard =>
    if taken || mutex ∈ s.locks then some { s with pc := .restoring guard }
    else some { s with pc := .idle, held := .mutex mutex guard :: s.held }
  | .restoring guard =>
    some { s with pc := .idle, enabled := if guard.enableFlag then true else s.enabled }

/-- One step of the processor. Every call begins with `enabled()`, and a drop with the fields before the interrupt
    guard, so that a mutex guard releases its spinlock first. -/
def step (s : Processor M) : Action M → Option (Processor M)
  | .advance taken => s.advance taken
  | .call call =>
    match s.pc with
    | .idle => some { s with pc := .disabling call s.enabled }
    | _ => none
  | .drop position =>
    match s.pc, s.held[position]? with
    | .idle, some dropped =>
      some { s with pc := .restoring dropped.guard, held := s.held.eraseIdx position }
    | _, _ => none

def start (enabled : Bool) : Processor M := ⟨enabled, .idle, []⟩

end Processor

end Platypos.Sync
