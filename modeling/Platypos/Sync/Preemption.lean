import Mathlib.Logic.Function.Basic
import Platypos.Library.Interleave
import Platypos.Sync.InterruptSafety

namespace Platypos.Sync

/-- What a context is doing with a value that it has locked. An operation has the value to itself until it is done,
    and one that panics never gives it back. -/
inductive Use (M σ α ε : Type) where
  | nothing
  | operating (mutex : M) (op : α) (value : σ)
  | panicked (mutex : M) (reason : ε)

/-- A flow of control: the program of a processor, or an interrupt handler. -/
structure Context (M σ α ε : Type) where
  processor : Processor M
  use : Use M σ α ε

/-- Processors that share values behind mutexes. Context `(p, 0)` is the program of processor `p` and `(p, n + 1)` the
    handler that has interrupted `(p, n)`. The one at `depth p` is running, and there is nothing above it. -/
structure Machine (P M σ α β ε : Type) where
  locked : M → Bool
  value : M → Option σ
  context : P × Nat → Context M σ α ε
  depth : P → Nat
  log : List (M × α × β)

inductive Act (M α : Type) where
  | call (call : Call M)
  | drop (position : Nat)
  | advance
  | operate (mutex : M) (op : α)
  | finish
  | interrupt
  | iret
  | halt

section Uses

variable {M σ α ε : Type}

/-- The mutex whose value is in use. -/
def Use.mutex : Use M σ α ε → Option M
  | .nothing => none
  | .operating mutex _ _ => some mutex
  | .panicked mutex _ => some mutex

def Use.isNothing : Use M σ α ε → Bool
  | .nothing => true
  | _ => false

def Context.start (enabled : Bool) : Context M σ α ε := ⟨.start enabled, .nothing⟩

/-- The spinlock that the next step will try to take. -/
def Processor.wanted (s : Processor M) : Option M :=
  match s.pc with
  | .locking mutex _ => some mutex
  | .tryLocking mutex _ => some mutex
  | _ => none

end Uses

namespace Machine

variable {P M σ α β ε : Type}

def start (enabled : P → Bool) (value : M → σ) : Machine P M σ α β ε where
  locked _ := false
  value mutex := some (value mutex)
  context c := Context.start (enabled c.1)
  depth _ := 0
  log := []

/-- The context that has the processor. -/
def running (s : Machine P M σ α β ε) (p : P) : P × Nat := (p, s.depth p)

def here (s : Machine P M σ α β ε) (p : P) : Context M σ α ε := s.context (s.running p)

variable [DecidableEq P] [DecidableEq M]

def setContext (s : Machine P M σ α β ε) (c : P × Nat) (context : Context M σ α ε) : Machine P M σ α β ε :=
  { s with context := Function.update s.context c context }

/-- A step of the code of `InterruptSafeMutex` and `Controller`. -/
def control (s : Machine P M σ α β ε) (p : P) (action : Action M) : Option (Machine P M σ α β ε) :=
  ((s.here p).processor.step action).map fun processor =>
    s.setContext (s.running p) { s.here p with processor := processor }

/-- The next step of a call. The spinlock is tried with a compare and exchange of its word. -/
def advance (s : Machine P M σ α β ε) (p : P) : Option (Machine P M σ α β ε) :=
  match (s.here p).processor.wanted with
  | none => s.control p (.advance false)
  | some mutex =>
    (s.control p (.advance (s.locked mutex))).map fun s' =>
      { s' with locked := Function.update s.locked mutex true }

/-- A guard is dropped. The word of its spinlock, if it has one, is cleared first. -/
def dropGuard (s : Machine P M σ α β ε) (p : P) (position : Nat) : Option (Machine P M σ α β ε) :=
  (s.control p (.drop position)).map fun s' =>
    match (s.here p).processor.held[position]?.bind Held.inner with
    | none => s'
    | some mutex => { s' with locked := Function.update s.locked mutex false }

/-- An operation on a value begins, through the guard of its mutex. -/
def operate (s : Machine P M σ α β ε) (p : P) (mutex : M) (op : α) : Option (Machine P M σ α β ε) :=
  match (s.here p).processor.pc, s.value mutex with
  | .idle, some value =>
    if mutex ∈ (s.here p).processor.locks then
      some ({ s with value := Function.update s.value mutex none }.setContext (s.running p)
        { s.here p with use := .operating mutex op value })
    else none
  | _, _ => none

/-- The operation ends. If it panics, the guard is never dropped: the panic handler does not return. -/
def finish (operation : σ → α → Except ε (β × σ)) (s : Machine P M σ α β ε) (p : P) :
    Option (Machine P M σ α β ε) :=
  match (s.here p).use with
  | .operating mutex op value =>
    match operation value op with
    | .ok (answer, value') =>
      some ({ s with value := Function.update s.value mutex (some value'), log := s.log ++ [(mutex, op, answer)] }.setContext
        (s.running p) { s.here p with use := .nothing })
    | .error reason => some (s.setContext (s.running p) { s.here p with use := .panicked mutex reason })
  | _ => none

/-- An interrupt gate turns interrupts off for the handler. -/
def interrupt (s : Machine P M σ α β ε) (p : P) : Option (Machine P M σ α β ε) :=
  if (s.here p).processor.enabled then
    some ({ s with depth := Function.update s.depth p (s.depth p + 1) }.setContext (p, s.depth p + 1) (.start false))
  else none

def iret (s : Machine P M σ α β ε) (p : P) : Option (Machine P M σ α β ε) :=
  match s.depth p, (s.here p).processor.pc, (s.here p).processor.held with
  | level + 1, .idle, [] => some { s with depth := Function.update s.depth p level }
  | _, _, _ => none

/-- The end of the panic handler, `fatal_error`, waits with interrupts enabled. -/
def halt (s : Machine P M σ α β ε) (p : P) : Option (Machine P M σ α β ε) :=
  match (s.here p).use with
  | .panicked _ _ =>
    some (s.setContext (s.running p)
      { s.here p with processor := { (s.here p).processor with enabled := true } })
  | _ => none

/-- One step of one processor. -/
def step (operation : σ → α → Except ε (β × σ)) (s : Machine P M σ α β ε) :
    P × Act M α → Option (Machine P M σ α β ε)
  | (p, .interrupt) => s.interrupt p
  | (p, .finish) => s.finish operation p
  | (p, .halt) => s.halt p
  | (p, act) =>
    if (s.here p).use.isNothing then
      match act with
      | .call call => s.control p (.call call)
      | .drop position => s.dropGuard p position
      | .advance => s.advance p
      | .operate mutex op => s.operate p mutex op
      | .iret => s.iret p
      | _ => none
    else none

end Machine

end Platypos.Sync
