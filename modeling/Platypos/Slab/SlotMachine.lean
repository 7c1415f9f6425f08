import Mathlib.Logic.Function.Basic
import Platypos.Slab.Slot

namespace PlatyposSlab.SlotMachine

open CasLoop

/-- Where a thread stands in its operation on the slot, with its local variables. -/
inductive Pc where
  | idle
  | acquiring (generation : Nat) (proposal : Proposal (Lifecycle.acquireReference generation))
  | releasing (generation : Nat) (proposal : Proposal (Lifecycle.releaseReference generation))
  | marking (generation : Nat) (proposal : Proposal (Lifecycle.markUnallocated generation))
  | clearing
  | storing (new : Lifecycle)
  | dropping
  | allocating (new : Lifecycle)
  | panicked (reason : Panic)

def Pc.Busy : Pc → Prop
  | .clearing => True
  | .storing _ => True
  | .dropping => True
  | .allocating _ => True
  | _ => False

variable (T : Type)

inductive Event where
  | acquired (t : T) (generation : Nat)
  | released (t : T) (generation : Nat)
  | releaseRefused (t : T) (generation : Nat) (error : LifecycleError)
  | marked (t : T) (generation : Nat)
  | granted (t : T) (generation : Nat) (live : Multiset (T × Nat))

/-- One slot and its threads. `refs` are the live references with their holders, `vacant` says that the slot
    has been cleared and may be allocated, and `log` is the history, newest first. -/
structure System where
  lifecycle : Lifecycle
  pc : T → Pc
  refs : Multiset (T × Nat)
  vacant : Bool
  log : List (Event T)

inductive Action where
  | acquireReference (generation : Nat)
  | releaseReference (generation : Nat)
  | markUnallocated (generation : Nat)
  | allocate
  | advance (spurious : Bool)
  deriving DecidableEq, Repr

variable {T} [DecidableEq T]

namespace System

def setPc (s : System T) (t : T) (pc : Pc) : System T := { s with pc := Function.update s.pc t pc }

def record (s : System T) (event : Event T) : System T := { s with log := event :: s.log }

def afterAcquire (s : System T) (t : T) (generation : Nat) :
    Outcome (Lifecycle.acquireReference generation) → System T
  | .refused _ => s.setPc t .idle
  | .panicked reason => s.setPc t (.panicked reason)
  | .retry proposal => s.setPc t (.acquiring generation proposal)
  | .committed new () =>
    ({ s with lifecycle := new, refs := (t, generation) ::ₘ s.refs }.record (.acquired t generation)).setPc t .idle

def afterRelease (s : System T) (t : T) (generation : Nat) :
    Outcome (Lifecycle.releaseReference generation) → System T
  | .refused error => (s.record (.releaseRefused t generation error)).setPc t .idle
  | .panicked reason => s.setPc t (.panicked reason)
  | .retry proposal => s.setPc t (.releasing generation proposal)
  | .committed new last =>
    let s := { s with lifecycle := new, refs := s.refs.erase (t, generation) }.record (.released t generation)
    if last then (s.record (.granted t generation s.refs)).setPc t .clearing else s.setPc t .idle

def afterMark (s : System T) (t : T) (generation : Nat) :
    Outcome (Lifecycle.markUnallocated generation) → System T
  | .refused _ => s.setPc t .idle
  | .panicked reason => s.setPc t (.panicked reason)
  | .retry proposal => s.setPc t (.marking generation proposal)
  | .committed new unallocated =>
    let s := { s with lifecycle := new }.record (.marked t generation)
    if unallocated then (s.record (.granted t generation s.refs)).setPc t .clearing else s.setPc t .idle

/-- The next access of a thread to the lifecycle. Only `fetch_update` uses the exchange that may fail for no
    reason. -/
def advance (debug : Bool) (s : System T) (t : T) (spurious : Bool) : Option (System T) :=
  match s.pc t with
  | .idle => none
  | .acquiring generation proposal =>
    if spurious then none else some (s.afterAcquire t generation (exchange _ proposal false s.lifecycle))
  | .releasing generation proposal =>
    if spurious then none else some (s.afterRelease t generation (exchange _ proposal false s.lifecycle))
  | .marking generation proposal => some (s.afterMark t generation (exchange _ proposal spurious s.lifecycle))
  | .clearing =>
    match s.lifecycle.clear debug with
    | .ok new => some (s.setPc t (.storing new))
    | .error reason => some (s.setPc t (.panicked reason))
  | .storing new => some ({ s with lifecycle := new }.setPc t .dropping)
  | .dropping => some ({ s with vacant := true }.setPc t .idle)
  | .allocating new => some ({ s with lifecycle := new }.setPc t .idle)
  | .panicked _ => none

/-- One step of one thread. A reference is released only by its holder, and a slot allocated only when it is
    vacant. -/
def step (debug : Bool) (s : System T) (t : T) : Action → Option (System T)
  | .advance spurious => s.advance debug t spurious
  | .acquireReference generation =>
    match s.pc t with
    | .idle => some (s.afterAcquire t generation (consider _ s.lifecycle))
    | _ => none
  | .releaseReference generation =>
    match s.pc t with
    | .idle =>
      if (t, generation) ∈ s.refs then some (s.afterRelease t generation (consider _ s.lifecycle)) else none
    | _ => none
  | .markUnallocated generation =>
    match s.pc t with
    | .idle => some (s.afterMark t generation (consider _ s.lifecycle))
    | _ => none
  | .allocate =>
    match s.pc t with
    | .idle =>
      if s.vacant then
        match s.lifecycle.allocate debug with
        | .ok new => some ({ s with vacant := false }.setPc t (.allocating new))
        | .error reason => some ({ s with vacant := false }.setPc t (.panicked reason))
      else none
    | _ => none

def run (debug : Bool) : System T → List (T × Action) → Option (System T)
  | s, [] => some s
  | s, (t, action) :: schedule => do
    let s' ← s.step debug t action
    run debug s' schedule

def allocated (generation : Nat) (fits : generation < 2^46) : System T :=
  ⟨⟨.allocated, generation, 0, fits, Nat.two_pow_pos 16⟩, fun _ => .idle, 0, false, []⟩

end System

end PlatyposSlab.SlotMachine
