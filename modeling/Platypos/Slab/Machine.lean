import Platypos.Library.TaggedStack
import Platypos.Slab.Slab

namespace PlatyposSlab.Machine

open CasLoop TaggedStack

variable (V : Type)

/-- Where a processor stands in its operation, with its local variables. Each constructor names the next access to
    memory that others can see. -/
inductive Pc where
  | idle
  | popLoad (value : V)
  | popRead (value : V) (oldHead : Nat)
  | popSwap (value : V) (oldHead newHead : Nat)
  | allocLoad (value : V) (index : Nat)
  | allocStore (value : V) (index : Nat) (new : Lifecycle)
  | allocFill (value : V) (index : Nat)
  | acquire (idx : Idx) (proposal : Proposal (Lifecycle.acquireReference idx.generation))
  | release (idx : Idx) (proposal : Proposal (Lifecycle.releaseReference idx.generation))
  | mark (idx : Idx) (proposal : Proposal (Lifecycle.markUnallocated idx.generation))
  | clearLoad (index : Nat)
  | clearStore (index : Nat) (new : Lifecycle)
  | clearTake (index : Nat)
  | pushLocal (index : Nat)
  | pushTag (index : Nat)
  | pushLoad (index tag : Nat)
  | pushWrite (index tag oldHead : Nat)
  | pushSwap (index tag oldHead : Nat)
  | panicked (reason : Panic)

inductive Action where
  | insert (value : V)
  | get (idx : Idx)
  | remove (idx : Idx)
  | drop (idx : Idx)
  | advance (spurious : Bool)

structure System (P : Type) where
  slab : Slab V P
  pc : P → Pc V
  refs : Multiset (P × Idx)

variable {V} {P : Type} [DecidableEq P]

namespace System

def setPc (s : System V P) (p : P) (pc : Pc V) : System V P := { s with pc := Function.update s.pc p pc }

def setLifecycle (s : System V P) (index : Nat) (new : Lifecycle) : System V P :=
  { s with slab := { s.slab with lifecycle := Function.update s.slab.lifecycle index new } }

def afterAcquire (s : System V P) (p : P) (idx : Idx) :
    Outcome (Lifecycle.acquireReference idx.generation) → System V P
  | .refused _ => s.setPc p .idle
  | .panicked reason => s.setPc p (.panicked reason)
  | .retry proposal => s.setPc p (.acquire idx proposal)
  | .committed new () => ({ s with refs := (p, idx) ::ₘ s.refs }.setLifecycle idx.index new).setPc p .idle

def afterRelease (s : System V P) (p : P) (idx : Idx) :
    Outcome (Lifecycle.releaseReference idx.generation) → System V P
  | .refused _ => s.setPc p (.panicked .releaseFailed)
  | .panicked reason => s.setPc p (.panicked reason)
  | .retry proposal => s.setPc p (.release idx proposal)
  | .committed new last =>
    ({ s with refs := s.refs.erase (p, idx) }.setLifecycle idx.index new).setPc p
      (if last then .clearLoad idx.index else .idle)

def afterMark (s : System V P) (p : P) (idx : Idx) :
    Outcome (Lifecycle.markUnallocated idx.generation) → System V P
  | .refused _ => s.setPc p .idle
  | .panicked reason => s.setPc p (.panicked reason)
  | .retry proposal => s.setPc p (.mark idx proposal)
  | .committed new unallocated =>
    (s.setLifecycle idx.index new).setPc p (if unallocated then .clearLoad idx.index else .idle)

/-- The next step of `GlobalFreeList::push`, `GlobalFreeList::pop`, `Slot::allocate` and `Slot::clear`, or the next
    exchange of a loop on a lifecycle. Only `fetch_update` uses the exchange that may fail for no reason. -/
def advance (debug : Bool) (s : System V P) (p : P) (spurious : Bool) : Option (System V P) :=
  match s.pc p with
  | .idle => none
  | .popLoad value =>
    if s.slab.head = EMPTY then some (s.setPc p .idle) else some (s.setPc p (.popRead value s.slab.head))
  | .popRead value oldHead =>
    if Entry.index oldHead < s.slab.size then
      some (s.setPc p (.popSwap value oldHead (s.slab.next (Entry.index oldHead))))
    else some (s.setPc p (.panicked .indexOutOfBounds))
  | .popSwap value oldHead newHead =>
    if s.slab.head = oldHead then
      some ({ s with slab := { s.slab with head := newHead } }.setPc p (.allocLoad value (Entry.index oldHead)))
    else some (s.setPc p (.popLoad value))
  | .allocLoad value index =>
    match (s.slab.lifecycle index).allocate debug with
    | .ok new => some (s.setPc p (.allocStore value index new))
    | .error reason => some (s.setPc p (.panicked reason))
  | .allocStore value index new => some ((s.setLifecycle index new).setPc p (.allocFill value index))
  | .allocFill value index =>
    some ({ s with slab := { s.slab with
      contents := Function.update s.slab.contents index (some value)
      processor := Function.update s.slab.processor index (some p) } }.setPc p .idle)
  | .acquire idx proposal =>
    if spurious then none
    else some (s.afterAcquire p idx (exchange _ proposal false (s.slab.lifecycle idx.index)))
  | .release idx proposal =>
    if spurious then none
    else some (s.afterRelease p idx (exchange _ proposal false (s.slab.lifecycle idx.index)))
  | .mark idx proposal => some (s.afterMark p idx (exchange _ proposal spurious (s.slab.lifecycle idx.index)))
  | .clearLoad index =>
    match (s.slab.lifecycle index).clear debug with
    | .ok new => some (s.setPc p (.clearStore index new))
    | .error reason => some (s.setPc p (.panicked reason))
  | .clearStore index new => some ((s.setLifecycle index new).setPc p (.clearTake index))
  | .clearTake index =>
    match s.slab.contents index with
    | none => some (s.setPc p (.panicked .uninitialized))
    | some _ =>
      some ({ s with slab := { s.slab with
        contents := Function.update s.slab.contents index none
        processor := Function.update s.slab.processor index none } }.setPc p
          (if s.slab.processor index = some p then .pushLocal index else .pushTag index))
  | .pushLocal index =>
    match s.slab.localPush p index with
    | .ok slab => some ({ s with slab := slab }.setPc p .idle)
    | .error reason => some (s.setPc p (.panicked reason))
  | .pushTag index =>
    some ({ s with slab := { s.slab with tag := (s.slab.tag + 1) % 2^64 } }.setPc p
      (if 2^18 ≤ index then .panicked .indexOverflow
        else if 2^46 ≤ s.slab.tag then .panicked .tagOverflow
        else .pushLoad index s.slab.tag))
  | .pushLoad index tag => some (s.setPc p (.pushWrite index tag s.slab.head))
  | .pushWrite index tag oldHead =>
    if index < s.slab.size then
      some ({ s with slab := { s.slab with next := Function.update s.slab.next index oldHead } }.setPc p
        (.pushSwap index tag oldHead))
    else some (s.setPc p (.panicked .indexOutOfBounds))
  | .pushSwap index tag oldHead =>
    if s.slab.head = oldHead then
      some ({ s with slab := { s.slab with head := Entry.pack index tag } }.setPc p .idle)
    else some (s.setPc p (.pushLoad index tag))
  | .panicked _ => none

/-- One step of one processor. The local list is its own, so a pop from it is one step, and only the holder of a
    reference drops it. -/
def step (debug : Bool) (s : System V P) (p : P) : Action V → Option (System V P)
  | .advance spurious => s.advance debug p spurious
  | .insert value =>
    match s.pc p with
    | .idle =>
      match s.slab.localPop p with
      | .ok (some index, slab) => some ({ s with slab := slab }.setPc p (.allocLoad value index))
      | .ok (none, _) => some (s.setPc p (.popLoad value))
      | .error reason => some (s.setPc p (.panicked reason))
    | _ => none
  | .get idx =>
    match s.pc p with
    | .idle =>
      if idx.index < s.slab.size then some (s.afterAcquire p idx (consider _ (s.slab.lifecycle idx.index)))
      else some s
    | _ => none
  | .remove idx =>
    match s.pc p with
    | .idle =>
      if idx.index < s.slab.size then some (s.afterMark p idx (consider _ (s.slab.lifecycle idx.index)))
      else some s
    | _ => none
  | .drop idx =>
    match s.pc p with
    | .idle =>
      if (p, idx) ∈ s.refs then
        if idx.index < s.slab.size then some (s.afterRelease p idx (consider _ (s.slab.lifecycle idx.index)))
        else some (s.setPc p (.panicked .indexOutOfBounds))
      else none
    | _ => none

def run (debug : Bool) : System V P → List (P × Action V) → Option (System V P)
  | s, [] => some s
  | s, (p, action) :: schedule => do
    let s' ← s.step debug p action
    run debug s' schedule

end System

def System.new (size : Nat) : Except Panic (System V P) := do
  let slab ← Slab.new size
  return ⟨slab, fun _ => .idle, 0⟩

end PlatyposSlab.Machine
