import Platypos.Library.Schedule
import Platypos.Slab.Slab

namespace Platypos.Ktrace.Handles

open CasLoop

open PlatyposSlab (Idx Lifecycle Slab)

/-- The call that a thread is in. -/
inductive Call where
  | cloneSpan
  | tryClose
  deriving DecidableEq

/-- What a call still has to do when its reference has been dropped. -/
inductive After where
  | cloned
  | closing (references : UInt64)
  deriving DecidableEq

/-- What a thread goes on with when it has returned the slot. -/
inductive Resume where
  | dropped (after : After)
  | removed
  deriving DecidableEq

/-- Where a thread stands in its call, with its local variables. Each constructor names the next access to memory
    that others can see. -/
inductive Pc (span : Idx) where
  | idle
  | getting (call : Call) (proposal : Proposal (Lifecycle.acquireReference span.generation))
  | counting (call : Call)
  | dropping (after : After)
  | releasing (after : After) (proposal : Proposal (Lifecycle.releaseReference span.generation))
  | removing
  | marking (proposal : Proposal (Lifecycle.markUnallocated span.generation))
  | clearLoad (resume : Resume)
  | clearStore (resume : Resume) (new : Lifecycle)
  | clearTake (resume : Resume)
  | pushLocal (resume : Resume)
  | pushTag (resume : Resume)
  | pushLoad (resume : Resume) (tag : Nat)
  | pushWrite (resume : Resume) (tag oldHead : Nat)
  | pushSwap (resume : Resume) (tag oldHead : Nat)
  | panicked (reason : PlatyposSlab.Panic)

/-- What has happened so far, newest first: the calls whose `get` failed, the results of `try_close` with the count
    each has observed, the calls of `remove` and their results, and the values that were dropped. -/
structure Trace (V T : Type) where
  refused : List T
  closed : List (T × Option UInt64 × Bool)
  removing : List T
  removed : List (T × Bool)
  dropped : List V

/-- One span of the slab and the threads that hold its handles, one entry for each handle. A handle comes with the
    `fetch_add` of the `clone_span` that returns it, and goes with the `fetch_sub` of its `try_close`. -/
structure System (V P T : Type) (span : Idx) where
  slab : Slab V P
  references : UInt64
  handles : Multiset T
  pc : T → Pc span
  trace : Trace V T

inductive Action (T : Type) where
  | call (call : Call)
  | pass (receiver : T)
  | advance (spurious : Bool)

variable {V P T : Type} [DecidableEq P] [DecidableEq T] {span : Idx}

namespace System

def lifecycle (s : System V P T span) : Lifecycle := s.slab.lifecycle span.index

def setPc (s : System V P T span) (t : T) (pc : Pc span) : System V P T span := { s with pc := Function.update s.pc t pc }

def setLifecycle (s : System V P T span) (new : Lifecycle) : System V P T span :=
  { s with slab := { s.slab with lifecycle := Function.update s.slab.lifecycle span.index new } }

def closed (s : System V P T span) (t : T) (observed : Option UInt64) (last : Bool) : System V P T span :=
  { s with trace := { s.trace with closed := (t, observed, last) :: s.trace.closed } }.setPc t .idle

/-- The reference is gone: the last closer goes on to remove the span. -/
def dropped (s : System V P T span) (t : T) : After → System V P T span
  | .cloned => s.setPc t .idle
  | .closing references =>
    if references = 1 then { s with trace := { s.trace with removing := t :: s.trace.removing } }.setPc t .removing
    else s.closed t (some references) false

def removed (s : System V P T span) (t : T) (success : Bool) : System V P T span :=
  { s with trace := { s.trace with removed := (t, success) :: s.trace.removed } }.closed t (some 1) true

def resume (s : System V P T span) (t : T) : Resume → System V P T span
  | .dropped after => s.dropped t after
  | .removed => s.removed t true

/-- `get` has found nothing: `clone_span` returns the id all the same, and `try_close` returns false. -/
def refused (s : System V P T span) (t : T) : Call → System V P T span
  | .cloneSpan =>
    { s with
      handles := t ::ₘ s.handles
      trace := { s.trace with refused := t :: s.trace.refused } }.setPc t .idle
  | .tryClose =>
    { s with
      handles := s.handles.erase t
      trace := { s.trace with refused := t :: s.trace.refused } }.closed t none false

def afterGet (s : System V P T span) (t : T) (call : Call) :
    Outcome (Lifecycle.acquireReference span.generation) → System V P T span
  | .refused _ => s.refused t call
  | .panicked reason => s.setPc t (.panicked reason)
  | .retry proposal => s.setPc t (.getting call proposal)
  | .committed new () => (s.setLifecycle new).setPc t (.counting call)

def afterRelease (s : System V P T span) (t : T) (after : After) :
    Outcome (Lifecycle.releaseReference span.generation) → System V P T span
  | .refused _ => s.setPc t (.panicked .releaseFailed)
  | .panicked reason => s.setPc t (.panicked reason)
  | .retry proposal => s.setPc t (.releasing after proposal)
  | .committed new last =>
    if last then (s.setLifecycle new).setPc t (.clearLoad (.dropped after)) else (s.setLifecycle new).dropped t after

def afterMark (s : System V P T span) (t : T) :
    Outcome (Lifecycle.markUnallocated span.generation) → System V P T span
  | .refused _ => s.removed t false
  | .panicked reason => s.setPc t (.panicked reason)
  | .retry proposal => s.setPc t (.marking proposal)
  | .committed new unallocated =>
    if unallocated then (s.setLifecycle new).setPc t (.clearLoad .removed) else (s.setLifecycle new).removed t true

variable (on : T → P) (debug : Bool)

/-- `clear` and the push to the free list of the slot's processor, or to the global one. -/
def returnSlot (s : System V P T span) (t : T) : Pc span → Option (System V P T span)
  | .clearLoad resume =>
    match s.lifecycle.clear debug with
    | .ok new => some (s.setPc t (.clearStore resume new))
    | .error reason => some (s.setPc t (.panicked reason))
  | .clearStore resume new => some ((s.setLifecycle new).setPc t (.clearTake resume))
  | .clearTake resume =>
    match s.slab.contents span.index with
    | none => some (s.setPc t (.panicked .uninitialized))
    | some value =>
      some ({ s with
        slab := { s.slab with
          contents := Function.update s.slab.contents span.index none
          processor := Function.update s.slab.processor span.index none }
        trace := { s.trace with dropped := value :: s.trace.dropped } }.setPc t
          (if s.slab.processor span.index = some (on t) then .pushLocal resume else .pushTag resume))
  | .pushLocal resume =>
    match s.slab.localPush (on t) span.index with
    | .ok slab => some ({ s with slab := slab }.resume t resume)
    | .error reason => some (s.setPc t (.panicked reason))
  | .pushTag resume =>
    some ({ s with slab := { s.slab with tag := (s.slab.tag + 1) % 2^64 } }.setPc t
      (if 2^18 ≤ span.index then .panicked .indexOverflow
        else if 2^46 ≤ s.slab.tag then .panicked .tagOverflow
        else .pushLoad resume s.slab.tag))
  | .pushLoad resume tag => some (s.setPc t (.pushWrite resume tag s.slab.head))
  | .pushWrite resume tag oldHead =>
    if span.index < s.slab.size then
      some ({ s with slab := { s.slab with next := Function.update s.slab.next span.index oldHead } }.setPc t
        (.pushSwap resume tag oldHead))
    else some (s.setPc t (.panicked .indexOutOfBounds))
  | .pushSwap resume tag oldHead =>
    if s.slab.head = oldHead then
      some ({ s with slab := { s.slab with head := PlatyposSlab.Entry.pack span.index tag } }.resume t resume)
    else some (s.setPc t (.pushLoad resume tag))
  | _ => none

/-- The next step of a thread in its call. Only `fetch_update` uses the exchange that may fail for no reason. -/
def advance (s : System V P T span) (t : T) (spurious : Bool) : Option (System V P T span) :=
  match s.pc t with
  | .getting call proposal =>
    if spurious then none else some (s.afterGet t call (exchange _ proposal false s.lifecycle))
  | .counting .cloneSpan =>
    some ({ s with references := s.references + 1, handles := t ::ₘ s.handles }.setPc t (.dropping .cloned))
  | .counting .tryClose =>
    some ({ s with references := s.references - 1, handles := s.handles.erase t }.setPc t
      (.dropping (.closing s.references)))
  | .dropping after =>
    if span.index < s.slab.size then some (s.afterRelease t after (consider _ s.lifecycle))
    else some (s.setPc t (.panicked .indexOutOfBounds))
  | .releasing after proposal =>
    if spurious then none else some (s.afterRelease t after (exchange _ proposal false s.lifecycle))
  | .removing =>
    if span.index < s.slab.size then some (s.afterMark t (consider _ s.lifecycle)) else some (s.removed t false)
  | .marking proposal => some (s.afterMark t (exchange _ proposal spurious s.lifecycle))
  | pc => s.returnSlot on debug t pc

/-- One step of one thread. A thread calls only with a handle of its own, and may pass one on between calls. -/
def step (s : System V P T span) : T × Action T → Option (System V P T span)
  | (t, .advance spurious) => s.advance on debug t spurious
  | (t, .call call) =>
    match s.pc t with
    | .idle =>
      if t ∈ s.handles then
        if span.index < s.slab.size then some (s.afterGet t call (consider _ s.lifecycle)) else some (s.refused t call)
      else none
    | _ => none
  | (t, .pass receiver) =>
    match s.pc t with
    | .idle => if t ∈ s.handles then some { s with handles := receiver ::ₘ s.handles.erase t } else none
    | _ => none

/-- The span has been created: one thread holds its only handle. -/
def created (span : Idx) (slab : Slab V P) (references : UInt64) (t : T) : System V P T span where
  slab := slab
  references := references
  handles := {t}
  pc _ := .idle
  trace := ⟨[], [], [], [], []⟩

/-- The step stays below the limits: a `get` finds fewer than `u16::MAX` references, a `fetch_add` does not wrap, and
    the free list has a tag left. -/
def Within (s : System V P T span) : T × Action T → Prop
  | (_, .call _) => s.lifecycle.refcount + 1 < 2^16
  | (_, .pass _) => True
  | (t, .advance _) =>
    match s.pc t with
    | .getting _ _ => s.lifecycle.refcount + 1 < 2^16
    | .counting .cloneSpan => s.references.toNat + 1 < 2^64
    | .pushTag _ => s.slab.tag < 2^46
    | _ => True

instance (s : System V P T span) (move : T × Action T) : Decidable (s.Within move) := by
  unfold System.Within
  split
  · infer_instance
  · infer_instance
  · split <;> infer_instance

end System

end Platypos.Ktrace.Handles
