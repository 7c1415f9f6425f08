import Platypos.Library.Schedule
import Platypos.Library.TaggedStack
import Platypos.Slab.Slot
import Platypos.Slab.FreeLists

namespace PlatyposSlab.GlobalFreeList

open Chain TaggedStack

/-- Where a thread stands in `GlobalFreeList::push` or `GlobalFreeList::pop`, with its local variables. -/
inductive Pc where
  | idle
  | popLoad
  | popRead (oldHead : Nat)
  | popSwap (oldHead newHead : Nat)
  | pushLoad (index tag : Nat)
  | pushWrite (index tag oldHead : Nat)
  | pushSwap (index tag oldHead : Nat)
  | panicked (reason : Panic)

namespace Pc

/-- The index whose push is in flight. -/
def pushing : Pc → Option Nat
  | .pushLoad index _ => some index
  | .pushWrite index _ _ => some index
  | .pushSwap index _ _ => some index
  | _ => none

/-- The word that a push in flight is going to install. -/
def entry : Pc → Option Nat
  | .pushLoad index tag => some (Entry.pack index tag)
  | .pushWrite index tag _ => some (Entry.pack index tag)
  | .pushSwap index tag _ => some (Entry.pack index tag)
  | _ => none

def phase : Pc → Phase Nat
  | .popRead oldHead => .loaded oldHead
  | .popSwap oldHead newHead => .swapping oldHead newHead
  | .pushLoad index tag => .pending (Entry.pack index tag)
  | .pushWrite index tag _ => .pending (Entry.pack index tag)
  | .pushSwap index tag _ => .pending (Entry.pack index tag)
  | _ => .away

end Pc

variable (T : Type)

inductive Event where
  | pushed (t : T) (index : Nat)
  | popped (t : T) (index : Nat)

/-- The list over its storage, and its threads. `owner` says which thread may push an index, and `log` is the
    history, newest first. -/
structure System where
  size : Nat
  next : Nat → Nat
  head : Nat
  tag : Nat
  pc : T → Pc
  owner : Nat → Option T
  log : List (Event T)

inductive Action where
  | push (index : Nat)
  | pop
  | advance
  deriving DecidableEq, Repr

variable {T}

namespace System

/-- `GlobalFreeList::new_empty` over a storage whose slots are shared out among the threads. -/
def newEmpty (size : Nat) (next : Nat → Nat) (assigned : Nat → T) : System T :=
  ⟨size, next, EMPTY, 0, fun _ => .idle, fun i => if i < size then some (assigned i) else none, []⟩

variable [DecidableEq T]

def setPc (s : System T) (t : T) (pc : Pc) : System T := { s with pc := Function.update s.pc t pc }

@[simp] theorem setPc_self (s : System T) (t : T) (pc : Pc) : (s.setPc t pc).pc t = pc :=
  Function.update_self ..

@[simp] theorem setPc_of_ne (s : System T) (pc : Pc) {t u : T} (differ : u ≠ t) : (s.setPc t pc).pc u = s.pc u :=
  Function.update_of_ne differ ..

def record (s : System T) (event : Event T) : System T := { s with log := event :: s.log }

/-- `pop` reads the head, and is over if there is none. -/
def loadHead (s : System T) (t : T) : System T :=
  s.setPc t (if s.head = EMPTY then .idle else .popRead s.head)

/-- `push` draws its tag, and packs the word that it will install. -/
def drawTag (s : System T) (t : T) (index : Nat) : System T :=
  { s with tag := (s.tag + 1) % 2^64, owner := Function.update s.owner index none }.setPc t
    (if 2^18 ≤ index then .panicked .indexOverflow
      else if 2^46 ≤ s.tag then .panicked .tagOverflow
      else .pushLoad index s.tag)

def advance (s : System T) (t : T) : Option (System T) :=
  match s.pc t with
  | .idle => none
  | .popLoad => some (s.loadHead t)
  | .popRead oldHead =>
    some (s.setPc t (if Entry.index oldHead < s.size then .popSwap oldHead (s.next (Entry.index oldHead))
      else .panicked .indexOutOfBounds))
  | .popSwap oldHead newHead =>
    if s.head = oldHead then
      some (({ s with head := newHead, owner := Function.update s.owner (Entry.index oldHead) (some t) }.record
        (.popped t (Entry.index oldHead))).setPc t .idle)
    else some (s.setPc t .popLoad)
  | .pushLoad index tag => some (s.setPc t (.pushWrite index tag s.head))
  | .pushWrite index tag oldHead =>
    if index < s.size then
      some ({ s with next := Function.update s.next index oldHead }.setPc t (.pushSwap index tag oldHead))
    else some (s.setPc t (.panicked .indexOutOfBounds))
  | .pushSwap index tag oldHead =>
    if s.head = oldHead then
      some (({ s with head := Entry.pack index tag }.record (.pushed t index)).setPc t .idle)
    else some (s.setPc t (.pushLoad index tag))
  | .panicked _ => none

/-- One step of one thread, which pushes only what it owns. -/
def step (s : System T) : T × Action → Option (System T)
  | (t, .advance) => s.advance t
  | (t, .push index) =>
    match s.pc t with
    | .idle => if s.owner index = some t then some (s.drawTag t index) else none
    | _ => none
  | (t, .pop) =>
    match s.pc t with
    | .idle => some (s.loadHead t)
    | _ => none

end System

end PlatyposSlab.GlobalFreeList
