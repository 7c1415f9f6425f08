import Platypos.Library.Exec
import Platypos.Slab.FreeLists
import Platypos.Slab.Slot

namespace PlatyposSlab

open CasLoop

structure Idx where
  generation : Nat
  index : Nat
  generationFits : generation < 2^46
  indexFits : index < 2^18

theorem Idx.eq_of_fields {a b : Idx} (generation : a.generation = b.generation) (index : a.index = b.index) :
    a = b := by
  cases a
  cases b
  simp_all

instance : DecidableEq Idx := fun a b =>
  decidable_of_iff (a.generation = b.generation ∧ a.index = b.index)
    ⟨fun same => Idx.eq_of_fields same.1 same.2, fun same => same ▸ ⟨rfl, rfl⟩⟩

/-- The slab, with the slots field by field, the global list (`head`, `tag`) and the local lists (`heads`). -/
structure Slab (V P : Type) where
  size : Nat
  lifecycle : Nat → Lifecycle
  contents : Nat → Option V
  next : Nat → Nat
  processor : Nat → Option P
  head : Nat
  tag : Nat
  heads : P → Option Nat

variable {V P : Type}

namespace Slab

def fresh (size : Nat) : Slab V P where
  size := size
  lifecycle _ := ⟨.unallocated, 0, 0, by decide, by decide⟩
  contents _ := none
  next i := if i = size - 1 then EMPTY else i + 1
  processor _ := none
  head := 0
  tag := 0
  heads _ := none

def new (size : Nat) : Except Panic (Slab V P) := if size < 2^18 then .ok (fresh size) else .error .slabSize

def globalPush (s : Slab V P) (index : Nat) : Except Panic (Slab V P) :=
  if 2^18 ≤ index then .error .indexOverflow
  else if 2^46 ≤ s.tag then .error .tagOverflow
  else if index < s.size then
    .ok { s with
      tag := (s.tag + 1) % 2^64
      next := Function.update s.next index s.head
      head := Entry.pack index s.tag }
  else .error .indexOutOfBounds

def globalPop (s : Slab V P) : Except Panic (Option Nat × Slab V P) :=
  if s.head = EMPTY then .ok (none, s)
  else if Entry.index s.head < s.size then
    .ok (some (Entry.index s.head), { s with head := s.next (Entry.index s.head) })
  else .error .indexOutOfBounds

variable [DecidableEq P]

def localPush (s : Slab V P) (p : P) (index : Nat) : Except Panic (Slab V P) :=
  if index < s.size then
    .ok { s with
      next := Function.update s.next index ((s.heads p).getD EMPTY)
      heads := Function.update s.heads p (some index) }
  else .error .indexOutOfBounds

def localPop (s : Slab V P) (p : P) : Except Panic (Option Nat × Slab V P) :=
  match s.heads p with
  | none => .ok (none, s)
  | some head =>
    if head = EMPTY then .ok (none, s)
    else if head < s.size then .ok (some head, { s with heads := Function.update s.heads p (some (s.next head)) })
    else .error .indexOutOfBounds

def pop (s : Slab V P) (p : P) : Except Panic (Option Nat × Slab V P) := do
  match ← s.localPop p with
  | (some index, s) => return (some index, s)
  | (none, s) => s.globalPop

def allocate (debug : Bool) (s : Slab V P) (p : P) (index : Nat) (value : V) : Except Panic (Idx × Slab V P) := do
  let lifecycle ← (s.lifecycle index).allocate debug
  if fits : index < 2^18 then
    return (⟨lifecycle.generation, index, lifecycle.generationFits, fits⟩,
      { s with
        lifecycle := Function.update s.lifecycle index lifecycle
        contents := Function.update s.contents index (some value)
        processor := Function.update s.processor index (some p) })
  else .error .indexOverflow

def insert (debug : Bool) (s : Slab V P) (p : P) (value : V) : Except Panic (Except V Idx × Slab V P) := do
  match ← s.pop p with
  | (none, s) => return (.error value, s)
  | (some index, s) =>
    let (idx, s) ← s.allocate debug p index value
    return (.ok idx, s)

def clear (debug : Bool) (s : Slab V P) (index : Nat) : Except Panic (Option P × V × Slab V P) := do
  let lifecycle ← (s.lifecycle index).clear debug
  match s.contents index with
  | none => .error .uninitialized
  | some value =>
    return (s.processor index, value,
      { s with
        lifecycle := Function.update s.lifecycle index lifecycle
        contents := Function.update s.contents index none
        processor := Function.update s.processor index none })

def returnSlot (debug : Bool) (s : Slab V P) (p : P) (index : Nat) : Except Panic (V × Slab V P) := do
  let (processor, value, s) ← s.clear debug index
  if processor = some p then
    let s ← s.localPush p index
    return (value, s)
  else
    let s ← s.globalPush index
    return (value, s)

def remove (debug : Bool) (s : Slab V P) (p : P) (idx : Idx) : Except Panic (Bool × List V × Slab V P) :=
  if idx.index < s.size then
    match (s.lifecycle idx.index).markUnallocated idx.generation with
    | .refuse _ => .ok (false, [], s)
    | .panic reason => .error reason
    | .propose new false => .ok (true, [], { s with lifecycle := Function.update s.lifecycle idx.index new })
    | .propose new true => do
      let (value, s) ← { s with lifecycle := Function.update s.lifecycle idx.index new }.returnSlot debug p idx.index
      return (true, [value], s)
  else .ok (false, [], s)

def get (s : Slab V P) (idx : Idx) : Except Panic (Bool × Slab V P) :=
  if idx.index < s.size then
    match (s.lifecycle idx.index).acquireReference idx.generation with
    | .refuse _ => .ok (false, s)
    | .panic reason => .error reason
    | .propose new () => .ok (true, { s with lifecycle := Function.update s.lifecycle idx.index new })
  else .ok (false, s)

def dropReference (debug : Bool) (s : Slab V P) (p : P) (idx : Idx) : Except Panic (List V × Slab V P) :=
  if idx.index < s.size then
    match (s.lifecycle idx.index).releaseReference idx.generation with
    | .refuse _ => .error .releaseFailed
    | .panic reason => .error reason
    | .propose new false => .ok ([], { s with lifecycle := Function.update s.lifecycle idx.index new })
    | .propose new true => do
      let (value, s) ← { s with lifecycle := Function.update s.lifecycle idx.index new }.returnSlot debug p idx.index
      return ([value], s)
  else .error .indexOutOfBounds

def deref (s : Slab V P) (idx : Idx) : Option V := s.contents idx.index

end Slab

inductive Op (V P : Type) where
  | insert (p : P) (value : V)
  | get (p : P) (idx : Idx)
  | remove (p : P) (idx : Idx)
  | drop (p : P) (position : Nat)
  deriving DecidableEq

inductive Answer (V : Type) where
  | inserted (idx : Idx)
  | full (value : V)
  | got (found : Bool)
  | removed (success : Bool)
  | released
  deriving DecidableEq

structure Reply (V : Type) where
  answer : Answer V
  drops : List V

structure Client (V P : Type) where
  slab : Slab V P
  refs : List Idx

namespace Client

variable [DecidableEq P]

/-- One operation. `drop` drops the reference at a position of `refs`, and does nothing if there is none. -/
def step (debug : Bool) (c : Client V P) : Op V P → Except Panic (Reply V × Client V P)
  | .insert p value => do
    match ← c.slab.insert debug p value with
    | (.ok idx, slab) => return (⟨.inserted idx, []⟩, { c with slab := slab })
    | (.error value, slab) => return (⟨.full value, []⟩, { c with slab := slab })
  | .get _ idx => do
    match ← c.slab.get idx with
    | (true, slab) => return (⟨.got true, []⟩, ⟨slab, idx :: c.refs⟩)
    | (false, slab) => return (⟨.got false, []⟩, { c with slab := slab })
  | .remove p idx => do
    let (success, drops, slab) ← c.slab.remove debug p idx
    return (⟨.removed success, drops⟩, { c with slab := slab })
  | .drop p position =>
    match c.refs[position]? with
    | none => return (⟨.released, []⟩, c)
    | some idx => do
      let (drops, slab) ← c.slab.dropReference debug p idx
      return (⟨.released, drops⟩, ⟨slab, c.refs.eraseIdx position⟩)

end Client

def Client.new (size : Nat) : Except Panic (Client V P) := do
  let slab ← Slab.new size
  return ⟨slab, []⟩

end PlatyposSlab
