import Mathlib.Logic.Function.Basic
import Platypos.Library.Cursor
import Platypos.Library.Exec
import Platypos.Memory.Address

namespace Platypos.Memory

inductive Status where
  | free
  | allocated
  | tracking
  | unused
  deriving DecidableEq, Repr

structure RunState where
  range : PageFrameRange
  status : Status
  deriving DecidableEq, Repr

abbrev RunId := Nat

abbrev Arena := RunId → RunState

structure AllocatorTracking where
  free : List RunId
  unusedRuns : List RunId

/-- `arena` holds the contents of every descriptor. A descriptor's `link` is set while it is in `runs`
    or `unusedRuns`, its `free_link` while it is in `free`. -/
structure AllocatorInner where
  arena : Arena
  runs : List RunId
  tracking : AllocatorTracking

/-- A method at work: the cursor owns the run list until it is dropped. -/
structure Traversal where
  arena : Arena
  cursor : Cursor RunId
  tracking : AllocatorTracking

def Traversal.close (t : Traversal) : AllocatorInner := ⟨t.arena, t.cursor.toList, t.tracking⟩

def check (condition : Prop) [Decidable condition] (failure : Panic) : Except Panic Unit :=
  if condition then .ok () else .error failure

def debugAssert (debug : Bool) (condition : Prop) [Decidable condition] (failure : Panic) :
    Except Panic Unit :=
  check (debug = true → condition) failure

def initializeRun (debug : Bool) (arena : Arena) (run : RunId) (range : PageFrameRange) (status : Status) :
    Except Panic Arena := do
  debugAssert debug ((arena run).status = .unused) .reinitialized
  return Function.update arena run ⟨range, status⟩

def setRange (arena : Arena) (run : RunId) (range : PageFrameRange) : Arena :=
  Function.update arena run { arena run with range := range }

def setStatus (arena : Arena) (run : RunId) (status : Status) : Arena :=
  Function.update arena run { arena run with status := status }

def unlinkFree (debug : Bool) (t : Traversal) (current : RunId) : Except Panic AllocatorTracking :=
  if (t.arena current).status = .free then do
    debugAssert debug (current ∈ t.tracking.free) .freeUnlinked
    return { t.tracking with free := (Cursor.cursorMutFromPtr t.tracking.free current).remove.toList }
  else
    return t.tracking

def canCoalesceNext (t : Traversal) (current : RunId) : Except Panic Bool :=
  match t.cursor.peekNext with
  | some next =>
    if (t.arena next).status = (t.arena current).status then do
      let limit ← (t.arena current).range.endOf
      return decide ((t.arena next).range.start = limit)
    else
      return false
  | none => return false

def canCoalescePrev (t : Traversal) (current : RunId) : Except Panic Bool :=
  match t.cursor.peekPrev with
  | some prev =>
    if (t.arena prev).status = (t.arena current).status then do
      let limit ← (t.arena prev).range.endOf
      return decide (limit = (t.arena current).range.start)
    else
      return false
  | none => return false

def coalesceNext (debug : Bool) (t : Traversal) : Except Panic Traversal :=
  match t.cursor.get with
  | none => return t
  | some current => do
    let canCoalesce ← canCoalesceNext t current
    if canCoalesce then
      let size := (t.arena current).range.size
      let tracking ← unlinkFree debug t current
      let cursor := t.cursor.remove
      match cursor.get with
      | none => .error .unwrapNone
      | some next =>
        let range ← (t.arena next).range.extendLeft size
        return ⟨setRange t.arena next range, cursor,
          { tracking with unusedRuns := tracking.unusedRuns ++ [current] }⟩
    else
      return t

def coalescePrev (debug : Bool) (t : Traversal) : Except Panic Traversal :=
  match t.cursor.get with
  | none => return t
  | some current => do
    let canCoalesce ← canCoalescePrev t current
    if canCoalesce then
      let size := (t.arena current).range.size
      let tracking ← unlinkFree debug t current
      let cursor := t.cursor.remove.movePrev
      match cursor.get with
      | none => .error .unwrapNone
      | some prev =>
        let range ← (t.arena prev).range.extendRight size
        return ⟨setRange t.arena prev range, cursor,
          { tracking with unusedRuns := tracking.unusedRuns ++ [current] }⟩
    else
      return t

def coalesce (debug : Bool) (t : Traversal) : Except Panic AllocatorInner := do
  let t ← coalesceNext debug t
  let t ← coalescePrev debug t
  return t.close

def findNext (arena : Arena) (list : List RunId) (run : RunId) : Cursor RunId :=
  Cursor.seek (fun r => !decide ((arena r).range.start < (arena run).range.start)) list

def checkBefore (arena : Arena) (prev run : RunId) : Except Panic Unit := do
  let limit ← (arena prev).range.endOf
  check (limit ≤ (arena run).range.start) .overlap

def checkAfter (arena : Arena) (run next : RunId) : Except Panic Unit := do
  let limit ← (arena run).range.endOf
  check (limit ≤ (arena next).range.start) .overlap

def checkPrev (t : Traversal) (run : RunId) : Except Panic Unit :=
  match t.cursor.peekPrev with
  | some prev => checkBefore t.arena prev run
  | none => return ()

def checkNext (t : Traversal) (run : RunId) : Except Panic Unit :=
  match t.cursor.get with
  | some next => checkAfter t.arena run next
  | none => checkPrev t run

/-- The overlap assertions of `add_run`. At the end of the list the predecessor is checked twice. -/
def checkOverlap (t : Traversal) (run : RunId) : Except Panic Unit := do
  checkNext t run
  checkPrev t run

def pushFree (t : Traversal) (run : RunId) : AllocatorTracking :=
  if (t.arena run).status = .free then { t.tracking with free := t.tracking.free ++ [run] } else t.tracking

def addRun (debug : Bool) (t : Traversal) (run : RunId) : Except Panic AllocatorInner := do
  check (run ∉ t.cursor.toList ∧ run ∉ t.tracking.unusedRuns) .linked
  check (run ∉ t.tracking.free) .freeLinked
  let tracking := pushFree t run
  checkOverlap t run
  let cursor := t.cursor.insertBefore run
  if (t.arena run).status ≠ .allocated then
    coalesce debug ⟨t.arena, cursor.movePrev, tracking⟩
  else
    return Traversal.close ⟨t.arena, cursor, tracking⟩

namespace AllocatorInner

/-- A descriptor that was never written has no contents; the model gives it those of a fresh one. -/
def new : AllocatorInner := ⟨fun _ => ⟨.empty, .unused⟩, [], ⟨[], []⟩⟩

def allocate (debug : Bool) (s : AllocatorInner) (count : Nat) :
    Except Panic (Except ErrorKind PageFrameRange × AllocatorInner) :=
  let freeCursor := Cursor.seek (fun run => decide (count ≤ (s.arena run).range.size)) s.tracking.free
  match freeCursor.get with
  | none => return (.error .insufficientMemory, s)
  | some allocatable =>
    let range := (s.arena allocatable).range
    if range.size = count then
      return (.ok range, ⟨setStatus s.arena allocatable .allocated, s.runs,
        { s.tracking with free := freeCursor.remove.toList }⟩)
    else do
      let taken := AddressRange.fromStartSize range.start count
      let rest ← range.shrinkLeft count
      let arena := setRange s.arena allocatable rest
      match s.tracking.unusedRuns with
      | [] => .error .noUnusedRun
      | allocatedRun :: unusedRuns =>
        let arena ← initializeRun debug arena allocatedRun taken .allocated
        let cursor := Cursor.cursorMutFromPtr s.runs allocatable
        let s' ← addRun debug ⟨arena, cursor, { s.tracking with unusedRuns := unusedRuns }⟩ allocatedRun
        return (.ok taken, s')

def deallocate (debug : Bool) (s : AllocatorInner) (range : PageFrameRange) :
    Except Panic (Except ErrorKind Unit × AllocatorInner) :=
  let cursor := Cursor.seek (fun run => decide ((s.arena run).range = range)) s.runs
  match cursor.get with
  | none => return (.error .addressOutOfBounds, s)
  | some run =>
    if (s.arena run).status ≠ .allocated then
      return (.error .invalidAddress, s)
    else do
      check (run ∉ s.tracking.free) .freeLinked
      let s' ← coalesce debug ⟨setStatus s.arena run .free, cursor,
        { s.tracking with free := run :: s.tracking.free }⟩
      return (.ok (), s')

def addAllocatableRange (debug : Bool) (s : AllocatorInner) (range : PageFrameRange) :
    Except Panic AllocatorInner :=
  match s.tracking.unusedRuns with
  | [] => .error .noUnusedRun
  | run :: unusedRuns =>
    let arena := Function.update s.arena run ⟨range, .free⟩
    addRun debug ⟨arena, findNext arena s.runs run, { s.tracking with unusedRuns := unusedRuns }⟩ run

end AllocatorInner

structure MemoryAccess where
  base : Nat

def MemoryAccess.mapPermanent (access : MemoryAccess) (range : PageFrameRange) :
    Except Panic (Except ErrorKind Nat) := do
  let address ← range.startAddress
  if address < 2^63 then
    return .ok (access.base + address)
  else
    return .error .addressOutOfBounds

def descriptors (ptr sizeOfRun count : Nat) : List RunId :=
  (List.range count).map fun i => ptr + i * sizeOfRun

/-- The last part of `init_tracking_space`: fresh descriptors are written and queued, and the first one
    describes the tracking pages themselves. -/
def AllocatorInner.writeRuns (debug : Bool) (s : AllocatorInner) (range : PageFrameRange)
    (entries : List RunId) : Except Panic AllocatorInner :=
  let arena := fun run => if run ∈ entries then ⟨.empty, .unused⟩ else s.arena run
  match s.tracking.unusedRuns ++ entries with
  | [] => .error .unwrapNone
  | trackingRun :: unusedRuns => do
    let arena ← initializeRun debug arena trackingRun range .tracking
    addRun debug ⟨arena, findNext arena s.runs trackingRun, { s.tracking with unusedRuns := unusedRuns }⟩
      trackingRun

/-- `init_tracking_space`. The size of a descriptor is a parameter: its layout is the compiler's. -/
def AllocatorInner.initTrackingSpace (debug : Bool) (sizeOfRun : Nat) (access : MemoryAccess)
    (s : AllocatorInner) (range : PageFrameRange) : Except Panic (Except ErrorKind Unit × AllocatorInner) := do
  let bytes ← range.sizeBytes
  let runCount := bytes / sizeOfRun
  if 2^63 ≤ runCount * sizeOfRun then
    return (.error .addressOutOfBounds, s)
  else
    check (runCount * sizeOfRun ≤ bytes) .trackingLayout
    match ← access.mapPermanent range with
    | .error e => return (.error e, s)
    | .ok ptr =>
      let s' ← s.writeRuns debug range (descriptors ptr sizeOfRun runCount)
      return (.ok (), s')

end Platypos.Memory
