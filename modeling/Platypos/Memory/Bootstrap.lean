import Platypos.Memory.History
import Platypos.Memory.Map

namespace Platypos.Memory

def SCRATCH_PAGES : Nat := 2

def MIN_TRACKING_PAGES : Nat := 2

def overlapsReserved (r : Region) : List PageFrameRange → Except BuildPanic Bool
  | [] => return false
  | reservedRegion :: rest => do
    let addresses ← reservedRegion.addressRange.mapError .memory
    let range ← r.range
    if ← (addresses.intersects range).mapError .memory then
      return true
    else
      overlapsReserved r rest

/-- The scratch range and the initial tracking range that a region offers, if it is fit for them. -/
def scratchIn (reserved : List PageFrameRange) (r : Region) :
    Except BuildPanic (Option (PageFrameRange × PageFrameRange)) := do
  if r.usable then
    let size ← r.size.mapError .memory
    if (MIN_TRACKING_PAGES + SCRATCH_PAGES) * PAGE_SIZE ≤ size then
      if ← overlapsReserved r reserved then
        return none
      else
        let startPf ← fromStart r.start
        let initialTracking := AddressRange.fromStartSize startPf SCRATCH_PAGES
        let limit ← initialTracking.endOf.mapError .memory
        return some (.fromStartSize limit MIN_TRACKING_PAGES, initialTracking)
    else
      return none
  else
    return none

def findScratch (memoryMap : List Region) (reserved : List PageFrameRange) :
    Except BuildPanic (Except ErrorKind (PageFrameRange × PageFrameRange)) := do
  match ← memoryMap.findSomeM? (scratchIn reserved) with
  | some found => return .ok found
  | none => return .error .insufficientMemory

/-- The range that a usable region adds to the allocator. The tracking pages are taken from the start of the
    region they were found in. -/
def rangeOf (initialTracking : PageFrameRange) (region : Region) : Except BuildPanic PageFrameRange := do
  let start ← fromStart region.start
  let size ← region.size.mapError .memory
  if size % PAGE_SIZE = 0 then
    let range := AddressRange.fromStartSize start (size / PAGE_SIZE)
    if range.start = initialTracking.start then
      (range.shrinkLeft MIN_TRACKING_PAGES).mapError .memory
    else
      return range
  else
    .error .partialPage

def collectRanges (memoryMap : List Region) (initialTracking : PageFrameRange) :
    Except BuildPanic (List PageFrameRange) :=
  (memoryMap.filter Region.usable).mapM (rangeOf initialTracking)

/-- A sort by start. Which of two ranges with the same start comes first is left open. -/
structure UnstableSort where
  sortByStart : List PageFrameRange → List PageFrameRange
  perm : ∀ ranges, (sortByStart ranges).Perm ranges
  sorted : ∀ ranges, (sortByStart ranges).Pairwise fun r r' => r.start ≤ r'.start

/-- The loop that combines ranges, at index `i`. Each round removes a range or advances the index. -/
def mergeLoop (ranges : List PageFrameRange) (i : Nat) : Nat → Except Panic (List PageFrameRange)
  | 0 => return ranges
  | rounds + 1 =>
    match ranges[i - 1]?, ranges[i]? with
    | some prev, some cur => do
      if ← prev.intersects cur then
        let limit ← cur.endOf
        let newSize ← usizeSub limit prev.start
        mergeLoop ((ranges.eraseIdx i).set (i - 1) (prev.setSize newSize)) i rounds
      else
        mergeLoop ranges (i + 1) rounds
    | _, _ => return ranges

def mergeRanges (ranges : List PageFrameRange) : Except Panic (List PageFrameRange) :=
  mergeLoop ranges 1 ranges.length

def allocatableRanges (sort : UnstableSort) (memoryMap : List Region) (initialTracking : PageFrameRange) :
    Except BuildPanic (List PageFrameRange) := do
  let ranges ← collectRanges memoryMap initialTracking
  (mergeRanges (sort.sortByStart ranges)).mapError .memory

def displayFree (arena : Arena) : Option RunId → Except Panic Unit
  | some run => do
    let _ ← (arena run).range.endOf
    return ()
  | none => return ()

def displayRun (debug : Bool) (s : AllocatorInner) (run : RunId) : Except Panic Unit := do
  let _ ← (s.arena run).range.endOf
  if (s.arena run).status = .free then
    debugAssert debug (run ∈ s.tracking.free) .freeUnlinked
    let cursor := Cursor.cursorMutFromPtr s.tracking.free run
    displayFree s.arena cursor.peekPrev
    displayFree s.arena cursor.peekNext
  else
    return ()

/-- The checks that printing the state makes on the way. -/
def displayState (debug : Bool) (s : AllocatorInner) : Except Panic Unit := s.runs.forM (displayRun debug s)

/-- `with_memory`: the function gets the length of the mapped slice. -/
def MemoryAccess.withMemory {α : Type} (access : MemoryAccess) (range : PageFrameRange)
    (f : Nat → Except BuildPanic (Except ErrorKind α)) : Except BuildPanic (Except ErrorKind α) := do
  match ← (access.mapPermanent range).mapError .memory with
  | .error e => return .error e
  | .ok _ =>
    let length ← (usizeMul range.size PAGE_SIZE).mapError .memory
    f length

/-- The part of `build` that runs with the scratch pages mapped. They hold the heap for the list of ranges,
    which is taken to be large enough. -/
def setup (debug : Bool) (sizeOfRun : Nat) (access : MemoryAccess) (sort : UnstableSort) (memoryMap : List Region)
    (initialTracking : PageFrameRange) : Except BuildPanic (Except ErrorKind AllocatorInner) := do
  let ranges ← allocatableRanges sort memoryMap initialTracking
  match ← (initialise debug sizeOfRun access initialTracking ranges).mapError .memory with
  | .error e => return .error e
  | .ok allocator =>
    (displayState debug allocator).mapError .memory
    return .ok allocator

def build (debug : Bool) (sizeOfRun : Nat) (access : MemoryAccess) (sort : UnstableSort) (memoryMap : List Region)
    (reserved : List PageFrameRange) : Except BuildPanic (Except ErrorKind AllocatorInner) := do
  match ← findScratch memoryMap reserved with
  | .error e => return .error e
  | .ok (scratch, initialTracking) =>
    access.withMemory scratch fun _ => setup debug sizeOfRun access sort memoryMap initialTracking

end Platypos.Memory
