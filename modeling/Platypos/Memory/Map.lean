import Platypos.Memory.Address

namespace Platypos.Memory

inductive Kind where
  | usable
  | reserved
  | acpiTables
  | acpiNonVolatile
  | persistent
  | uefi (kind : UInt32)
  | bios (kind : UInt32)
  deriving DecidableEq, Repr

/-- The ways the bootstrap stops the kernel: those of the allocator, and its own assertions about the
    memory map. -/
inductive BuildPanic where
  | memory (reason : Panic)
  | notPageAligned
  | partialPage
  | reversed
  deriving DecidableEq, Repr

namespace AddressRange

def new (start limit : Nat) : Except BuildPanic AddressRange :=
  if start ≤ limit then .ok ⟨start, limit - start⟩ else .error .reversed

def setSize (r : AddressRange) (size : Nat) : AddressRange := { r with size := size }

/-- The range of addresses of a range of page frames. -/
def addressRange (r : PageFrameRange) : Except Panic AddressRange := do
  let start ← r.startAddress
  let size ← usizeMul r.size PAGE_SIZE
  return fromStartSize start size

-- The second comparison, and with it `self.end()`, is skipped when the first one fails.
def intersects (r other : AddressRange) : Except Panic Bool := do
  let limit ← other.endOf
  if r.start ≤ limit then
    let limit' ← r.endOf
    return decide (other.start ≤ limit')
  else
    return false

end AddressRange

/-- `PageFrame::from_start`, with the message its callers give to `expect`. -/
def fromStart (start : Nat) : Except BuildPanic Nat :=
  if start % PAGE_SIZE = 0 then .ok (start / PAGE_SIZE) else .error .notPageAligned

structure Region where
  kind : Kind
  start : Nat
  limit : Nat
  deriving DecidableEq, Repr

namespace Region

def usable (r : Region) : Bool := decide (r.kind = .usable)

def size (r : Region) : Except Panic Nat := usizeSub r.limit r.start

def range (r : Region) : Except BuildPanic AddressRange := AddressRange.new r.start r.limit

end Region

end Platypos.Memory
