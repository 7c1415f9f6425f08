import Mathlib.Algebra.Group.Nat.Defs
import Platypos.Library.Outcome

namespace Platypos.Memory

open Outcome

/-- The ways the memory code stops the kernel. `overflow` is the arithmetic check of the
    development profile, `reinitialized` and `freeUnlinked` are debug assertions. -/
inductive Panic where
  | overflow
  | overlap
  | linked
  | freeLinked
  | freeUnlinked
  | reinitialized
  | noUnusedRun
  | unwrapNone
  | trackingLayout
  deriving DecidableEq, Repr

inductive ErrorKind where
  | insufficientMemory
  | addressOutOfBounds
  | invalidAddress
  deriving DecidableEq, Repr

def PAGE_SIZE : Nat := 4096

def usizeAdd (a b : Nat) : Except Panic Nat :=
  if a + b < 2^64 then .ok (a + b) else .error .overflow

def usizeSub (a b : Nat) : Except Panic Nat :=
  if b ≤ a then .ok (a - b) else .error .overflow

def usizeMul (a b : Nat) : Except Panic Nat :=
  if a * b < 2^64 then .ok (a * b) else .error .overflow

theorem usizeAdd_ensures (a b : Nat) :
    Ensures (usizeAdd a b) (fun c => c = a + b) (fun e => e = .overflow) := by
  unfold usizeAdd
  split <;> exact rfl

theorem usizeSub_ensures (a b : Nat) (fits : b ≤ a) :
    Ensures (usizeSub a b) (fun c => c = a - b) (fun e => e = .overflow) := by
  simp [usizeSub, fits]

structure AddressRange where
  start : Nat
  size : Nat
  deriving DecidableEq, Repr

abbrev PageFrameRange := AddressRange

namespace AddressRange

def fromStartSize (start size : Nat) : AddressRange := ⟨start, size⟩

def empty : AddressRange := ⟨0, 0⟩

def endOf (r : AddressRange) : Except Panic Nat := usizeAdd r.start r.size

def sizeBytes (r : PageFrameRange) : Except Panic Nat := usizeMul r.size PAGE_SIZE

def startAddress (r : PageFrameRange) : Except Panic Nat := usizeMul r.start PAGE_SIZE

def shrinkLeft (r : AddressRange) (amount : Nat) : Except Panic AddressRange := do
  let size ← usizeSub r.size amount
  let start ← usizeAdd r.start amount
  return ⟨start, size⟩

def extendLeft (r : AddressRange) (amount : Nat) : Except Panic AddressRange := do
  let size ← usizeAdd r.size amount
  let start ← usizeSub r.start amount
  return ⟨start, size⟩

def extendRight (r : AddressRange) (amount : Nat) : Except Panic AddressRange := do
  let size ← usizeAdd r.size amount
  return ⟨r.start, size⟩

def limit (r : AddressRange) : Nat := r.start + r.size

instance : Membership Nat AddressRange := ⟨fun r frame => r.start ≤ frame ∧ frame < r.limit⟩

theorem mem_iff {r : AddressRange} {frame : Nat} : frame ∈ r ↔ r.start ≤ frame ∧ frame < r.start + r.size :=
  Iff.rfl

instance (r : AddressRange) (frame : Nat) : Decidable (frame ∈ r) :=
  inferInstanceAs (Decidable (_ ∧ _))

theorem last_mem {r : AddressRange} (nonempty : r.size ≠ 0) : r.limit - 1 ∈ r := by
  rw [mem_iff, limit]
  omega

def Disjoint (r r' : AddressRange) : Prop := ∀ frame, frame ∈ r → frame ∉ r'

theorem endOf_ensures (r : AddressRange) :
    Ensures r.endOf (fun e => e = r.limit) (fun e => e = .overflow) := usizeAdd_ensures r.start r.size

theorem shrinkLeft_ensures (r : AddressRange) (amount : Nat) (fits : amount ≤ r.size) :
    Ensures (r.shrinkLeft amount) (fun r' => r' = ⟨r.start + amount, r.size - amount⟩)
      (fun e => e = .overflow) := by
  refine (usizeSub_ensures r.size amount fits).bind ?_
  rintro _ rfl
  refine (usizeAdd_ensures r.start amount).bind ?_
  rintro _ rfl
  exact rfl

theorem extendLeft_ensures (r r' : AddressRange) (touching : r.start = r'.limit) :
    Ensures (r.extendLeft r'.size) (fun joined => joined = ⟨r'.start, r'.size + r.size⟩)
      (fun e => e = .overflow) := by
  unfold limit at touching
  refine (usizeAdd_ensures r.size r'.size).bind ?_
  rintro _ rfl
  refine (usizeSub_ensures r.start r'.size (by omega)).bind ?_
  rintro _ rfl
  simp only [ensures_pure, mk.injEq]
  omega

theorem extendRight_ensures (r : AddressRange) (amount : Nat) :
    Ensures (r.extendRight amount) (fun joined => joined = ⟨r.start, r.size + amount⟩)
      (fun e => e = .overflow) := by
  refine (usizeAdd_ensures r.size amount).bind ?_
  rintro _ rfl
  exact rfl

end AddressRange

def Covered (ranges : List PageFrameRange) (frame : Nat) : Prop := ∃ r ∈ ranges, frame ∈ r

theorem covered_cons {r : PageFrameRange} {ranges : List PageFrameRange} {frame : Nat} :
    Covered (r :: ranges) frame ↔ frame ∈ r ∨ Covered ranges frame := by
  simp [Covered]

end Platypos.Memory
