import Platypos.Memory.Sharing
import Platypos.Boot.Report

namespace Platypos.Boot

open Memory Outcome Schedule Sync Intervals MemoryRegion

def MemoryRegionKind.toKind : MemoryRegionKind → Kind
  | .usable => .usable
  | .bootloader => .reserved
  | .unknownUefi typ => .uefi typ
  | .unknownBios typ => .bios typ
  | .other _ => .reserved

/-- `Region::from`. -/
def MemoryRegion.toRegion (r : MemoryRegion) : Region := ⟨r.kind.toKind, r.start.toNat, r.limit.toNat⟩

structure BootInfo where
  memoryRegions : List MemoryRegion
  physicalMemoryOffset : Option UInt64

inductive StartPanic where
  | report (reason : Panic)
  | noPhysicalMemory
  | build (reason : BuildPanic)
  | rootAllocator (reason : ErrorKind)

/-- What `start` makes of the memory map: the lines that it logs and the allocator that it hands to `kmain`. -/
def start (debug : Bool) (sizeOfRun : Nat) (sort : UnstableSort) (info : BootInfo) :
    Except StartPanic (List (List Char) × AllocatorInner) := do
  let lines ← (reportRegions info.memoryRegions).mapError .report
  match info.physicalMemoryOffset with
  | none => .error .noPhysicalMemory
  | some offset =>
    match ← (build debug sizeOfRun ⟨offset.toNat⟩ sort (info.memoryRegions.map toRegion) []).mapError .build with
    | .error e => .error (.rootAllocator e)
    | .ok allocator => return (lines, allocator)

theorem start_builds {debug : Bool} {sizeOfRun : Nat} {sort : UnstableSort} {info : BootInfo} {lines : List (List Char)}
    {allocator : AllocatorInner} (started : start debug sizeOfRun sort info = .ok (lines, allocator)) :
    ∃ access, build debug sizeOfRun access sort (info.memoryRegions.map toRegion) [] = .ok (.ok allocator) := by
  obtain ⟨_, _, started⟩ := bind_eq_ok.mp started
  cases there : info.physicalMemoryOffset with
  | none =>
    rw [there] at started
    cases started
  | some offset =>
    rw [there] at started
    obtain ⟨result, built, started⟩ := bind_eq_ok.mp started
    cases result with
    | error e => cases started
    | ok allocator' =>
      cases started
      exact ⟨_, mapError_eq_ok.mp built⟩

section Pages

variable {debug : Bool} {sizeOfRun : Nat} {access : MemoryAccess} {sort : UnstableSort} {memoryMap : List Region}
  {reserved : List PageFrameRange} {allocator : AllocatorInner}

/-- A region that is added to the allocator consists of whole pages. -/
theorem rangeOf_whole {tracking range : PageFrameRange} {r : Region} (done : rangeOf tracking r = .ok range) :
    r.start ≤ r.limit ∧ r.start % PAGE_SIZE = 0 ∧ (r.limit - r.start) % PAGE_SIZE = 0 := by
  obtain ⟨first, aligned, done⟩ := bind_eq_ok.mp done
  obtain ⟨size, sized, done⟩ := bind_eq_ok.mp done
  have start : r.start % PAGE_SIZE = 0 := by
    unfold fromStart at aligned
    split at aligned
    · assumption
    · cases aligned
  have forward : r.start ≤ r.limit ∧ r.limit - r.start = size := by
    have subtracted := mapError_eq_ok.mp sized
    unfold Region.size usizeSub at subtracted
    split at subtracted
    · cases subtracted
      exact ⟨by assumption, rfl⟩
    · cases subtracted
  refine ⟨forward.1, start, ?_⟩
  rw [forward.2]
  split at done
  · assumption
  · cases done

theorem build_whole (built : build debug sizeOfRun access sort memoryMap reserved = .ok (.ok allocator)) {r : Region}
    (member : r ∈ memoryMap) (usable : r.usable = true) :
    r.start ≤ r.limit ∧ r.start % PAGE_SIZE = 0 ∧ (r.limit - r.start) % PAGE_SIZE = 0 := by
  obtain ⟨tracking, ranges, collected, _⟩ := build_initialises built
  obtain ⟨found, collected, _⟩ := bind_eq_ok.mp collected
  obtain ⟨range, done⟩ := ok_of_mapM_ok collected (List.mem_filter.mpr ⟨member, usable⟩)
  exact rangeOf_whole done

/-- Usable frames are usable in all their bytes. -/
theorem usableFrame_bytes (built : build debug sizeOfRun access sort memoryMap reserved = .ok (.ok allocator))
    {address : Nat} (frame : UsableFrame memoryMap (address / PAGE_SIZE)) :
    ∃ r ∈ memoryMap, r.usable = true ∧ r.Holds address := by
  obtain ⟨r, member, usable, first⟩ := frame
  obtain ⟨forward, start, size⟩ := build_whole built member usable
  refine ⟨r, member, usable, ?_⟩
  simp only [Region.Holds, PAGE_SIZE] at *
  omega

end Pages

theorem described_usable {regions : List MemoryRegion} {address : Nat} :
    (∃ r ∈ regions.map toRegion, r.usable = true ∧ r.Holds address) → Described regions address .usable := by
  intro found
  obtain ⟨_, listed, usable, holds⟩ := found
  obtain ⟨r, member, rfl⟩ := List.mem_map.mp listed
  refine ⟨r, member, holds, ?_⟩
  have kind := of_decide_eq_true usable
  obtain ⟨_, _, kind'⟩ := r
  cases kind' with
  | usable => rfl
  | bootloader => cases kind
  | unknownUefi typ => cases kind
  | unknownBios typ => cases kind
  | other name => cases kind

theorem described_unique {regions : List MemoryRegion} (ordered : Ordered lo hi regions) (address : Nat)
    (kind kind' : MemoryRegionKind) (here : Described regions address kind) (here' : Described regions address kind') :
    kind = kind' := by
  obtain ⟨r, member, inside, rfl⟩ := here
  obtain ⟨r', member', inside', rfl⟩ := here'
  rw [ordered.covers_unique member member' inside inside']

/-- Every byte that a started kernel ever hands out is of memory that the boot loader marked as usable, and not of its
    own memory or of the memory of the firmware. -/
theorem started_gives_usable {P : Type} [DecidableEq P] {debug : Bool} {sizeOfRun : Nat} {sort : UnstableSort}
    {info : BootInfo} {lines : List (List Char)} {allocator : AllocatorInner} {s : Shared P} {enabled : P → Bool}
    {schedule : List (P × Act Unit Call)} (started : start debug sizeOfRun sort info = .ok (lines, allocator))
    (reached : run (Machine.step (AllocatorInner.call debug)) (Machine.start enabled fun _ => allocator) schedule =
      some s)
    (single : ∀ address kind kind', Described info.memoryRegions address kind →
      Described info.memoryRegions address kind' → kind = kind')
    {r : PageFrameRange} (member : r ∈ s.granted) {address : Nat} (inside : address / PAGE_SIZE ∈ r)
    (kind : MemoryRegionKind) : Described info.memoryRegions address kind ↔ kind = .usable := by
  obtain ⟨access, built⟩ := start_builds started
  have usable : Described info.memoryRegions address .usable :=
    described_usable (usableFrame_bytes built (Shared.granted_usable built reached member inside))
  constructor
  · intro here
    exact single address kind .usable here usable
  · intro same
    rw [same]
    exact usable

theorem started_gives_usable_rivals :
    ∃ lines allocator, start true 64 insertionSort ⟨piecewise, some 0xffff800000000000⟩ = .ok (lines, allocator) ∧
      ∃ s : Shared Bool, run (Machine.step (AllocatorInner.call true)) (Machine.start (fun _ => true) fun _ => allocator)
        rivals = some s ∧ s.granted = {⟨3, 2⟩, ⟨5, 3⟩} ∧
          ∀ kind, Described piecewise 0x7fff kind ↔ kind = .usable := by
  have ran : ((start true 64 insertionSort ⟨piecewise, some 0xffff800000000000⟩).toOption.bind fun started =>
      (run (Machine.step (AllocatorInner.call true)) (Machine.start (fun _ => true) fun _ => started.2) rivals).map
        fun s : Shared Bool => s.log) =
      some [((), .allocate 2, .range ⟨3, 2⟩), ((), .allocate 3, .range ⟨5, 3⟩)] := by decide +kernel
  obtain ⟨⟨lines, allocator⟩, returned, ran⟩ := Option.bind_eq_some_iff.mp ran
  obtain ⟨s, reached, log⟩ := Option.map_eq_some_iff.mp ran
  have granted : s.granted = {⟨3, 2⟩, ⟨5, 3⟩} := by
    rw [Shared.granted, log]
    decide
  have started := toOption_eq_some.mp returned
  have ordered : Ordered lo hi piecewise := by
    unfold Ordered
    decide
  refine ⟨lines, allocator, started, s, reached, granted, ?_⟩
  exact started_gives_usable started reached (described_unique ordered) (by rw [granted]; decide : ⟨5, 3⟩ ∈ s.granted)
    (by decide)

end Platypos.Boot
