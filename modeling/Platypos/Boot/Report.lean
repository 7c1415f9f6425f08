import Platypos.Library.Intervals
import Platypos.Memory.Map
import Platypos.Ktrace.Text

namespace Platypos.Boot

open Memory Ktrace.Formatter Intervals Outcome

/-- The kinds of memory of `bootloader_api`. The source allows for kinds that a later version adds, and prints
    them under their own names. -/
inductive MemoryRegionKind where
  | usable
  | bootloader
  | unknownUefi (kind : UInt32)
  | unknownBios (kind : UInt32)
  | other (name : List Char)
  deriving DecidableEq

structure MemoryRegion where
  start : UInt64
  limit : UInt64
  kind : MemoryRegionKind
  deriving DecidableEq

def uefiNames : List (List Char) :=
  ["UEFI Reserved".toList, "UEFI Loader (Code)".toList, "UEFI Loader (Data)".toList,
    "UEFI Boot Services (Code)".toList, "UEFI Boot Services (Data)".toList, "UEFI Runtime Services (Code)".toList,
    "UEFI Runtime Services (Data)".toList, "Conventional memory".toList, "Unusable".toList,
    "ACPI (reclaimable)".toList, "ACPI NVS".toList, "Memory-Mapped I/O".toList,
    "Memory-Mapped I/O Port Space".toList, "UEFI PAL Code".toList, "Persistent memory".toList]

/-- `DisplayRegion`. -/
def MemoryRegionKind.display : MemoryRegionKind → List Char
  | .unknownBios v => "Unknown BIOS type ".toList ++ Nat.toDigits 10 v.toNat
  | .unknownUefi v => uefiNames[v.toNat]?.getD ("Unknown UEFI type ".toList ++ Nat.toDigits 10 v.toNat)
  | .usable => "Usable".toList
  | .bootloader => "Bootloader".toList
  | .other name => name

/-- The message of `log_region`. -/
def describe (region : MemoryRegion) (size : Nat) : List Char :=
  " - ".toList ++ hexAddress region.start ++ " - ".toList ++ hexAddress region.limit ++ " ".toList ++
    region.kind.display ++ " (".toList ++ Nat.toDigits 10 size ++ " bytes =~ ".toList ++
    Nat.toDigits 10 (size / 1024) ++ " KiB =~ ".toList ++ Nat.toDigits 10 (size / 1024 / 1024) ++ " MiB)".toList

def logRegion (region : MemoryRegion) : Except Panic (List Char) := do
  let size ← usizeSub region.limit.toNat region.start.toNat
  return describe region size

/-- `reduce` over the regions that follow `prev`. A region is logged when it cannot be extended, and the last one
    at the end. -/
def reportFrom (prev : MemoryRegion) : List MemoryRegion → Except Panic (List (List Char))
  | [] => do
    let line ← logRegion prev
    return [line]
  | next :: rest =>
    if prev.kind = next.kind ∧ prev.limit = next.start then
      reportFrom ⟨prev.start, next.limit, prev.kind⟩ rest
    else do
      let line ← logRegion prev
      let lines ← reportFrom next rest
      return line :: lines

def reportRegions : List MemoryRegion → Except Panic (List (List Char))
  | [] => return []
  | first :: rest => reportFrom first rest

namespace MemoryRegion

def lo (r : MemoryRegion) : Nat := r.start.toNat

def hi (r : MemoryRegion) : Nat := r.limit.toNat

def line (r : MemoryRegion) : List Char := describe r (r.hi - r.lo)

def join (r next : MemoryRegion) : MemoryRegion := ⟨r.start, next.limit, r.kind⟩

theorem joins : Joins lo hi kind join := ⟨fun _ _ => rfl, fun _ _ => rfl, fun _ _ => rfl⟩

end MemoryRegion

open MemoryRegion

/-- The memory map says that the address is of this kind. -/
def Described (regions : List MemoryRegion) (address : Nat) (kind : MemoryRegionKind) : Prop :=
  Labels lo hi MemoryRegion.kind regions address kind

/-- The regions that are reported. -/
def combined : List MemoryRegion → List MemoryRegion
  | [] => []
  | first :: rest => coalesce lo hi MemoryRegion.kind join first rest

theorem reportFrom_eq (prev : MemoryRegion) (rest : List MemoryRegion) :
    reportFrom prev rest = (coalesce lo hi MemoryRegion.kind join prev rest).mapM logRegion := by
  induction rest generalizing prev with
  | nil =>
    rw [reportFrom, coalesce, List.mapM_cons, List.mapM_nil]
    rfl
  | cons next rest ih =>
    have touch : (prev.kind = next.kind ∧ prev.limit = next.start) ↔ (prev.kind = next.kind ∧ prev.hi = next.lo) :=
      and_congr_right' UInt64.toNat_inj.symm
    rw [reportFrom, coalesce]
    by_cases joined : prev.kind = next.kind ∧ prev.limit = next.start
    · rw [if_pos joined, if_pos (touch.mp joined)]
      exact ih _
    · rw [if_neg joined, if_neg (mt touch.mpr joined), ih, List.mapM_cons]

theorem reportRegions_eq (regions : List MemoryRegion) : reportRegions regions = (combined regions).mapM logRegion := by
  cases regions with
  | nil => rfl
  | cons first rest => exact reportFrom_eq first rest

section Combined

variable {regions : List MemoryRegion}

theorem described_combined (forward : ∀ r ∈ regions, r.start ≤ r.limit) {address : Nat} {kind : MemoryRegionKind} :
    Described (combined regions) address kind ↔ Described regions address kind := by
  cases regions with
  | nil => rfl
  | cons first rest => exact joins.labels_coalesce forward

theorem maximal_combined (regions : List MemoryRegion) :
    (combined regions).IsChain fun r next => r.hi = next.lo → r.kind ≠ next.kind := by
  cases regions with
  | nil => exact .nil
  | cons first rest => exact joins.maximal_coalesce first rest

theorem reportRegions_ok (forward : ∀ r ∈ regions, r.start ≤ r.limit) :
    reportRegions regions = .ok ((combined regions).map line) := by
  have kept : ∀ r ∈ combined regions, r.lo ≤ r.hi := by
    cases regions with
    | nil => simp [combined]
    | cons first rest => exact joins.keeps (· ≤ ·) Nat.le_trans forward
  rw [reportRegions_eq]
  apply mapM_ok
  intro r member
  have ordered : r.start.toNat ≤ r.limit.toNat := kept r member
  rw [logRegion, usizeSub, if_pos ordered]
  rfl

end Combined

/-- The boot report describes the same memory, in regions that no longer touch a region of their kind. -/
theorem report_describes_memory {regions : List MemoryRegion} (forward : ∀ r ∈ regions, r.start ≤ r.limit) :
    ∃ reported, reportRegions regions = .ok (reported.map line) ∧
      (∀ address kind, Described reported address kind ↔ Described regions address kind) ∧
      reported.IsChain fun r next => r.limit = next.start → r.kind ≠ next.kind := by
  refine ⟨combined regions, reportRegions_ok forward, fun _ _ => described_combined forward, ?_⟩
  apply (maximal_combined regions).imp
  intro r next apart touch
  exact apart (congrArg UInt64.toNat touch)

/-- Memory of the boot loader in two pieces, between usable regions. -/
def piecewise : List MemoryRegion :=
  [⟨0x1000, 0x8000, .usable⟩, ⟨0x8000, 0x9000, .bootloader⟩, ⟨0x9000, 0xb000, .bootloader⟩, ⟨0xb000, 0xc000, .usable⟩]

theorem report_describes_memory_piecewise :
    ∃ reported, reportRegions piecewise = .ok (reported.map line) ∧
      (∀ kind, Described reported 0x9000 kind ↔ Described piecewise 0x9000 kind) ∧
      (reported.map line)[1]? = some " - 0x0000008000 - 0x000000b000 Bootloader (12288 bytes =~ 12 KiB =~ 0 MiB)".toList := by
  have forward : ∀ r ∈ piecewise, r.start ≤ r.limit := by decide
  have printed : ((reportRegions piecewise).toOption.bind fun lines => lines[1]?) =
      some " - 0x0000008000 - 0x000000b000 Bootloader (12288 bytes =~ 12 KiB =~ 0 MiB)".toList := by decide +kernel
  obtain ⟨reported, lines, same, _⟩ := report_describes_memory forward
  rw [lines] at printed
  exact ⟨reported, lines, same 0x9000, printed⟩

section Reading

def MemoryRegionKind.Known : MemoryRegionKind → Prop
  | .other _ => False
  | _ => True

/-- The known kind that a text stands for. -/
def readKind (text : List Char) : MemoryRegionKind :=
  if text.take 9 = "Unknown B".toList then
    .unknownBios (.ofNat (Nat.ofDigitChars 10 (text.drop 18) 0))
  else if text.take 9 = "Unknown U".toList then
    .unknownUefi (.ofNat (Nat.ofDigitChars 10 (text.drop 18) 0))
  else if text = "Usable".toList then
    .usable
  else if text = "Bootloader".toList then
    .bootloader
  else
    .unknownUefi (.ofNat (uefiNames.idxOf text))

theorem readKind_name : ∀ i < uefiNames.length, readKind (uefiNames[i]?.getD []) = .unknownUefi (.ofNat i) := by
  decide +kernel

theorem readKind_bios (digits : List Char) : readKind ("Unknown BIOS type ".toList ++ digits) =
    .unknownBios (.ofNat (Nat.ofDigitChars 10 digits 0)) := by
  have length : "Unknown BIOS type ".toList.length = 18 := by decide +kernel
  have bios : "Unknown BIOS type ".toList.take 9 = "Unknown B".toList := by decide +kernel
  rw [readKind, List.take_append_of_le_length (by omega), if_pos bios, List.drop_left' length]

theorem readKind_uefi (digits : List Char) : readKind ("Unknown UEFI type ".toList ++ digits) =
    .unknownUefi (.ofNat (Nat.ofDigitChars 10 digits 0)) := by
  have length : "Unknown UEFI type ".toList.length = 18 := by decide +kernel
  have uefi : "Unknown UEFI type ".toList.take 9 = "Unknown U".toList := by decide +kernel
  have notBios : "Unknown UEFI type ".toList.take 9 ≠ "Unknown B".toList := by decide +kernel
  rw [readKind, List.take_append_of_le_length (by omega), if_neg notBios, if_pos uefi, List.drop_left' length]

theorem display_bios (v : UInt32) : (MemoryRegionKind.unknownBios v).display =
    "Unknown BIOS type ".toList ++ Nat.toDigits 10 v.toNat := rfl

theorem display_uefi (v : UInt32) : (MemoryRegionKind.unknownUefi v).display =
    uefiNames[v.toNat]?.getD ("Unknown UEFI type ".toList ++ Nat.toDigits 10 v.toNat) := rfl

theorem readKind_display {kind : MemoryRegionKind} (known : kind.Known) : readKind kind.display = kind := by
  cases kind with
  | usable => decide +kernel
  | bootloader => decide +kernel
  | other name => exact known.elim
  | unknownBios v =>
    rw [display_bios, readKind_bios, Nat.ofDigitChars_ten_toDigits, UInt32.ofNat_toNat]
  | unknownUefi v =>
    rcases Nat.lt_or_ge v.toNat uefiNames.length with named | unnamed
    · have read := readKind_name v.toNat named
      rw [List.getElem?_eq_getElem named, Option.getD_some, UInt32.ofNat_toNat] at read
      rw [display_uefi, List.getElem?_eq_getElem named, Option.getD_some, read]
    · rw [display_uefi, List.getElem?_eq_none unnamed, Option.getD_none, readKind_uefi,
        Nat.ofDigitChars_ten_toDigits, UInt32.ofNat_toNat]

theorem hexAddress_injective {a b : UInt64} (same : hexAddress a = hexAddress b) : a = b := by
  have digits := (List.cons.inj (List.cons.inj same).2).2
  exact UInt64.toNat_inj.mp (Digits.leftpad_toDigits_injective (by decide) Digits.hexValue_digitChar digits)

theorem space_notMem_hexAddress (a : UInt64) : ' ' ∉ hexAddress a :=
  notMem_hexAddress (fun _ => Nat.digitChar_ne ' ' (by decide)) (by decide) a

/-- The end of a line, from the size on. -/
def sizes (size : Nat) : List Char :=
  " (".toList ++ (Nat.toDigits 10 size ++ (" bytes =~ ".toList ++ (Nat.toDigits 10 (size / 1024) ++
    (" KiB =~ ".toList ++ (Nat.toDigits 10 (size / 1024 / 1024) ++ " MiB)".toList)))))

theorem line_eq (r : MemoryRegion) :
    r.line = " - ".toList ++ (hexAddress r.start ++ ' ' :: ("- ".toList ++ (hexAddress r.limit ++
      ' ' :: (r.kind.display ++ sizes (r.hi - r.lo))))) := by
  have dash : " - ".toList = ' ' :: "- ".toList := by decide +kernel
  have space : " ".toList = [' '] := by decide +kernel
  unfold line describe sizes
  rw [dash, space]
  simp only [List.append_assoc, List.cons_append, List.nil_append]

theorem extent_injective : Function.Injective fun r : MemoryRegion => (r.lo, r.hi, r.kind) := by
  intro r r' same
  obtain ⟨start, rest⟩ := Prod.mk.inj same
  obtain ⟨limit, kind⟩ := Prod.mk.inj rest
  obtain ⟨_, _, _⟩ := r
  cases UInt64.toNat_inj.mp start
  cases UInt64.toNat_inj.mp limit
  cases kind
  rfl

theorem line_injective {r r' : MemoryRegion} (known : r.kind.Known) (known' : r'.kind.Known) (same : r.line = r'.line) :
    r = r' := by
  rw [line_eq, line_eq] at same
  obtain ⟨first, same⟩ := Margins.cut_unique (space_notMem_hexAddress _) (space_notMem_hexAddress _)
    (List.append_cancel_left same)
  obtain ⟨last, same⟩ := Margins.cut_unique (space_notMem_hexAddress _) (space_notMem_hexAddress _)
    (List.append_cancel_left same)
  have start := hexAddress_injective first
  have limit := hexAddress_injective last
  rw [hi, lo, start, limit] at same
  have kind := congrArg readKind (List.append_cancel_right same)
  rw [readKind_display known, readKind_display known'] at kind
  apply extent_injective
  simp only [lo, hi, start, limit, kind]

end Reading

/-- A memory map in order, with kinds that the kernel knows. -/
structure Orderly (regions : List MemoryRegion) : Prop where
  ordered : Ordered lo hi regions
  nonempty : ∀ r ∈ regions, r.lo < r.hi
  known : ∀ r ∈ regions, r.kind.Known

section Orderly

variable {regions regions' : List MemoryRegion}

theorem Orderly.forward (orderly : Orderly regions) : ∀ r ∈ regions, r.start ≤ r.limit :=
  fun r member => Nat.le_of_lt (orderly.nonempty r member)

theorem Orderly.normal (orderly : Orderly regions) : Normal lo hi MemoryRegion.kind (combined regions) := by
  cases regions with
  | nil => exact ⟨.nil, by simp [combined], .nil⟩
  | cons first rest => exact joins.normal_coalesce orderly.ordered orderly.nonempty

theorem Orderly.known_combined (orderly : Orderly regions) : ∀ r ∈ combined regions, r.kind.Known := by
  intro r member
  cases regions with
  | nil => cases member
  | cons first rest =>
    obtain ⟨source, listed, _, same⟩ := joins.source_coalesce member
    rw [same]
    exact orderly.known source listed

theorem map_line_injective {rs rs' : List MemoryRegion} (known : ∀ r ∈ rs, r.kind.Known)
    (known' : ∀ r ∈ rs', r.kind.Known) (same : rs.map line = rs'.map line) : rs = rs' := by
  induction rs generalizing rs' with
  | nil => exact (List.map_eq_nil_iff.mp same.symm).symm
  | cons r rs ih =>
    cases rs' with
    | nil => cases same
    | cons r' rs' =>
      obtain ⟨here, later⟩ := List.forall_mem_cons.mp known
      obtain ⟨here', later'⟩ := List.forall_mem_cons.mp known'
      obtain ⟨first, rest⟩ := List.cons.inj same
      rw [line_injective here here' first, ih later later' rest]

/-- Two boots compose the same report exactly when they found the same memory, however their boot loaders cut it
    into regions. -/
theorem reports_agree_iff (orderly : Orderly regions) (orderly' : Orderly regions') :
    reportRegions regions = reportRegions regions' ↔
      ∀ address kind, Described regions address kind ↔ Described regions' address kind := by
  rw [reportRegions_ok orderly.forward, reportRegions_ok orderly'.forward]
  constructor
  · intro same address kind
    have regions_same := map_line_injective orderly.known_combined orderly'.known_combined (Except.ok.inj same)
    rw [← described_combined orderly.forward, regions_same, described_combined orderly'.forward]
  · intro same
    have labels : ∀ n l, Labels lo hi MemoryRegion.kind (combined regions) n l ↔
        Labels lo hi MemoryRegion.kind (combined regions') n l := by
      intro address kind
      exact (described_combined orderly.forward).trans
        ((same address kind).trans (described_combined orderly'.forward).symm)
    rw [List.map_injective_iff.mpr extent_injective (orderly.normal.unique orderly'.normal labels)]

end Orderly

/-- The memory of `piecewise` with the usable memory cut up instead. -/
def recut : List MemoryRegion :=
  [⟨0x1000, 0x2000, .usable⟩, ⟨0x2000, 0x8000, .usable⟩, ⟨0x8000, 0xb000, .bootloader⟩, ⟨0xb000, 0xc000, .usable⟩]

theorem reports_agree_iff_recut :
    reportRegions piecewise = reportRegions recut ∧
      ∀ address kind, Described piecewise address kind ↔ Described recut address kind := by
  have orderly : Orderly piecewise := by
    refine ⟨by unfold Ordered; decide, by decide, ?_⟩
    simp [piecewise, MemoryRegionKind.Known]
  have orderly' : Orderly recut := by
    refine ⟨by unfold Ordered; decide, by decide, ?_⟩
    simp [recut, MemoryRegionKind.Known]
  have same : reportRegions piecewise = reportRegions recut := by decide +kernel
  exact ⟨same, (reports_agree_iff orderly orderly').mp same⟩

end Platypos.Boot
