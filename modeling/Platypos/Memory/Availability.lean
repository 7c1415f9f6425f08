import Platypos.Memory.Answers
import Platypos.Memory.Recycling

namespace Platypos.Memory

open Outcome Exec Scan

/-- The free run that `allocate` takes: the first of the free list that is large enough. -/
def Chosen (s : AllocatorInner) (count : Nat) (run : RunId) : Prop :=
  First (fun run => count ≤ (s.arena run).range.size) s.tracking.free run

theorem Chosen.seek {s : AllocatorInner} {count : Nat} {run : RunId} (chosen : Chosen s count run) :
    ∃ front back, s.tracking.free = front ++ run :: back ∧
      Cursor.seek (fun run => decide (count ≤ (s.arena run).range.size)) s.tracking.free = ⟨front, run :: back⟩ := by
  obtain ⟨front, back, split, enough, small⟩ := chosen
  have skipped : ∀ other ∈ front, decide (count ≤ (s.arena other).range.size) = false :=
    fun other member => decide_eq_false (small other member)
  refine ⟨front, back, split, ?_⟩
  rw [split]
  exact Cursor.seek_eq skipped (decide_eq_true enough)

section Outcomes

variable (debug : Bool) {s : AllocatorInner} {count : Nat} {run : RunId}

theorem allocate_none (small : ∀ run ∈ s.tracking.free, ¬ count ≤ (s.arena run).range.size) :
    s.allocate debug count = .ok (.error .insufficientMemory, s) := by
  have passed : (Cursor.seek (fun run => decide (count ≤ (s.arena run).range.size)) s.tracking.free).after = [] := by
    rw [Cursor.seek, List.dropWhile_eq_nil_iff]
    intro run member
    simpa using small run member
  unfold AllocatorInner.allocate
  simp only [Cursor.get, passed, List.head?_nil]
  rfl

variable (chosen : Chosen s count run)

include chosen

theorem allocate_takes_whole (whole : (s.arena run).range.size = count) :
    ∃ range s', s.allocate debug count = .ok (.ok range, s') := by
  obtain ⟨front, back, _, found⟩ := chosen.seek
  unfold AllocatorInner.allocate
  simp only [Cursor.get, found, List.head?_cons, if_pos whole]
  exact ⟨_, _, rfl⟩

variable (linked : Linked s.arena s.runs s.tracking) (sorted : Ledger.Sorted s.ledger) (roomy : Roomy s.arena s.runs)
  (larger : count < (s.arena run).range.size)

include linked

theorem Chosen.listed : run ∈ s.runs ∧ (s.arena run).status = .free := (linked.mem_free run).mp chosen.mem

include roomy larger

theorem Chosen.shrinks : (s.arena run).range.shrinkLeft count =
    .ok ⟨(s.arena run).range.start + count, (s.arena run).range.size - count⟩ := by
  have fits := roomy run (chosen.listed linked).1
  simp only [RunState.limit, AddressRange.limit] at fits
  unfold AddressRange.shrinkLeft
  rw [usizeSub_fits (le_of_lt larger), usizeAdd_fits (by omega)]
  rfl

theorem allocate_without_runs (none : s.tracking.unusedRuns = []) :
    s.allocate debug count = .error .noUnusedRun := by
  obtain ⟨front, back, _, found⟩ := chosen.seek
  unfold AllocatorInner.allocate
  simp only [Cursor.get, found, List.head?_cons, if_neg (Nat.ne_of_gt larger), chosen.shrinks linked roomy larger,
    Bind.bind, Except.bind, none]

theorem allocate_stale {unused : RunId} {unusedRuns : List RunId} (stock : s.tracking.unusedRuns = unused :: unusedRuns)
    (checked : debug = true) (stale : (s.arena unused).status ≠ .unused) :
    s.allocate debug count = .error .reinitialized := by
  obtain ⟨front, back, _, found⟩ := chosen.seek
  unfold AllocatorInner.allocate
  simp only [Cursor.get, found, List.head?_cons, if_neg (Nat.ne_of_gt larger), chosen.shrinks linked roomy larger,
    Bind.bind, Except.bind, stock, initializeRun, debugAssert, check, setRange_status, checked, stale, forall_const,
    ite_false]

include sorted

theorem allocate_splits {unused : RunId} {unusedRuns : List RunId}
    (stock : s.tracking.unusedRuns = unused :: unusedRuns)
    (fresh : debug = true → (s.arena unused).status = .unused) :
    ∃ range s', s.allocate debug count = .ok (.ok range, s') := by
  obtain ⟨listed, kind⟩ := chosen.listed linked
  obtain ⟨front, back, runs⟩ := List.append_of_mem listed
  have nodup := List.nodup_cons.mp (List.nodup_middle.mp (runs ▸ linked.runs_nodup))
  have position : Cursor.cursorMutFromPtr s.runs run = ⟨front, run :: back⟩ := by
    rw [runs]
    exact Cursor.cursorMutFromPtr_split fun inside => nodup.1 (by simp [inside])
  obtain ⟨arena, contents⟩ : ∃ arena, arena = Function.update
      (setRange s.arena run ⟨(s.arena run).range.start + count, (s.arena run).range.size - count⟩)
      unused ⟨⟨(s.arena run).range.start, count⟩, .allocated⟩ := ⟨_, rfl⟩
  have ready := split_linked linked runs stock contents
  have limit := roomy run listed
  simp only [RunState.limit, AddressRange.limit] at limit
  have room : Roomy arena (Cursor.mk front (run :: back)).toList := by
    intro other member
    rw [Cursor.toList_mk, ← runs] at member
    by_cases same : other = run
    · rw [same, split_arena_run linked runs stock contents]
      simp only [RunState.limit, AddressRange.limit]
      omega
    · rw [split_arena linked stock contents other member same]
      exact roomy other member
  have width : (arena unused).limit < 2^64 := by
    rw [contents, Function.update_self]
    simp only [RunState.limit, AddressRange.limit]
    omega
  rw [runs] at ready
  obtain ⟨s', done, _⟩ := addRun_succeeds debug (t := ⟨arena, ⟨front, run :: back⟩, ⟨s.tracking.free, unusedRuns⟩⟩)
    ready.1 ready.2 room width (split_fits linked runs stock contents sorted)
  obtain ⟨_, _, _, found⟩ := chosen.seek
  refine ⟨⟨(s.arena run).range.start, count⟩, s', ?_⟩
  unfold AllocatorInner.allocate
  simp only [Cursor.get, found, List.head?_cons, if_neg (Nat.ne_of_gt larger), chosen.shrinks linked roomy larger,
    Bind.bind, Except.bind, stock, initializeRun, debugAssert, check, setRange_status, if_pos fresh, position,
    AddressRange.fromStartSize, Pure.pure, Except.pure]
  rw [contents] at done
  rw [done]

end Outcomes

/-- The chosen run is larger than the request. -/
def Splits (s : AllocatorInner) (count : Nat) : Prop :=
  ∃ run, Chosen s count run ∧ count < (s.arena run).range.size

/-- The next descriptor to be used fails the debug assertion of `Run::initialize`. -/
def StaleNext (s : AllocatorInner) : Prop :=
  ∃ run ∈ s.tracking.unusedRuns.head?, (s.arena run).status ≠ .unused

def FreeBlock (tracking : PageFrameRange) (ranges : List PageFrameRange) (out : Multiset PageFrameRange)
    (count : Nat) : Prop :=
  ∃ first, ∀ frame, first ≤ frame → frame < first + count → FreeFrame (Handed tracking ranges) tracking out frame

/-- How `allocate` ought to answer. -/
structure Serves (debug : Bool) (s : AllocatorInner) (count : Nat) (available : Prop) : Prop where
  insufficient : (∃ s', s.allocate debug count = .ok (.error .insufficientMemory, s')) ↔ ¬ available
  granted : available → (∃ range s', s.allocate debug count = .ok (.ok range, s')) ∨
    Splits s count ∧ s.tracking.unusedRuns = [] ∧ s.allocate debug count = .error .noUnusedRun

section Serving

variable {s : AllocatorInner} (linked : Linked s.arena s.runs s.tracking) {count : Nat}

include linked

theorem exists_free_iff : (∃ r ∈ Ledger.rangesOf .free s.ledger, count ≤ r.size) ↔
    ∃ run ∈ s.tracking.free, count ≤ (s.arena run).range.size := by
  constructor
  · intro found
    obtain ⟨r, listed, enough⟩ := found
    obtain ⟨run, member, same⟩ := List.mem_map.mp (Ledger.mem_rangesOf.mp listed)
    refine ⟨run, (linked.mem_free run).mpr ⟨member, ?_⟩, ?_⟩
    · rw [same]
    · rw [same]
      exact enough
  · intro found
    obtain ⟨run, member, enough⟩ := found
    obtain ⟨listed, kind⟩ := (linked.mem_free run).mp member
    refine ⟨(s.arena run).range, Ledger.mem_rangesOf.mpr ?_, enough⟩
    rw [← kind]
    exact List.mem_map_of_mem listed

theorem serves_iff (debug : Bool) (sorted : Ledger.Sorted s.ledger) (roomy : Roomy s.arena s.runs) :
    Serves debug s count (∃ run ∈ s.tracking.free, count ≤ (s.arena run).range.size) ↔
      ¬ (debug = true ∧ Splits s count ∧ StaleNext s) := by
  by_cases available : ∃ run ∈ s.tracking.free, count ≤ (s.arena run).range.size
  · obtain ⟨run, chosen⟩ : ∃ run, Chosen s count run := exists_first available
    have granted : (∃ range s', s.allocate debug count = .ok (.ok range, s')) →
        Serves debug s count (∃ run ∈ s.tracking.free, count ≤ (s.arena run).range.size) := by
      intro success
      obtain ⟨range, s', answer⟩ := success
      refine ⟨iff_of_false ?_ (not_not_intro available), fun _ => .inl ⟨range, s', answer⟩⟩
      intro refused
      simp [answer] at refused
    rcases Nat.eq_or_lt_of_le chosen.holds with whole | larger
    · refine iff_of_true (granted (allocate_takes_whole debug chosen whole.symm)) ?_
      intro bad
      obtain ⟨_, ⟨run', chosen', larger⟩, _⟩ := bad
      have same := chosen.unique chosen'
      subst same
      omega
    · have splits : Splits s count := ⟨run, chosen, larger⟩
      cases stock : s.tracking.unusedRuns with
      | nil =>
        have answer := allocate_without_runs debug chosen linked roomy larger stock
        refine iff_of_true ⟨iff_of_false ?_ (not_not_intro available), fun _ => .inr ⟨splits, stock, answer⟩⟩ ?_
        · intro refused
          simp [answer] at refused
        · intro bad
          obtain ⟨_, _, next, first, _⟩ := bad
          simp [stock] at first
      | cons unused unusedRuns =>
        by_cases fresh : debug = true → (s.arena unused).status = .unused
        · refine iff_of_true (granted (allocate_splits debug chosen linked sorted roomy larger stock fresh)) ?_
          intro bad
          obtain ⟨checked, _, next, first, stale⟩ := bad
          rw [stock, List.head?_cons, Option.mem_some_iff] at first
          subst first
          exact stale (fresh checked)
        · rw [Classical.not_imp] at fresh
          have answer := allocate_stale debug chosen linked roomy larger stock fresh.1 fresh.2
          refine iff_of_false ?_ (not_not_intro ⟨fresh.1, splits, unused, by simp [stock], fresh.2⟩)
          intro serves
          rcases serves.granted available with success | ⟨_, none, _⟩
          · simp [answer] at success
          · simp [stock] at none
  · have small : ∀ run ∈ s.tracking.free, ¬ count ≤ (s.arena run).range.size :=
      fun run member enough => available ⟨run, member, enough⟩
    have answer := allocate_none debug small
    refine iff_of_true ⟨iff_of_true ⟨s, answer⟩ available, fun found => absurd found available⟩ ?_
    intro bad
    obtain ⟨_, ⟨run, chosen, _⟩, _⟩ := bad
    exact small run chosen.mem chosen.holds

end Serving

/-- `allocate` finds free memory exactly as it should unless it needs a new descriptor and the next one is stale
    in a build with debug assertions. -/
theorem allocate_finds_free_block_iff {debug : Bool} {sizeOfRun : Nat} {access : MemoryAccess}
    {tracking : PageFrameRange} {ranges : List PageFrameRange} {s s' : AllocatorInner} {calls : List Call}
    {replies : List Reply} (fits : ∀ r ∈ tracking :: ranges, r.limit < 2^64) (nonempty : ∀ r ∈ ranges, 0 < r.size)
    (built : initialise debug sizeOfRun access tracking ranges = .ok (.ok s))
    (history : History debug s calls replies s') {count : Nat} (some : 0 < count) :
    Serves debug s' count (FreeBlock tracking ranges (outstanding calls replies) count) ↔
      ¬ (debug = true ∧ Splits s' count ∧ StaleNext s') := by
  have reached := (initialise_canonical nonempty built).calls debug history.2 history.1
  have bounded := (initialise_bounded fits built).calls debug history.1
  have blocks : FreeBlock tracking ranges (outstanding calls replies) count ↔
      ∃ run ∈ s'.tracking.free, count ≤ (s'.arena run).range.size :=
    (reached.sound.exists_free_run reached.tight some).trans (exists_free_iff reached.linked)
  rw [blocks]
  exact serves_iff reached.linked debug reached.sound.sorted bounded.roomy

theorem allocate_finds_rest :
    ∃ s s', initialise true 64 ⟨0⟩ ⟨0, 1⟩ [⟨10, 5⟩] = .ok (.ok s) ∧
      History true s [.allocate 2] [.range ⟨10, 2⟩] s' ∧
      Serves true s' 1 (FreeBlock ⟨0, 1⟩ [⟨10, 5⟩] {⟨10, 2⟩} 1) := by
  refine ⟨_, _, rfl, ⟨rfl, by simp⟩, ?_⟩
  apply (@allocate_finds_free_block_iff true 64 ⟨0⟩ ⟨0, 1⟩ [⟨10, 5⟩] _ _ [.allocate 2] [.range ⟨10, 2⟩] (by decide)
    (by decide) rfl ⟨rfl, by simp⟩ 1 (by decide)).mpr
  intro bad
  obtain ⟨_, _, run, first, stale⟩ := bad
  cases first
  exact stale rfl

/-- Once the descriptors of the beginning are used up, the next one has been merged away, and the allocation fails
    although the memory and descriptors are there. -/
theorem allocate_stopped_by_merged_run :
    ∃ s s', initialise true 64 ⟨0⟩ ⟨0, 1⟩ [⟨10, 5⟩] = .ok (.ok s) ∧
      History true s (cycles 62) (List.replicate 62 [.range ⟨10, 2⟩, .done]).flatten s' ∧
      FreeBlock ⟨0, 1⟩ [⟨10, 5⟩] 0 2 ∧ s'.tracking.unusedRuns ≠ [] ∧ s'.allocate true 2 = .error .reinitialized := by
  have ran : ∃ s, initialise true 64 ⟨0⟩ ⟨0, 1⟩ [⟨10, 5⟩] = .ok (.ok s) ∧
      (exec (AllocatorInner.call true) s (cycles 62)).toOption.map
          (fun r => (r.1, r.2.tracking.unusedRuns.isEmpty, failure (r.2.allocate true 2))) =
        some ((List.replicate 62 [.range ⟨10, 2⟩, .done]).flatten, false, some .reinitialized) :=
    ⟨_, rfl, by decide +kernel⟩
  obtain ⟨s, built, ran⟩ := ran
  obtain ⟨⟨replies, s'⟩, run, seen⟩ := Option.map_eq_some_iff.mp ran
  obtain ⟨rfl, seen⟩ := Prod.mk.inj seen
  obtain ⟨stock, failed⟩ := Prod.mk.inj seen
  have some : ∀ call ∈ cycles 62, call ≠ .allocate 0 := by decide +kernel
  refine ⟨s, s', built, ⟨toOption_eq_some.mp run, some⟩, ⟨10, ?_⟩, List.isEmpty_eq_false_iff.mp stock,
    eq_error_of_failure failed⟩
  intro frame start stop
  refine ⟨⟨⟨10, 5⟩, by simp, start, lt_trans stop (by decide)⟩, ?_, by simp⟩
  rw [AddressRange.mem_iff]
  dsimp only
  omega

end Platypos.Memory
