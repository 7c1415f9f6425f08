import Platypos.Memory.Representation

namespace Platypos.Memory

open Outcome

theorem usizeAdd_fits {a b : Nat} (fits : a + b < 2^64) : usizeAdd a b = .ok (a + b) := if_pos fits

theorem usizeSub_fits {a b : Nat} (fits : b ≤ a) : usizeSub a b = .ok (a - b) := if_pos fits

theorem usizeMul_fits {a b : Nat} (fits : a * b < 2^64) : usizeMul a b = .ok (a * b) := if_pos fits

theorem AddressRange.endOf_fits {r : AddressRange} (fits : r.limit < 2^64) : r.endOf = .ok r.limit :=
  usizeAdd_fits fits

/-- A computation that does not fail for want of bits. -/
def Fitting {α : Type} (x : Except Panic α) : Prop := Ensures x (fun _ => True) fun e => e ≠ .overflow

theorem Fitting.ensures {α : Type} {x : Except Panic α} {post : α → Prop} {failures : Panic → Prop}
    (fitting : Fitting x) (spec : Ensures x post failures) :
    Ensures x post fun e => failures e ∧ e ≠ .overflow := by
  cases x with
  | ok a => exact spec
  | error e => exact ⟨spec, fitting⟩

theorem Fitting.bind {α β : Type} {x : Except Panic α} {f : α → Except Panic β} {post : α → Prop}
    {failures : Panic → Prop} (fitting : Fitting x) (spec : Ensures x post failures)
    (rest : ∀ a, post a → Fitting (f a)) : Fitting (x >>= f) :=
  ((fitting.ensures spec).mono (fun _ _ => id) fun _ => And.right).bind rest

def Roomy (arena : Arena) (runs : List RunId) : Prop := ∀ run ∈ runs, (arena run).limit < 2^64

section Merging

variable (debug : Bool) {t : Traversal} {before after : List RunId} {current : RunId}
  (position : t.cursor = ⟨before, current :: after⟩) (linked : Linked t.arena t.cursor.toList t.tracking)
  (roomy : Roomy t.arena t.cursor.toList)

include position roomy

theorem canCoalesceNext_fitting : Fitting (canCoalesceNext t current) := by
  have fits := roomy current (by simp [position])
  unfold canCoalesceNext
  split
  · split
    · rw [AddressRange.endOf_fits fits]
      trivial
    · trivial
  · trivial

theorem canCoalescePrev_fitting : Fitting (canCoalescePrev t current) := by
  unfold canCoalescePrev
  split
  · rename_i prev last
    have member : prev ∈ t.cursor.toList := by
      simp only [position, Cursor.peekPrev] at last
      simp [position, List.mem_of_getLast? last]
    split
    · rw [AddressRange.endOf_fits (roomy prev member)]
      trivial
    · trivial
  · trivial

include linked

theorem coalesceNext_fitting : Fitting (coalesceNext debug t) := by
  have member : current ∈ t.cursor.toList := by simp [position]
  have found : t.cursor.get = some current := by simp [position, Cursor.get]
  unfold coalesceNext
  simp only [found]
  apply (canCoalesceNext_fitting position roomy).bind (canCoalesceNext_ensures position)
  intro can meaning
  cases can with
  | false => trivial
  | true =>
    obtain ⟨next, first, touching⟩ := meaning.mp rfl
    cases after with
    | nil => simp at first
    | cons head rest =>
      simp only [List.head?_cons, Option.mem_def, Option.some.injEq] at first
      subst first
      have removed : t.cursor.remove = ⟨before, head :: rest⟩ := by simp [position, Cursor.remove]
      simp only [ite_true, unlinkFree_eq debug linked member, removed, Cursor.get, List.head?_cons, Bind.bind,
        Except.bind]
      have fits := roomy head (by simp [position])
      have start := touching.2
      simp only [RunState.start, RunState.limit, AddressRange.limit] at fits start
      have extended : (t.arena head).range.extendLeft (t.arena current).range.size =
          .ok ⟨(t.arena head).range.start - (t.arena current).range.size,
            (t.arena head).range.size + (t.arena current).range.size⟩ := by
        unfold AddressRange.extendLeft
        rw [usizeAdd_fits (by omega), usizeSub_fits (by omega)]
        rfl
      rw [extended]
      trivial

theorem coalescePrev_fitting : Fitting (coalescePrev debug t) := by
  have member : current ∈ t.cursor.toList := by simp [position]
  have found : t.cursor.get = some current := by simp [position, Cursor.get]
  unfold coalescePrev
  simp only [found]
  apply (canCoalescePrev_fitting position roomy).bind (canCoalescePrev_ensures position)
  intro can meaning
  cases can with
  | false => trivial
  | true =>
    obtain ⟨prev, last, touching⟩ := meaning.mp rfl
    rcases List.eq_nil_or_concat before with rfl | ⟨front, back, rfl⟩
    · simp at last
    · simp only [List.concat_eq_append, List.getLast?_concat, Option.mem_def, Option.some.injEq] at last
      subst last
      have removed : t.cursor.remove.movePrev = ⟨front, back :: after⟩ := by
        simp [position, Cursor.remove, Cursor.movePrev]
      simp only [ite_true, unlinkFree_eq debug linked member, removed, Cursor.get, List.head?_cons, Bind.bind,
        Except.bind]
      have fits := roomy current member
      have start := touching.2
      simp only [RunState.start, RunState.limit, AddressRange.limit] at fits start
      have extended : (t.arena back).range.extendRight (t.arena current).range.size =
          .ok ⟨(t.arena back).range.start, (t.arena back).range.size + (t.arena current).range.size⟩ := by
        unfold AddressRange.extendRight
        rw [usizeAdd_fits (by omega)]
        rfl
      rw [extended]
      trivial

-- Merging forward moves no end of a run, so the second half finds as much room as the first.
theorem coalesceNext_roomy :
    Ensures (coalesceNext debug t) (fun t' => Roomy t'.arena t'.cursor.toList) fun e => e = .overflow := by
  apply (coalesceNext_ensures debug position linked).imp
  intro t' result
  rcases result with ⟨rfl, _⟩ | ⟨next, rest, rfl, touching, rfl⟩
  · exact roomy
  · intro run member
    have kept : run ∈ t.cursor.toList := by
      simp only [retireInto, Cursor.toList_mk, List.mem_append] at member
      simp only [position, Cursor.toList_mk, List.mem_append, List.mem_cons] at member ⊢
      tauto
    have fits := roomy run kept
    by_cases same : run = next
    · subst same
      simp only [retireInto, setRange_self]
      rw [RunState.limit] at fits ⊢
      have joined := Ledger.join_limit touching
      rw [RunState.limit, RunState.limit] at joined
      exact joined ▸ fits
    · simpa only [retireInto, setRange, Function.update_of_ne same] using fits

theorem coalesce_fitting : Fitting (coalesce debug t) := by
  have first := coalesceNext_fitting debug position linked roomy
  apply first.bind ((coalesceNext_absorbs debug position linked).and
    (coalesceNext_roomy debug position linked roomy))
  intro t' next
  obtain ⟨⟨current', after', position', linked', _⟩, roomy'⟩ := next
  apply (coalescePrev_fitting debug position' linked' roomy').bind (coalescePrev_ensures debug position' linked')
  intro t'' _
  trivial

end Merging

/-- The overlap checks on both sides of a run: the earlier of two runs must end before the later starts. -/
theorem checkOrder_fitting {r r' : AddressRange} (fits : r.limit < 2^64) :
    Fitting (do
      let limit ← r.endOf
      check (limit ≤ r'.start) .overlap) := by
  rw [AddressRange.endOf_fits fits]
  simp only [Bind.bind, Except.bind, check]
  split <;> simp [Fitting]

theorem checkPrev_fitting {t : Traversal} (run : RunId) (roomy : Roomy t.arena t.cursor.toList) :
    Fitting (checkPrev t run) := by
  unfold checkPrev
  split
  · rename_i prev last
    exact checkOrder_fitting (roomy prev (List.mem_append_left _ (List.mem_of_getLast? last)))
  · trivial

theorem addRun_fitting (debug : Bool) {t : Traversal} {run : RunId}
    (linked : Linked t.arena t.cursor.toList t.tracking) (fresh : run ∉ t.cursor.toList ++ t.tracking.unusedRuns)
    (roomy : Roomy t.arena t.cursor.toList) (fits : (t.arena run).limit < 2^64) :
    Fitting (addRun debug t run) := by
  have apart : run ∉ t.cursor.toList ∧ run ∉ t.tracking.unusedRuns := by simpa using fresh
  have absent : run ∉ t.tracking.free := fun member => apart.1 ((linked.mem_free run).mp member).1
  have checked : Fitting (checkOverlap t run) := by
    apply Fitting.bind _ (checkNext_ensures t run) fun _ _ => checkPrev_fitting run roomy
    unfold checkNext
    split
    · exact checkOrder_fitting fits
    · exact checkPrev_fitting run roomy
  simp only [addRun, check, apart, absent, not_false_eq_true, and_self, ite_true, Bind.bind, Except.bind]
  apply checked.bind (checkOverlap_ensures t run)
  intro _ _
  split
  · rw [Cursor.insertBefore_movePrev]
    apply coalesce_fitting debug rfl (Linked.insert linked fresh t.cursor)
    intro other member
    simp only [Cursor.toList_mk, List.mem_append, List.mem_cons] at member
    rcases member with member | rfl | member
    · exact roomy other (List.mem_append_left _ member)
    · exact fits
    · exact roomy other (List.mem_append_right _ member)
  · trivial

/-- With room for every run, and a place for the new one, an insertion goes through. -/
theorem addRun_succeeds (debug : Bool) {t : Traversal} {run : RunId}
    (linked : Linked t.arena t.cursor.toList t.tracking) (fresh : run ∉ t.cursor.toList ++ t.tracking.unusedRuns)
    (roomy : Roomy t.arena t.cursor.toList) (fits : (t.arena run).limit < 2^64)
    (place : Fits t.arena t.cursor run) : ∃ s, addRun debug t run = .ok s ∧ Added t run s := by
  have spec := addRun_ensures debug linked fresh
  cases outcome : addRun debug t run with
  | ok s => exact ⟨s, rfl, spec.of_ok outcome⟩
  | error e =>
    have possible := ((addRun_fitting debug linked fresh roomy fits).ensures spec).of_error outcome
    rcases possible with ⟨overflow | misplaced, other⟩
    · exact absurd overflow other
    · exact absurd place misplaced.2

theorem addRun_completes (debug : Bool) {s : AllocatorInner} {run : RunId} {unusedRuns : List RunId} {x : RunState}
    {arena : Arena} {cursor : Cursor RunId} (linked : Linked s.arena s.runs s.tracking)
    (sorted : Ledger.Sorted s.ledger) (stock : s.tracking.unusedRuns = run :: unusedRuns)
    (contents : arena = Function.update s.arena run x) (position : cursor = findNext arena s.runs run)
    (kind : x.status ≠ .allocated) (roomy : Roomy s.arena s.runs) (fits : x.limit < 2^64)
    (apart : ∀ y ∈ s.ledger, ¬ Meets x.range y) :
    ∃ s', addRun debug ⟨arena, cursor, ⟨s.tracking.free, unusedRuns⟩⟩ run = .ok s' ∧ Received s x s' := by
  have ready := inserted_linked linked stock contents
  have runs := (inserted_views linked stock contents position).1
  rw [← runs] at ready
  have place : Fits arena cursor run := by
    by_contra misfit
    obtain ⟨y, member, meets⟩ := inserted_meets linked stock contents position misfit
    exact apart y member meets
  have room : Roomy arena cursor.toList := by
    intro other member
    rw [ready.2.2 other member]
    exact roomy other (runs ▸ member)
  have width : (arena run).limit < 2^64 := by
    rw [contents, Function.update_self]
    exact fits
  obtain ⟨s', done, added⟩ := addRun_succeeds debug (t := ⟨arena, cursor, ⟨s.tracking.free, unusedRuns⟩⟩) ready.1
    ready.2.1 room width place
  exact ⟨s', done, inserted_received linked sorted stock contents position kind added⟩

theorem addAllocatableRange_completes (debug : Bool) {s : AllocatorInner}
    (linked : Linked s.arena s.runs s.tracking) (sorted : Ledger.Sorted s.ledger) {range : PageFrameRange}
    (stock : s.tracking.unusedRuns ≠ []) (roomy : Roomy s.arena s.runs) (fits : range.limit < 2^64)
    (apart : ∀ x ∈ s.ledger, ¬ Meets range x) :
    ∃ s', s.addAllocatableRange debug range = .ok s' ∧ Received s ⟨range, .free⟩ s' := by
  unfold AllocatorInner.addAllocatableRange
  cases taken : s.tracking.unusedRuns with
  | nil => exact absurd taken stock
  | cons run unusedRuns => exact addRun_completes debug linked sorted taken rfl rfl (by simp) roomy fits apart

theorem writeRuns_completes (debug : Bool) {range : PageFrameRange} {entries : List RunId} (nodup : entries.Nodup)
    (some : entries ≠ []) (fits : range.limit < 2^64) :
    ∃ s, AllocatorInner.new.writeRuns debug range entries = .ok s := by
  unfold AllocatorInner.writeRuns
  simp only [AllocatorInner.new, List.nil_append, ite_self]
  cases entries with
  | nil => exact absurd rfl some
  | cons trackingRun unusedRuns =>
    let written : AllocatorInner := ⟨fun _ => ⟨.empty, .unused⟩, [], ⟨[], trackingRun :: unusedRuns⟩⟩
    have linked : Linked written.arena written.runs written.tracking :=
      ⟨nodup, List.nodup_nil, by simp [written]⟩
    obtain ⟨s, added, _⟩ := addRun_completes debug linked List.Pairwise.nil rfl rfl rfl
      (x := ⟨range, .tracking⟩) (by simp) (by simp [Roomy, written]) fits (by simp [AllocatorInner.ledger, written])
    refine ⟨s, ?_⟩
    simp only [initializeRun, debugAssert, check, implies_true, ite_true, Bind.bind, Except.bind, Pure.pure,
      Except.pure]
    exact added

/-- The tracking pages are set up when they can be mapped and hold at least one descriptor. -/
theorem initTrackingSpace_completes (debug : Bool) {sizeOfRun : Nat} (access : MemoryAccess)
    {range : PageFrameRange} (mapped : range.start * PAGE_SIZE < 2^63) (small : range.size * PAGE_SIZE < 2^63)
    (some : 0 < range.size * PAGE_SIZE / sizeOfRun) :
    ∃ s, AllocatorInner.new.initTrackingSpace debug sizeOfRun access range = .ok (.ok (), s) ∧
      Tracked sizeOfRun access range s := by
  have divided : range.size * PAGE_SIZE / sizeOfRun * sizeOfRun ≤ range.size * PAGE_SIZE := Nat.div_mul_le_self _ _
  have positive : 0 < sizeOfRun := by
    rcases Nat.eq_zero_or_pos sizeOfRun with zero | positive
    · simp [zero] at some
    · exact positive
  have fits : range.limit < 2^64 := by
    simp only [AddressRange.limit]
    simp only [PAGE_SIZE] at mapped small
    omega
  have entries : descriptors (access.base + range.start * PAGE_SIZE) sizeOfRun (range.size * PAGE_SIZE / sizeOfRun)
      ≠ [] := by
    rw [← List.length_pos_iff_ne_nil]
    simpa only [descriptors, List.length_map, List.length_range] using some
  obtain ⟨s, written⟩ := writeRuns_completes debug (descriptors_nodup _ _ _ positive) entries fits
  have done : AllocatorInner.new.initTrackingSpace debug sizeOfRun access range = .ok (.ok (), s) := by
    unfold AllocatorInner.initTrackingSpace AddressRange.sizeBytes MemoryAccess.mapPermanent
      AddressRange.startAddress
    rw [usizeMul_fits (by omega), usizeMul_fits (by omega)]
    simp only [Bind.bind, Except.bind, check, divided, mapped, ite_true, if_neg (Nat.not_le.mpr
      (lt_of_le_of_lt divided small)), Pure.pure, Except.pure, written]
  refine ⟨s, done, ?_⟩
  rcases (initTrackingSpace_ensures debug sizeOfRun access range).of_ok done with ⟨e, failed⟩ | tracked
  · cases (Prod.mk.inj failed).1
  · exact tracked.2

theorem Ledger.Receives.length_le {l l' : Ledger} {x : RunState} (step : Receives l x l') :
    l'.length ≤ l.length + 1 := by
  obtain ⟨pre, x, post, _, _⟩ := step
  apply settle_preserves fun l => l.length ≤ (pre ++ post).length + 1
  · intro l l' join shorter
    obtain ⟨front, y, z, back, _, _⟩ := join
    simp only [List.length_append, List.length_cons] at shorter ⊢
    omega
  · simp only [List.length_append, List.length_cons]
    omega

section Preparation

variable {entries : List RunId} {tracking : PageFrameRange} {handed : List PageFrameRange} {s : AllocatorInner}

theorem Prepared.roomy (prepared : Prepared entries tracking handed s)
    (fits : ∀ r ∈ tracking :: handed, r.limit < 2^64) : Roomy s.arena s.runs := by
  intro run member
  have listed : s.arena run ∈ s.ledger := List.mem_map_of_mem member
  by_cases empty : (s.arena run).range.size = 0
  · obtain ⟨r, earlier, zero, same⟩ := prepared.empties _ listed empty
    have bound := fits r (List.mem_cons_of_mem _ earlier)
    simp only [RunState.start, RunState.limit, AddressRange.limit] at same bound ⊢
    omega
  · obtain ⟨r, given, inside⟩ := prepared.represents.sound.inside listed (AddressRange.last_mem empty)
    have bound := fits r given
    rw [AddressRange.mem_iff] at inside
    simp only [RunState.limit, AddressRange.limit] at bound inside ⊢
    omega

theorem addRanges_completes (debug : Bool) (ranges : List PageFrameRange)
    (prepared : Prepared entries tracking handed s) (spread : Spread tracking (handed ++ ranges))
    (fits : ∀ r ∈ tracking :: (handed ++ ranges), r.limit < 2^64) (counted : s.runs.length ≤ handed.length + 1)
    (room : handed.length + ranges.length < entries.length) :
    ∃ s', ranges.foldlM (fun s range => s.addAllocatableRange debug range) s = .ok s' := by
  induction ranges generalizing handed s with
  | nil => exact ⟨s, rfl⟩
  | cons range rest ih =>
    have books := prepared.represents
    have stock : s.tracking.unusedRuns ≠ [] := by
      intro none
      have total := books.perm.length_eq
      simp only [none, List.append_nil, List.length_cons] at total room
      omega
    have roomy := prepared.roomy fun r given => fits r (by
      rw [← List.cons_append]
      exact List.mem_append_left _ given)
    obtain ⟨s', added, received⟩ := addAllocatableRange_completes debug books.linked books.sound.sorted stock roomy
      (fits range (by simp)) fun x member meets => prepared.meets member meets spread
    have shorter := received.ledger.length_le
    simp only [AllocatorInner.ledger, List.length_map] at shorter
    have longer : (handed ++ [range]).length = handed.length + 1 := by simp
    rw [List.length_cons] at room
    obtain ⟨final, done⟩ := ih (prepared.received received) (by simpa using spread) (by simpa using fits) (by omega)
      (by omega)
    refine ⟨final, ?_⟩
    rw [List.foldlM_cons, added]
    exact done

end Preparation

/-- Initialisation succeeds when the tracking pages can be mapped, the ranges are spread out and there are
    descriptors for all of them. -/
theorem initialise_completes (debug : Bool) {sizeOfRun : Nat} (access : MemoryAccess) {tracking : PageFrameRange}
    {ranges : List PageFrameRange} (mapped : tracking.start * PAGE_SIZE < 2^63)
    (small : tracking.size * PAGE_SIZE < 2^63) (room : ranges.length < tracking.size * PAGE_SIZE / sizeOfRun)
    (spread : Spread tracking ranges) (fits : ∀ r ∈ ranges, r.limit < 2^64) :
    ∃ s, initialise debug sizeOfRun access tracking ranges = .ok (.ok s) := by
  obtain ⟨s, tracked, start⟩ := initTrackingSpace_completes debug access mapped small (Nat.zero_lt_of_lt room)
  have alone : s.runs.length = 1 := by
    have view := congrArg List.length start.ledger
    simpa only [AllocatorInner.ledger, List.length_map, List.length_singleton] using view
  have within : ∀ r ∈ tracking :: ([] ++ ranges), r.limit < 2^64 := by
    intro r member
    rcases List.mem_cons.mp member with rfl | member
    · simp only [AddressRange.limit]
      simp only [PAGE_SIZE] at mapped small
      omega
    · exact fits r member
  obtain ⟨s', added⟩ := addRanges_completes debug ranges start.prepared spread within (by simp [alone]) (by
    simpa only [trackingDescriptors, descriptors, List.length_map, List.length_range, List.length_nil,
      Nat.zero_add] using room)
  refine ⟨s', ?_⟩
  simp only [initialise, tracked, Bind.bind, Except.bind, added, Pure.pure, Except.pure]

end Platypos.Memory
