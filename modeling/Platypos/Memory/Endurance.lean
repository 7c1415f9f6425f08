import Mathlib.Data.List.Perm.Subperm
import Platypos.Memory.Availability

namespace Platypos.Memory

open Outcome Exec

namespace Ledger

variable {memory : Nat → Prop} {tracking : List PageFrameRange} {out out₀ : Multiset PageFrameRange} {l l₀ : Ledger}

theorem Tight.start_lt_limit (tight : Tight l) {x : RunState} (member : x ∈ l) : x.start < x.limit := by
  have positive := tight.positive x member
  simp only [RunState.start, RunState.limit, AddressRange.limit]
  omega

theorem Tight.starts_nodup (tight : Tight l) (sorted : Sorted l) : (l.map RunState.start).Nodup := by
  rw [List.Nodup, List.pairwise_map]
  apply sorted.imp_of_mem
  intro x y member _ apart
  have positive := tight.start_lt_limit member
  omega

/-- Of two runs that meet, the first is allocated or they are of different kinds. -/
theorem Tight.meeting (tight : Tight l) (sorted : Sorted l) {x y : RunState} (member : x ∈ l) (member' : y ∈ l)
    (meets : x.limit = y.start) : x.status = .allocated ∨ x.status ≠ y.status := by
  obtain ⟨pre, post, rfl⟩ := List.append_of_mem member'
  have positive := tight.start_lt_limit member
  have positive' := tight.start_lt_limit member'
  have order := sorted_append_cons.mp sorted
  -- It ends where the other starts, so it comes before it, and nothing fits in between.
  have before : x ∈ pre := by
    rcases List.mem_append.mp member with before | after
    · exact before
    · rcases List.mem_cons.mp after with rfl | after
      · omega
      · have later := order.2.2 x after
        omega
  obtain ⟨pre, z, rfl⟩ : ∃ front z, pre = front ++ [z] := by
    rcases List.eq_nil_or_concat pre with rfl | ⟨front, z, rfl⟩
    · cases before
    · exact ⟨front, z, by rw [List.concat_eq_append]⟩
  have same : x = z := by
    rcases List.mem_append.mp before with earlier | last
    · have middle := tight.start_lt_limit (x := z) (by simp)
      have inner : Sorted (pre ++ z :: post) := by simpa using order.1
      have apart := (sorted_append_cons.mp inner).2.1 x earlier
      have close := order.2.1 z (by simp)
      omega
    · exact List.mem_singleton.mp last
  subst same
  rcases (maximal_append_cons.mp tight.maximal).2.2.1 x (by simp) with allocated | apart
  · exact .inl allocated
  · right
    intro kinds
    exact apart ⟨kinds.symm, meets.symm⟩

/-- A free run starts where a block of memory does, which is where some run of every ledger of that memory starts, or
    where a run that is not free ends. -/
theorem Sound.free_start (sound : Sound memory tracking out l) (tight : Tight l) (sound₀ : Sound memory tracking out₀ l₀)
    {x : RunState} (member : x ∈ l) (free : x.status = .free) :
    x.start ∈ l₀.map RunState.start ++ (l.filter fun y => !decide (y.status = .free)).map RunState.limit := by
  rw [List.mem_append]
  have positive := tight.start_lt_limit member
  by_cases follows : ∃ y ∈ l, y.limit = x.start
  · right
    obtain ⟨y, member', meets⟩ := follows
    refine List.mem_map.mpr ⟨y, List.mem_filter.mpr ⟨member', ?_⟩, meets⟩
    rcases tight.meeting sound.sorted member' member meets with allocated | differ
    · simp [allocated]
    · simpa [free] using differ
  · left
    have inside : x.start ∈ x.range := ⟨Nat.le_refl _, positive⟩
    obtain ⟨w, listed, covered⟩ := (sound₀.covered x.start).mpr ((sound.covered x.start).mp ⟨x, member, inside⟩)
    refine List.mem_map.mpr ⟨w, listed, ?_⟩
    have bounds : w.start ≤ x.start ∧ x.start < w.limit := covered
    by_contra differ
    -- The frame before would be in memory, and the run that has it would end here.
    have before : x.start - 1 ∈ w.range := ⟨show w.start ≤ _ by omega, show _ < w.limit by omega⟩
    obtain ⟨y, member', covered'⟩ := (sound.covered _).mpr ((sound₀.covered _).mp ⟨w, listed, before⟩)
    have bounds' : y.start ≤ x.start - 1 ∧ x.start - 1 < y.limit := covered'
    apply follows ⟨y, member', ?_⟩
    by_contra apart
    have inside' : x.start ∈ y.range := ⟨show y.start ≤ _ by omega, show _ < y.limit by omega⟩
    have same := sound.sorted.covers_unique member member' inside inside'
    subst same
    omega

theorem used_length (inUse : ∀ x ∈ l, x.status ≠ .unused) :
    (l.filter fun x => !decide (x.status = .free)).length =
      (rangesOf .allocated l).length + (rangesOf .tracking l).length := by
  induction l with
  | nil => rfl
  | cons x l ih =>
    rw [List.forall_mem_cons] at inUse
    have rest := ih inUse.2
    rw [rangesOf_cons, rangesOf_cons]
    cases kind : x.status with
    | free => simp [kind, rest]
    | allocated =>
      simp only [kind, rest, List.filter_cons, List.length_cons, reduceCtorEq, decide_false, Bool.not_false, if_true,
        if_false]
      omega
    | tracking =>
      simp only [kind, rest, List.filter_cons, List.length_cons, reduceCtorEq, decide_false, Bool.not_false, if_true,
        if_false]
      omega
    | unused => exact absurd kind inUse.1

/-- Every block of memory and every run that is not free can have a free run after it. -/
theorem Sound.length_le (sound : Sound memory tracking out l) (tight : Tight l) (sound₀ : Sound memory tracking out₀ l₀) :
    l.length ≤ 2 * (out.card + tracking.length) + l₀.length := by
  have starts : ((l.filter fun x => decide (x.status = .free)).map RunState.start).Nodup :=
    (tight.starts_nodup sound.sorted).sublist (List.filter_sublist.map _)
  have fewer := (starts.subperm fun n found => by
    obtain ⟨x, chosen, rfl⟩ := List.mem_map.mp found
    obtain ⟨member, free⟩ := List.mem_filter.mp chosen
    exact sound.free_start tight sound₀ member (of_decide_eq_true free)).length_le
  have split := List.length_eq_length_filter_add (l := l) fun x => decide (x.status = .free)
  have used : (l.filter fun x => !decide (x.status = .free)).length = out.card + tracking.length := by
    rw [used_length sound.inUse, ← sound.allocated, sound.tracked, Multiset.coe_card]
  rw [List.length_append, List.length_map, List.length_map, List.length_map] at fewer
  omega

end Ledger

section Calls

variable {entries : List RunId} {memory : Nat → Prop} {tracking : PageFrameRange}
  {out : Multiset PageFrameRange} {s s₀ : AllocatorInner}

/-- There are descriptors left as long as not too many allocations are outstanding. -/
theorem Canonical.stocked (held : Canonical entries memory tracking out s)
    (start : Represents entries memory tracking 0 s₀) (few : 2 * (out.card + 1) < s₀.tracking.unusedRuns.length) :
    s.tracking.unusedRuns ≠ [] := by
  intro empty
  have runs := held.sound.length_le held.tight start.sound
  have total := (held.perm.trans start.perm.symm).length_eq
  simp only [AllocatorInner.ledger, List.length_map, List.length_append, List.length_singleton, empty,
    List.length_nil] at runs total
  omega

theorem allocate_completes {s : AllocatorInner} (linked : Linked s.arena s.runs s.tracking)
    (sorted : Ledger.Sorted s.ledger) (roomy : Roomy s.arena s.runs) (stock : s.tracking.unusedRuns ≠ []) (count : Nat) :
    ∃ r, s.allocate false count = .ok r := by
  have serves : Serves false s count (∃ run ∈ s.tracking.free, count ≤ (s.arena run).range.size) :=
    (serves_iff linked false sorted roomy).mpr (by simp)
  by_cases available : ∃ run ∈ s.tracking.free, count ≤ (s.arena run).range.size
  · rcases serves.granted available with ⟨range, s', answer⟩ | ⟨_, empty, _⟩
    · exact ⟨_, answer⟩
    · exact absurd empty stock
  · obtain ⟨s', answer⟩ := serves.insufficient.mpr available
    exact ⟨_, answer⟩

theorem deallocate_completes (debug : Bool) {s : AllocatorInner} (linked : Linked s.arena s.runs s.tracking)
    (roomy : Roomy s.arena s.runs) (range : PageFrameRange) : ∃ r, s.deallocate debug range = .ok r := by
  cases outcome : s.deallocate debug range with
  | ok r => exact ⟨r, rfl⟩
  | error e =>
    have fitting := (deallocate_fitting debug linked roomy range).of_error outcome
    exact absurd ((deallocate_ensures debug linked range).of_error outcome) fitting

theorem call_completes {s : AllocatorInner} (linked : Linked s.arena s.runs s.tracking) (sorted : Ledger.Sorted s.ledger)
    (roomy : Roomy s.arena s.runs) (stock : s.tracking.unusedRuns ≠ []) (call : Call) :
    ∃ reply s', s.call false call = .ok (reply, s') := by
  cases call with
  | allocate count =>
    obtain ⟨⟨result, s'⟩, answer⟩ := allocate_completes linked sorted roomy stock count
    simp only [AllocatorInner.call, answer]
    cases result <;> exact ⟨_, _, rfl⟩
  | deallocate range =>
    obtain ⟨⟨result, s'⟩, answer⟩ := deallocate_completes false linked roomy range
    simp only [AllocatorInner.call, answer]
    cases result <;> exact ⟨_, _, rfl⟩

/-- The number of outstanding allocations. -/
def AllocatorInner.inUse (s : AllocatorInner) : Nat := (Ledger.rangesOf .allocated s.ledger).length

theorem Canonical.completes {calls : List Call} (held : Canonical entries memory tracking out s)
    (below : s.ledger.Below (2^64)) (start : Represents entries memory tracking 0 s₀)
    (some : ∀ call ∈ calls, call ≠ .allocate 0)
    (few : Exec.Meets (AllocatorInner.call false) (fun s' _ => 2 * (s'.inUse + 1) < s₀.tracking.unusedRuns.length) s
      calls) : Completes (AllocatorInner.call false) s calls := by
  induction calls generalizing out s with
  | nil => exact ⟨[], s, rfl⟩
  | cons call calls ih =>
    obtain ⟨now, later⟩ := few
    obtain ⟨nonempty, others⟩ := List.forall_mem_cons.mp some
    have count : s.inUse = out.card := by
      rw [← held.sound.allocated, Multiset.coe_card]
      rfl
    rw [count] at now
    have roomy : Roomy s.arena s.runs := fun run member => below (s.arena run) (List.mem_map_of_mem member)
    obtain ⟨reply, s', first⟩ := call_completes held.linked held.sound.sorted roomy (held.stocked start now) call
    have called := (held.call_ensures false call).of_ok first
    rw [completes_cons_of_ok first]
    exact ih (held.called nonempty called) (called.below below) others (later reply s' first)

end Calls

/-- Without debug assertions no call panics, as long as the outstanding allocations and one more are, twice over, fewer
    than the descriptors that the setup has left unused. -/
theorem calls_never_panic {sizeOfRun : Nat} {access : MemoryAccess} {tracking : PageFrameRange}
    {ranges : List PageFrameRange} {s : AllocatorInner} {calls : List Call}
    (fits : ∀ r ∈ tracking :: ranges, r.limit < 2^64) (nonempty : ∀ r ∈ ranges, 0 < r.size)
    (built : initialise false sizeOfRun access tracking ranges = .ok (.ok s)) (some : ∀ call ∈ calls, call ≠ .allocate 0)
    (few : Exec.Meets (AllocatorInner.call false) (fun s' _ => 2 * (s'.inUse + 1) < s.tracking.unusedRuns.length) s
      calls) : Completes (AllocatorInner.call false) s calls :=
  (initialise_canonical nonempty built).completes (initialise_bounded fits built).below (initialise_represents built) some
    few

/-- The last rounds take descriptors that have been merged away. -/
theorem calls_never_panic_rounds :
    ∃ s, initialise false 64 ⟨0⟩ ⟨0, 1⟩ [⟨10, 5⟩] = .ok (.ok s) ∧
      Completes (AllocatorInner.call false) s (cycles 64) := by
  have both : ∃ s, initialise false 64 ⟨0⟩ ⟨0, 1⟩ [⟨10, 5⟩] = .ok (.ok s) ∧
      Exec.Meets (AllocatorInner.call false) (fun s' _ => 2 * (s'.inUse + 1) < s.tracking.unusedRuns.length) s
        (cycles 64) := ⟨_, rfl, by decide +kernel⟩
  obtain ⟨s, built, few⟩ := both
  have some : ∀ call ∈ cycles 64, call ≠ .allocate 0 := by decide +kernel
  exact ⟨s, built, calls_never_panic (by decide) (by decide) built some few⟩

end Platypos.Memory
