import Platypos.Memory.Representation

namespace Platypos.Memory

open Outcome Exec Ledger

/-- What the three intrusive lists are meant to hold. -/
structure Invariant (entries : List RunId) (tracking : PageFrameRange) (ranges : List PageFrameRange)
    (s : AllocatorInner) : Prop where
  ordered : s.runs.IsChain fun prev next => (s.arena prev).limit ≤ (s.arena next).start
  covered : ∀ frame, s.runs.countP (fun run => decide (frame ∈ (s.arena run).range)) =
    if Handed tracking ranges frame then 1 else 0
  freeOnce : s.tracking.free.Nodup
  freeRuns : ∀ run, run ∈ s.tracking.free ↔ run ∈ s.runs ∧ (s.arena run).status = .free
  partition : (s.runs ++ s.tracking.unusedRuns).Perm entries
  distinct : entries.Nodup

theorem Represents.invariant {entries : List RunId} {tracking : PageFrameRange} {ranges : List PageFrameRange}
    {out : Multiset PageFrameRange} {s : AllocatorInner}
    (held : Represents entries (Handed tracking ranges) tracking out s) : Invariant entries tracking ranges s where
  ordered := by
    have sorted := held.sound.sorted
    rw [Sorted, Intervals.Ordered, AllocatorInner.ledger, List.pairwise_map] at sorted
    exact sorted.isChain
  covered := by
    intro frame
    have count := held.sound.sorted.countP_covers frame
    have handed := held.sound.covered frame
    simp only [AllocatorInner.ledger, List.countP_map] at count
    simp only [← handed]
    exact count
  freeOnce := held.linked.freeNodup
  freeRuns := held.linked.mem_free
  partition := held.perm
  distinct := held.perm.nodup_iff.mp held.linked.nodup

def Panic.isLink : Panic → Bool
  | .linked => true
  | .freeLinked => true
  | .freeUnlinked => true
  | _ => false

theorem representation_invariant (debug : Bool) (sizeOfRun : Nat) (access : MemoryAccess)
    (tracking : PageFrameRange) (ranges : List PageFrameRange)
    (disjoint : (tracking :: ranges).Pairwise AddressRange.Disjoint) :
    Ensures (initialise debug sizeOfRun access tracking ranges)
      (fun result => ∀ s, result = .ok s → ∀ calls, Ensures (exec (AllocatorInner.call debug) s calls)
        (fun r => Invariant (trackingDescriptors sizeOfRun access tracking) tracking ranges r.2)
        (fun e => e.isLink = false ∧ e ≠ .overlap))
      (fun e => e.isLink = false ∧
        (e = .overlap → ∃ r ∈ ranges, r.size = 0 ∧ ∃ r' ∈ tracking :: ranges, r.start ∈ r')) := by
  apply (initialise_ensures debug sizeOfRun access tracking ranges).mono
  · intro result _ prepared s built calls
    apply (calls_ensures debug (prepared s built).represents calls).mono fun r _ held => held.invariant
    intro e failed
    rcases failed with rfl | rfl | rfl <;> exact ⟨rfl, by decide⟩
  · intro e failed
    rcases failed with rfl | rfl | rfl | ⟨rfl, clash⟩
    · simp [Panic.isLink]
    · simp [Panic.isLink]
    · simp [Panic.isLink]
    · simp only [Spread, disjoint, true_and, not_forall, not_not, exists_prop] at clash
      exact ⟨rfl, fun _ => clash⟩

theorem representation_invariant_reached :
    ∃ s, initialise true 64 ⟨0⟩ ⟨0, 1⟩ [⟨10, 5⟩] = .ok (.ok s) ∧
      Ensures (exec (AllocatorInner.call true) s [.allocate 2, .deallocate ⟨10, 2⟩])
        (fun r => Invariant (trackingDescriptors 64 ⟨0⟩ ⟨0, 1⟩) ⟨0, 1⟩ [⟨10, 5⟩] r.2)
        (fun e => e.isLink = false ∧ e ≠ .overlap) := by
  have disjoint : [(⟨0, 1⟩ : PageFrameRange), ⟨10, 5⟩].Pairwise AddressRange.Disjoint := by
    simp only [List.pairwise_pair, AddressRange.Disjoint, AddressRange.mem_iff]
    omega
  exact ⟨_, rfl, (representation_invariant true 64 ⟨0⟩ ⟨0, 1⟩ [⟨10, 5⟩] disjoint).of_ok rfl _ rfl _⟩

/-- Disjoint ranges on which `add_allocatable_range` does panic: the empty one stands at the start of the other. -/
theorem empty_range_overlap :
    [(⟨0, 1⟩ : PageFrameRange), ⟨10, 0⟩, ⟨10, 5⟩].Pairwise AddressRange.Disjoint ∧
      initialise true 64 ⟨0⟩ ⟨0, 1⟩ [⟨10, 0⟩, ⟨10, 5⟩] = .error .overlap := by
  constructor
  · simp only [List.pairwise_cons, List.mem_cons, List.not_mem_nil, or_false, forall_eq_or_imp, forall_eq,
      AddressRange.Disjoint, AddressRange.mem_iff]
    simp
  · rfl

/-- Every grant is fresh, the books agree with the run list, and a refused call changes nothing. -/
theorem allocations_disjoint {debug : Bool} {sizeOfRun : Nat} {access : MemoryAccess} {tracking : PageFrameRange}
    {ranges : List PageFrameRange} {s s' : AllocatorInner} {calls : List Call} {replies : List Reply}
    (built : initialise debug sizeOfRun access tracking ranges = .ok (.ok s))
    (run : exec (AllocatorInner.call debug) s calls = .ok (replies, s')) :
    (rangesOf .allocated s'.ledger : Multiset PageFrameRange) = outstanding calls replies ∧
      (∀ count range s'', s'.call debug (.allocate count) = .ok (.range range, s'') →
        range.size = count ∧ (∀ frame ∈ range, Handed tracking ranges frame) ∧
        (∀ id ∈ s'.runs, (s'.arena id).status = .tracking → range.Disjoint (s'.arena id).range) ∧
        ∀ r ∈ outstanding calls replies, range.Disjoint r) ∧
      ∀ call e s'', s'.call debug call = .ok (.failed e, s'') → s'' = s' := by
  have start := initialise_represents built
  have held : Represents _ _ _ (outstanding calls replies) s' := (calls_ensures debug start calls).of_ok run
  refine ⟨held.sound.allocated, ?_, ?_⟩
  · intro count range s'' granted
    have called : Called s' (.allocate count) (.range range) s'' := (held.call_ensures debug _).of_ok granted
    cases called with
    | allocated _ _ _ done =>
    obtain ⟨inside, untracked, fresh⟩ := held.sound.allocated_fresh done.ledger
    refine ⟨done.ledger.size, inside, ?_, fresh⟩
    intro id member status
    apply untracked
    rw [← held.sound.tracked, mem_rangesOf]
    exact List.mem_map.mpr ⟨id, member, by rw [← status]⟩
  · intro call e s'' failed
    have called : Called s' call (.failed e) s'' := (held.call_ensures debug call).of_ok failed
    exact called.of_failed

theorem allocations_disjoint_after_release :
    ∃ s s', initialise true 64 ⟨0⟩ ⟨0, 1⟩ [⟨10, 5⟩] = .ok (.ok s) ∧
      exec (AllocatorInner.call true) s [.allocate 2, .allocate 1, .deallocate ⟨10, 2⟩] =
        .ok ([.range ⟨10, 2⟩, .range ⟨12, 1⟩, .done], s') ∧
      (rangesOf .allocated s'.ledger : Multiset PageFrameRange) = {⟨12, 1⟩} := by
  refine ⟨_, _, rfl, rfl, ?_⟩
  have books := (@allocations_disjoint true 64 ⟨0⟩ ⟨0, 1⟩ [⟨10, 5⟩] _ _
    [.allocate 2, .allocate 1, .deallocate ⟨10, 2⟩] [.range ⟨10, 2⟩, .range ⟨12, 1⟩, .done] rfl rfl).1
  exact books.trans (by decide)

end Platypos.Memory
