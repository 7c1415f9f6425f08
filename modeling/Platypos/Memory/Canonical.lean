import Platypos.Memory.Representation

namespace Platypos.Memory

open Outcome Exec Intervals

namespace Ledger

/-- A ledger in normal form: no empty run, and nothing left to merge. -/
structure Tight (l : Ledger) : Prop where
  positive : ∀ x ∈ l, 0 < x.range.size
  maximal : Maximal l

/-- Who holds a run: an allocated run belongs to its own allocation, other runs only to their kind. -/
def owner (x : RunState) : Status × Option PageFrameRange :=
  (x.status, if x.status = .allocated then some x.range else none)

theorem Tight.normal {l : Ledger} (tight : Tight l) (sorted : Sorted l) :
    Normal RunState.start RunState.limit owner l := by
  refine ⟨sorted, ?_, ?_⟩
  · intro x member
    have positive := tight.positive x member
    simp only [RunState.start, RunState.limit, AddressRange.limit]
    omega
  · have apart := tight.maximal
    rw [Maximal, List.isChain_iff_getElem] at apart
    rw [List.isChain_iff_getElem]
    intro i inside touching same
    have status : (l[i]).status = (l[i + 1]).status := congrArg Prod.fst same
    rcases apart i inside with kind | apart
    · have ranges := congrArg Prod.snd same
      simp only [owner, ← status, kind, if_true, Option.some.injEq] at ranges
      have positive := tight.positive l[i] (List.getElem_mem _)
      simp only [RunState.start, RunState.limit, AddressRange.limit, ← ranges] at touching
      omega
    · exact apart ⟨status.symm, touching.symm⟩

theorem Tight.allocates {l l' : Ledger} {count : Nat} {range : PageFrameRange} (tight : Tight l)
    (step : Allocates l count range l') (some : 0 < count) : Tight l' := by
  cases step with
  | whole pre _ post =>
    have parts := maximal_append_cons.mp tight.maximal
    refine ⟨?_, maximal_allocated rfl parts.1 parts.2.1⟩
    have positive := tight.positive
    simp only [List.forall_mem_append, List.forall_mem_cons] at positive ⊢
    exact positive
  | split pre range _ post smaller =>
    have parts := maximal_append_cons.mp tight.maximal
    constructor
    · have positive := tight.positive
      simp only [List.forall_mem_append, List.forall_mem_cons] at positive ⊢
      exact ⟨positive.1, some, by omega, positive.2.2⟩
    · apply maximal_allocated rfl parts.1
      rw [Maximal, List.isChain_cons]
      refine ⟨?_, parts.2.1⟩
      intro y first
      right
      intro touching
      have apart := (parts.2.2.2 y first).resolve_left (by simp)
      refine apart ⟨touching.1, touching.2.trans ?_⟩
      simp only [RunState.limit, AddressRange.limit]
      omega

theorem settle_tight {pre post : Ledger} {x : RunState} (kind : x.status ≠ .allocated)
    (positive : ∀ y ∈ pre ++ x :: post, 0 < y.range.size) (left : Maximal pre) (right : Maximal post) :
    Tight (settle pre x post) :=
  ⟨settle_preserves (fun l => ∀ y ∈ l, 0 < y.range.size) (fun _ _ step => step.positive) positive,
    settle_maximal kind left right⟩

theorem Tight.releases {l l' : Ledger} {range : PageFrameRange} (tight : Tight l)
    (step : Releases l range l') : Tight l' := by
  obtain ⟨pre, range, post⟩ := step
  have parts := maximal_append_cons.mp tight.maximal
  apply settle_tight (by simp) _ parts.1 parts.2.1
  have positive := tight.positive
  simp only [List.forall_mem_append, List.forall_mem_cons] at positive ⊢
  exact positive

theorem Tight.receives {l l' : Ledger} {x : RunState} (tight : Tight l) (step : Receives l x l')
    (kind : x.status ≠ .allocated) (some : 0 < x.range.size) : Tight l' := by
  obtain ⟨pre, x, post, _, _⟩ := step
  have parts := List.isChain_append.mp tight.maximal
  apply settle_tight kind _ parts.1 parts.2.1
  have positive := tight.positive
  simp only [List.forall_mem_append, List.forall_mem_cons] at positive ⊢
  exact ⟨positive.1, some, positive.2⟩

section Books

variable {memory : Nat → Prop} {tracking : List PageFrameRange} {out out' : Multiset PageFrameRange}
  {l l' : Ledger}

theorem Sound.free_agrees (left : Sound memory tracking out l) (right : Sound memory tracking out' l')
    (same : ∀ r, r ∈ out ↔ r ∈ out') {x y : RunState} {n : Nat} (member : x ∈ l) (kind : x.status = .free)
    (inside : n ∈ x.range) (member' : y ∈ l') (inside' : n ∈ y.range) : y.status = .free := by
  have clash : ∀ status, status ≠ .free → (⟨y.range, status⟩ : RunState) ∉ l := by
    intro status differ found
    have one := left.sorted.covers_unique member found inside inside'
    rw [one] at kind
    exact differ kind
  obtain ⟨range, status⟩ := y
  cases status with
  | free => rfl
  | allocated => exact absurd (left.mem_out.mp ((same range).mpr (right.mem_out.mpr member'))) (clash _ (by simp))
  | tracking =>
    have tracked : range ∈ rangesOf .tracking l := by
      rw [left.tracked, ← right.tracked, mem_rangesOf]
      exact member'
    exact absurd (mem_rangesOf.mp tracked) (clash _ (by simp))
  | unused => exact absurd rfl (right.inUse _ member')

theorem Sound.labels_of_same (left : Sound memory tracking out l) (right : Sound memory tracking out' l')
    (same : ∀ r, r ∈ out ↔ r ∈ out') {n : Nat} {o : Status × Option PageFrameRange}
    (labelled : Labels RunState.start RunState.limit owner l n o) :
    Labels RunState.start RunState.limit owner l' n o := by
  obtain ⟨⟨range, status⟩, member, inside, rfl⟩ := labelled
  cases status with
  | free =>
    obtain ⟨y, member', inside'⟩ := (right.covered n).mpr ((left.covered n).mp ⟨_, member, inside⟩)
    have kind := left.free_agrees right same member rfl inside member' inside'
    exact ⟨y, member', inside', by simp [owner, kind]⟩
  | allocated =>
    exact ⟨_, right.mem_out.mp ((same range).mp (left.mem_out.mpr member)), inside, rfl⟩
  | tracking =>
    have tracked : range ∈ rangesOf .tracking l' := by
      rw [right.tracked, ← left.tracked, mem_rangesOf]
      exact member
    exact ⟨_, mem_rangesOf.mp tracked, inside, rfl⟩
  | unused => exact absurd rfl (left.inUse _ member)

/-- In normal form the ledger is determined by the memory, the tracking pages and the set of outstanding
    allocations. -/
theorem Sound.unique (left : Sound memory tracking out l) (right : Sound memory tracking out' l')
    (tight : Tight l) (tight' : Tight l') (same : ∀ r, r ∈ out ↔ r ∈ out') : l = l' := by
  have views := (tight.normal left.sorted).unique (tight'.normal right.sorted) fun n o =>
    ⟨left.labels_of_same right same, right.labels_of_same left fun r => (same r).symm⟩
  have injective : Function.Injective fun x : RunState => (x.start, x.limit, owner x) := by
    intro x y agree
    simp only [Prod.mk.injEq, RunState.start, RunState.limit, AddressRange.limit, owner] at agree
    obtain ⟨⟨start, size⟩, status⟩ := x
    obtain ⟨⟨start', size'⟩, status'⟩ := y
    obtain ⟨rfl, limits, rfl, _⟩ := agree
    have sizes : size = size' := by
      simp only at limits
      omega
    rw [sizes]
  exact injective.list_map views

theorem Sound.first_unallocated (sound : Sound memory tracking out l) (tight : Tight l) {x : RunState}
    (member : x ∈ l) (unallocated : x.status ≠ .allocated) : x.range ∉ out := by
  intro outstanding
  have found := sound.mem_out.mp outstanding
  have positive := tight.positive x member
  have inside : x.start ∈ x.range := by
    rw [AddressRange.mem_iff]
    simp only [RunState.start]
    omega
  have one := sound.sorted.covers_unique member found inside inside
  rw [one] at unallocated
  exact unallocated rfl

end Books

end Ledger

structure Canonical (entries : List RunId) (memory : Nat → Prop) (tracking : PageFrameRange)
    (out : Multiset PageFrameRange) (s : AllocatorInner) : Prop
    extends Represents entries memory tracking out s where
  tight : s.ledger.Tight

def SameRuns (s s' : AllocatorInner) : Prop :=
  s.ledger = s'.ledger ∧ s.tracking.unusedRuns.length = s'.tracking.unusedRuns.length

section Histories

variable {entries : List RunId} {memory : Nat → Prop} {tracking : PageFrameRange}
  {out out' : Multiset PageFrameRange} {s s' : AllocatorInner}

theorem Canonical.sameRuns (left : Canonical entries memory tracking out s)
    (right : Canonical entries memory tracking out' s') (same : ∀ r, r ∈ out ↔ r ∈ out') : SameRuns s s' := by
  have ledgers := left.sound.unique right.sound left.tight right.tight same
  refine ⟨ledgers, ?_⟩
  have runs := congrArg List.length ledgers
  have descriptors := (left.perm.trans right.perm.symm).length_eq
  simp only [AllocatorInner.ledger, List.length_map, List.length_append] at runs descriptors
  omega

theorem Canonical.called (held : Canonical entries memory tracking out s) {call : Call} {reply : Reply}
    (some : call ≠ .allocate 0) (called : Called s call reply s') :
    Canonical entries memory tracking (record out call reply) s' := by
  refine ⟨held.toRepresents.called called, ?_⟩
  cases called with
  | insufficient => exact held.tight
  | allocated count range _ granted =>
    apply held.tight.allocates granted.ledger
    apply Nat.pos_of_ne_zero
    intro zero
    exact some (congrArg Call.allocate zero)
  | rejected => exact held.tight
  | deallocated range _ released => exact held.tight.releases released.releases

theorem Canonical.rejected (held : Canonical entries memory tracking out s) {range : PageFrameRange}
    {e : ErrorKind} (refused : Rejected s range e) : range ∉ out := by
  rcases refused with ⟨_, unknown⟩ | ⟨_, pre, x, post, split, _, rfl, unallocated⟩
  · intro outstanding
    exact unknown _ (held.sound.mem_out.mp outstanding) rfl
  · exact held.sound.first_unallocated held.tight (by simp [split]) unallocated

theorem Canonical.deallocated (held : Canonical entries memory tracking out s) {range : PageFrameRange}
    {reply : Reply} (called : Called s (.deallocate range) reply s') :
    record out (.deallocate range) reply = out.erase range := by
  cases called with
  | deallocated => rfl
  | rejected _ e refused => exact (Multiset.erase_of_notMem (held.rejected refused)).symm

theorem Canonical.calls (debug : Bool) (held : Canonical entries memory tracking out s) {calls : List Call}
    {replies : List Reply} (some : ∀ call ∈ calls, call ≠ .allocate 0)
    (run : exec (AllocatorInner.call debug) s calls = .ok (replies, s')) :
    Canonical entries memory tracking (ghost record out calls replies) s' := by
  have spec : Ensures (exec (AllocatorInner.call debug) s calls)
      (fun r => Canonical entries memory tracking (ghost record out calls r.1) r.2) (fun _ => True) := by
    apply exec_ensures (· ≠ .allocate 0) record _ held calls some
    intro out s call held some
    apply (held.call_ensures debug call).mono (fun r _ => held.called some)
    exact fun _ _ => trivial
  exact spec.of_ok run

theorem Canonical.releases (debug : Bool) (held : Canonical entries memory tracking out s)
    {ranges : List PageFrameRange} {replies : List Reply}
    (run : exec (AllocatorInner.call debug) s (ranges.map .deallocate) = .ok (replies, s')) :
    Canonical entries memory tracking (out - ranges) s' := by
  induction ranges generalizing out s replies with
  | nil =>
    cases run
    simpa using held
  | cons range ranges ih =>
    obtain ⟨reply, s₁, rest, first, later, _⟩ := exec_cons_ok run
    have called : Called s (.deallocate range) reply s₁ := (held.call_ensures debug _).of_ok first
    have next := held.called (by simp) called
    rw [held.deallocated called] at next
    rw [← Multiset.cons_coe, Multiset.sub_cons]
    exact ih next later

theorem Canonical.undone (debug : Bool) (held : Canonical entries memory tracking out s) {count : Nat}
    {range : PageFrameRange} {reply : Reply} (some : count ≠ 0)
    (run : exec (AllocatorInner.call debug) s [.allocate count, .deallocate range] = .ok ([.range range, reply], s')) :
    reply = .done ∧ SameRuns s' s := by
  obtain ⟨reply₁, s₁, replies, first, later, same⟩ := exec_cons_ok run
  obtain ⟨reply₂, s₂, none, second, stop, rfl⟩ := exec_cons_ok later
  cases stop
  cases same
  have granted : Called s (.allocate count) (.range range) s₁ := (held.call_ensures debug _).of_ok first
  have mid := held.called (by simpa using some) granted
  have released : Called s₁ (.deallocate range) reply s' := (mid.call_ensures debug _).of_ok second
  have final := mid.called (by simp) released
  cases released with
  | deallocated =>
    refine ⟨rfl, final.sameRuns held ?_⟩
    simp [record]
  | rejected _ e refused => exact absurd (by simp [record]) (mid.rejected refused)

end Histories

theorem initialise_canonical {debug : Bool} {sizeOfRun : Nat} {access : MemoryAccess} {tracking : PageFrameRange}
    {ranges : List PageFrameRange} {s : AllocatorInner} (nonempty : ∀ r ∈ ranges, 0 < r.size)
    (built : initialise debug sizeOfRun access tracking ranges = .ok (.ok s)) :
    Canonical (trackingDescriptors sizeOfRun access tracking) (Handed tracking ranges) tracking 0 s := by
  refine ⟨initialise_represents built, ?_⟩
  apply initialise_property (fun handed s => (∀ r ∈ handed, 0 < r.size) → s.ledger.Tight) _ _ built nonempty
  · intro handed range s s' _ tight received nonempty
    rw [List.forall_mem_append] at nonempty
    exact (tight nonempty.1).receives received.ledger (by simp) (nonempty.2 range (by simp))
  · intro s tracked _
    rw [tracked.ledger]
    exact ⟨by simpa using tracked.positive, List.isChain_singleton _⟩

def History (debug : Bool) (s : AllocatorInner) (calls : List Call) (replies : List Reply) (s' : AllocatorInner) :
    Prop :=
  exec (AllocatorInner.call debug) s calls = .ok (replies, s') ∧ ∀ call ∈ calls, call ≠ .allocate 0

/-- The run list is a function of what is allocated. In particular ranges may be freed in any order, an
    allocation is undone by freeing it, and freeing everything restores the initial list. -/
theorem run_list_canonical {debug : Bool} {sizeOfRun : Nat} {access : MemoryAccess} {tracking : PageFrameRange}
    {ranges : List PageFrameRange} {s : AllocatorInner} (nonempty : ∀ r ∈ ranges, 0 < r.size)
    (built : initialise debug sizeOfRun access tracking ranges = .ok (.ok s)) :
    (∀ calls replies s₁ calls' replies' s₂, History debug s calls replies s₁ → History debug s calls' replies' s₂ →
      (∀ r, r ∈ outstanding calls replies ↔ r ∈ outstanding calls' replies') → SameRuns s₁ s₂) ∧
    (∀ calls replies s₁ (freed freed' : List PageFrameRange) r₁ r₂ s₂ s₃, History debug s calls replies s₁ → freed.Perm freed' →
      exec (AllocatorInner.call debug) s₁ (freed.map .deallocate) = .ok (r₁, s₂) →
      exec (AllocatorInner.call debug) s₁ (freed'.map .deallocate) = .ok (r₂, s₃) → SameRuns s₂ s₃) ∧
    (∀ calls replies s₁ count range reply s₂, History debug s calls replies s₁ → count ≠ 0 →
      exec (AllocatorInner.call debug) s₁ [.allocate count, .deallocate range] = .ok ([.range range, reply], s₂) →
      reply = .done ∧ SameRuns s₂ s₁) ∧
    ∀ calls replies s₁, History debug s calls replies s₁ → outstanding calls replies = 0 → SameRuns s₁ s := by
  have start := initialise_canonical nonempty built
  have reached : ∀ {calls replies s₁}, History debug s calls replies s₁ →
      Canonical _ _ _ (outstanding calls replies) s₁ := fun history => start.calls debug history.2 history.1
  refine ⟨?_, ?_, ?_, ?_⟩
  · intro calls replies s₁ calls' replies' s₂ left right same
    exact (reached left).sameRuns (reached right) same
  · intro calls replies s₁ freed freed' r₁ r₂ s₂ s₃ history perm left right
    apply ((reached history).releases debug left).sameRuns ((reached history).releases debug right)
    rw [Multiset.coe_eq_coe.mpr perm]
    exact fun _ => Iff.rfl
  · intro calls replies s₁ count range reply s₂ history some run
    exact (reached history).undone debug some run
  · intro calls replies s₁ history none
    rw [← none] at start
    exact (reached history).sameRuns start fun _ => Iff.rfl

theorem run_list_canonical_two_orders :
    ∃ s s₁ s₂, initialise true 64 ⟨0⟩ ⟨0, 1⟩ [⟨10, 5⟩] = .ok (.ok s) ∧
      exec (AllocatorInner.call true) s [.allocate 2, .allocate 1, .deallocate ⟨10, 2⟩, .deallocate ⟨12, 1⟩] =
        .ok ([.range ⟨10, 2⟩, .range ⟨12, 1⟩, .done, .done], s₁) ∧
      exec (AllocatorInner.call true) s [.allocate 2, .allocate 1, .deallocate ⟨12, 1⟩, .deallocate ⟨10, 2⟩] =
        .ok ([.range ⟨10, 2⟩, .range ⟨12, 1⟩, .done, .done], s₂) ∧
      SameRuns s₁ s₂ ∧ SameRuns s₂ s := by
  refine ⟨_, _, _, rfl, rfl, rfl, ?_⟩
  have spec := @run_list_canonical true 64 ⟨0⟩ ⟨0, 1⟩ [⟨10, 5⟩] _ (by simp) rfl
  constructor
  · apply spec.1 [.allocate 2, .allocate 1, .deallocate ⟨10, 2⟩, .deallocate ⟨12, 1⟩]
      [.range ⟨10, 2⟩, .range ⟨12, 1⟩, .done, .done] _
      [.allocate 2, .allocate 1, .deallocate ⟨12, 1⟩, .deallocate ⟨10, 2⟩]
      [.range ⟨10, 2⟩, .range ⟨12, 1⟩, .done, .done] _ ⟨rfl, by decide⟩ ⟨rfl, by decide⟩
    intro r
    rfl
  · exact spec.2.2.2 [.allocate 2, .allocate 1, .deallocate ⟨12, 1⟩, .deallocate ⟨10, 2⟩]
      [.range ⟨10, 2⟩, .range ⟨12, 1⟩, .done, .done] _ ⟨rfl, by decide⟩ (by decide)

end Platypos.Memory
