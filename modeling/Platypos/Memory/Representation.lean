import Platypos.Memory.History

namespace Platypos.Memory

open Outcome Exec

theorem Ledger.Sound.congr {memory memory' : Nat → Prop} {tracking : List PageFrameRange}
    {out : Multiset PageFrameRange} {l : Ledger} (sound : Sound memory tracking out l)
    (same : ∀ frame, memory frame ↔ memory' frame) : Sound memory' tracking out l :=
  ⟨sound.sorted, fun frame => (sound.covered frame).trans (same frame), sound.allocated, sound.tracked,
    sound.inUse⟩

/-- Ranges that share no frame, and no empty range at a frame of another one. -/
def Spread (tracking : PageFrameRange) (ranges : List PageFrameRange) : Prop :=
  (tracking :: ranges).Pairwise AddressRange.Disjoint ∧
    ∀ r ∈ ranges, r.size = 0 → ∀ r' ∈ tracking :: ranges, r.start ∉ r'

structure Prepared (entries : List RunId) (tracking : PageFrameRange) (handed : List PageFrameRange)
    (s : AllocatorInner) : Prop where
  represents : Represents entries (Handed tracking handed) tracking 0 s
  empties : ∀ x ∈ s.ledger, x.range.size = 0 → ∃ r ∈ handed, r.size = 0 ∧ r.start = x.start

theorem Prepared.meets {entries : List RunId} {tracking range : PageFrameRange}
    {handed rest : List PageFrameRange} {s : AllocatorInner} (prepared : Prepared entries tracking handed s)
    {x : RunState} (member : x ∈ s.ledger) (meets : Meets range x) :
    ¬ Spread tracking (handed ++ range :: rest) := by
  intro spread
  obtain ⟨disjoint, empties⟩ := spread
  have apart : ∀ frame, Handed tracking handed frame → frame ∉ range := by
    intro frame found inside
    obtain ⟨r, earlier, covered⟩ := found
    rw [← List.cons_append, List.pairwise_append] at disjoint
    exact disjoint.2.2 r earlier range (by simp) frame covered inside
  have covered : ∀ frame, frame ∈ x.range → Handed tracking handed frame :=
    fun frame inside => prepared.represents.sound.inside member inside
  rcases meets with ⟨after, before⟩ | ⟨after, before⟩
  · have inside : x.start ∈ range := ⟨after, before⟩
    by_cases empty : x.range.size = 0
    · obtain ⟨r, earlier, zero, same⟩ := prepared.empties x member empty
      exact empties r (by simp [earlier]) zero range (by simp) (same ▸ inside)
    · have first : x.start ∈ x.range := by
        rw [AddressRange.mem_iff]
        simp only [RunState.start]
        omega
      exact apart _ (covered _ first) inside
  · have inside : range.start ∈ x.range := ⟨le_of_lt after, before⟩
    have found := covered _ inside
    by_cases empty : range.size = 0
    · obtain ⟨r, earlier, holds⟩ := found
      refine empties range (by simp) empty r ?_ holds
      rw [← List.cons_append]
      exact List.mem_append_left _ earlier
    · have first : range.start ∈ range := by
        rw [AddressRange.mem_iff]
        omega
      exact apart _ found first

theorem Prepared.received {entries : List RunId} {tracking range : PageFrameRange}
    {handed : List PageFrameRange} {s s' : AllocatorInner} (prepared : Prepared entries tracking handed s)
    (received : Received s ⟨range, .free⟩ s') : Prepared entries tracking (handed ++ [range]) s' := by
  have held := prepared.represents
  refine ⟨⟨received.linked, received.perm.trans held.perm, ?_⟩, ?_⟩
  · apply (held.sound.receives received.ledger rfl).congr
    intro frame
    simp only [Handed, List.mem_cons, List.mem_append, List.not_mem_nil, or_false, or_and_right, exists_or,
      exists_eq_left, or_assoc]
  · have before := prepared.empties
    have step := received.ledger
    generalize s.ledger = l at before step
    generalize s'.ledger = l' at step
    obtain ⟨pre, _, post, _, _⟩ := step
    apply Ledger.settle_preserves
      (fun l => ∀ x ∈ l, x.range.size = 0 → ∃ r ∈ handed ++ [range], r.size = 0 ∧ r.start = x.start)
    · intro l l' join earlier x member empty
      obtain ⟨front, y, z, back, _, _⟩ := join
      simp only [List.mem_append, List.mem_cons] at member
      rcases member with member | rfl | member
      · exact earlier x (by simp [member]) empty
      · simp only [Ledger.join] at empty
        exact earlier y (by simp) (by omega)
      · exact earlier x (by simp [member]) empty
    · intro x member empty
      simp only [List.mem_append, List.mem_cons] at member
      rcases member with member | rfl | member
      · obtain ⟨r, earlier, zero⟩ := before x (by simp [member]) empty
        exact ⟨r, by simp [earlier], zero⟩
      · exact ⟨range, by simp, empty, rfl⟩
      · obtain ⟨r, earlier, zero⟩ := before x (by simp [member]) empty
        exact ⟨r, by simp [earlier], zero⟩

theorem Tracked.prepared {sizeOfRun : Nat} {access : MemoryAccess} {tracking : PageFrameRange}
    {s : AllocatorInner} (tracked : Tracked sizeOfRun access tracking s) :
    Prepared (trackingDescriptors sizeOfRun access tracking) tracking [] s := by
  refine ⟨⟨tracked.linked, tracked.perm, ?_⟩, ?_⟩
  · rw [tracked.ledger]
    refine ⟨List.pairwise_singleton _ _, ?_, ?_, ?_, ?_⟩
    · simp [Handed]
    · simp [Ledger.rangesOf]
    · simp [Ledger.rangesOf]
    · simp
  · intro x member empty
    rw [tracked.ledger, List.mem_singleton] at member
    subst member
    exact absurd empty (Nat.ne_of_gt tracked.positive)

section Initialisation

variable {sizeOfRun : Nat} {access : MemoryAccess} {tracking : PageFrameRange}
  (property : List PageFrameRange → AllocatorInner → Prop)
  (kept : ∀ handed range s s', Prepared (trackingDescriptors sizeOfRun access tracking) tracking handed s →
    property handed s → Received s ⟨range, .free⟩ s' → property (handed ++ [range]) s')

include kept

theorem addRanges_ensures (debug : Bool) (ranges : List PageFrameRange) {handed : List PageFrameRange}
    {s : AllocatorInner} (prepared : Prepared (trackingDescriptors sizeOfRun access tracking) tracking handed s)
    (held : property handed s) :
    Ensures (ranges.foldlM (fun s range => s.addAllocatableRange debug range) s)
      (fun s' => Prepared (trackingDescriptors sizeOfRun access tracking) tracking (handed ++ ranges) s' ∧
        property (handed ++ ranges) s')
      (fun e => e = .overflow ∨ e = .noUnusedRun ∨ e = .overlap ∧ ¬ Spread tracking (handed ++ ranges)) := by
  induction ranges generalizing handed s with
  | nil => simpa using ⟨prepared, held⟩
  | cons range rest ih =>
    have books := prepared.represents
    rw [List.foldlM_cons]
    apply ((addAllocatableRange_ensures debug books.linked books.sound.sorted range).mono (fun a _ => id) ?_).bind
    · intro s' received
      have next := ih (prepared.received received) (kept handed range s s' prepared held received)
      simpa using next
    · intro e failed
      rcases failed with failed | failed | ⟨failed, x, member, meets⟩
      · exact .inl failed
      · exact .inr (.inl failed)
      · exact .inr (.inr ⟨failed, prepared.meets member meets⟩)

/-- The rule for initialisation: what holds of the tracking space alone and survives every added range. -/
theorem initialise_rule (start : ∀ s, Tracked sizeOfRun access tracking s → property [] s) (debug : Bool)
    (ranges : List PageFrameRange) :
    Ensures (initialise debug sizeOfRun access tracking ranges)
      (fun r => ∀ s, r = .ok s → Prepared (trackingDescriptors sizeOfRun access tracking) tracking ranges s ∧
        property ranges s)
      (fun e => e = .overflow ∨ e = .unwrapNone ∨ e = .noUnusedRun ∨ e = .overlap ∧ ¬ Spread tracking ranges) := by
  unfold initialise
  apply ((initTrackingSpace_ensures debug sizeOfRun access tracking).mono (fun a _ => id) ?_).bind
  · intro r result
    obtain ⟨result', s⟩ := r
    rcases result with ⟨e, same⟩ | ⟨rfl, tracked⟩
    · obtain ⟨rfl, rfl⟩ := Prod.mk.inj same
      intro s impossible
      cases impossible
    · apply ((addRanges_ensures property kept debug ranges tracked.prepared (start s tracked)).mono
        (fun a _ => id) ?_).bind
      · intro s' prepared s'' same
        cases same
        exact prepared
      · intro e failed
        rcases failed with failed | failed | failed
        · exact .inl failed
        · exact .inr (.inr (.inl failed))
        · exact .inr (.inr (.inr failed))
  · intro e failed
    rcases failed with failed | failed
    · exact .inl failed
    · exact .inr (.inl failed)

theorem initialise_property (start : ∀ s, Tracked sizeOfRun access tracking s → property [] s) {debug : Bool}
    {ranges : List PageFrameRange} {s : AllocatorInner}
    (built : initialise debug sizeOfRun access tracking ranges = .ok (.ok s)) : property ranges s :=
  ((initialise_rule property kept start debug ranges).of_ok built s rfl).2

end Initialisation

theorem initialise_ensures (debug : Bool) (sizeOfRun : Nat) (access : MemoryAccess) (tracking : PageFrameRange)
    (ranges : List PageFrameRange) :
    Ensures (initialise debug sizeOfRun access tracking ranges)
      (fun r => ∀ s, r = .ok s → Prepared (trackingDescriptors sizeOfRun access tracking) tracking ranges s)
      (fun e => e = .overflow ∨ e = .unwrapNone ∨ e = .noUnusedRun ∨ e = .overlap ∧ ¬ Spread tracking ranges) := by
  apply (initialise_rule (fun _ _ => True) (fun _ _ _ _ _ _ _ => trivial) (fun _ _ => trivial) debug ranges).imp
  intro r prepared s same
  exact (prepared s same).1

theorem initialise_prepared {debug : Bool} {sizeOfRun : Nat} {access : MemoryAccess} {tracking : PageFrameRange}
    {ranges : List PageFrameRange} {s : AllocatorInner}
    (built : initialise debug sizeOfRun access tracking ranges = .ok (.ok s)) :
    Prepared (trackingDescriptors sizeOfRun access tracking) tracking ranges s :=
  (initialise_ensures debug sizeOfRun access tracking ranges).of_ok built s rfl

theorem initialise_represents {debug : Bool} {sizeOfRun : Nat} {access : MemoryAccess} {tracking : PageFrameRange}
    {ranges : List PageFrameRange} {s : AllocatorInner}
    (built : initialise debug sizeOfRun access tracking ranges = .ok (.ok s)) :
    Represents (trackingDescriptors sizeOfRun access tracking) (Handed tracking ranges) tracking 0 s :=
  (initialise_prepared built).represents

end Platypos.Memory
