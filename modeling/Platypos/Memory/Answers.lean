import Platypos.Library.Scan
import Platypos.Memory.FreeBlocks
import Platypos.Memory.Headroom

namespace Platypos.Memory

open Outcome Exec Scan

namespace Ledger

def Below (n : Nat) (l : Ledger) : Prop := ∀ x ∈ l, x.limit < n

theorem settle_below {pre post : Ledger} {x : RunState} {n : Nat} (below : Below n (pre ++ x :: post)) :
    Below n (settle pre x post) := by
  apply settle_preserves (Below n) _ below
  intro l l' step below
  obtain ⟨front, y, z, back, touching, _⟩ := step
  simp only [Below, List.forall_mem_append, List.forall_mem_cons] at below ⊢
  refine ⟨below.1, ?_, below.2.2.2⟩
  rw [join_limit touching]
  exact below.2.2.1

theorem Allocates.below {l l' : Ledger} {count n : Nat} {range : PageFrameRange} (step : Allocates l count range l')
    (below : Below n l) : Below n l' := by
  cases step with
  | whole =>
    simp only [Below, List.forall_mem_append, List.forall_mem_cons] at below ⊢
    exact below
  | split _ _ _ _ smaller =>
    simp only [Below, List.forall_mem_append, List.forall_mem_cons, RunState.limit, AddressRange.limit] at below ⊢
    refine ⟨below.1, ?_, ?_, below.2.2⟩ <;> omega

theorem Releases.below {l l' : Ledger} {n : Nat} {range : PageFrameRange} (step : Releases l range l')
    (below : Below n l) : Below n l' := by
  obtain ⟨pre, range, post⟩ := step
  apply settle_below
  simp only [Below, List.forall_mem_append, List.forall_mem_cons] at below ⊢
  exact below

end Ledger

theorem Called.below {s s' : AllocatorInner} {call : Call} {reply : Reply} {n : Nat} (called : Called s call reply s')
    (below : s.ledger.Below n) : s'.ledger.Below n := by
  cases called with
  | insufficient => exact below
  | allocated _ _ _ granted => exact granted.ledger.below below
  | rejected => exact below
  | deallocated _ _ released => exact released.releases.below below

/-- A represented state whose runs all end within the range of a machine word. -/
structure Bounded (entries : List RunId) (memory : Nat → Prop) (tracking : PageFrameRange)
    (out : Multiset PageFrameRange) (s : AllocatorInner) : Prop
    extends Represents entries memory tracking out s where
  below : s.ledger.Below (2^64)

theorem initialise_bounded {debug : Bool} {sizeOfRun : Nat} {access : MemoryAccess} {tracking : PageFrameRange}
    {ranges : List PageFrameRange} {s : AllocatorInner} (fits : ∀ r ∈ tracking :: ranges, r.limit < 2^64)
    (built : initialise debug sizeOfRun access tracking ranges = .ok (.ok s)) :
    Bounded (trackingDescriptors sizeOfRun access tracking) (Handed tracking ranges) tracking 0 s := by
  refine ⟨initialise_represents built, ?_⟩
  intro x member
  obtain ⟨run, listed, rfl⟩ := List.mem_map.mp member
  exact (initialise_prepared built).roomy fits run listed

section Histories

variable {entries : List RunId} {memory : Nat → Prop} {tracking : PageFrameRange}
  {out : Multiset PageFrameRange} {s s' : AllocatorInner} (held : Bounded entries memory tracking out s)

include held

theorem Bounded.roomy : Roomy s.arena s.runs := by
  intro run member
  exact held.below (s.arena run) (List.mem_map_of_mem member)

theorem Bounded.calls (debug : Bool) {calls : List Call} {replies : List Reply}
    (run : exec (AllocatorInner.call debug) s calls = .ok (replies, s')) :
    Bounded entries memory tracking (ghost record out calls replies) s' := by
  have spec : Ensures (exec (AllocatorInner.call debug) s calls)
      (fun r => Bounded entries memory tracking (ghost record out calls r.1) r.2) (fun _ => True) := by
    apply exec_ensures (fun _ => True) record _ held calls fun _ _ => trivial
    intro out s call kept _
    apply (kept.call_ensures debug call).mono _ fun _ _ => trivial
    intro r _ called
    exact ⟨kept.called called, called.below kept.below⟩
  exact spec.of_ok run

end Histories

theorem setStatus_limit (arena : Arena) (run : RunId) (status : Status) (other : RunId) :
    (setStatus arena run status other).limit = (arena other).limit := by
  by_cases same : other = run
  · subst same
    simp [setStatus, RunState.limit]
  · simp [setStatus, same]

theorem deallocate_fitting (debug : Bool) {s : AllocatorInner} (linked : Linked s.arena s.runs s.tracking)
    (roomy : Roomy s.arena s.runs) (range : PageFrameRange) : Fitting (s.deallocate debug range) := by
  unfold AllocatorInner.deallocate
  simp only [Cursor.get]
  cases place : (Cursor.seek (fun run => decide ((s.arena run).range = range)) s.runs).after with
  | nil => trivial
  | cons run rest =>
    have runs := Cursor.seek_split place
    generalize (Cursor.seek (fun run => decide ((s.arena run).range = range)) s.runs) = cursor at *
    simp only [List.head?_cons]
    split
    · trivial
    · rename_i kind
      have allocated : (s.arena run).status = .allocated := by simpa using kind
      have inside : run ∈ s.runs := by simp [runs]
      have absent : run ∉ s.tracking.free := by
        intro member
        rw [linked.mem_free, allocated] at member
        simp at member
      have position : cursor = ⟨cursor.before, run :: rest⟩ := by rw [← place]
      have whole : cursor.toList = s.runs := by rw [runs, Cursor.toList, place]
      have ready := Linked.setStatus_free linked inside absent
      rw [← whole] at ready
      simp only [check, absent, not_false_eq_true, ite_true, Bind.bind, Except.bind]
      have room : Roomy (setStatus s.arena run .free) cursor.toList := by
        intro other member
        rw [setStatus_limit]
        exact roomy other (whole ▸ member)
      apply (coalesce_fitting debug position ready room).bind (coalesce_ensures debug position ready)
      intro s' _
      trivial

def isReturn (r : PageFrameRange) : Call × Reply → Bool
  | (.allocate _, .range range) => decide (range = r)
  | _ => false

def isRelease (r : PageFrameRange) : Call × Reply → Bool
  | (.deallocate range, .done) => decide (range = r)
  | _ => false

/-- How often the range was returned by a successful `allocate`. -/
def returned (r : PageFrameRange) (calls : List Call) (replies : List Reply) : Nat :=
  (calls.zip replies).countP (isReturn r)

/-- How often the range was accepted by `deallocate`. -/
def released (r : PageFrameRange) (calls : List Call) (replies : List Reply) : Nat :=
  (calls.zip replies).countP (isRelease r)

section Counting

variable {entries : List RunId} {memory : Nat → Prop} {tracking : PageFrameRange}
  {out : Multiset PageFrameRange} {s s' : AllocatorInner} (r : PageFrameRange)

theorem Called.count (held : Represents entries memory tracking out s) {call : Call} {reply : Reply}
    (called : Called s call reply s') :
    (record out call reply).count r + (if isRelease r (call, reply) then 1 else 0) =
      out.count r + (if isReturn r (call, reply) then 1 else 0) := by
  cases called with
  | insufficient => rfl
  | allocated count range _ granted =>
    by_cases same : range = r
    · simp [record, isRelease, isReturn, same]
    · simp [record, isRelease, isReturn, same, Multiset.count_cons_of_ne (Ne.symm same)]
  | rejected => rfl
  | deallocated range _ done =>
    have member := (held.sound.releases done.releases).1
    by_cases same : range = r
    · subst same
      have positive := Multiset.count_pos.mpr member
      simp only [record, isRelease, isReturn, decide_true, ite_true, Multiset.count_erase_self, Bool.false_eq_true,
        ite_false]
      omega
    · simp [record, isRelease, isReturn, same, Multiset.count_erase_of_ne (Ne.symm same)]

end Counting

/-- The run list shows another run with the range before the allocated one. -/
def Shadowed (l : Ledger) (r : PageFrameRange) : Prop :=
  (⟨r, .allocated⟩ : RunState) ∈ l ∧ ∃ x, First (fun x => x.range = r) l x ∧ x.status ≠ .allocated

-- Only empty runs can share their range.
theorem Shadowed.empty {l : Ledger} {r : PageFrameRange} (sorted : Ledger.Sorted l) (shadowed : Shadowed l r) :
    r.size = 0 := by
  obtain ⟨member, x, first, other⟩ := shadowed
  by_contra positive
  have start : r.start ∈ r := by
    rw [AddressRange.mem_iff]
    omega
  have one := sorted.covers_unique first.mem member (n := r.start) (first.holds ▸ start) start
  exact other (congrArg RunState.status one)

end Platypos.Memory
