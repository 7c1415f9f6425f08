import Platypos.Memory.Initialise

namespace Platypos.Memory

open Outcome Exec

inductive Call where
  | allocate (count : Nat)
  | deallocate (range : PageFrameRange)
  deriving DecidableEq, Repr

inductive Reply where
  | range (range : PageFrameRange)
  | done
  | failed (kind : ErrorKind)
  deriving DecidableEq, Repr

def AllocatorInner.call (debug : Bool) (s : AllocatorInner) : Call → Except Panic (Reply × AllocatorInner)
  | .allocate count => do
    let (result, s') ← s.allocate debug count
    match result with
    | .ok range => return (.range range, s')
    | .error e => return (.failed e, s')
  | .deallocate range => do
    let (result, s') ← s.deallocate debug range
    match result with
    | .ok () => return (.done, s')
    | .error e => return (.failed e, s')

/-- The setup of `Allocator::build`: tracking space first, then every allocatable range. -/
def initialise (debug : Bool) (sizeOfRun : Nat) (access : MemoryAccess) (tracking : PageFrameRange)
    (ranges : List PageFrameRange) : Except Panic (Except ErrorKind AllocatorInner) := do
  let (result, s) ← AllocatorInner.new.initTrackingSpace debug sizeOfRun access tracking
  match result with
  | .error e => return .error e
  | .ok () =>
    let s ← ranges.foldlM (fun s range => s.addAllocatableRange debug range) s
    return .ok s

def record (out : Multiset PageFrameRange) : Call → Reply → Multiset PageFrameRange
  | .allocate _, .range range => range ::ₘ out
  | .deallocate range, .done => out.erase range
  | _, _ => out

def outstanding (calls : List Call) (replies : List Reply) : Multiset PageFrameRange :=
  ghost record 0 calls replies

def Handed (tracking : PageFrameRange) (ranges : List PageFrameRange) (frame : Nat) : Prop :=
  ∃ r ∈ tracking :: ranges, frame ∈ r

instance (tracking : PageFrameRange) (ranges : List PageFrameRange) (frame : Nat) :
    Decidable (Handed tracking ranges frame) := inferInstanceAs (Decidable (∃ r ∈ _, frame ∈ r))

/-- Everything one call can do when it returns. -/
inductive Called (s : AllocatorInner) : Call → Reply → AllocatorInner → Prop where
  | insufficient (count : Nat) (small : ∀ x ∈ s.ledger, x.status = .free → x.range.size < count) :
      Called s (.allocate count) (.failed .insufficientMemory) s
  | allocated (count : Nat) (range : PageFrameRange) (s' : AllocatorInner) (granted : Allocated s count range s') :
      Called s (.allocate count) (.range range) s'
  | rejected (range : PageFrameRange) (e : ErrorKind) (refused : Rejected s range e) :
      Called s (.deallocate range) (.failed e) s
  | deallocated (range : PageFrameRange) (s' : AllocatorInner) (released : Deallocated s range s') :
      Called s (.deallocate range) .done s'

theorem call_ensures (debug : Bool) {s : AllocatorInner} (linked : Linked s.arena s.runs s.tracking)
    (sorted : Ledger.Sorted s.ledger) (call : Call) :
    Ensures (s.call debug call) (fun r => Called s call r.1 r.2) (OutOfRuns debug s) := by
  cases call with
  | allocate count =>
    apply (allocate_ensures debug linked sorted count).bind
    intro r result
    obtain ⟨result', s'⟩ := r
    rcases result with ⟨same, small⟩ | ⟨range, rfl, granted⟩
    · obtain ⟨rfl, rfl⟩ := Prod.mk.inj same
      exact .insufficient count small
    · exact .allocated count range s' granted
  | deallocate range =>
    apply ((deallocate_ensures debug linked range).mono (fun a _ => id) fun e => Or.inl).bind
    intro r result
    obtain ⟨result', s'⟩ := r
    rcases result with ⟨e, same, refused⟩ | ⟨rfl, released⟩
    · obtain ⟨rfl, rfl⟩ := Prod.mk.inj same
      exact .rejected range e refused
    · exact .deallocated range s' released

theorem Called.of_failed {s s' : AllocatorInner} {call : Call} {e : ErrorKind}
    (called : Called s call (.failed e) s') : s' = s := by
  cases called <;> rfl

structure Represents (entries : List RunId) (memory : Nat → Prop) (tracking : PageFrameRange)
    (out : Multiset PageFrameRange) (s : AllocatorInner) : Prop where
  linked : Linked s.arena s.runs s.tracking
  perm : (s.runs ++ s.tracking.unusedRuns).Perm entries
  sound : Ledger.Sound memory [tracking] out s.ledger

section Calls

variable (debug : Bool) {entries : List RunId} {memory : Nat → Prop} {tracking : PageFrameRange}
  {out : Multiset PageFrameRange} {s : AllocatorInner} (held : Represents entries memory tracking out s)

include held

theorem Represents.called {call : Call} {reply : Reply} {s' : AllocatorInner} (called : Called s call reply s') :
    Represents entries memory tracking (record out call reply) s' := by
  cases called with
  | insufficient => exact held
  | allocated count range _ granted =>
    exact ⟨granted.linked, granted.perm.trans held.perm, held.sound.allocates granted.ledger⟩
  | rejected => exact held
  | deallocated range _ released =>
    exact ⟨released.linked, released.perm.trans held.perm, (held.sound.releases released.releases).2⟩

theorem Represents.call_ensures (call : Call) :
    Ensures (s.call debug call) (fun r => Called s call r.1 r.2) (OutOfRuns debug s) :=
  Memory.call_ensures debug held.linked held.sound.sorted call

theorem calls_ensures (calls : List Call) :
    Ensures (exec (AllocatorInner.call debug) s calls)
      (fun r => Represents entries memory tracking (ghost record out calls r.1) r.2)
      (fun e => e = .overflow ∨ e = .noUnusedRun ∨ e = .reinitialized) := by
  apply exec_ensures (fun _ => True) record _ held calls fun _ _ => trivial
  intro out s call held _
  apply (held.call_ensures debug call).mono fun r _ => held.called
  intro e failed
  rcases failed with failed | failed | failed
  · exact .inl failed
  · exact .inr (.inl failed.1)
  · exact .inr (.inr failed.1)

end Calls

end Platypos.Memory
