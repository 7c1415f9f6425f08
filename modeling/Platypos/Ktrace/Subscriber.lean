import Platypos.Ktrace.Worker
import Platypos.Slab.MapView

namespace PlatyposSlab.Idx

def toU64 (idx : Idx) : UInt64 := UInt64.ofNat (idx.generation + idx.index * 2^46)

theorem generation_bound (word : Nat) : word % 2^46 < 2^46 := Nat.mod_lt _ (Nat.two_pow_pos 46)

theorem index_bound (word : UInt64) : word.toNat / 2^46 < 2^18 := by
  have bound := word.toNat_lt
  omega

/-- The fields of a word, the generation in its low bits. -/
def ofU64 (word : UInt64) : Idx :=
  ⟨word.toNat % 2^46, word.toNat / 2^46, generation_bound word.toNat, index_bound word⟩

theorem toNat_toU64 (idx : Idx) : idx.toU64.toNat = idx.generation + idx.index * 2^46 := by
  have generation := idx.generationFits
  have index := idx.indexFits
  rw [toU64, UInt64.toNat_ofNat']
  exact Nat.mod_eq_of_lt (by omega)

theorem ofU64_toU64 (idx : Idx) : ofU64 idx.toU64 = idx := by
  have generation := idx.generationFits
  apply Idx.eq_of_fields
  · simp only [ofU64, toNat_toU64]
    omega
  · simp only [ofU64, toNat_toU64]
    omega

theorem toU64_ofU64 (word : UInt64) : (ofU64 word).toU64 = word := by
  apply UInt64.toNat.inj
  rw [toNat_toU64]
  simp only [ofU64]
  omega

theorem toU64_ne_zero {idx : Idx} (positive : 0 < idx.generation) : idx.toU64 ≠ 0 := by
  intro zero
  have same := congrArg UInt64.toNat zero
  rw [toNat_toU64] at same
  simp only [UInt64.toNat_zero] at same
  omega

end PlatyposSlab.Idx

namespace Platypos.Ktrace

open PlatyposSlab (Idx Client)

def MAX_SPANS : Nat := 128

/-- What keeps a call of the subscriber from returning. -/
inductive Failure where
  | slab (reason : PlatyposSlab.Panic)
  | queue (reason : Panic)
  | zeroId
  | fatalError

/-- The parent that a span or an event was given. -/
inductive Given where
  | root
  | contextual
  | explicit (id : UInt64)
  deriving DecidableEq

/-- A span's attributes or an event, as `tracing` hands them over. -/
structure Attributes where
  parent : Given
  metadata : Metadata Str
  values : ValueSet

def processorId : UInt32 := 0

def Given.toProto : Given → Parent
  | .root => .root
  | .contextual => .current processorId
  | .explicit id => .explicit id

/-- The subscriber with the queue and its worker. The counters of the span states are in `references`, slot by slot,
    and the rest of each state in the slab. -/
structure KTrace (P : Type) where
  spans : Client (Metadata Str) P
  references : Nat → UInt64
  pipeline : Pipeline

namespace KTrace

variable {P : Type}

def new : Except Failure (KTrace P) := do
  let spans ← (Client.new MAX_SPANS).mapError .slab
  return ⟨spans, fun _ => 0, Pipeline.init⟩

/-- The slot that the id names is allocated, at the id's generation. -/
def IsOpen (s : KTrace P) (id : UInt64) : Prop :=
  (Idx.ofU64 id).index < s.spans.slab.size ∧ (s.spans.slab.lifecycle (Idx.ofU64 id).index).state = .allocated ∧
    (s.spans.slab.lifecycle (Idx.ofU64 id).index).generation = (Idx.ofU64 id).generation

instance (s : KTrace P) (id : UInt64) : Decidable (s.IsOpen id) := inferInstanceAs (Decidable (_ ∧ _ ∧ _))

/-- A `try_close` of the id would find that its handle is the last. -/
def Closes (s : KTrace P) (id : UInt64) : Prop := s.IsOpen id ∧ s.references (Idx.ofU64 id).index = 1

instance (s : KTrace P) (id : UInt64) : Decidable (s.Closes id) := inferInstanceAs (Decidable (_ ∧ _))

/-- `push_ref` would succeed. -/
def HasRoom (s : KTrace P) : Prop := s.pipeline.queue.claim.isSome

instance (s : KTrace P) : Decidable s.HasRoom := inferInstanceAs (Decidable (_ = true))

/-- Queues a message if there is room, and says whether it did. -/
def push (s : KTrace P) (msg : SenderMessage) : Except Failure (Option SenderMessage × KTrace P) := do
  let (queued, pipeline) ← (s.pipeline.send msg).mapError .queue
  return (if queued then some msg else none, { s with pipeline := pipeline })

variable [DecidableEq P] (debug : Bool)

def insert (s : KTrace P) (p : P) (metadata : Metadata Str) : Except Failure (Option Idx × KTrace P) := do
  let (reply, spans) ← (s.spans.step debug (.insert p metadata)).mapError .slab
  match reply.answer with
  | .inserted idx =>
    return (some idx, { s with spans := spans, references := Function.update s.references idx.index 1 })
  | _ => return (none, { s with spans := spans })

def get (s : KTrace P) (p : P) (idx : Idx) : Except Failure (Bool × KTrace P) := do
  let (reply, spans) ← (s.spans.step debug (.get p idx)).mapError .slab
  match reply.answer with
  | .got found => return (found, { s with spans := spans })
  | _ => return (false, { s with spans := spans })

/-- The reference that the call has taken is dropped. -/
def dropState (s : KTrace P) (p : P) : Except Failure (KTrace P) := do
  let (_, spans) ← (s.spans.step debug (.drop p 0)).mapError .slab
  return { s with spans := spans }

def remove (s : KTrace P) (p : P) (idx : Idx) : Except Failure (KTrace P) := do
  let (_, spans) ← (s.spans.step debug (.remove p idx)).mapError .slab
  return { s with spans := spans }

def newSpan (s : KTrace P) (p : P) (span : Attributes) :
    Except Failure ((Idx × UInt64) × Option SenderMessage × KTrace P) := do
  match ← s.insert debug p span.metadata with
  | (none, _) => .error .fatalError
  | (some idx, s) =>
    -- `span::Id::from_u64` panics on zero
    if idx.toU64 = 0 then .error .zeroId
    else
      let (sent, s) ← s.push (.spanCreated ⟨idx.toU64, span.parent.toProto, span.metadata, span.values⟩)
      return ((idx, idx.toU64), sent, s)

def cloneSpan (s : KTrace P) (p : P) (id : UInt64) : Except Failure (UInt64 × KTrace P) := do
  let idx := Idx.ofU64 id
  match ← s.get debug p idx with
  | (false, s) => return (id, s)
  | (true, s) =>
    let s := { s with references := Function.update s.references idx.index (s.references idx.index + 1) }
    let s ← s.dropState debug p
    return (id, s)

def tryClose (s : KTrace P) (p : P) (id : UInt64) : Except Failure (Bool × KTrace P) := do
  let idx := Idx.ofU64 id
  match ← s.get debug p idx with
  | (false, s) => return (false, s)
  | (true, s) =>
    let references := s.references idx.index
    let s := { s with references := Function.update s.references idx.index (references - 1) }
    let s ← s.dropState debug p
    if references = 1 then
      let s ← s.remove debug p idx
      return (true, s)
    else return (false, s)

end KTrace

inductive Call (P : Type) where
  | newSpan (p : P) (span : Attributes)
  | cloneSpan (p : P) (id : UInt64)
  | tryClose (p : P) (id : UInt64)
  | enter (p : P) (id : UInt64)
  | exit (p : P) (id : UInt64)
  | event (p : P) (event : Attributes)
  | work

inductive Answer where
  | created (idx : Idx) (id : UInt64)
  | cloned (id : UInt64)
  | closed (last : Bool)
  | done

/-- What a call returned, and the message that it queued. -/
structure Reply where
  answer : Answer
  sent : Option SenderMessage

namespace KTrace

variable {P : Type} [DecidableEq P] (debug : Bool)

def report (s : KTrace P) (msg : SenderMessage) : Except Failure (Reply × KTrace P) := do
  let (sent, s) ← s.push msg
  return (⟨.done, sent⟩, s)

def step (s : KTrace P) : Call P → Except Failure (Reply × KTrace P)
  | .newSpan p span => do
    let ((idx, id), sent, s) ← s.newSpan debug p span
    return (⟨.created idx id, sent⟩, s)
  | .cloneSpan p id => do
    let (id, s) ← s.cloneSpan debug p id
    return (⟨.cloned id, none⟩, s)
  | .tryClose p id => do
    let (last, s) ← s.tryClose debug p id
    return (⟨.closed last, none⟩, s)
  | .enter _ id => s.report (.spanEntered id processorId)
  | .exit _ id => s.report (.spanExited id processorId)
  | .event _ event => s.report (.event ⟨event.parent.toProto, event.metadata, event.values⟩)
  | .work => return (⟨.done, none⟩, { s with pipeline := s.pipeline.work })

end KTrace

/-- The messages queued by the calls, oldest first. -/
def stream (replies : List Reply) : List SenderMessage := replies.filterMap Reply.sent

/-- The ids that `new_span` returned, oldest first. -/
def created (replies : List Reply) : List UInt64 :=
  replies.filterMap fun reply => match reply.answer with
    | .created _ id => some id
    | _ => none

end Platypos.Ktrace
