import Platypos.Library.Exec
import Platypos.Ktrace.Proto

namespace Platypos.Ktrace

structure HVec (capacity : Nat) where
  data : List UInt8
  fits : data.length ≤ capacity

namespace HVec

variable {capacity : Nat}

def new : HVec capacity := ⟨[], Nat.zero_le capacity⟩

def extendFromSlice (vec : HVec capacity) (bytes : List UInt8) : Except PostcardError (HVec capacity) :=
  if fits : (vec.data ++ bytes).length ≤ capacity then .ok ⟨vec.data ++ bytes, fits⟩ else .error .serializeBufferFull

instance : Flavor (HVec capacity) where
  tryExtend bytes vec := vec.extendFromSlice bytes
  tryPush byte vec := vec.extendFromSlice [byte]

end HVec

namespace Queue

structure Message where
  error : Option PostcardError
  data : HVec 1024

def Message.newElement : Message := ⟨none, HVec.new⟩

def Message.recycle (slot : Message) : Message := { slot with data := HVec.new }

def Message.writeMessage (slot : Message) (msg : SenderMessage) : Except Panic Message := do
  let (result, data) ← (msg.serialize : Serializer (HVec 1024) Unit).run.run slot.data
  match result with
  | .ok () => return ⟨none, data⟩
  | .error error => return ⟨some error, data⟩

end Queue

/-- The queue, and the slots that have been popped from it, both with the oldest first. -/
structure Queue where
  queued : List Queue.Message
  popped : List Queue.Message

/-- The slot that `push_ref` claims. It is a new one until all 64 have been in use. -/
def Queue.claim (queue : Queue) : Option (Queue.Message × List Queue.Message) :=
  if queue.queued.length + queue.popped.length < 64 then some (Queue.Message.newElement, queue.popped)
  else
    match queue.popped with
    | [] => none
    | slot :: popped => some (slot.recycle, popped)

structure Worker where
  written : List UInt8
  totalEvents : Nat

def Worker.handle (worker : Worker) (event : Queue.Message) : Worker where
  written := if event.data.data.isEmpty then worker.written else worker.written ++ event.data.data
  totalEvents := worker.totalEvents + 1

/-- The static queue, and the worker that drains it. -/
structure Pipeline where
  queue : Queue
  worker : Worker

inductive Op where
  | send (msg : SenderMessage)
  | work

namespace Pipeline

def init : Pipeline := ⟨⟨[], []⟩, ⟨START_OF_OUTPUT, 0⟩⟩

def send (s : Pipeline) (msg : SenderMessage) : Except Panic (Bool × Pipeline) :=
  match s.queue.claim with
  | none => .ok (false, s)
  | some (slot, popped) => do
    let slot ← slot.writeMessage msg
    return (true, { s with queue := ⟨s.queue.queued ++ [slot], popped⟩ })

def work (s : Pipeline) : Pipeline where
  queue := ⟨[], s.queue.popped ++ s.queue.queued⟩
  worker := s.queue.queued.foldl Worker.handle s.worker

def step (s : Pipeline) : Op → Except Panic (Bool × Pipeline)
  | .send msg => s.send msg
  | .work => .ok (false, s.work)

end Pipeline

/-- The messages that were queued in a run, oldest first. -/
def accepted : List SenderMessage → Op → Bool → List SenderMessage
  | sent, .send msg, true => sent ++ [msg]
  | sent, _, _ => sent

end Platypos.Ktrace
