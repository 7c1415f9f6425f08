import Mathlib.Data.List.Forall2
import Platypos.Ktrace.Acceptance
import Platypos.Ktrace.Bounded

namespace Platypos.Ktrace

open Outcome Exec

/-- The complete encoding of a message that serialises into a slot. -/
def Message.whole (m : SenderMessage) : Option (List UInt8) :=
  match m.encode with
  | .ok (.ok bytes) => if bytes.length ≤ 1024 then some bytes else none
  | _ => none

/-- The schema accepts every value, and the slot has room. -/
structure Message.Fits (m : SenderMessage) : Prop where
  accepted : ∀ field ∈ m.fields, Accepted field
  room : ∀ bytes, m.encode = .ok (.ok bytes) → bytes.length ≤ 1024

/-- What a slot holds for the message: its encoding, or part of one that could not be completed. -/
def Message.Leaves (m : SenderMessage) (data : List UInt8) : Prop :=
  m.whole = some data ∨ m.whole = none ∧ data ≠ []

theorem encode_eq_ok {m : SenderMessage} {bytes : List UInt8} :
    m.encode = .ok (.ok bytes) ↔ (m.serialize : Serializer (List UInt8) Unit).run.run [] = .ok (.ok (), bytes) := by
  unfold Message.encode
  cases (m.serialize : Serializer (List UInt8) Unit).run.run [] with
  | error panic => exact iff_of_false (fun h => by cases h) fun h => by cases h
  | ok outcome =>
    obtain ⟨result, data⟩ := outcome
    cases result with
    | error error => exact iff_of_false (fun h => by cases h) fun h => by cases h
    | ok _ =>
      constructor
      · intro same
        cases same
        rfl
      · intro same
        cases same
        rfl

theorem Message.whole_eq_some {m : SenderMessage} {bytes : List UInt8} :
    m.whole = some bytes ↔
      (m.serialize : Serializer (List UInt8) Unit).run.run [] = .ok (.ok (), bytes) ∧ bytes.length ≤ 1024 := by
  rw [← encode_eq_ok]
  unfold Message.whole
  split
  · rename_i data encoded
    rw [encoded]
    simp only [Except.ok.injEq]
    constructor
    · intro same
      split at same
      · rename_i fits
        cases same
        exact ⟨rfl, fits⟩
      · cases same
    · rintro ⟨rfl, fits⟩
      exact if_pos fits
  · rename_i failed
    exact iff_of_false (fun h => by cases h) fun h => failed bytes h.1

theorem Message.whole_isSome_iff {m : SenderMessage} : m.whole.isSome ↔ m.Fits := by
  rw [Option.isSome_iff_exists]
  constructor
  · rintro ⟨bytes, whole⟩
    obtain ⟨run, fits⟩ := Message.whole_eq_some.mp whole
    refine ⟨(serialize_succeeds_iff m []).mp ⟨bytes, run⟩, ?_⟩
    intro bytes' encoded
    cases run.symm.trans (encode_eq_ok.mp encoded)
    exact fits
  · intro fits
    obtain ⟨bytes, run⟩ := (serialize_succeeds_iff m []).mpr fits.accepted
    exact ⟨bytes, Message.whole_eq_some.mpr ⟨run, fits.room bytes (encode_eq_ok.mpr run)⟩⟩

theorem serialize_ne_nil {m : SenderMessage} {result : Except PostcardError Unit} {vec : HVec 1024}
    (run : m.serialize.run.run HVec.new = .ok (result, vec)) : vec.data ≠ [] := by
  have index : ∃ start : HVec 1024, (Serializer.variant m.index).run.run HVec.new = .ok (.ok (), start) ∧
      start.data = Varint.encode 5 m.index.toNat := by
    cases m <;> exact ⟨_, rfl, rfl⟩
  obtain ⟨start, written, first⟩ := index
  change (Serializer.variant m.index >>= fun _ => m.contents).run.run HVec.new = _ at run
  rw [Serializer.bind_run written] at run
  have kept := (Follows.contents m).keeps _ _ _ run
  intro empty
  rw [empty, List.prefix_nil, first] at kept
  exact Varint.encode_ne_nil _ _ kept

namespace Queue

theorem Message.writeMessage_leaves {slot slot' : Message} {m : SenderMessage} (empty : slot.data = HVec.new)
    (written : slot.writeMessage m = .ok slot') :
    m.Leaves slot'.data.data ∧ (slot'.error = none ↔ m.whole.isSome) := by
  unfold writeMessage at written
  rw [empty] at written
  cases run : (m.serialize : Serializer (HVec 1024) Unit).run.run HVec.new with
  | error panic =>
    rw [run] at written
    cases written
  | ok outcome =>
    obtain ⟨result, vec⟩ := outcome
    rw [run] at written
    cases result with
    | ok _ =>
      cases written
      have whole : m.whole = some vec.data :=
        Message.whole_eq_some.mpr ⟨(Follows.message m).done _ _ _ run, vec.fits⟩
      exact ⟨.inl whole, by simp [whole]⟩
    | error error =>
      cases written
      have none : m.whole = none := by
        cases complete : m.whole with
        | none => rfl
        | some bytes =>
          obtain ⟨encoded, fits⟩ := Message.whole_eq_some.mp complete
          obtain ⟨vec', success, _⟩ := (Follows.message m).room HVec.new () bytes encoded fits
          cases success.symm.trans run
      exact ⟨.inr ⟨none, serialize_ne_nil run⟩, by simp [none]⟩

theorem claim_empty {queue : Queue} {slot : Message} {popped : List Message} (claimed : queue.claim = some (slot, popped)) :
    slot.data = HVec.new := by
  unfold claim at claimed
  split at claimed
  · cases claimed
    rfl
  · split at claimed
    · cases claimed
    · cases claimed
      rfl

end Queue

/-- The bytes written and the bytes queued are what the queued messages left in their slots. -/
def OnWire (sent : List SenderMessage) (s : Pipeline) : Prop :=
  ∃ datas, List.Forall₂ Message.Leaves sent datas ∧
    s.worker.written ++ s.queue.queued.flatMap (fun slot => slot.data.data) = START_OF_OUTPUT ++ datas.flatten

namespace Pipeline

theorem foldl_handle_written (queued : List Queue.Message) (worker : Worker) :
    (queued.foldl Worker.handle worker).written = worker.written ++ queued.flatMap fun slot => slot.data.data := by
  induction queued generalizing worker with
  | nil => simp
  | cons slot queued ih =>
    have handled : (worker.handle slot).written = worker.written ++ slot.data.data := by
      unfold Worker.handle
      split
      · rename_i empty
        rw [List.isEmpty_iff.mp empty, List.append_nil]
      · rfl
    rw [List.foldl_cons, ih, handled, List.flatMap_cons, List.append_assoc]

theorem work_written (s : Pipeline) :
    s.work.worker.written = s.worker.written ++ s.queue.queued.flatMap fun slot => slot.data.data :=
  foldl_handle_written s.queue.queued s.worker

theorem send_onWire {sent : List SenderMessage} {s : Pipeline} (wire : OnWire sent s) (msg : SenderMessage) :
    Ensures (s.send msg) (fun r => OnWire (accepted sent (.send msg) r.1) r.2) fun _ => True := by
  unfold send
  split
  · exact wire
  · rename_i slot popped claimed
    cases written : slot.writeMessage msg with
    | error panic => trivial
    | ok slot' =>
      obtain ⟨datas, leaves, same⟩ := wire
      have left := (Queue.Message.writeMessage_leaves (Queue.claim_empty claimed) written).1
      refine ⟨datas ++ [slot'.data.data], List.rel_append leaves (.cons left .nil), ?_⟩
      simp only [List.flatMap_append, List.flatten_append, ← List.append_assoc, ← same]
      simp

theorem step_onWire (sent : List SenderMessage) (s : Pipeline) (op : Op) (wire : OnWire sent s) :
    Ensures (s.step op) (fun r => OnWire (accepted sent op r.1) r.2) fun _ => True := by
  cases op with
  | send msg => exact send_onWire wire msg
  | work =>
    obtain ⟨datas, leaves, same⟩ := wire
    refine ⟨datas, leaves, ?_⟩
    rw [work_written, same]
    exact List.append_nil _

end Pipeline

theorem length_whole_le {sent : List SenderMessage} {datas : List (List UInt8)}
    (leaves : List.Forall₂ Message.Leaves sent datas) :
    (sent.filterMap Message.whole).flatten.length ≤ datas.flatten.length := by
  induction leaves with
  | nil => exact Nat.le_refl 0
  | cons left leaves ih =>
    rw [List.flatten_cons, List.length_append]
    rcases left with whole | ⟨none, _⟩
    · rw [List.filterMap_cons_some whole, List.flatten_cons, List.length_append]
      omega
    · rw [List.filterMap_cons_none none]
      omega

theorem flatten_eq_whole_iff {sent : List SenderMessage} {datas : List (List UInt8)}
    (leaves : List.Forall₂ Message.Leaves sent datas) :
    datas.flatten = (sent.filterMap Message.whole).flatten ↔ ∀ m ∈ sent, m.whole.isSome := by
  induction leaves with
  | nil => simp
  | @cons m data sent datas left leaves ih =>
    rw [List.forall_mem_cons, ← ih]
    rcases left with whole | ⟨none, more⟩
    · rw [List.filterMap_cons_some whole, List.flatten_cons, List.flatten_cons, List.append_cancel_left_eq]
      simp [whole]
    · rw [List.filterMap_cons_none none, List.flatten_cons]
      refine iff_of_false ?_ (by simp [none])
      intro same
      have lengths := congrArg List.length same
      have shorter := length_whole_le leaves
      have positive := List.length_pos_of_ne_nil more
      rw [List.length_append] at lengths
      omega

/-- Only whole messages reach the wire, exactly if the schema and the slots have room for all that were queued. -/
theorem worker_writes_whole_messages_iff {ops : List Op} {replies : List Bool} {s : Pipeline}
    (run : exec Pipeline.step Pipeline.init ops = .ok (replies, s)) :
    s.work.worker.written =
        START_OF_OUTPUT ++ ((ghost accepted [] ops replies).filterMap Message.whole).flatten ↔
      ∀ m ∈ ghost accepted [] ops replies, m.Fits := by
  have preserved : ∀ sent s op, OnWire sent s → True →
      Ensures (Pipeline.step s op) (fun r => OnWire (accepted sent op r.1) r.2) fun _ => True :=
    fun sent s op wire _ => Pipeline.step_onWire sent s op wire
  have start : OnWire [] Pipeline.init := ⟨[], .nil, rfl⟩
  have final := (exec_ensures (fun _ => True) accepted preserved start ops fun _ _ => trivial).of_ok run
  obtain ⟨datas, leaves, same⟩ := final
  simp only [← Message.whole_isSome_iff]
  rw [Pipeline.work_written, same, List.append_cancel_left_eq]
  exact flatten_eq_whole_iff leaves

theorem worker_writes_whole_messages_entered :
    ∃ s, exec Pipeline.step Pipeline.init [.send (.spanEntered 300 0), .work, .send (.spanClosed 300)]
        = .ok ([true, false, true], s) ∧
      s.work.worker.written = START_OF_OUTPUT ++
        (([.spanEntered 300 0, .spanClosed 300] : List SenderMessage).filterMap Message.whole).flatten := by
  have run : ∃ s, exec Pipeline.step Pipeline.init [.send (.spanEntered 300 0), .work, .send (.spanClosed 300)]
      = .ok ([true, false, true], s) := ⟨_, rfl⟩
  obtain ⟨s, run⟩ := run
  have fits : ∀ m ∈ ([.spanEntered 300 0, .spanClosed 300] : List SenderMessage), m.Fits := by
    simp only [← Message.whole_isSome_iff]
    decide
  exact ⟨s, run, (worker_writes_whole_messages_iff run).mpr fits⟩

def illTyped : SenderMessage :=
  .event ⟨.root, ⟨⟨"", by decide⟩, ⟨"", by decide⟩, .error, none, none⟩,
    ⟨[(⟨"at", by decide⟩, some (.str ⟨"", by decide⟩))], by decide⟩⟩

/-- What comes before the field reaches the wire, although the message could not be serialised. -/
theorem partial_message_written :
    ∃ s, exec Pipeline.step Pipeline.init [.send illTyped] = .ok ([true], s) ∧
      s.queue.queued.map Queue.Message.error = [some .serdeSerCustom] ∧
      ([illTyped].filterMap Message.whole).flatten = [] ∧
      s.work.worker.written = START_OF_OUTPUT ++ [1, 0, 0, 0, 0, 0, 0, 1] :=
  ⟨_, rfl, rfl, rfl, rfl⟩

end Platypos.Ktrace
