import Platypos.Ktrace.Resumption
import Platypos.Ktrace.SpanIds
import Platypos.Ktrace.Wire

namespace Platypos.Ktrace

open Outcome Exec

theorem transmits_of_leaves {sent : List SenderMessage} {rs : List ReceiverMessage} {datas : List (List UInt8)}
    (leaves : List.Forall₂ Message.Leaves sent datas) (arrived : sent.mapM Message.received = some rs)
    (room : ∀ m ∈ sent, ∀ bytes, m.encode = .ok (.ok bytes) → bytes.length ≤ 1024) :
    Transmits sent rs datas.flatten := by
  induction leaves generalizing rs with
  | nil =>
    cases arrived
    exact .nil
  | @cons m data sent datas left leaves ih =>
    rw [List.mapM_cons] at arrived
    obtain ⟨r, received, arrived⟩ := Option.bind_eq_some_iff.mp arrived
    obtain ⟨rs', others, arrived⟩ := Option.bind_eq_some_iff.mp arrived
    cases arrived
    obtain ⟨fits, room⟩ := List.forall_mem_cons.mp room
    obtain ⟨bytes, encoded, _⟩ := encode_reads received
    have whole : m.whole = some bytes := Message.whole_eq_some.mpr ⟨encode_eq_ok.mp encoded, fits bytes encoded⟩
    rcases left with same | ⟨none, _⟩
    · cases whole.symm.trans same
      exact .cons received encoded (ih others room)
    · cases whole.symm.trans none

namespace KTrace

variable {P : Type} {s : KTrace P} {sent : List SenderMessage}

theorem push_onWire (wire : OnWire sent s.pipeline) (msg : SenderMessage) :
    Ensures (s.push msg) (fun r => OnWire (sent ++ r.1.toList) r.2.pipeline) fun _ => True := by
  unfold push
  cases queued : s.pipeline.send msg with
  | error reason => trivial
  | ok r =>
    have next := (Pipeline.send_onWire wire msg).of_ok queued
    obtain ⟨answer, pipeline⟩ := r
    cases answer with
    | true => exact next
    | false =>
      show OnWire (sent ++ []) pipeline
      rw [List.append_nil]
      exact next

theorem report_onWire (wire : OnWire sent s.pipeline) (msg : SenderMessage) :
    Ensures (s.report msg) (fun r => OnWire (sent ++ r.1.sent.toList) r.2.pipeline) fun _ => True := by
  apply (push_onWire wire msg).bind
  intro r next
  exact next

variable [DecidableEq P] (debug : Bool)

theorem insert_pipeline (s : KTrace P) (p : P) (metadata : Metadata Str) :
    Ensures (s.insert debug p metadata) (fun r => r.2.pipeline = s.pipeline) fun _ => True := by
  apply (ensures_any _).bind
  intro r _
  dsimp only
  split <;> rfl

theorem get_pipeline (s : KTrace P) (p : P) (idx : PlatyposSlab.Idx) :
    Ensures (s.get debug p idx) (fun r => r.2.pipeline = s.pipeline) fun _ => True := by
  apply (ensures_any _).bind
  intro r _
  dsimp only
  split <;> rfl

theorem dropState_pipeline (s : KTrace P) (p : P) :
    Ensures (s.dropState debug p) (fun r => r.pipeline = s.pipeline) fun _ => True :=
  (ensures_any _).bind fun _ _ => rfl

theorem remove_pipeline (s : KTrace P) (p : P) (idx : PlatyposSlab.Idx) :
    Ensures (s.remove debug p idx) (fun r => r.pipeline = s.pipeline) fun _ => True :=
  (ensures_any _).bind fun _ _ => rfl

theorem newSpan_onWire (wire : OnWire sent s.pipeline) (p : P) (span : Attributes) :
    Ensures (s.newSpan debug p span) (fun r => OnWire (sent ++ r.2.1.toList) r.2.2.pipeline) fun _ => True := by
  apply (insert_pipeline debug s p span.metadata).bind
  rintro ⟨found, s'⟩ same
  cases found with
  | none => trivial
  | some idx =>
    rw [← same] at wire
    dsimp only
    split
    · trivial
    · exact (push_onWire wire _).bind fun r next => next

theorem cloneSpan_pipeline (s : KTrace P) (p : P) (id : UInt64) :
    Ensures (s.cloneSpan debug p id) (fun r => r.2.pipeline = s.pipeline) fun _ => True := by
  apply (get_pipeline debug s p _).bind
  rintro ⟨found, s'⟩ same
  cases found with
  | false => exact same
  | true => exact (dropState_pipeline debug _ p).bind fun s'' next => next.trans same

theorem tryClose_pipeline (s : KTrace P) (p : P) (id : UInt64) :
    Ensures (s.tryClose debug p id) (fun r => r.2.pipeline = s.pipeline) fun _ => True := by
  apply (get_pipeline debug s p _).bind
  rintro ⟨found, s'⟩ same
  cases found with
  | false => exact same
  | true =>
    apply (dropState_pipeline debug _ p).bind
    intro s'' next
    split
    · exact (remove_pipeline debug s'' p _).bind fun _ last => (last.trans next).trans same
    · exact next.trans same

theorem step_onWire (wire : OnWire sent s.pipeline) (call : Call P) :
    Ensures (s.step debug call) (fun r => OnWire (sent ++ r.1.sent.toList) r.2.pipeline) fun _ => True := by
  have quiet : ∀ {pipeline : Pipeline}, pipeline = s.pipeline → OnWire (sent ++ []) pipeline := by
    rintro _ rfl
    rwa [List.append_nil]
  cases call with
  | newSpan p span => exact (newSpan_onWire debug wire p span).bind fun r next => next
  | cloneSpan p id => exact (cloneSpan_pipeline debug s p id).bind fun r same => quiet same
  | tryClose p id => exact (tryClose_pipeline debug s p id).bind fun r same => quiet same
  | enter p id => exact report_onWire wire _
  | exit p id => exact report_onWire wire _
  | event p event => exact report_onWire wire _
  | work =>
    have worked := Pipeline.step_onWire sent s.pipeline .work wire
    show OnWire (sent ++ []) s.pipeline.work
    rw [List.append_nil]
    exact worked

theorem run_onWire {s₀ : KTrace P} {calls : List (Call P)} {replies : List Reply} (constructed : KTrace.new = .ok s₀)
    (ran : exec (KTrace.step debug) s₀ calls = .ok (replies, s)) : OnWire (stream replies) s.pipeline := by
  have start : OnWire (stream []) s₀.pipeline := by
    obtain ⟨spans, _, made⟩ := bind_eq_ok.mp constructed
    cases made
    exact ⟨[], .nil, rfl⟩
  have preserved : ∀ outs (s : KTrace P) call, OnWire (stream outs) s.pipeline →
      Ensures (s.step debug call) (fun r => OnWire (stream (outs ++ [r.1])) r.2.pipeline) fun _ => True := by
    intro outs s call wire
    apply (step_onWire debug wire call).imp
    intro r next
    rw [stream, List.filterMap_append, List.filterMap_cons, List.filterMap_nil]
    cases sent : r.1.sent with
    | none =>
      rw [sent] at next
      exact next
    | some m =>
      rw [sent] at next
      exact next
  exact (exec_history preserved start calls).of_ok ran

end KTrace

namespace Decoder

variable {E S : Type}

/-- The messages are handed over one after the other, until one is refused. -/
def deliver (f : S → ReceiverMessage → Except E Unit × S) : S → List ReceiverMessage → Except E Unit × S
  | state, [] => (.ok (), state)
  | state, msg :: msgs =>
    match f state msg with
    | (.ok (), state) => deliver f state msgs
    | (.error error, state) => (.error error, state)

/-- The messages of a stream are handed over, whatever there is of the next one. -/
theorem decodeBuffer_transmits (f : S → ReceiverMessage → Except E Unit × S) (state : S) {ms : List SenderMessage}
    {rs : List ReceiverMessage} {bytes part : List UInt8} (sent : Transmits ms rs bytes)
    (incomplete : takeFromBytes part = .error .deserializeUnexpectedEnd) :
    (decodeBuffer f (bytes ++ part) state).1 = (deliver f state rs).1.mapError .other ∧
      (decodeBuffer f (bytes ++ part) state).2.2 = (deliver f state rs).2 := by
  induction sent generalizing state with
  | nil =>
    rw [List.nil_append, decodeBuffer_incomplete f state incomplete]
    exact ⟨rfl, rfl⟩
  | @cons m r ms rs encoding bytes received encoded rest ih =>
    have decoded := (reads_of_encode received encoded).whole (bytes ++ part)
    rw [deliver, List.append_assoc]
    cases called : f state r with
    | mk answer state' =>
      cases answer with
      | error error =>
        rw [decodeBuffer_stopped decoded called]
        exact ⟨rfl, rfl⟩
      | ok done =>
        rw [decodeBuffer_complete decoded called]
        exact ih state'

/-- The host, however it reads, hands over the messages that have come in whole. -/
theorem decode_transmits (f : S → ReceiverMessage → Except E Unit × S) (state : S) {ms : List SenderMessage}
    {rs : List ReceiverMessage} {boot bytes part : List UInt8} {chunks : List Chunk} (sent : Transmits ms rs bytes)
    (incomplete : takeFromBytes part = .error .deserializeUnexpectedEnd) (some : ∀ chunk ∈ chunks, chunk.bytes ≠ [])
    (delivered : chunks.flatMap Chunk.bytes = boot ++ (START_OF_OUTPUT ++ (bytes ++ part)))
    (first : ∀ i < boot.length, ¬ START_OF_OUTPUT <+: (boot ++ (START_OF_OUTPUT ++ (bytes ++ part))).drop i)
    (complete : boot.length + START_OF_OUTPUT.length ≤ (chunks.dropLast.flatMap Chunk.bytes).length) :
    ∃ decoder, decode save f new (chunks.map .ok) [] state =
      ((deliver f state rs).1.mapError .other, decoder, boot, (deliver f state rs).2) := by
  obtain ⟨left, rest, split, later, more, decoded⟩ := decode_loop f state some delivered first
  obtain ⟨answer, final⟩ := decodeLoop_any f left state later true fun none => absurd none (more.mpr complete)
  obtain ⟨answer', final'⟩ := decodeBuffer_transmits f state sent incomplete
  rw [← split] at answer final
  refine ⟨(decodeLoop f ⟨left, true⟩ state (rest.map .ok)).2.1, ?_⟩
  rw [decoded, answer, final, answer', final']

theorem decode_written (f : S → ReceiverMessage → Except E Unit × S) (state : S) {s : Pipeline}
    {sent : List SenderMessage} {rs : List ReceiverMessage} {boot : List UInt8} {chunks : List Chunk}
    (wire : OnWire sent s) (arrived : sent.mapM Message.received = some rs)
    (room : ∀ m ∈ sent, ∀ bytes, m.encode = .ok (.ok bytes) → bytes.length ≤ 1024)
    (some : ∀ chunk ∈ chunks, chunk.bytes ≠ [])
    (delivered : chunks.flatMap Chunk.bytes = boot ++ s.work.worker.written)
    (first : ∀ i < boot.length, ¬ START_OF_OUTPUT <+: (boot ++ s.work.worker.written).drop i)
    (complete : boot.length + START_OF_OUTPUT.length ≤ (chunks.dropLast.flatMap Chunk.bytes).length) :
    ∃ decoder, decode save f new (chunks.map .ok) [] state =
      ((deliver f state rs).1.mapError .other, decoder, boot, (deliver f state rs).2) := by
  obtain ⟨datas, leaves, same⟩ := wire
  rw [← Pipeline.work_written] at same
  rw [same, ← List.append_nil datas.flatten] at delivered first
  exact decode_transmits f state (transmits_of_leaves leaves arrived room) takeFromBytes_nil some delivered first complete

/-- From the calls of the subscriber to the host: whatever is done with the messages, it is done with those that were
    queued, in order, once each, and what the boot loader printed before is printed. -/
theorem decode_kernel_trace {P : Type} [DecidableEq P] (debug : Bool) (f : S → ReceiverMessage → Except E Unit × S)
    (state : S) {s₀ s : KTrace P} {calls : List (Call P)} {replies : List Reply} {rs : List ReceiverMessage}
    {boot : List UInt8} {chunks : List Chunk} (constructed : KTrace.new = .ok s₀)
    (ran : exec (KTrace.step debug) s₀ calls = .ok (replies, s))
    (arrived : (stream replies).mapM Message.received = some rs)
    (room : ∀ m ∈ stream replies, ∀ bytes, m.encode = .ok (.ok bytes) → bytes.length ≤ 1024)
    (some : ∀ chunk ∈ chunks, chunk.bytes ≠ [])
    (delivered : chunks.flatMap Chunk.bytes = boot ++ s.pipeline.work.worker.written)
    (first : ∀ i < boot.length, ¬ START_OF_OUTPUT <+: (boot ++ s.pipeline.work.worker.written).drop i)
    (complete : boot.length + START_OF_OUTPUT.length ≤ (chunks.dropLast.flatMap Chunk.bytes).length) :
    ∃ decoder, decode save f new (chunks.map .ok) [] state =
      ((deliver f state rs).1.mapError .other, decoder, boot, (deliver f state rs).2) :=
  decode_written f state (KTrace.run_onWire debug constructed ran) arrived room some delivered first complete

/-- One byte of boot output, a span and its first entry, with the marker and a message cut by the reads. -/
def bootChunks : List Chunk :=
  [⟨[98, 255, 0], by decide⟩, ⟨[255, 0, 0, 1, 0, 4, 98, 111, 111, 116, 6, 107, 101], by decide⟩,
    ⟨[114, 110, 101, 108, 2, 0, 0, 0, 2, 1, 0], by decide⟩]

theorem decode_kernel_trace_boot :
    ∃ (s₀ s : KTrace Bool) (replies : List Reply), KTrace.new = .ok s₀ ∧
      exec (KTrace.step true) s₀ [.newSpan false KTrace.boot, .work, .enter true 1] = .ok (replies, s) ∧
      bootChunks.flatMap Chunk.bytes = [98] ++ s.pipeline.work.worker.written ∧
      ∃ decoder, decode (E := Unit) save collect new (bootChunks.map .ok) [] [] =
        (.ok (), decoder, [98], [.spanCreated ⟨1, .root, ⟨"boot", "kernel", .info, none, none⟩, []⟩, .spanEntered 1 0]) := by
  have both : ∃ (s₀ s : KTrace Bool) (replies : List Reply), KTrace.new = .ok s₀ ∧
      exec (KTrace.step true) s₀ [.newSpan false KTrace.boot, .work, .enter true 1] = .ok (replies, s) ∧
      (stream replies).mapM Message.received =
        some [.spanCreated ⟨1, .root, ⟨"boot", "kernel", .info, none, none⟩, []⟩, .spanEntered 1 0] ∧
      (∀ m ∈ stream replies, m.whole.isSome) ∧
      s.pipeline.work.worker.written = START_OF_OUTPUT ++
        [0, 1, 0, 4, 98, 111, 111, 116, 6, 107, 101, 114, 110, 101, 108, 2, 0, 0, 0, 2, 1, 0] :=
    ⟨_, _, _, rfl, rfl, rfl, by decide, rfl⟩
  obtain ⟨s₀, s, replies, constructed, ran, arrived, whole, written⟩ := both
  have delivered : bootChunks.flatMap Chunk.bytes = [98] ++ s.pipeline.work.worker.written := by
    rw [written]
    rfl
  have first : ∀ i < [(98 : UInt8)].length, ¬ START_OF_OUTPUT <+: ([98] ++ s.pipeline.work.worker.written).drop i := by
    rw [written]
    decide
  refine ⟨s₀, s, replies, constructed, ran, delivered, ?_⟩
  exact decode_kernel_trace true (collect (E := Unit)) [] constructed ran arrived
    (fun m member => (Message.whole_isSome_iff.mp (whole m member)).room) (by decide) delivered first (by decide)

end Decoder

end Platypos.Ktrace
