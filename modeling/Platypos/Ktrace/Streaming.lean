import Platypos.Ktrace.Decoder
import Platypos.Ktrace.RoundTrip

namespace Platypos.Ktrace

open PrefixCodec

/-- The encodings of messages, one after another, and what the receiver should make of them. -/
inductive Transmits : List SenderMessage → List ReceiverMessage → List UInt8 → Prop where
  | nil : Transmits [] [] []
  | cons {m : SenderMessage} {r : ReceiverMessage} {ms : List SenderMessage} {rs : List ReceiverMessage}
      {encoding bytes : List UInt8} (received : m.received = some r) (encoded : m.encode = .ok (.ok encoding))
      (rest : Transmits ms rs bytes) : Transmits (m :: ms) (r :: rs) (encoding ++ bytes)

theorem reads_of_encode {m : SenderMessage} {r : ReceiverMessage} {encoding : List UInt8}
    (received : m.received = some r) (encoded : m.encode = .ok (.ok encoding)) :
    Reads PostcardError.deserializeUnexpectedEnd Message.deserialize encoding r := by
  obtain ⟨bytes, same, reads⟩ := encode_reads received
  cases encoded.symm.trans same
  exact reads

theorem takeFromBytes_nil : takeFromBytes [] = .error .deserializeUnexpectedEnd := rfl

namespace Transmits

variable {ms ms' : List SenderMessage} {rs rs' : List ReceiverMessage} {bytes bytes' : List UInt8}

theorem nil_iff (sent : Transmits ms rs bytes) : ms = [] ↔ rs = [] := by
  cases sent with
  | nil => simp
  | cons _ _ _ => simp

theorem append (sent : Transmits ms rs bytes) (sent' : Transmits ms' rs' bytes') :
    Transmits (ms ++ ms') (rs ++ rs') (bytes ++ bytes') := by
  induction sent with
  | nil => exact sent'
  | cons received encoded _ ih =>
    rw [List.append_assoc]
    exact .cons received encoded ih

theorem of_append (sent : Transmits (ms ++ ms') rs bytes) (first : Transmits ms rs' bytes') :
    ∃ next more, rs = rs' ++ next ∧ bytes = bytes' ++ more ∧ Transmits ms' next more := by
  induction first generalizing rs bytes with
  | nil => exact ⟨rs, bytes, rfl, rfl, sent⟩
  | cons received encoded _ ih =>
    cases sent with
    | cons received' encoded' sent =>
      cases received.symm.trans received'
      cases encoded.symm.trans encoded'
      obtain ⟨next, more, rfl, rfl, others⟩ := ih sent
      exact ⟨next, more, rfl, by rw [List.append_assoc], others⟩

end Transmits

/-- A part of the encoding of the first of these messages, but not all of it. -/
inductive Unfinished : List SenderMessage → List UInt8 → Prop where
  | none : Unfinished [] []
  | part {m : SenderMessage} {ms : List SenderMessage} {encoding buf : List UInt8}
      (encoded : m.encode = .ok (.ok encoding)) (front : buf <+: encoding) (short : buf ≠ encoding) :
      Unfinished (m :: ms) buf

/-- The messages that lie within these bytes have been passed on, and `buf` is what follows them. -/
def Delivered (ms : List SenderMessage) (bytes : List UInt8) (calls : List ReceiverMessage) (buf : List UInt8) : Prop :=
  ∃ done rest used, ms = done ++ rest ∧ bytes = used ++ buf ∧ Transmits done calls used ∧ Unfinished rest buf

theorem Unfinished.of_transmits {ms : List SenderMessage} {rs : List ReceiverMessage} {buf : List UInt8}
    (unfinished : Unfinished ms buf) (sent : Transmits ms rs buf) : rs = [] := by
  cases unfinished with
  | none => exact sent.nil_iff.mp rfl
  | part encoded front short =>
    cases sent with
    | cons received encoded' rest =>
      cases encoded.symm.trans encoded'
      exact absurd (front.eq_of_length_le (by simp)) short

theorem Delivered.all {ms : List SenderMessage} {rs calls : List ReceiverMessage} {bytes buf : List UInt8}
    (delivered : Delivered ms bytes calls buf) (sent : Transmits ms rs bytes) : calls = rs := by
  obtain ⟨done, rest, used, rfl, rfl, first, unfinished⟩ := delivered
  obtain ⟨next, more, rfl, same, sent⟩ := sent.of_append first
  rw [List.append_cancel_left_eq] at same
  subst same
  rw [unfinished.of_transmits sent, List.append_nil]

theorem Delivered.before {ms ms' : List SenderMessage} {calls calls' : List ReceiverMessage} {used bytes buf : List UInt8}
    (first : Transmits ms calls used) (delivered : Delivered ms' bytes calls' buf) :
    Delivered (ms ++ ms') (used ++ bytes) (calls ++ calls') buf := by
  obtain ⟨done, rest, used', rfl, rfl, sent, unfinished⟩ := delivered
  exact ⟨ms ++ done, rest, used ++ used', by rw [List.append_assoc], by rw [List.append_assoc], first.append sent,
    unfinished⟩

namespace Decoder

variable {E S : Type}

def collect (calls : List ReceiverMessage) (msg : ReceiverMessage) : Except E Unit × List ReceiverMessage :=
  (.ok (), calls ++ [msg])

theorem decodeBuffer_incomplete (f : S → ReceiverMessage → Except E Unit × S) {buf : List UInt8} (state : S)
    (incomplete : takeFromBytes buf = .error .deserializeUnexpectedEnd) :
    decodeBuffer f buf state = (.ok (), buf, state) := by
  rw [decodeBuffer]
  split
  · rfl
  · rename_i error other decoded
    cases incomplete.symm.trans decoded
    exact absurd rfl other
  · rename_i decoded
    cases incomplete.symm.trans decoded

theorem decodeBuffer_complete {f : S → ReceiverMessage → Except E Unit × S} {used unused : List UInt8}
    {msg : ReceiverMessage} {state state' : S} (decoded : takeFromBytes (used ++ unused) = .ok (msg, unused))
    (called : f state msg = (.ok (), state')) :
    decodeBuffer f (used ++ unused) state = decodeBuffer f unused state' := by
  rw [decodeBuffer]
  split
  · rename_i failed
    cases decoded.symm.trans failed
  · rename_i failed
    cases decoded.symm.trans failed
  · rename_i same
    cases decoded.symm.trans same
    rw [called]
    simp

theorem decodeBuffer_delivers {ms : List SenderMessage} {rs : List ReceiverMessage} {bytes buf later : List UInt8}
    (sent : Transmits ms rs bytes) (split : bytes = buf ++ later) (calls : List ReceiverMessage) :
    ∃ now left, Delivered ms buf now left ∧
      decodeBuffer (collect (E := E)) buf calls = (.ok (), left, calls ++ now) := by
  induction sent generalizing buf calls with
  | nil =>
    obtain ⟨rfl, rfl⟩ := List.append_eq_nil_iff.mp split.symm
    refine ⟨[], [], ⟨[], [], [], rfl, rfl, .nil, .none⟩, ?_⟩
    rw [decodeBuffer_incomplete collect calls takeFromBytes_nil, List.append_nil]
  | @cons m r ms rs encoding bytes received encoded rest ih =>
    have reads := reads_of_encode received encoded
    by_cases whole : encoding.length ≤ buf.length
    · have front : encoding <+: buf :=
        List.prefix_of_prefix_length_le ⟨bytes, rfl⟩ (split ▸ List.prefix_append buf later) whole
      obtain ⟨unread, rfl⟩ := front
      rw [List.append_assoc, List.append_cancel_left_eq] at split
      obtain ⟨now, left, delivered, run⟩ := ih split (calls ++ [r])
      have one : Transmits [m] [r] encoding := by simpa using Transmits.cons received encoded .nil
      refine ⟨r :: now, left, delivered.before one, ?_⟩
      rw [decodeBuffer_complete (reads.whole unread) rfl, run, List.append_assoc]
      rfl
    · have front : buf <+: encoding :=
        List.prefix_of_prefix_length_le (split ▸ List.prefix_append buf later) ⟨bytes, rfl⟩ (by omega)
      have short : buf ≠ encoding := by
        rintro rfl
        exact whole (Nat.le_refl _)
      refine ⟨[], buf, ⟨[], m :: ms, [], rfl, rfl, .nil, .part encoded front short⟩, ?_⟩
      obtain ⟨missing, same⟩ := front
      have incomplete := reads.cut buf missing same.symm (by rintro rfl; simp [← same] at short)
      rw [decodeBuffer_incomplete collect calls incomplete, List.append_nil]

/-- One read of the second loop, from any point between two messages. -/
theorem decodeLoop_step {ms ms' : List SenderMessage} {rs calls : List ReceiverMessage} {used buf later : List UInt8}
    {chunk : Chunk} (sent : Transmits (ms ++ ms') rs (used ++ (buf ++ (chunk.bytes ++ later))))
    (first : Transmits ms calls used) (some : chunk.bytes ≠ []) (header : Bool) :
    ∃ calls' left, Delivered (ms ++ ms') (used ++ (buf ++ chunk.bytes)) calls' left ∧
      ∀ input, decodeLoop (collect (E := E)) ⟨buf, header⟩ calls (.ok chunk :: input) =
        decodeLoop collect ⟨left, header⟩ calls' input := by
  obtain ⟨next, more, rfl, same, sent⟩ := sent.of_append first
  rw [List.append_cancel_left_eq, ← List.append_assoc] at same
  obtain ⟨now, left, delivered, run⟩ := decodeBuffer_delivers (E := E) sent same.symm calls
  refine ⟨calls ++ now, left, delivered.before first, fun input => ?_⟩
  rw [decodeLoop, if_neg some, run]

theorem decodeLoop_run {ms : List SenderMessage} {rs calls : List ReceiverMessage} {bytes buf later : List UInt8}
    {chunks : List Chunk} (sent : Transmits ms rs (bytes ++ (chunks.flatMap Chunk.bytes ++ later)))
    (delivered : Delivered ms bytes calls buf) (some : ∀ chunk ∈ chunks, chunk.bytes ≠ []) (header : Bool) :
    ∃ calls' left, Delivered ms (bytes ++ chunks.flatMap Chunk.bytes) calls' left ∧
      ∀ input, decodeLoop (collect (E := E)) ⟨buf, header⟩ calls (chunks.map .ok ++ input) =
        decodeLoop collect ⟨left, header⟩ calls' input := by
  induction chunks generalizing bytes calls buf with
  | nil =>
    rw [List.flatMap_nil, List.append_nil]
    exact ⟨calls, buf, delivered, fun _ => rfl⟩
  | cons chunk chunks ih =>
    obtain ⟨nonempty, others⟩ := List.forall_mem_cons.mp some
    obtain ⟨done, rest, used, rfl, rfl, first, _⟩ := delivered
    rw [List.flatMap_cons, List.append_assoc, List.append_assoc] at sent
    obtain ⟨calls', left, delivered, step⟩ := decodeLoop_step (E := E) sent first nonempty header
    rw [← List.append_assoc] at delivered
    rw [← List.append_assoc buf, ← List.append_assoc used, ← List.append_assoc used] at sent
    obtain ⟨calls'', left', delivered', run⟩ := ih sent delivered others
    refine ⟨calls'', left', ?_, fun input => ?_⟩
    · rwa [List.flatMap_cons, ← List.append_assoc]
    · rw [List.map_cons, List.cons_append, step, run]

/-- The reads of the second loop. What the first loop has left in the buffer is decoded after the first of them. -/
theorem decodeLoop_delivers {ms : List SenderMessage} {rs : List ReceiverMessage} {buf later : List UInt8}
    {chunk : Chunk} {chunks : List Chunk} (some : ∀ c ∈ chunk :: chunks, c.bytes ≠ []) (header : Bool)
    (sent : Transmits ms rs (buf ++ ((chunk :: chunks).flatMap Chunk.bytes ++ later))) :
    ∃ calls left, Delivered ms (buf ++ (chunk :: chunks).flatMap Chunk.bytes) calls left ∧
      ∀ input, decodeLoop (collect (E := E)) ⟨buf, header⟩ [] ((chunk :: chunks).map .ok ++ input) =
        decodeLoop collect ⟨left, header⟩ calls input := by
  obtain ⟨nonempty, others⟩ := List.forall_mem_cons.mp some
  rw [List.flatMap_cons, List.append_assoc] at sent
  have start : Transmits ([] ++ ms) rs ([] ++ (buf ++ (chunk.bytes ++ (chunks.flatMap Chunk.bytes ++ later)))) := sent
  obtain ⟨calls, left, delivered, step⟩ := decodeLoop_step (E := E) start .nil nonempty header
  rw [← List.append_assoc] at sent
  obtain ⟨calls', left', delivered', run⟩ := decodeLoop_run (E := E) sent delivered others header
  refine ⟨calls', left', ?_, fun input => ?_⟩
  · rwa [List.flatMap_cons, ← List.append_assoc]
  · rw [List.map_cons, List.cons_append, step, run]

end Decoder

end Platypos.Ktrace
