import Platypos.Ktrace.Resumption

namespace Platypos.Ktrace

open PrefixCodec Deserializer

/-- The kernel has a message that is received as this one. -/
def Sendable (r : ReceiverMessage) : Prop := ∃ m : SenderMessage, m.received = some r

theorem utf8ByteSize_of_fromUTF8 {bytes : List UInt8} {text : String}
    (valid : String.fromUTF8? ⟨bytes.toArray⟩ = some text) : text.utf8ByteSize = bytes.length := by
  rw [String.fromUTF8?] at valid
  split at valid
  · cases valid
    rfl
  · cases valid

theorem yields_any {α : Type} (p : Deserializer α) : Yields (2^63) (fun _ => True) p :=
  ⟨fun _ _ _ _ _ => trivial⟩

theorem yields_take (count : Nat) : Yields (2^63) (fun bytes => bytes.length < 2^63) (take count) where
  holds input bytes rest short run := by
    change take count input = _ at run
    unfold take at run
    split at run
    · cases run
    · cases run
      exact Nat.lt_of_le_of_lt (List.length_take_le' _ _) short

theorem yields_str : Yields (2^63) (fun text => ∃ value : Str, value.text = text) str := by
  apply (yields_any usize).bind (consumes_decode 1 10).any
  intro size _
  apply (yields_take size).bind (consumes_take size)
  intro bytes short
  split
  · rename_i text valid
    rw [← utf8ByteSize_of_fromUTF8 valid] at short
    exact Yields.pure ⟨⟨text, short⟩, rfl⟩
  · exact Yields.throw _

theorem yields_option {α β : Type} {some' : Deserializer α} {f : β → α} (consumes : Consumes 0 some')
    (yields : Yields (2^63) (fun a => ∃ b, f b = a) some') :
    Yields (2^63) (fun a => ∃ b : Option β, b.map f = a) (option some') := by
  apply (yields_any pop).bind consumes_pop.any
  intro tag _
  split
  · exact Yields.pure ⟨none, rfl⟩
  · split
    · apply yields.bind consumes
      rintro _ ⟨b, rfl⟩
      exact Yields.pure ⟨some b, rfl⟩
    · exact Yields.throw _

theorem FieldType.yields_read (type : FieldType) :
    Yields (2^63) (fun value => ∃ recorded, type.value recorded = some value) type.read := by
  have number : ∀ value : UInt64 → Value, (∀ n, type.value (.u64 n) = some (value n)) →
      Yields (2^63) (fun value => ∃ recorded, type.value recorded = some value) (do return value (← Deserializer.u64)) := by
    intro value typed
    apply (yields_any Deserializer.u64).bind consumes_u64.any
    intro n _
    exact Yields.pure ⟨.u64 n, typed n⟩
  cases type with
  | kernelAddress => exact number _ fun _ => rfl
  | physicalAddress => exact number _ fun _ => rfl
  | virtualAddress => exact number _ fun _ => rfl
  | u64 => exact number _ fun _ => rfl
  | string =>
    apply yields_str.bind consumes_str
    rintro _ ⟨text, rfl⟩
    exact Yields.pure ⟨.str text, rfl⟩

theorem yields_visitMap (count : Nat) :
    Yields (2^63) (fun list => ∃ fields : List (Str × Option Recorded), fields.length = count ∧
      fields.mapM received = some list) (visitMap count) := by
  induction count with
  | zero => exact Yields.pure ⟨[], rfl, rfl⟩
  | succ count ih =>
    apply yields_str.bind consumes_str
    rintro _ ⟨name, rfl⟩
    split
    · exact Yields.throw _
    · rename_i type known
      apply type.yields_read.bind type.consumes_read
      rintro value ⟨recorded, accepted⟩
      apply ih.bind (consumes_visitMap count)
      rintro list ⟨fields, rfl, all⟩
      refine Yields.pure ⟨(name, some recorded) :: fields, rfl, ?_⟩
      rw [List.mapM_cons, all, received, known]
      simp only [Option.bind_eq_bind, Option.bind_some, accepted, Option.pure_def]

/-- A key takes at least a byte, so that no more of them can be announced than there are bytes. -/
theorem consumes_visitMap_count (count : Nat) : Consumes count (visitMap count) := by
  induction count with
  | zero => exact Consumes.pure _
  | succ count ih =>
    have key : Consumes 1 str := (consumes_decode 1 10).bind fun size => by
      apply (consumes_take size).bind
      intro bytes
      split
      · exact Consumes.pure _
      · exact Consumes.throw _
    have entries : Consumes (1 + count) (visitMap (count + 1)) := by
      apply key.add
      intro field
      split
      · exact Consumes.throw _
      · rename_i type _
        have entry := type.consumes_read.add fun value =>
          ih.bind fun fields => Consumes.pure (ε := PostcardError) (B := UInt8) ((field, value) :: fields)
        rwa [Nat.zero_add] at entry
    rwa [Nat.add_comm] at entries

theorem yields_deserializeFields :
    Yields (2^63) (fun list => ∃ values : ValueSet, values.received = some list) deserializeFields := by
  apply (yields_any usize).bind (consumes_decode 1 10).any
  intro count _
  constructor
  intro input list rest short run
  obtain ⟨used, split, enough⟩ := consumes_visitMap_count count input list rest run
  obtain ⟨fields, rfl, all⟩ := (yields_visitMap count).holds input list rest short run
  have fits : fields.length < 2^63 := by
    rw [split, List.length_append] at short
    omega
  exact ⟨⟨fields, fits⟩, all⟩

theorem Metadata.yields_deserialize :
    Yields (2^63) (fun metadata => ∃ sent : Metadata Str, sent.received = metadata) Metadata.deserialize := by
  apply yields_str.bind consumes_str
  rintro _ ⟨name, rfl⟩
  apply yields_str.bind consumes_str
  rintro _ ⟨target, rfl⟩
  apply (yields_any Level.deserialize).bind Level.consumes_deserialize
  intro level _
  apply (yields_option consumes_str yields_str).bind (consumes_option consumes_str)
  rintro _ ⟨file, rfl⟩
  apply (yields_any (option u32)).bind (consumes_option consumes_u32.any)
  intro line _
  exact Yields.pure ⟨⟨name, target, level, file, line⟩, rfl⟩

theorem Message.yields_deserialize : Yields (2^63) Sendable Message.deserialize := by
  apply (yields_any u32).bind consumes_u32.any
  intro index _
  split
  · have span : Yields (2^63) (fun span => Sendable (.spanCreated span)) SpanCreated.deserialize := by
      apply (yields_any u64).bind consumes_u64.any
      intro id _
      apply (yields_any Parent.deserialize).bind Parent.consumes_deserialize
      intro parent _
      apply Metadata.yields_deserialize.bind Metadata.consumes_deserialize
      rintro _ ⟨metadata, rfl⟩
      apply yields_deserializeFields.bind consumes_deserializeFields
      rintro list ⟨values, accepted⟩
      refine Yields.pure ⟨.spanCreated ⟨id, parent, metadata, values⟩, ?_⟩
      rw [Message.received, accepted]
      rfl
    exact span.bind SpanCreated.consumes_deserialize fun _ sendable => Yields.pure sendable
  · have event : Yields (2^63) (fun event => Sendable (.event event)) Event.deserialize := by
      apply (yields_any Parent.deserialize).bind Parent.consumes_deserialize
      intro parent _
      apply Metadata.yields_deserialize.bind Metadata.consumes_deserialize
      rintro _ ⟨metadata, rfl⟩
      apply yields_deserializeFields.bind consumes_deserializeFields
      rintro list ⟨values, accepted⟩
      refine Yields.pure ⟨.event ⟨parent, metadata, values⟩, ?_⟩
      rw [Message.received, accepted]
      rfl
    exact event.bind Event.consumes_deserialize fun _ sendable => Yields.pure sendable
  · apply (yields_any u64).bind consumes_u64.any
    intro id _
    apply (yields_any u32).bind consumes_u32.any
    intro processor _
    exact Yields.pure ⟨.spanEntered id processor, rfl⟩
  · apply (yields_any u64).bind consumes_u64.any
    intro id _
    apply (yields_any u32).bind consumes_u32.any
    intro processor _
    exact Yields.pure ⟨.spanExited id processor, rfl⟩
  · apply (yields_any u64).bind consumes_u64.any
    intro id _
    exact Yields.pure ⟨.spanClosed id, rfl⟩
  · exact Yields.throw _

namespace Decoder

variable {E S W : Type} {f : S → ReceiverMessage → Except E Unit × S} {inv : S → Prop}

theorem decodeBuffer_sendable (kept : ∀ s msg, inv s → Sendable msg → inv (f s msg).2) {buf : List UInt8} {state : S}
    (short : buf.length < 2^63) (start : inv state) :
    inv (decodeBuffer f buf state).2.2 ∧ (decodeBuffer f buf state).2.1.length ≤ buf.length := by
  induction size : buf.length using Nat.strong_induction_on generalizing buf state with
  | h n ih =>
    subst size
    cases decoded : takeFromBytes buf with
    | error error =>
      by_cases incomplete : error = .deserializeUnexpectedEnd
      · subst incomplete
        rw [decodeBuffer_incomplete f state decoded]
        exact ⟨start, Nat.le_refl _⟩
      · rw [decodeBuffer_refused decoded incomplete]
        exact ⟨start, Nat.le_refl _⟩
    | ok result =>
      obtain ⟨msg, unused⟩ := result
      have sendable := Message.yields_deserialize.holds buf msg unused short decoded
      obtain ⟨used, rfl, some⟩ := Message.consumes_deserialize buf msg unused decoded
      have holds := kept state msg start sendable
      have fewer : unused.length < (used ++ unused).length := by
        rw [List.length_append]
        omega
      cases called : f state msg with
      | mk answer state' =>
        rw [called] at holds
        cases answer with
        | error error =>
          rw [decodeBuffer_stopped decoded called]
          exact ⟨holds, Nat.le_refl _⟩
        | ok done =>
          rw [decodeBuffer_complete decoded called]
          obtain ⟨final, left⟩ := ih unused.length fewer (Nat.lt_trans fewer short) holds rfl
          exact ⟨final, Nat.le_trans left (Nat.le_of_lt fewer)⟩

/-- All that is read, if nothing ends the reading before. -/
def arriving (input : List (Except E Chunk)) : List UInt8 :=
  input.flatMap fun
    | .ok chunk => chunk.bytes
    | .error _ => []

theorem decodeLoop_sendable (kept : ∀ s msg, inv s → Sendable msg → inv (f s msg).2) {decoder : Decoder}
    {input : List (Except E Chunk)} {state : S} (short : (decoder.buf ++ arriving input).length < 2^63)
    (start : inv state) : inv (decodeLoop f decoder state input).2.2 := by
  induction input generalizing decoder state with
  | nil => exact start
  | cons read input ih =>
    cases read with
    | error error => exact start
    | ok chunk =>
      rw [decodeLoop]
      split
      · exact start
      · have size : (arriving (.ok chunk :: input)).length = chunk.bytes.length + (arriving input).length :=
          List.length_append
        rw [List.length_append, size] at short
        have some : (decoder.buf ++ chunk.bytes).length < 2^63 := by
          rw [List.length_append]
          omega
        have one := decodeBuffer_sendable kept some start
        split
        · rename_i stopped
          rw [stopped] at one
          exact one.1
        · rename_i buf state' decoded
          rw [decoded, List.length_append] at one
          apply ih _ one.1
          rw [List.length_append]
          have left := one.2
          dsimp only at left ⊢
          omega

theorem readInitial_keeps {writeAll : W → List UInt8 → Except E Unit × W} {decoder decoder' : Decoder} {output output' : W}
    {input rest : List (Except E Chunk)}
    (found : readInitial writeAll decoder output input = (.ok rest, decoder', output')) :
    (decoder'.buf ++ arriving rest).length ≤ (decoder.buf ++ arriving input).length := by
  induction input generalizing decoder output with
  | nil => cases found
  | cons read input ih =>
    cases read with
    | error error => cases found
    | ok chunk =>
      have size : (arriving (.ok chunk :: input)).length = chunk.bytes.length + (arriving input).length :=
        List.length_append
      rw [List.length_append, List.length_append, size]
      rw [readInitial] at found
      split at found
      · cases found
      · dsimp only at found
        split at found
        · split at found
          · cases found
          · cases found
            rw [List.length_drop, List.length_append]
            omega
        · split at found
          · split at found
            · cases found
            · have later := ih found
              rw [List.length_append, List.length_append, List.length_drop, List.length_append] at later
              omega
          · have later := ih found
            rw [List.length_append, List.length_append, List.length_append] at later
            omega

/-- Whatever arrives, the messages that are passed on are such as the kernel can send: what these keep is kept. -/
theorem decode_passes_sendable (writeAll : W → List UInt8 → Except E Unit × W)
    (kept : ∀ s msg, inv s → Sendable msg → inv (f s msg).2) (decoder : Decoder) (input : List (Except E Chunk))
    (drain : W) {state : S} (short : (decoder.buf ++ arriving input).length < 2^63) (start : inv state) :
    inv (decode writeAll f decoder input drain state).2.2.2 := by
  rw [decode]
  split
  · exact start
  · rename_i found
    exact decodeLoop_sendable kept (Nat.lt_of_le_of_lt (readInitial_keeps found) short) start

/-- The message is passed on before the byte behind it is found to begin none. -/
theorem decode_passes_sendable_malformed :
    let calls := (decode (E := Unit) save collect new
      [.ok ⟨START_OF_OUTPUT, by decide⟩, .ok ⟨[4, 7, 9], by decide⟩] [] []).2.2.2
    calls = [.spanClosed 7] ∧ ∀ r ∈ calls, Sendable r := by
  have kept : ∀ calls msg, (∀ r ∈ calls, Sendable r) → Sendable msg →
      ∀ r ∈ (collect (E := Unit) calls msg).2, Sendable r := by
    intro calls msg all sendable r member
    rcases List.mem_append.mp member with member | member
    · exact all r member
    · rwa [List.mem_singleton.mp member]
  exact ⟨by decide +kernel, decode_passes_sendable save kept new _ [] (by decide) (by simp)⟩

end Decoder

end Platypos.Ktrace
