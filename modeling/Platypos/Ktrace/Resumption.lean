import Platypos.Ktrace.Delivery

namespace Platypos.Ktrace

open PrefixCodec

namespace Deserializer

theorem settles_pop : Settles PostcardError.deserializeUnexpectedEnd pop where
  ok input byte rest run more := by
    cases input with
    | nil => cases run
    | cons byte' input =>
      cases run
      rfl
  error input error run final more := by
    cases input with
    | nil =>
      cases run
      exact absurd rfl final
    | cons byte' input => cases run

theorem settles_decode (last : UInt8) (count : Nat) :
    Settles PostcardError.deserializeUnexpectedEnd
      (Varint.decode PostcardError.deserializeUnexpectedEnd .deserializeBadVarint last count) := by
  induction count with
  | zero => exact Settles.throw _
  | succ count ih =>
    apply settles_pop.bind
    intro byte
    split
    · split
      · exact Settles.throw _
      · exact Settles.pure _
    · exact ih.bind fun _ => Settles.pure _

theorem settles_u32 : Settles PostcardError.deserializeUnexpectedEnd u32 :=
  (settles_decode 15 5).bind fun _ => Settles.pure _

theorem settles_u64 : Settles PostcardError.deserializeUnexpectedEnd u64 :=
  (settles_decode 1 10).bind fun _ => Settles.pure _

theorem settles_take (count : Nat) : Settles PostcardError.deserializeUnexpectedEnd (take count) where
  ok input bytes rest run more := by
    change take count input = _ at run
    show take count (input ++ more) = _
    unfold take at run ⊢
    split at run
    · cases run
    · rename_i enough
      rw [Nat.not_lt] at enough
      cases run
      rw [if_neg (by rw [List.length_append]; omega), List.take_append_of_le_length enough,
        List.drop_append_of_le_length enough]
  error input error run final more := by
    change take count input = _ at run
    unfold take at run
    split at run
    · cases run
      exact absurd rfl final
    · cases run

theorem settles_str : Settles PostcardError.deserializeUnexpectedEnd str := by
  apply (settles_decode 1 10).bind
  intro size
  apply (settles_take size).bind
  intro bytes
  split
  · exact Settles.pure _
  · exact Settles.throw _

theorem settles_option {α : Type} {some' : Deserializer α}
    (settles : Settles PostcardError.deserializeUnexpectedEnd some') :
    Settles PostcardError.deserializeUnexpectedEnd (option some') := by
  apply settles_pop.bind
  intro tag
  split
  · exact Settles.pure _
  · split
    · exact settles.bind fun _ => Settles.pure _
    · exact Settles.throw _

end Deserializer

open Deserializer

theorem FieldType.settles_read (type : FieldType) : Settles PostcardError.deserializeUnexpectedEnd type.read := by
  cases type with
  | string => exact settles_str.bind fun _ => Settles.pure _
  | _ => exact settles_u64.bind fun _ => Settles.pure _

theorem settles_visitMap (count : Nat) : Settles PostcardError.deserializeUnexpectedEnd (visitMap count) := by
  induction count with
  | zero => exact Settles.pure _
  | succ count ih =>
    apply settles_str.bind
    intro field
    split
    · exact Settles.throw _
    · exact (FieldType.settles_read _).bind fun _ => ih.bind fun _ => Settles.pure _

theorem settles_deserializeFields : Settles PostcardError.deserializeUnexpectedEnd deserializeFields :=
  (settles_decode 1 10).bind settles_visitMap

theorem Level.settles_deserialize : Settles PostcardError.deserializeUnexpectedEnd Level.deserialize := by
  apply settles_u32.bind
  intro index
  split
  all_goals first
    | exact Settles.pure _
    | exact Settles.throw _

theorem Parent.settles_deserialize : Settles PostcardError.deserializeUnexpectedEnd Parent.deserialize := by
  apply settles_u32.bind
  intro index
  split
  · exact Settles.pure _
  · exact settles_u32.bind fun _ => Settles.pure _
  · exact settles_u64.bind fun _ => Settles.pure _
  · exact Settles.throw _

theorem Metadata.settles_deserialize : Settles PostcardError.deserializeUnexpectedEnd Metadata.deserialize := by
  apply settles_str.bind
  intro name
  apply settles_str.bind
  intro target
  apply Level.settles_deserialize.bind
  intro level
  apply (settles_option settles_str).bind
  intro file
  exact (settles_option settles_u32).bind fun _ => Settles.pure _

theorem SpanCreated.settles_deserialize : Settles PostcardError.deserializeUnexpectedEnd SpanCreated.deserialize := by
  apply settles_u64.bind
  intro id
  apply Parent.settles_deserialize.bind
  intro parent
  apply Metadata.settles_deserialize.bind
  intro metadata
  exact settles_deserializeFields.bind fun _ => Settles.pure _

theorem Event.settles_deserialize : Settles PostcardError.deserializeUnexpectedEnd Event.deserialize := by
  apply Parent.settles_deserialize.bind
  intro parent
  apply Metadata.settles_deserialize.bind
  intro metadata
  exact settles_deserializeFields.bind fun _ => Settles.pure _

theorem Message.settles_deserialize : Settles PostcardError.deserializeUnexpectedEnd Message.deserialize := by
  apply settles_u32.bind
  intro index
  split
  · exact SpanCreated.settles_deserialize.bind fun _ => Settles.pure _
  · exact Event.settles_deserialize.bind fun _ => Settles.pure _
  · exact settles_u64.bind fun _ => settles_u32.bind fun _ => Settles.pure _
  · exact settles_u64.bind fun _ => settles_u32.bind fun _ => Settles.pure _
  · exact settles_u64.bind fun _ => Settles.pure _
  · exact Settles.throw _

namespace Decoder

variable {E S : Type} {f : S → ReceiverMessage → Except E Unit × S} {state : S} {buf : List UInt8}

theorem decodeBuffer_refused {error : PostcardError} (refused : takeFromBytes buf = .error error)
    (final : error ≠ .deserializeUnexpectedEnd) : decodeBuffer f buf state = (.error (.postcard error), buf, state) := by
  rw [decodeBuffer]
  split
  · rename_i incomplete
    cases refused.symm.trans incomplete
    exact absurd rfl final
  · rename_i same
    cases refused.symm.trans same
    rfl
  · rename_i decoded
    cases refused.symm.trans decoded

theorem decodeBuffer_stopped {msg : ReceiverMessage} {unused : List UInt8} {error : E} {state' : S}
    (decoded : takeFromBytes buf = .ok (msg, unused)) (called : f state msg = (.error error, state')) :
    decodeBuffer f buf state = (.error (.other error), buf, state') := by
  rw [decodeBuffer]
  split
  · rename_i incomplete
    cases decoded.symm.trans incomplete
  · rename_i refused
    cases decoded.symm.trans refused
  · rename_i same
    cases decoded.symm.trans same
    rw [called]

/-- A buffer that grows after it has been decoded is decoded further from where that stopped. -/
def resume (f : S → ReceiverMessage → Except E Unit × S) (more : List UInt8) :
    Except (Report E) Unit × List UInt8 × S → Except (Report E) Unit × List UInt8 × S
  | (.ok (), buf, state) => decodeBuffer f (buf ++ more) state
  | (.error error, buf, state) => (.error error, buf ++ more, state)

theorem decodeBuffer_append (f : S → ReceiverMessage → Except E Unit × S) (buf more : List UInt8) (state : S) :
    decodeBuffer f (buf ++ more) state = resume f more (decodeBuffer f buf state) := by
  -- On the length of the buffer, of which every message takes at least a byte.
  induction size : buf.length using Nat.strong_induction_on generalizing buf state with
  | h n ih =>
    subst size
    cases decoded : takeFromBytes buf with
    | error error =>
      by_cases incomplete : error = .deserializeUnexpectedEnd
      · subst incomplete
        rw [decodeBuffer_incomplete f state decoded, resume]
      · have refused := Message.settles_deserialize.error buf error decoded incomplete more
        rw [decodeBuffer_refused decoded incomplete, resume, decodeBuffer_refused refused incomplete]
    | ok result =>
      obtain ⟨msg, unused⟩ := result
      have decoded' := Message.settles_deserialize.ok buf msg unused decoded more
      obtain ⟨used, rfl, some⟩ := Message.consumes_deserialize buf msg unused decoded
      cases called : f state msg with
      | mk answer state' =>
        cases answer with
        | error error => rw [decodeBuffer_stopped decoded called, resume, decodeBuffer_stopped decoded' called]
        | ok done =>
          rw [List.append_assoc] at decoded' ⊢
          rw [decodeBuffer_complete decoded called, decodeBuffer_complete decoded' called]
          exact ih unused.length (by rw [List.length_append]; omega) unused state' rfl

/-- What is left in the buffer holds no further message. -/
theorem decodeBuffer_idle {left : List UInt8} {state' : S} (done : decodeBuffer f buf state = (.ok (), left, state')) :
    decodeBuffer f left state' = (.ok (), left, state') := by
  have again := decodeBuffer_append f buf [] state
  rw [List.append_nil, done, resume, List.append_nil] at again
  exact again.symm

theorem decodeLoop_stops {chunk : Chunk} {error : Report E} {left : List UInt8} {state' : S} (some : chunk.bytes ≠ [])
    (stopped : decodeBuffer f (buf ++ chunk.bytes) state = (.error error, left, state')) (header : Bool)
    (input : List (Except E Chunk)) :
    decodeLoop f ⟨buf, header⟩ state (.ok chunk :: input) = (.error error, ⟨left, header⟩, state') := by
  rw [decodeLoop, if_neg some]
  simp only [stopped]

theorem decodeLoop_continues {chunk : Chunk} {left : List UInt8} {state' : S} (some : chunk.bytes ≠ [])
    (decoded : decodeBuffer f (buf ++ chunk.bytes) state = (.ok (), left, state')) (header : Bool)
    (input : List (Except E Chunk)) :
    decodeLoop f ⟨buf, header⟩ state (.ok chunk :: input) = decodeLoop f ⟨left, header⟩ state' input := by
  rw [decodeLoop, if_neg some]
  simp only [decoded]

theorem decodeLoop_any (f : S → ReceiverMessage → Except E Unit × S) (buf : List UInt8) (state : S)
    {chunks : List Chunk} (some : ∀ chunk ∈ chunks, chunk.bytes ≠ []) (header : Bool)
    (started : chunks = [] → decodeBuffer f buf state = (.ok (), buf, state)) :
    (decodeLoop f ⟨buf, header⟩ state (chunks.map .ok)).1 =
        (decodeBuffer f (buf ++ chunks.flatMap Chunk.bytes) state).1 ∧
      (decodeLoop f ⟨buf, header⟩ state (chunks.map .ok)).2.2 =
        (decodeBuffer f (buf ++ chunks.flatMap Chunk.bytes) state).2.2 := by
  induction chunks generalizing buf state with
  | nil =>
    rw [List.flatMap_nil, List.append_nil, started rfl]
    exact ⟨rfl, rfl⟩
  | cons chunk chunks ih =>
    obtain ⟨nonempty, others⟩ := List.forall_mem_cons.mp some
    have all := decodeBuffer_append f (buf ++ chunk.bytes) (chunks.flatMap Chunk.bytes) state
    rw [List.map_cons, List.flatMap_cons, ← List.append_assoc, all]
    cases now : decodeBuffer f (buf ++ chunk.bytes) state with
    | mk answer kept =>
      obtain ⟨left, state'⟩ := kept
      cases answer with
      | error error =>
        rw [decodeLoop_stops nonempty now]
        exact ⟨rfl, rfl⟩
      | ok done =>
        rw [decodeLoop_continues nonempty now]
        exact ih left state' others fun _ => decodeBuffer_idle now

/-- The reads after the one that completes the marker are those of the second loop. -/
theorem decode_loop (f : S → ReceiverMessage → Except E Unit × S) (state : S) {boot tail : List UInt8}
    {chunks : List Chunk} (some : ∀ chunk ∈ chunks, chunk.bytes ≠ [])
    (delivered : chunks.flatMap Chunk.bytes = boot ++ (START_OF_OUTPUT ++ tail))
    (first : ∀ i < boot.length, ¬ START_OF_OUTPUT <+: (boot ++ (START_OF_OUTPUT ++ tail)).drop i) :
    ∃ left rest, tail = left ++ rest.flatMap Chunk.bytes ∧ (∀ chunk ∈ rest, chunk.bytes ≠ []) ∧
      (rest ≠ [] ↔ boot.length + START_OF_OUTPUT.length ≤ (chunks.dropLast.flatMap Chunk.bytes).length) ∧
      decode save f new (chunks.map .ok) [] state =
        ((decodeLoop f ⟨left, true⟩ state (rest.map .ok)).1, (decodeLoop f ⟨left, true⟩ state (rest.map .ok)).2.1, boot,
          (decodeLoop f ⟨left, true⟩ state (rest.map .ok)).2.2) := by
  obtain ⟨read, rest, left, rfl, more, rfl, bound, run⟩ :=
    readInitial_run (E := E) Searching.start some first delivered false
  rw [List.nil_append, List.nil_append] at bound
  have initial := run (rest.map .ok)
  rw [← List.map_append] at initial
  refine ⟨left, rest, rfl, fun c member => some c (List.mem_append_right _ member), ?_, ?_⟩
  · cases rest with
    | nil =>
      rw [List.append_nil]
      exact iff_of_false (absurd rfl) (by omega)
    | cons chunk rest =>
      rw [List.flatMap_append, ← List.append_assoc START_OF_OUTPUT, ← List.append_assoc boot,
        List.append_cancel_right_eq] at delivered
      rw [List.dropLast_append_of_ne_nil (List.cons_ne_nil _ _), List.flatMap_append, delivered]
      refine iff_of_true (List.cons_ne_nil _ _) ?_
      simp only [List.length_append]
      omega
  · rw [decode, new, initial]

/-- Whatever follows the marker and whatever is done with the messages, the reads make no difference, except that
    nothing is decoded unless there is a read after the one that completes the marker. -/
theorem decode_any_stream (f : S → ReceiverMessage → Except E Unit × S) (state : S) {boot tail : List UInt8}
    {chunks : List Chunk} (some : ∀ chunk ∈ chunks, chunk.bytes ≠ [])
    (delivered : chunks.flatMap Chunk.bytes = boot ++ (START_OF_OUTPUT ++ tail))
    (first : ∀ i < boot.length, ¬ START_OF_OUTPUT <+: (boot ++ (START_OF_OUTPUT ++ tail)).drop i) :
    (decode save f new (chunks.map .ok) [] state).2.2.1 = boot ∧
      ((decode save f new (chunks.map .ok) [] state).1, (decode save f new (chunks.map .ok) [] state).2.2.2) =
        if boot.length + START_OF_OUTPUT.length ≤ (chunks.dropLast.flatMap Chunk.bytes).length then
          ((decodeBuffer f tail state).1, (decodeBuffer f tail state).2.2)
        else (.ok (), state) := by
  obtain ⟨left, rest, rfl, later, complete, decoded⟩ := decode_loop f state some delivered first
  rw [decoded]
  refine ⟨rfl, ?_⟩
  split
  · rename_i enough
    obtain ⟨answer, final⟩ := decodeLoop_any f left state later true fun none => absurd none (complete.mpr enough)
    rw [answer, final]
  · rename_i short
    obtain rfl : rest = [] := not_not.mp (mt complete.mp short)
    rfl

/-- After the message comes a byte that begins none. The message arrives in two reads, the second of them with the
    offending byte. -/
theorem decode_any_stream_malformed :
    let outcome := decode (E := Unit) save collect new
      (([⟨START_OF_OUTPUT ++ [4], by decide⟩, ⟨[7, 9, 4, 7], by decide⟩] : List Chunk).map .ok) [] []
    outcome.1 = .error (.postcard .serdeDeCustom) ∧ outcome.2.2.2 = [.spanClosed 7] := by
  have stops : decodeBuffer (E := Unit) collect ([4, 7] ++ [9, 4, 7]) [] =
      (.error (.postcard .serdeDeCustom), [9, 4, 7], [.spanClosed 7]) := by
    have refused : takeFromBytes [9, 4, 7] = .error .serdeDeCustom := rfl
    have decoded : takeFromBytes ([4, 7] ++ [9, 4, 7]) = .ok (.spanClosed 7, [9, 4, 7]) := rfl
    have called : collect (E := Unit) [] (.spanClosed 7) = (.ok (), [.spanClosed 7]) := rfl
    rw [decodeBuffer_complete decoded called, decodeBuffer_refused refused (by decide)]
  have some : ∀ chunk ∈ ([⟨START_OF_OUTPUT ++ [4], by decide⟩, ⟨[7, 9, 4, 7], by decide⟩] : List Chunk),
      chunk.bytes ≠ [] := by decide
  have delivered : ([⟨START_OF_OUTPUT ++ [4], by decide⟩, ⟨[7, 9, 4, 7], by decide⟩] : List Chunk).flatMap Chunk.bytes =
      [] ++ (START_OF_OUTPUT ++ ([4, 7] ++ [9, 4, 7])) := rfl
  have both := (decode_any_stream (E := Unit) collect [] some delivered nofun).2
  rw [if_pos (by decide), stops] at both
  exact Prod.mk.inj both

end Decoder

end Platypos.Ktrace
