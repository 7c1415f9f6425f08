import Platypos.Library.Search
import Platypos.Ktrace.Proto

namespace Platypos.Ktrace

open PrefixCodec

namespace Deserializer

theorem consumes_pop : Consumes 1 pop := by
  intro input byte rest run
  cases input with
  | nil => cases run
  | cons byte' input =>
    cases run
    exact ⟨[byte], rfl, Nat.le_refl 1⟩

theorem consumes_decode (last : UInt8) (count : Nat) :
    Consumes 1 (Varint.decode PostcardError.deserializeUnexpectedEnd .deserializeBadVarint last count) := by
  induction count with
  | zero => exact Consumes.throw _
  | succ count ih =>
    apply consumes_pop.bind
    intro byte
    split
    · split
      · exact Consumes.throw _
      · exact Consumes.pure _
    · exact ih.any.bind fun _ => Consumes.pure _

theorem consumes_u32 : Consumes 1 u32 := (consumes_decode 15 5).bind fun _ => Consumes.pure _

theorem consumes_u64 : Consumes 1 u64 := (consumes_decode 1 10).bind fun _ => Consumes.pure _

theorem consumes_take (count : Nat) : Consumes 0 (take count) := by
  intro input bytes rest run
  change take count input = _ at run
  unfold take at run
  split at run
  · cases run
  · cases run
    exact ⟨input.take count, (List.take_append_drop count input).symm, Nat.zero_le _⟩

theorem consumes_str : Consumes 0 str := by
  apply (consumes_decode 1 10).any.bind
  intro size
  apply (consumes_take size).bind
  intro bytes
  split
  · exact Consumes.pure _
  · exact Consumes.throw _

theorem consumes_option {α : Type} {some' : Deserializer α} (consumes : Consumes 0 some') : Consumes 0 (option some') := by
  apply consumes_pop.any.bind
  intro tag
  split
  · exact Consumes.pure _
  · split
    · exact consumes.bind fun _ => Consumes.pure _
    · exact Consumes.throw _

end Deserializer

open Deserializer

theorem FieldType.consumes_read (type : FieldType) : Consumes 0 type.read := by
  cases type with
  | string => exact consumes_str.bind fun _ => Consumes.pure _
  | _ => exact consumes_u64.any.bind fun _ => Consumes.pure _

theorem consumes_visitMap (count : Nat) : Consumes 0 (visitMap count) := by
  induction count with
  | zero => exact Consumes.pure _
  | succ count ih =>
    apply consumes_str.bind
    intro field
    split
    · exact Consumes.throw _
    · exact (FieldType.consumes_read _).bind fun _ => ih.bind fun _ => Consumes.pure _

theorem consumes_deserializeFields : Consumes 0 deserializeFields :=
  (consumes_decode 1 10).any.bind consumes_visitMap

theorem Level.consumes_deserialize : Consumes 0 Level.deserialize := by
  apply consumes_u32.any.bind
  intro index
  split
  all_goals first
    | exact Consumes.pure _
    | exact Consumes.throw _

theorem Parent.consumes_deserialize : Consumes 0 Parent.deserialize := by
  apply consumes_u32.any.bind
  intro index
  split
  · exact Consumes.pure _
  · exact consumes_u32.any.bind fun _ => Consumes.pure _
  · exact consumes_u64.any.bind fun _ => Consumes.pure _
  · exact Consumes.throw _

theorem Metadata.consumes_deserialize : Consumes 0 Metadata.deserialize := by
  apply consumes_str.bind
  intro name
  apply consumes_str.bind
  intro target
  apply Level.consumes_deserialize.bind
  intro level
  apply (consumes_option consumes_str).bind
  intro file
  exact (consumes_option consumes_u32.any).bind fun _ => Consumes.pure _

theorem SpanCreated.consumes_deserialize : Consumes 0 SpanCreated.deserialize := by
  apply consumes_u64.any.bind
  intro id
  apply Parent.consumes_deserialize.bind
  intro parent
  apply Metadata.consumes_deserialize.bind
  intro metadata
  exact consumes_deserializeFields.bind fun _ => Consumes.pure _

theorem Event.consumes_deserialize : Consumes 0 Event.deserialize := by
  apply Parent.consumes_deserialize.bind
  intro parent
  apply Metadata.consumes_deserialize.bind
  intro metadata
  exact consumes_deserializeFields.bind fun _ => Consumes.pure _

theorem Message.consumes_deserialize : Consumes 1 Message.deserialize := by
  apply consumes_u32.bind
  intro index
  split
  · exact SpanCreated.consumes_deserialize.bind fun _ => Consumes.pure _
  · exact Event.consumes_deserialize.bind fun _ => Consumes.pure _
  · exact consumes_u64.any.bind fun _ => consumes_u32.any.bind fun _ => Consumes.pure _
  · exact consumes_u64.any.bind fun _ => consumes_u32.any.bind fun _ => Consumes.pure _
  · exact consumes_u64.any.bind fun _ => Consumes.pure _
  · exact Consumes.throw _

theorem takeFromBytes_shrinks {bytes unused : List UInt8} {msg : ReceiverMessage}
    (decoded : takeFromBytes bytes = .ok (msg, unused)) : unused.length < bytes.length := by
  obtain ⟨used, rfl, some⟩ := Message.consumes_deserialize bytes msg unused decoded
  rw [List.length_append]
  omega

structure Chunk where
  bytes : List UInt8
  fits : bytes.length ≤ 64

/-- An error of the decoder: one of its own, of `postcard`, or of what it was given to read, write and call. -/
inductive Report (E : Type) where
  | bail (message : String)
  | postcard (error : PostcardError)
  | other (error : E)

structure Decoder where
  buf : List UInt8
  readHeader : Bool

namespace Decoder

def new : Decoder := ⟨[], false⟩

variable {E W S : Type}

/-- The loop of `read_initial`. The input is what the reads to come return, and ends with the end of the file.
    What is left of it is returned. -/
def readInitial (writeAll : W → List UInt8 → Except E Unit × W) (decoder : Decoder) (output : W) :
    List (Except E Chunk) → Except (Report E) (List (Except E Chunk)) × Decoder × W
  | [] => (.error (.bail "could not find ktrace marker"), decoder, output)
  | .error error :: _ => (.error (.other error), decoder, output)
  | .ok chunk :: input =>
    if chunk.bytes = [] then (.error (.bail "could not find ktrace marker"), decoder, output)
    else
      let buf := decoder.buf ++ chunk.bytes
      match Search.find START_OF_OUTPUT buf with
      | some pos =>
        match writeAll output (buf.take pos) with
        | (.error error, output) => (.error (.other error), { decoder with buf := buf }, output)
        | (.ok (), output) => (.ok input, ⟨buf.drop (pos + START_OF_OUTPUT.length), true⟩, output)
      | none =>
        if START_OF_OUTPUT.length < buf.length then
          let toWrite := buf.length - START_OF_OUTPUT.length
          match writeAll output (buf.take toWrite) with
          | (.error error, output) => (.error (.other error), { decoder with buf := buf }, output)
          | (.ok (), output) => readInitial writeAll { decoder with buf := buf.drop toWrite } output input
        else readInitial writeAll { decoder with buf := buf } output input

def decodeBuffer (f : S → ReceiverMessage → Except E Unit × S) (buf : List UInt8) (state : S) :
    Except (Report E) Unit × List UInt8 × S :=
  match _decoded : takeFromBytes buf with
  | .error .deserializeUnexpectedEnd => (.ok (), buf, state)
  | .error other => (.error (.postcard other), buf, state)
  | .ok (msg, unused) =>
    match f state msg with
    | (.error error, state) => (.error (.other error), buf, state)
    | (.ok (), state) => decodeBuffer f (buf.drop (buf.length - unused.length)) state
termination_by buf.length
decreasing_by
  have shorter := takeFromBytes_shrinks _decoded
  rw [List.length_drop]
  omega

def decodeLoop (f : S → ReceiverMessage → Except E Unit × S) (decoder : Decoder) (state : S) :
    List (Except E Chunk) → Except (Report E) Unit × Decoder × S
  | [] => (.ok (), decoder, state)
  | .error error :: _ => (.error (.other error), decoder, state)
  | .ok chunk :: input =>
    if chunk.bytes = [] then (.ok (), decoder, state)
    else
      match decodeBuffer f (decoder.buf ++ chunk.bytes) state with
      | (.error error, buf, state) => (.error error, { decoder with buf := buf }, state)
      | (.ok (), buf, state) => decodeLoop f { decoder with buf := buf } state input

def decode (writeAll : W → List UInt8 → Except E Unit × W) (f : S → ReceiverMessage → Except E Unit × S)
    (decoder : Decoder) (input : List (Except E Chunk)) (drain : W) (state : S) :
    Except (Report E) Unit × Decoder × W × S :=
  match decoder.readInitial writeAll drain input with
  | (.error error, decoder, drain) => (.error error, decoder, drain, state)
  | (.ok input, decoder, drain) =>
    let (result, decoder, state) := decoder.decodeLoop f state input
    (result, decoder, drain, state)

end Decoder

end Platypos.Ktrace
