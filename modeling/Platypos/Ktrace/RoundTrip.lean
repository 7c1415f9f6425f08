import Platypos.Ktrace.Codec

namespace Platypos.Ktrace

open PrefixCodec

/-- The value that a field of this type has for the receiver, if the schema accepts what was recorded. -/
def FieldType.value : FieldType → Recorded → Option Value
  | .kernelAddress, .u64 value => some (.kernelAddress value)
  | .u64, .u64 value => some (.u64 value)
  | .physicalAddress, .u64 value => some (.physicalAddress value)
  | .virtualAddress, .u64 value => some (.virtualAddress value)
  | .string, .str value => some (.string value.text)
  | .string, .debug value => some (.string (String.join value.pieces))
  | _, _ => none

def received : Str × Option Recorded → Option (String × Value)
  | (_, none) => none
  | (name, some recorded) => do
    let type ← types name.text
    let value ← type.value recorded
    return (name.text, value)

def ValueSet.received (values : ValueSet) : Option (List (String × Value)) := values.fields.mapM Ktrace.received

def Metadata.received (metadata : Metadata Str) : Metadata String where
  name := metadata.name.text
  target := metadata.target.text
  level := metadata.level
  file := metadata.file.map Str.text
  line := metadata.line

/-- The message as the receiver should see it. -/
def Message.received : SenderMessage → Option ReceiverMessage
  | .spanCreated span => do
    let fields ← span.fields.received
    return .spanCreated ⟨span.id, span.parent, span.metadata.received, fields⟩
  | .event e => do
    let fields ← e.fields.received
    return .event ⟨e.spanId, e.metadata.received, fields⟩
  | .spanEntered id processor => some (.spanEntered id processor)
  | .spanExited id processor => some (.spanExited id processor)
  | .spanClosed id => some (.spanClosed id)

namespace Codes

theorem entry {name : Str} {type : FieldType} {recorded : Recorded} {value : Value}
    (known : types name.text = some type) (accepted : type.value recorded = some value) :
    ∃ sender, Codes sender type.read value ∧ visitOne name recorded = FieldType.serializeEntry name sender := by
  have written : ∀ write : FieldType → Serializer (List UInt8) Unit,
      (∀ visitor : FieldVisitor (List UInt8), visitor.record name recorded = visitor.recordTyped name write) →
      visitOne name recorded = write type := by
    intro write typed
    rw [visitOne_typed typed, known]
  unfold FieldType.value at accepted
  split at accepted <;> cases accepted
  case h_1 number => exact ⟨_, (u64 number).last rfl, written (fun type => type.writeU64 name number) fun _ => rfl⟩
  case h_2 number => exact ⟨_, (u64 number).last rfl, written (fun type => type.writeU64 name number) fun _ => rfl⟩
  case h_3 number => exact ⟨_, (u64 number).last rfl, written (fun type => type.writeU64 name number) fun _ => rfl⟩
  case h_4 number => exact ⟨_, (u64 number).last rfl, written (fun type => type.writeU64 name number) fun _ => rfl⟩
  case h_5 text => exact ⟨_, (str text).last rfl, written (fun type => type.writeStr name text) fun _ => rfl⟩
  case h_6 text => exact ⟨_, (collectStr text).last rfl, written (fun type => type.writeDebug name text) fun _ => rfl⟩

theorem visit_cons {name : Str} {type : FieldType} {recorded : Recorded} {value : Value}
    {fields : List (Str × Option Recorded)} {count : Nat} {others : List (String × Value)}
    (known : types name.text = some type) (accepted : type.value recorded = some value)
    (rest : Codes (visit fields) (visitMap count) others) :
    Codes (visit ((name, some recorded) :: fields)) (visitMap (count + 1)) ((name.text, value) :: others) := by
  obtain ⟨sender, codes, one⟩ := entry known accepted
  have entries : Codes (visitOne name recorded >>= fun _ => Ktrace.visit fields) (visitMap (count + 1))
      ((name.text, value) :: others) := by
    rw [one, FieldType.serializeEntry, bind_assoc]
    apply (str name).bind
    rw [known]
    exact codes.bind (rest.last rfl)
  obtain ⟨bytes, written, read⟩ := entries
  exact ⟨bytes, fun data => visit_cons_done (written data), read⟩

theorem visit {fields : List (Str × Option Recorded)} {values : List (String × Value)}
    (accepted : fields.mapM received = some values) : Codes (visit fields) (visitMap fields.length) values := by
  induction fields generalizing values with
  | nil =>
    cases accepted
    exact nothing []
  | cons field fields ih =>
    rw [List.mapM_cons] at accepted
    obtain ⟨value, first, accepted⟩ := Option.bind_eq_some_iff.mp accepted
    obtain ⟨values', others, accepted⟩ := Option.bind_eq_some_iff.mp accepted
    cases accepted
    obtain ⟨name, recorded⟩ := field
    cases recorded with
    | none => cases first
    | some recorded =>
      obtain ⟨type, known, first⟩ := Option.bind_eq_some_iff.mp first
      obtain ⟨v, read, first⟩ := Option.bind_eq_some_iff.mp first
      cases first
      exact visit_cons known read (ih others)

theorem fields {values : ValueSet} {list : List (String × Value)} (accepted : values.received = some list) :
    Codes (serializeFields values) deserializeFields list :=
  (usize values.fits).bind (visit accepted)

theorem level (level : Level) : Codes level.serialize Level.deserialize level := by
  cases level
  · exact (u32 0).last rfl
  · exact (u32 1).last rfl
  · exact (u32 2).last rfl
  · exact (u32 3).last rfl
  · exact (u32 4).last rfl

theorem parent (parent : Parent) : Codes parent.serialize Parent.deserialize parent := by
  cases parent with
  | root => exact (u32 0).last rfl
  | current processor => exact (u32 1).bind ((u32 processor).last rfl)
  | explicit span => exact (u32 2).bind ((u64 span).last rfl)

theorem metadata (metadata : Metadata Str) : Codes metadata.serialize Metadata.deserialize metadata.received := by
  apply (str metadata.name).bind
  apply (str metadata.target).bind
  apply (level metadata.level).bind
  apply (option str).bind
  apply (option (f := id) u32).last
  simp [Metadata.received]

theorem message {m : SenderMessage} {r : ReceiverMessage} (accepted : m.received = some r) :
    Codes m.serialize Message.deserialize r := by
  cases m with
  | spanCreated span =>
    obtain ⟨list, readable, same⟩ := Option.bind_eq_some_iff.mp accepted
    cases same
    apply (u32 0).bind
    refine Codes.last (a := ⟨span.id, span.parent, span.metadata.received, list⟩) ?_ rfl
    exact (u64 span.id).bind ((parent span.parent).bind ((metadata span.metadata).bind ((fields readable).last rfl)))
  | event e =>
    obtain ⟨list, readable, same⟩ := Option.bind_eq_some_iff.mp accepted
    cases same
    apply (u32 1).bind
    refine Codes.last (a := ⟨e.spanId, e.metadata.received, list⟩) ?_ rfl
    exact (parent e.spanId).bind ((metadata e.metadata).bind ((fields readable).last rfl))
  | spanEntered id processor =>
    cases accepted
    exact (u32 2).bind ((u64 id).bind ((u32 processor).last rfl))
  | spanExited id processor =>
    cases accepted
    exact (u32 3).bind ((u64 id).bind ((u32 processor).last rfl))
  | spanClosed id =>
    cases accepted
    exact (u32 4).bind ((u64 id).last rfl)

end Codes

/-- The receiver reads the whole encoding of a message as this message, and part of it as nothing yet. -/
theorem encode_reads {m : SenderMessage} {r : ReceiverMessage} (accepted : m.received = some r) :
    ∃ bytes, m.encode = .ok (.ok bytes) ∧
      Reads PostcardError.deserializeUnexpectedEnd Message.deserialize bytes r := by
  obtain ⟨bytes, written, read⟩ := Codes.message accepted
  refine ⟨bytes, ?_, read⟩
  rw [Message.encode, written []]
  rfl

theorem takeFromBytes_encode {m : SenderMessage} {r : ReceiverMessage} (accepted : m.received = some r) :
    ∃ bytes, m.encode = .ok (.ok bytes) ∧ ∀ rest, takeFromBytes (bytes ++ rest) = .ok (r, rest) := by
  obtain ⟨bytes, encoded, read⟩ := encode_reads accepted
  exact ⟨bytes, encoded, read.whole⟩

def mapped : SenderMessage :=
  .event ⟨.current 3, ⟨⟨"map", by decide⟩, ⟨"mm", by decide⟩, .debug, some ⟨"map.rs", by decide⟩, some 300⟩,
    ⟨[(⟨"paddr", by decide⟩, some (.u64 4096)), (⟨"message", by decide⟩, some (.str ⟨"ok", by decide⟩)),
      (⟨"range", by decide⟩, some (.debug ⟨["0", "..", "8"], by decide⟩))], by decide⟩⟩

theorem takeFromBytes_encode_mapped :
    ∃ bytes, mapped.encode = .ok (.ok bytes) ∧ ∀ rest, takeFromBytes (bytes ++ rest) =
      .ok (.event ⟨.current 3, ⟨"map", "mm", .debug, some "map.rs", some 300⟩,
        [("paddr", .physicalAddress 4096), ("message", .string "ok"), ("range", .string "0..8")]⟩, rest) :=
  takeFromBytes_encode rfl

/-- However a message is cut short, the receiver asks for more. -/
theorem takeFromBytes_truncated {m : SenderMessage} {r : ReceiverMessage} (accepted : m.received = some r) :
    ∃ bytes, m.encode = .ok (.ok bytes) ∧
      ∀ front, front <+: bytes → front ≠ bytes → takeFromBytes front = .error .deserializeUnexpectedEnd := by
  obtain ⟨bytes, encoded, reads⟩ := encode_reads accepted
  refine ⟨bytes, encoded, ?_⟩
  rintro front ⟨missing, rfl⟩ short
  apply reads.cut front missing rfl
  rintro rfl
  exact short (List.append_nil front).symm

theorem takeFromBytes_truncated_mapped :
    ∃ bytes, mapped.encode = .ok (.ok bytes) ∧
      ∀ front, front <+: bytes → front ≠ bytes → takeFromBytes front = .error .deserializeUnexpectedEnd :=
  takeFromBytes_truncated (r := .event ⟨.current 3, ⟨"map", "mm", .debug, some "map.rs", some 300⟩,
    [("paddr", .physicalAddress 4096), ("message", .string "ok"), ("range", .string "0..8")]⟩) rfl

end Platypos.Ktrace
