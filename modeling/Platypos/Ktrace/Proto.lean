import Platypos.Ktrace.Fields

namespace Platypos.Ktrace

def START_OF_OUTPUT : List UInt8 := [255, 0, 255, 0]

inductive Level where
  | error
  | warn
  | info
  | debug
  | trace
  deriving DecidableEq

inductive Parent where
  | root
  | current (processor : UInt32)
  | explicit (span : UInt64)
  deriving DecidableEq

/-- `S` is the type of strings: `Str` for the sender and `String` for the receiver. -/
structure Metadata (S : Type) where
  name : S
  target : S
  level : Level
  file : Option S
  line : Option UInt32
  deriving DecidableEq

structure SpanCreated (S A : Type) where
  id : UInt64
  parent : Parent
  metadata : Metadata S
  fields : A
  deriving DecidableEq

structure Event (S E : Type) where
  spanId : Parent
  metadata : Metadata S
  fields : E
  deriving DecidableEq

inductive Message (S E A : Type) where
  | spanCreated (span : SpanCreated S A)
  | event (event : Event S E)
  | spanEntered (id : UInt64) (processor : UInt32)
  | spanExited (id : UInt64) (processor : UInt32)
  | spanClosed (id : UInt64)
  deriving DecidableEq

abbrev SenderMessage := Message Str ValueSet ValueSet

abbrev ReceiverMessage := Message String (List (String × Value)) (List (String × Value))

section Serialize

variable {F : Type} [Flavor F]

def Serializer.variant (index : UInt32) : Serializer F Unit := Serializer.u32 index

def Level.index : Level → UInt32
  | .error => 0
  | .warn => 1
  | .info => 2
  | .debug => 3
  | .trace => 4

def Level.serialize (level : Level) : Serializer F Unit := Serializer.variant level.index

def Parent.serialize : Parent → Serializer F Unit
  | .root => Serializer.variant 0
  | .current processor => do
    Serializer.variant 1
    Serializer.u32 processor
  | .explicit span => do
    Serializer.variant 2
    Serializer.u64 span

def Metadata.serialize (metadata : Metadata Str) : Serializer F Unit := do
  Serializer.str metadata.name
  Serializer.str metadata.target
  metadata.level.serialize
  Serializer.option Serializer.str metadata.file
  Serializer.option Serializer.u32 metadata.line

def Message.index {S E A : Type} : Message S E A → UInt32
  | .spanCreated _ => 0
  | .event _ => 1
  | .spanEntered _ _ => 2
  | .spanExited _ _ => 3
  | .spanClosed _ => 4

def Message.contents : SenderMessage → Serializer F Unit
  | .spanCreated span => do
    Serializer.u64 span.id
    span.parent.serialize
    span.metadata.serialize
    serializeFields span.fields
  | .event e => do
    e.spanId.serialize
    e.metadata.serialize
    serializeFields e.fields
  | .spanEntered id processor | .spanExited id processor => do
    Serializer.u64 id
    Serializer.u32 processor
  | .spanClosed id => Serializer.u64 id

def Message.serialize (m : SenderMessage) : Serializer F Unit := do
  Serializer.variant m.index
  m.contents

end Serialize

def Message.encode (m : SenderMessage) : Except Panic (Except PostcardError (List UInt8)) := do
  let (result, data) ← (m.serialize : Serializer (List UInt8) Unit).run.run []
  return result.map fun () => data

def Level.deserialize : Deserializer Level := do
  match ← Deserializer.u32 with
  | 0 => return .error
  | 1 => return .warn
  | 2 => return .info
  | 3 => return .debug
  | 4 => return .trace
  | _ => throw .serdeDeCustom

def Parent.deserialize : Deserializer Parent := do
  match ← Deserializer.u32 with
  | 0 => return .root
  | 1 => return .current (← Deserializer.u32)
  | 2 => return .explicit (← Deserializer.u64)
  | _ => throw .serdeDeCustom

def Metadata.deserialize : Deserializer (Metadata String) := do
  let name ← Deserializer.str
  let target ← Deserializer.str
  let level ← Level.deserialize
  let file ← Deserializer.option Deserializer.str
  let line ← Deserializer.option Deserializer.u32
  return ⟨name, target, level, file, line⟩

def SpanCreated.deserialize : Deserializer (SpanCreated String (List (String × Value))) := do
  let id ← Deserializer.u64
  let parent ← Parent.deserialize
  let metadata ← Metadata.deserialize
  let fields ← deserializeFields
  return ⟨id, parent, metadata, fields⟩

def Event.deserialize : Deserializer (Event String (List (String × Value))) := do
  let spanId ← Parent.deserialize
  let metadata ← Metadata.deserialize
  let fields ← deserializeFields
  return ⟨spanId, metadata, fields⟩

def Message.deserialize : Deserializer ReceiverMessage := do
  match ← Deserializer.u32 with
  | 0 => return .spanCreated (← SpanCreated.deserialize)
  | 1 => return .event (← Event.deserialize)
  | 2 =>
    let id ← Deserializer.u64
    let processor ← Deserializer.u32
    return .spanEntered id processor
  | 3 =>
    let id ← Deserializer.u64
    let processor ← Deserializer.u32
    return .spanExited id processor
  | 4 => return .spanClosed (← Deserializer.u64)
  | _ => throw .serdeDeCustom

def takeFromBytes (bytes : List UInt8) : Except PostcardError (ReceiverMessage × List UInt8) :=
  Message.deserialize.run bytes

end Platypos.Ktrace
