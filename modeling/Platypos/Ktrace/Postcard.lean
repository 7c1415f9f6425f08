import Mathlib.Algebra.GroupWithZero.Nat
import Platypos.Library.Varint

namespace Platypos.Ktrace

open PrefixCodec

inductive PostcardError where
  | serializeBufferFull
  | serdeSerCustom
  | collectStrError
  | deserializeUnexpectedEnd
  | deserializeBadVarint
  | deserializeBadUtf8
  | deserializeBadOption
  | serdeDeCustom
  deriving DecidableEq

structure Str where
  text : String
  fits : text.utf8ByteSize < 2^63

structure DebugText where
  pieces : List String
  fits : (String.join pieces).utf8ByteSize < 2^63

def bytesOf (text : String) : List UInt8 := text.toUTF8.data.toList

theorem length_bytesOf (text : String) : (bytesOf text).length = text.utf8ByteSize := by
  simp [bytesOf]

theorem fromUTF8_bytesOf (text : String) : String.fromUTF8? ⟨(bytesOf text).toArray⟩ = some text := by
  have valid : ByteArray.IsValidUTF8 ⟨text.toUTF8.data⟩ := text.isValidUTF8
  rw [bytesOf, Array.toArray_toList, String.fromUTF8?, dif_pos valid]
  rfl

theorem bytesOf_join (pieces : List String) : bytesOf (String.join pieces) = (pieces.map bytesOf).flatten := by
  induction pieces with
  | nil => rfl
  | cons piece pieces ih =>
    rw [List.map_cons, List.flatten_cons, ← ih, String.join_cons]
    simp [bytesOf]

theorem utf8ByteSize_join (pieces : List String) :
    (String.join pieces).utf8ByteSize = (pieces.map String.utf8ByteSize).sum := by
  induction pieces with
  | nil => rfl
  | cons piece pieces ih => rw [List.map_cons, List.sum_cons, ← ih, String.join_cons, String.utf8ByteSize_append]

inductive Panic where
  | unknownField (name : String)
  | unusedKind
  deriving DecidableEq

/-- `postcard::ser_flavors::Flavor`. A write that fails writes nothing. -/
class Flavor (F : Type) where
  tryExtend : List UInt8 → F → Except PostcardError F
  tryPush : UInt8 → F → Except PostcardError F

instance : Flavor (List UInt8) where
  tryExtend bytes data := .ok (data ++ bytes)
  tryPush byte data := .ok (data ++ [byte])

/-- Serialisation into a flavor. What has been written stays when an error ends it. -/
abbrev Serializer (F : Type) := ExceptT PostcardError (StateT F (Except Panic))

namespace Serializer

variable {F : Type}

theorem bind_ok {α β : Type} {p : Serializer F α} {f : α → Serializer F β} {start final : F}
    {result : Except PostcardError β} (run : (p >>= f).run.run start = .ok (result, final)) :
    (∃ a middle, p.run.run start = .ok (.ok a, middle) ∧ (f a).run.run middle = .ok (result, final)) ∨
      ∃ error, p.run.run start = .ok (.error error, final) ∧ result = .error error := by
  rw [ExceptT.run_bind, StateT.run_bind] at run
  cases first : p.run.run start with
  | error panic =>
    rw [first] at run
    cases run
  | ok outcome =>
    obtain ⟨answer, middle⟩ := outcome
    rw [first] at run
    cases answer with
    | ok a => exact .inl ⟨a, middle, rfl, run⟩
    | error error =>
      cases run
      exact .inr ⟨error, rfl, rfl⟩

theorem bind_run {α β : Type} {p : Serializer F α} {start middle : F} {a : α}
    (first : p.run.run start = .ok (.ok a, middle)) (f : α → Serializer F β) :
    (p >>= f).run.run start = (f a).run.run middle := by
  rw [ExceptT.run_bind, StateT.run_bind, first]
  rfl

variable [Flavor F]

def write (attempt : F → Except PostcardError F) : Serializer F Unit := ExceptT.mk fun flavor =>
  match attempt flavor with
  | .ok flavor => .ok (.ok (), flavor)
  | .error error => .ok (.error error, flavor)

def extend (bytes : List UInt8) : Serializer F Unit := write (Flavor.tryExtend bytes)

def push (byte : UInt8) : Serializer F Unit := write (Flavor.tryPush byte)

def u32 (value : UInt32) : Serializer F Unit := extend (Varint.encode 5 value.toNat)

def u64 (value : UInt64) : Serializer F Unit := extend (Varint.encode 10 value.toNat)

def usize (value : Nat) : Serializer F Unit := extend (Varint.encode 10 value)

def str (value : Str) : Serializer F Unit := do
  usize value.text.utf8ByteSize
  extend (bytesOf value.text)

def writeStr (piece : String) : Serializer F Unit :=
  write fun flavor => (Flavor.tryExtend (bytesOf piece) flavor).mapError fun _ => .collectStrError

def collectStr (value : DebugText) : Serializer F Unit := do
  usize ((value.pieces.map String.utf8ByteSize).sum)
  forM value.pieces writeStr

theorem extend_run (bytes data : List UInt8) :
    (extend bytes : Serializer (List UInt8) Unit).run.run data = .ok (.ok (), data ++ bytes) := rfl

theorem forM_writeStr_run (pieces : List String) (data : List UInt8) :
    (forM pieces writeStr : Serializer (List UInt8) Unit).run.run data
      = .ok (.ok (), data ++ (pieces.map bytesOf).flatten) := by
  induction pieces generalizing data with
  | nil =>
    rw [List.map_nil, List.flatten_nil, List.append_nil]
    rfl
  | cons piece pieces ih =>
    rw [List.forM_cons, List.map_cons, List.flatten_cons, ← List.append_assoc, ← ih]
    rfl

def option {α : Type} (some' : α → Serializer F Unit) : Option α → Serializer F Unit
  | none => push 0
  | some value => do
    push 1
    some' value

end Serializer

abbrev Deserializer := StateT (List UInt8) (Except PostcardError)

namespace Deserializer

def pop : Deserializer UInt8 := Varint.pop .deserializeUnexpectedEnd

def u32 : Deserializer UInt32 := do
  let value ← Varint.decode .deserializeUnexpectedEnd .deserializeBadVarint 15 5
  return UInt32.ofNat value

def u64 : Deserializer UInt64 := do
  let value ← Varint.decode .deserializeUnexpectedEnd .deserializeBadVarint 1 10
  return UInt64.ofNat value

def usize : Deserializer Nat := Varint.decode .deserializeUnexpectedEnd .deserializeBadVarint 1 10

def take (count : Nat) : Deserializer (List UInt8) := fun input =>
  if input.length < count then .error .deserializeUnexpectedEnd else .ok (input.take count, input.drop count)

theorem reads_take (bytes : List UInt8) :
    Reads PostcardError.deserializeUnexpectedEnd (take bytes.length) bytes bytes where
  whole rest := by
    show take bytes.length (bytes ++ rest) = _
    rw [take, if_neg (by simp), List.take_left, List.drop_left]
  cut front back split more := by
    have shorter : front.length < bytes.length := by
      have some := List.length_pos_of_ne_nil more
      rw [split, List.length_append]
      omega
    show take bytes.length front = _
    rw [take, if_pos shorter]

def text (size : Nat) : Deserializer String := do
  let bytes ← take size
  match String.fromUTF8? ⟨bytes.toArray⟩ with
  | some text => return text
  | none => throw .deserializeBadUtf8

def str : Deserializer String := do
  let size ← usize
  text size

def option {α : Type} (some' : Deserializer α) : Deserializer (Option α) := do
  let tag ← pop
  if tag = 0 then return none
  else if tag = 1 then
    let value ← some'
    return some value
  else throw .deserializeBadOption

end Deserializer

end Platypos.Ktrace
