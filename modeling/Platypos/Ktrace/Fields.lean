import Platypos.Ktrace.Postcard

namespace Platypos.Ktrace

inductive FieldType where
  | kernelAddress
  | physicalAddress
  | virtualAddress
  | string
  | u64
  deriving DecidableEq

def types : String → Option FieldType
  | "at" => some .kernelAddress
  | "message" => some .string
  | "count" => some .u64
  | "size" => some .u64
  | "vaddr" => some .virtualAddress
  | "paddr" => some .physicalAddress
  | "range" => some .string
  | _ => none

inductive Value where
  | kernelAddress (value : UInt64)
  | physicalAddress (value : UInt64)
  | virtualAddress (value : UInt64)
  | string (text : String)
  | u64 (value : UInt64)
  deriving DecidableEq

/-- What `tracing` records for a field, by the method of `Visit` it calls. -/
inductive Recorded where
  | u64 (value : UInt64)
  | str (value : Str)
  | debug (value : DebugText)
  | f64
  | i64
  | i128
  | u128
  | bool

/-- The values of a span or an event: the declared fields, of which some may have no value. -/
structure ValueSet where
  fields : List (Str × Option Recorded)
  fits : fields.length < 2^63

namespace FieldType

variable {F : Type} [Flavor F]

def serializeEntry (name : Str) (value : Serializer F Unit) : Serializer F Unit := do
  Serializer.str name
  value

def writeU64 (type : FieldType) (name : Str) (value : UInt64) : Serializer F Unit :=
  match type with
  | .kernelAddress | .u64 | .physicalAddress | .virtualAddress => serializeEntry name (Serializer.u64 value)
  | .string => throw .serdeSerCustom

def writeStr (type : FieldType) (name value : Str) : Serializer F Unit :=
  match type with
  | .string => serializeEntry name (Serializer.str value)
  | _ => throw .serdeSerCustom

def writeDebug (type : FieldType) (name : Str) (value : DebugText) : Serializer F Unit :=
  match type with
  | .string => serializeEntry name (Serializer.collectStr value)
  | _ => throw .serdeSerCustom

def read : FieldType → Deserializer Value
  | .kernelAddress => return .kernelAddress (← Deserializer.u64)
  | .u64 => return .u64 (← Deserializer.u64)
  | .physicalAddress => return .physicalAddress (← Deserializer.u64)
  | .virtualAddress => return .virtualAddress (← Deserializer.u64)
  | .string => return .string (← Deserializer.str)

end FieldType

structure FieldVisitor (F : Type) where
  state : Except PostcardError Unit
  serializer : F

namespace FieldVisitor

variable {F : Type} [Flavor F]

def new (serializer : F) : FieldVisitor F := ⟨.ok (), serializer⟩

def recordTyped (visitor : FieldVisitor F) (name : Str) (write : FieldType → Serializer F Unit) :
    Except Panic (FieldVisitor F) :=
  match visitor.state with
  | .error _ => .ok visitor
  | .ok () =>
    match types name.text with
    | none => .error (.unknownField name.text)
    | some type => do
      let (state, serializer) ← (write type).run.run visitor.serializer
      return ⟨state, serializer⟩

def recordU64 (visitor : FieldVisitor F) (name : Str) (value : UInt64) : Except Panic (FieldVisitor F) :=
  visitor.recordTyped name fun type => type.writeU64 name value

def recordStr (visitor : FieldVisitor F) (name value : Str) : Except Panic (FieldVisitor F) :=
  visitor.recordTyped name fun type => type.writeStr name value

def recordDebug (visitor : FieldVisitor F) (name : Str) (value : DebugText) : Except Panic (FieldVisitor F) :=
  visitor.recordTyped name fun type => type.writeDebug name value

/-- `Visit` for one field. The kinds that no known field uses panic whatever the state. -/
def record (visitor : FieldVisitor F) (name : Str) : Recorded → Except Panic (FieldVisitor F)
  | .u64 value => visitor.recordU64 name value
  | .str value => visitor.recordStr name value
  | .debug value => visitor.recordDebug name value
  | .f64 | .i64 | .i128 | .u128 | .bool => .error .unusedKind

def recordAll : FieldVisitor F → List (Str × Option Recorded) → Except Panic (FieldVisitor F)
  | visitor, [] => .ok visitor
  | visitor, (_, none) :: fields => visitor.recordAll fields
  | visitor, (name, some value) :: fields => do
    let visitor ← visitor.record name value
    visitor.recordAll fields

end FieldVisitor

section Visit

variable {F : Type} [Flavor F]

/-- The visitor sees the values, and finishes with the error of the first one that it could not write. -/
def visit (fields : List (Str × Option Recorded)) : Serializer F Unit := ExceptT.mk fun serializer => do
  let visitor ← (FieldVisitor.new serializer).recordAll fields
  return (visitor.state, visitor.serializer)

def visitOne (name : Str) (recorded : Recorded) : Serializer F Unit := ExceptT.mk fun serializer => do
  let visitor ← (FieldVisitor.new serializer).record name recorded
  return (visitor.state, visitor.serializer)

theorem visitOne_typed {name : Str} {recorded : Recorded} {write : FieldType → Serializer F Unit}
    (typed : ∀ visitor : FieldVisitor F, visitor.record name recorded = visitor.recordTyped name write) :
    visitOne name recorded = match types name.text with
      | none => ExceptT.mk fun _ => .error (.unknownField name.text)
      | some type => write type := by
  funext serializer
  simp only [visitOne, ExceptT.mk, typed, FieldVisitor.recordTyped, FieldVisitor.new]
  cases types name.text with
  | none => rfl
  | some type =>
    show ((write type).run.run serializer >>= fun r => pure (⟨r.1, r.2⟩ : FieldVisitor F)) >>= _ = _
    rw [bind_assoc]
    exact bind_pure _

theorem recordAll_of_error {error : PostcardError} {visitor final : FieldVisitor F} (failed : visitor.state = .error error)
    {fields : List (Str × Option Recorded)} (run : visitor.recordAll fields = .ok final) : final = visitor := by
  induction fields with
  | nil =>
    cases run
    rfl
  | cons field fields ih =>
    obtain ⟨name, recorded⟩ := field
    cases recorded with
    | none => exact ih run
    | some recorded =>
      have skipped : visitor.record name recorded = .ok visitor ∨ visitor.record name recorded = .error .unusedKind := by
        cases recorded <;> simp [FieldVisitor.record, FieldVisitor.recordU64, FieldVisitor.recordStr,
          FieldVisitor.recordDebug, FieldVisitor.recordTyped, failed]
      rw [FieldVisitor.recordAll] at run
      rcases skipped with skipped | skipped
      · rw [skipped] at run
        exact ih run
      · rw [skipped] at run
        cases run

theorem visit_cons_run {name : Str} {recorded : Recorded} {serializer serializer' : F}
    (written : (visitOne name recorded).run.run serializer = .ok (.ok (), serializer'))
    (fields : List (Str × Option Recorded)) :
    (visit ((name, some recorded) :: fields)).run.run serializer = (visit fields).run.run serializer' := by
  show ((FieldVisitor.new serializer).recordAll ((name, some recorded) :: fields) >>= _) = _
  change ((FieldVisitor.new serializer).record name recorded >>= _) = _ at written
  rw [FieldVisitor.recordAll]
  cases one : (FieldVisitor.new serializer).record name recorded with
  | error panic =>
    rw [one] at written
    cases written
  | ok visitor =>
    obtain ⟨state, serializer''⟩ := visitor
    rw [one] at written
    cases written
    rfl

theorem visit_cons_ok {name : Str} {recorded : Recorded} {fields : List (Str × Option Recorded)} {serializer : F}
    {result : Except PostcardError Unit × F}
    (run : (visit ((name, some recorded) :: fields)).run.run serializer = .ok result) :
    (visitOne name recorded >>= fun _ => visit fields).run.run serializer = .ok result := by
  change ((FieldVisitor.new serializer).recordAll ((name, some recorded) :: fields) >>= _) = _ at run
  rw [ExceptT.run_bind, StateT.run_bind]
  show ((FieldVisitor.new serializer).record name recorded >>= _) >>= _ = _
  rw [FieldVisitor.recordAll] at run
  cases one : (FieldVisitor.new serializer).record name recorded with
  | error panic =>
    rw [one] at run
    cases run
  | ok visitor =>
    rw [one] at run
    change (visitor.recordAll fields >>= _) = _ at run
    obtain ⟨state, serializer'⟩ := visitor
    cases state with
    | ok done => exact run
    | error error =>
      cases rest : (⟨.error error, serializer'⟩ : FieldVisitor F).recordAll fields with
      | error panic =>
        rw [rest] at run
        cases run
      | ok final =>
        rw [rest, recordAll_of_error rfl rest] at run
        exact run

theorem visit_cons_done {name : Str} {recorded : Recorded} {fields : List (Str × Option Recorded)}
    {serializer serializer' : F} {a : Unit}
    (run : (visitOne name recorded >>= fun _ => visit fields).run.run serializer = .ok (.ok a, serializer')) :
    (visit ((name, some recorded) :: fields)).run.run serializer = .ok (.ok a, serializer') := by
  rcases Serializer.bind_ok run with ⟨_, middle, one, rest⟩ | ⟨_, _, impossible⟩
  · rw [visit_cons_run one]
    exact rest
  · cases impossible

end Visit

def serializeFields {F : Type} [Flavor F] (values : ValueSet) : Serializer F Unit := do
  Serializer.usize values.fields.length
  visit values.fields

def visitMap : Nat → Deserializer (List (String × Value))
  | 0 => return []
  | count + 1 => do
    let field ← Deserializer.str
    match types field with
    | none => throw .serdeDeCustom
    | some type => do
      let value ← type.read
      let fields ← visitMap count
      return (field, value) :: fields

def deserializeFields : Deserializer (List (String × Value)) := do
  let count ← Deserializer.usize
  visitMap count

end Platypos.Ktrace
