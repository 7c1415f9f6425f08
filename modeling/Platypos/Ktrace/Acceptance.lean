import Platypos.Ktrace.RoundTrip

namespace Platypos.Ktrace

open PrefixCodec

def Accepted (field : Str × Option Recorded) : Prop :=
  ∀ recorded ∈ field.2, ∃ type, types field.1.text = some type ∧ (type.value recorded).isSome

def Message.fields : SenderMessage → List (Str × Option Recorded)
  | .spanCreated span => span.fields.fields
  | .event e => e.fields.fields
  | _ => []

def SucceedsIff (sender : Serializer (List UInt8) Unit) (condition : Prop) : Prop :=
  ∀ data, (∃ data', sender.run.run data = .ok (.ok (), data')) ↔ condition

theorem Codes.succeeds {α : Type} {sender : Serializer (List UInt8) Unit} {receiver : Deserializer α} {a : α}
    (codes : Codes sender receiver a) : SucceedsIff sender True := by
  intro data
  obtain ⟨bytes, written, _⟩ := codes
  exact iff_of_true ⟨_, written data⟩ trivial

theorem SucceedsIff.bind {first second : Serializer (List UInt8) Unit} {condition : Prop}
    (always : SucceedsIff first True) (last : SucceedsIff second condition) :
    SucceedsIff (first >>= fun _ => second) condition := by
  intro data
  obtain ⟨middle, written⟩ := (always data).mpr trivial
  rw [Serializer.bind_run written]
  exact last middle

theorem visitOne_ok {name : Str} {recorded : Recorded} {data data' : List UInt8}
    (run : (visitOne name recorded).run.run data = .ok (.ok (), data')) :
    ∃ type, types name.text = some type ∧ (type.value recorded).isSome := by
  have typed : ∀ write : FieldType → Serializer (List UInt8) Unit,
      (∀ visitor : FieldVisitor (List UInt8), visitor.record name recorded = visitor.recordTyped name write) →
      ∃ type, types name.text = some type ∧ (write type).run.run data = .ok (.ok (), data') := by
    intro write same
    rw [visitOne_typed same] at run
    split at run
    · cases run
    · rename_i type known
      exact ⟨type, known, run⟩
  cases recorded with
  | u64 value =>
    obtain ⟨type, known, written⟩ := typed (fun type => type.writeU64 name value) fun _ => rfl
    cases type with
    | string => cases written
    | _ => exact ⟨_, known, rfl⟩
  | str value =>
    obtain ⟨type, known, written⟩ := typed (fun type => type.writeStr name value) fun _ => rfl
    cases type with
    | string => exact ⟨_, known, rfl⟩
    | _ => cases written
  | debug value =>
    obtain ⟨type, known, written⟩ := typed (fun type => type.writeDebug name value) fun _ => rfl
    cases type with
    | string => exact ⟨_, known, rfl⟩
    | _ => cases written
  | f64 | i64 | i128 | u128 | bool => cases run

theorem visit_succeeds_iff (fields : List (Str × Option Recorded)) :
    SucceedsIff (visit fields) (∀ field ∈ fields, Accepted field) := by
  intro data
  induction fields generalizing data with
  | nil => exact iff_of_true ⟨data, rfl⟩ (by simp)
  | cons field fields ih =>
    obtain ⟨name, recorded⟩ := field
    rw [List.forall_mem_cons]
    cases recorded with
    | none =>
      rw [← ih data]
      simp only [Accepted, Option.mem_def, reduceCtorEq, false_implies, implies_true, true_and]
      rfl
    | some recorded =>
      simp only [Accepted, Option.mem_def, Option.some.injEq, forall_eq']
      constructor
      · rintro ⟨data', run⟩
        rcases Serializer.bind_ok (visit_cons_ok run) with ⟨_, middle, one, rest⟩ | ⟨_, _, impossible⟩
        · exact ⟨visitOne_ok one, (ih middle).mp ⟨data', rest⟩⟩
        · cases impossible
      · rintro ⟨⟨type, known, accepted⟩, rest⟩
        obtain ⟨value, accepted⟩ := Option.isSome_iff_exists.mp accepted
        obtain ⟨sender, codes, one⟩ := Codes.entry known accepted
        obtain ⟨bytes, written, _⟩ : Codes (visitOne name recorded) (Deserializer.str >>= fun _ => type.read) value := by
          rw [one]
          exact (Codes.str name).bind codes
        rw [visit_cons_run (written data)]
        exact (ih (data ++ bytes)).mpr rest

theorem serializeFields_succeeds_iff (values : ValueSet) :
    SucceedsIff (serializeFields values) (∀ field ∈ values.fields, Accepted field) :=
  (Codes.usize values.fits).succeeds.bind (visit_succeeds_iff values.fields)

/-- Nothing but a field can keep a message from being serialised, if there is room. -/
theorem serialize_succeeds_iff (m : SenderMessage) : SucceedsIff m.serialize (∀ field ∈ m.fields, Accepted field) := by
  apply (Codes.u32 m.index).succeeds.bind
  cases m with
  | spanCreated span =>
    apply (Codes.u64 span.id).succeeds.bind
    apply (Codes.parent span.parent).succeeds.bind
    apply (Codes.metadata span.metadata).succeeds.bind
    exact serializeFields_succeeds_iff span.fields
  | event e =>
    apply (Codes.parent e.spanId).succeeds.bind
    apply (Codes.metadata e.metadata).succeeds.bind
    exact serializeFields_succeeds_iff e.fields
  | spanEntered id processor =>
    simp only [Message.fields, List.not_mem_nil, false_implies, implies_true]
    exact (Codes.u64 id).succeeds.bind (Codes.u32 processor).succeeds
  | spanExited id processor =>
    simp only [Message.fields, List.not_mem_nil, false_implies, implies_true]
    exact (Codes.u64 id).succeeds.bind (Codes.u32 processor).succeeds
  | spanClosed id =>
    simp only [Message.fields, List.not_mem_nil, false_implies, implies_true]
    exact (Codes.u64 id).succeeds

/-- The bytes are this many keys with their values, and nothing more. -/
def Entries (bytes : List UInt8) (count : Nat) : Prop :=
  ∃ entries, Reads PostcardError.deserializeUnexpectedEnd (visitMap count) bytes entries

theorem visitMap_succ_ok {count : Nat} {input : List UInt8} {outcome : List (String × Value) × List UInt8}
    (run : (visitMap (count + 1)).run input = .ok outcome) :
    ∃ field middle type value middle' entries, Deserializer.str.run input = .ok (field, middle) ∧
      types field = some type ∧ type.read.run middle = .ok (value, middle') ∧
      (visitMap count).run middle' = .ok (entries, outcome.2) := by
  obtain ⟨field, middle, key, run⟩ := run_bind_ok run
  cases known : types field with
  | none =>
    rw [known] at run
    cases run
  | some type =>
    rw [known] at run
    obtain ⟨value, middle', read, run⟩ := run_bind_ok run
    obtain ⟨entries, rest, others, run⟩ := run_bind_ok run
    cases run
    exact ⟨field, middle, type, value, middle', entries, key, known, read, others⟩

theorem visitMap_succ_nil {count : Nat} {outcome : List (String × Value) × List UInt8} :
    (visitMap (count + 1)).run [] ≠ .ok outcome := by
  intro run
  obtain ⟨_, _, _, _, _, _, key, _⟩ := visitMap_succ_ok run
  cases key

/-- No bytes are two different numbers of entries. -/
theorem visitMap_exhausts {count count' : Nat} {bytes : List UInt8} {entries entries' : List (String × Value)}
    (run : (visitMap count).run bytes = .ok (entries, [])) (run' : (visitMap count').run bytes = .ok (entries', [])) :
    count = count' := by
  induction count generalizing count' bytes entries entries' with
  | zero =>
    cases run
    cases count' with
    | zero => rfl
    | succ count' => exact absurd run' visitMap_succ_nil
  | succ count ih =>
    cases count' with
    | zero =>
      cases run'
      exact absurd run visitMap_succ_nil
    | succ count' =>
      obtain ⟨field, middle, type, value, rest, others, key, known, read, more⟩ := visitMap_succ_ok run
      obtain ⟨field', middle', type', value', rest', others', key', known', read', more'⟩ := visitMap_succ_ok run'
      cases key.symm.trans key'
      cases known.symm.trans known'
      cases read.symm.trans read'
      rw [ih more more']

theorem Entries.iff_eq {bytes : List UInt8} {count : Nat} (entries : Entries bytes count) (n : Nat) :
    Entries bytes n ↔ n = count := by
  constructor
  · rintro ⟨values, reads⟩
    obtain ⟨values', reads'⟩ := entries
    have run := reads.whole []
    have run' := reads'.whole []
    rw [List.append_nil] at run run'
    exact visitMap_exhausts run run'
  · rintro rfl
    exact entries

/-- The visitor writes one entry for each field that has a value. -/
theorem Codes.visit_accepted {fields : List (Str × Option Recorded)} (accepted : ∀ field ∈ fields, Accepted field) :
    ∃ values, Codes (Ktrace.visit fields) (visitMap (fields.countP fun field => field.2.isSome)) values := by
  induction fields with
  | nil => exact ⟨[], nothing []⟩
  | cons field fields ih =>
    obtain ⟨first, rest⟩ := List.forall_mem_cons.mp accepted
    obtain ⟨values, codes⟩ := ih rest
    obtain ⟨name, recorded⟩ := field
    cases recorded with
    | none =>
      rw [List.countP_cons_of_neg (by simp)]
      exact ⟨values, codes⟩
    | some recorded =>
      obtain ⟨type, known, readable⟩ := first recorded rfl
      obtain ⟨value, readable⟩ := Option.isSome_iff_exists.mp readable
      rw [List.countP_cons_of_pos (by simp)]
      exact ⟨_, visit_cons known readable codes⟩

theorem serializeFields_entries {values : ValueSet} {data data' : List UInt8}
    (done : (serializeFields values).run.run data = .ok (.ok (), data')) :
    ∃ body, data' = data ++ (Varint.encode 10 values.fields.length ++ body) ∧
      Entries body (values.fields.countP fun field => field.2.isSome) := by
  have accepted := (serializeFields_succeeds_iff values data).mp ⟨data', done⟩
  obtain ⟨entries, body, written, reads⟩ := Codes.visit_accepted accepted
  refine ⟨body, ?_, entries, reads⟩
  have length : (Serializer.usize values.fields.length).run.run data =
      .ok (.ok (), data ++ Varint.encode 10 values.fields.length) := Serializer.extend_run _ data
  rw [serializeFields, Serializer.bind_run length, written] at done
  cases done
  rw [List.append_assoc]

/-- The length is the number of declared fields, and the entries are those that have a value. -/
theorem field_count_matches_iff {values : ValueSet} {data data' : List UInt8}
    (done : (serializeFields values).run.run data = .ok (.ok (), data')) :
    ∃ body count, data' = data ++ (Varint.encode 10 values.fields.length ++ body) ∧
      (∀ n, Entries body n ↔ n = count) ∧
      (values.fields.length = count ↔ ∀ field ∈ values.fields, field.2.isSome) := by
  obtain ⟨body, written, entries⟩ := serializeFields_entries done
  refine ⟨body, _, written, entries.iff_eq, ?_⟩
  rw [eq_comm, List.countP_eq_length]

theorem field_count_matches_present :
    ∃ (values : ValueSet) (data body : List UInt8), (∀ field ∈ values.fields, field.2.isSome) ∧
      (serializeFields values).run.run [] = .ok (.ok (), data) ∧ data = 2 :: body ∧ ∀ n, Entries body n ↔ n = 2 := by
  let values : ValueSet :=
    ⟨[(⟨"message", by decide⟩, some (.str ⟨"ok", by decide⟩)), (⟨"count", by decide⟩, some (.u64 300))], by decide⟩
  have accepted : ∀ field ∈ values.fields, Accepted field := by
    simp [values, Accepted, types, FieldType.value]
  have present : ∀ field ∈ values.fields, field.2.isSome := by simp [values]
  obtain ⟨data, done⟩ := (serializeFields_succeeds_iff values []).mpr accepted
  obtain ⟨body, count, written, entries, same⟩ := field_count_matches_iff done
  obtain rfl : 2 = count := same.mpr present
  exact ⟨values, data, body, present, done, written, entries⟩

/-- A field that has no value is counted, and no entry is written for it. -/
theorem absent_value_counted :
    ∃ values : ValueSet, (∀ field ∈ values.fields, (types field.1.text).isSome) ∧
      (serializeFields values).run.run ([] : List UInt8) = .ok (.ok (), [2, 5, 99, 111, 117, 110, 116, 7]) ∧
      ∀ n, Entries [5, 99, 111, 117, 110, 116, 7] n ↔ n = 1 := by
  let values : ValueSet := ⟨[(⟨"count", by decide⟩, some (.u64 7)), (⟨"size", by decide⟩, none)], by decide⟩
  have done : (serializeFields values).run.run ([] : List UInt8) = .ok (.ok (), [2, 5, 99, 111, 117, 110, 116, 7]) := rfl
  obtain ⟨body, written, entries⟩ := serializeFields_entries done
  cases written
  exact ⟨values, by decide, done, entries.iff_eq⟩

end Platypos.Ktrace
