import Platypos.Ktrace.Worker

namespace Platypos.Ktrace

/-- A serializer into a bounded buffer succeeds as the one into an unbounded buffer does, provided there is room,
    and neither takes back what it has written. -/
structure Follows {capacity : Nat} {α : Type} (bounded : Serializer (HVec capacity) α)
    (unbounded : Serializer (List UInt8) α) : Prop where
  grows : ∀ data result data', unbounded.run.run data = .ok (result, data') → data <+: data'
  keeps : ∀ vec result vec', bounded.run.run vec = .ok (result, vec') → vec.data <+: vec'.data
  done : ∀ vec a vec', bounded.run.run vec = .ok (.ok a, vec') → unbounded.run.run vec.data = .ok (.ok a, vec'.data)
  room : ∀ vec a data', unbounded.run.run vec.data = .ok (.ok a, data') → data'.length ≤ capacity →
    ∃ vec', bounded.run.run vec = .ok (.ok a, vec') ∧ vec'.data = data'

namespace Follows

variable {capacity : Nat} {α β : Type}

theorem pure (a : α) : Follows (Pure.pure a : Serializer (HVec capacity) α) (Pure.pure a) where
  grows _ _ _ run := by
    cases run
    exact List.prefix_rfl
  keeps _ _ _ run := by
    cases run
    exact List.prefix_rfl
  done _ _ _ run := by
    cases run
    rfl
  room vec _ _ run _ := by
    cases run
    exact ⟨vec, rfl, rfl⟩

theorem throw (error : PostcardError) :
    Follows (MonadExcept.throw error : Serializer (HVec capacity) α) (MonadExcept.throw error) where
  grows _ _ _ run := by
    cases run
    exact List.prefix_rfl
  keeps _ _ _ run := by
    cases run
    exact List.prefix_rfl
  done _ _ _ run := by cases run
  room _ _ _ run _ := by cases run

theorem bind {bounded : Serializer (HVec capacity) α} {unbounded : Serializer (List UInt8) α}
    {bounded' : α → Serializer (HVec capacity) β} {unbounded' : α → Serializer (List UInt8) β}
    (first : Follows bounded unbounded) (second : ∀ a, Follows (bounded' a) (unbounded' a)) :
    Follows (bounded >>= bounded') (unbounded >>= unbounded') where
  grows data result data' run := by
    rcases Serializer.bind_ok run with ⟨a, middle, one, two⟩ | ⟨error, one, _⟩
    · exact (first.grows _ _ _ one).trans ((second a).grows _ _ _ two)
    · exact first.grows _ _ _ one
  keeps vec result vec' run := by
    rcases Serializer.bind_ok run with ⟨a, middle, one, two⟩ | ⟨error, one, _⟩
    · exact (first.keeps _ _ _ one).trans ((second a).keeps _ _ _ two)
    · exact first.keeps _ _ _ one
  done vec b vec' run := by
    rcases Serializer.bind_ok run with ⟨a, middle, one, two⟩ | ⟨error, _, impossible⟩
    · rw [Serializer.bind_run (first.done _ _ _ one)]
      exact (second a).done _ _ _ two
    · cases impossible
  room vec b data' run fits := by
    rcases Serializer.bind_ok run with ⟨a, middle, one, two⟩ | ⟨error, _, impossible⟩
    · have shorter := ((second a).grows _ _ _ two).length_le
      obtain ⟨vec', one', rfl⟩ := first.room vec a middle one (by omega)
      rw [Serializer.bind_run one']
      exact (second a).room vec' b data' two fits
    · cases impossible

theorem write {attempt : HVec capacity → Except PostcardError (HVec capacity)} {bytes : List UInt8}
    (fit : ∀ vec, (fits : (vec.data ++ bytes).length ≤ capacity) → attempt vec = .ok ⟨vec.data ++ bytes, fits⟩)
    (full : ∀ vec, ¬ (vec.data ++ bytes).length ≤ capacity → ∃ error, attempt vec = .error error) :
    Follows (Serializer.write attempt) (Serializer.extend bytes) := by
  have outcome : ∀ vec, (∃ fits : (vec.data ++ bytes).length ≤ capacity,
      (Serializer.write attempt).run.run vec = .ok (.ok (), ⟨vec.data ++ bytes, fits⟩)) ∨
      ¬ (vec.data ++ bytes).length ≤ capacity ∧
        ∃ error, (Serializer.write attempt).run.run vec = .ok (.error error, vec) := by
    intro vec
    by_cases fits : (vec.data ++ bytes).length ≤ capacity
    · left
      refine ⟨fits, ?_⟩
      simp only [Serializer.write, ExceptT.run_mk, StateT.run, fit vec fits]
    · right
      obtain ⟨error, failed⟩ := full vec fits
      refine ⟨fits, error, ?_⟩
      simp only [Serializer.write, ExceptT.run_mk, StateT.run, failed]
  refine ⟨?_, ?_, ?_, ?_⟩
  · intro data result data' run
    cases run
    exact List.prefix_append _ _
  · intro vec result vec' run
    rcases outcome vec with ⟨fits, written⟩ | ⟨_, error, failed⟩
    · cases written.symm.trans run
      exact List.prefix_append _ _
    · cases failed.symm.trans run
      exact List.prefix_rfl
  · intro vec a vec' run
    rcases outcome vec with ⟨fits, written⟩ | ⟨_, error, failed⟩
    · cases written.symm.trans run
      rfl
    · cases failed.symm.trans run
  · intro vec a data' run fits
    cases run
    rcases outcome vec with ⟨fits, written⟩ | ⟨larger, _⟩
    · exact ⟨_, written, rfl⟩
    · exact absurd fits larger

theorem extend (bytes : List UInt8) : Follows (Serializer.extend bytes : Serializer (HVec capacity) Unit)
    (Serializer.extend bytes) := by
  apply write
  · intro vec fits
    exact dif_pos fits
  · intro vec larger
    exact ⟨_, dif_neg larger⟩

theorem writeStr (piece : String) : Follows (Serializer.writeStr piece : Serializer (HVec capacity) Unit)
    (Serializer.writeStr piece) := by
  have same : (Serializer.writeStr piece : Serializer (List UInt8) Unit) = Serializer.extend (bytesOf piece) := rfl
  rw [same]
  apply write
  · intro vec fits
    have written : Flavor.tryExtend (bytesOf piece) vec = .ok ⟨vec.data ++ bytesOf piece, fits⟩ := dif_pos fits
    rw [written]
    rfl
  · intro vec larger
    have failed : Flavor.tryExtend (bytesOf piece) vec = .error .serializeBufferFull := dif_neg larger
    exact ⟨.collectStrError, by rw [failed]; rfl⟩

theorem str (value : Str) : Follows (Serializer.str value : Serializer (HVec capacity) Unit) (Serializer.str value) :=
  (extend _).bind fun _ => extend _

theorem collectStr (value : DebugText) :
    Follows (Serializer.collectStr value : Serializer (HVec capacity) Unit) (Serializer.collectStr value) := by
  apply (extend _).bind
  intro _
  induction value.pieces with
  | nil => exact pure ()
  | cons piece pieces ih =>
    rw [List.forM_cons, List.forM_cons]
    exact (writeStr piece).bind fun _ => ih

theorem option {some' : α → Serializer (HVec capacity) Unit} {some'' : α → Serializer (List UInt8) Unit}
    (follows : ∀ a, Follows (some' a) (some'' a)) (value : Option α) :
    Follows (Serializer.option some' value) (Serializer.option some'' value) := by
  cases value with
  | none => exact extend [0]
  | some a => exact (extend [1]).bind fun _ => follows a

theorem panic (reason : Panic) : Follows (ExceptT.mk fun _ => .error reason : Serializer (HVec capacity) α)
    (ExceptT.mk fun _ => .error reason) where
  grows _ _ _ run := by cases run
  keeps _ _ _ run := by cases run
  done _ _ _ run := by cases run
  room _ _ _ run _ := by cases run

theorem typed {name : Str} {recorded : Recorded} (write : FieldType → Serializer (HVec capacity) Unit)
    {write' : FieldType → Serializer (List UInt8) Unit}
    (recorded_eq : ∀ visitor : FieldVisitor (HVec capacity), visitor.record name recorded = visitor.recordTyped name write)
    (recorded_eq' : ∀ visitor : FieldVisitor (List UInt8), visitor.record name recorded = visitor.recordTyped name write')
    (follows : ∀ type, Follows (write type) (write' type)) :
    Follows (visitOne name recorded : Serializer (HVec capacity) Unit) (visitOne name recorded) := by
  rw [visitOne_typed recorded_eq, visitOne_typed recorded_eq']
  cases types name.text with
  | none => exact panic _
  | some type => exact follows type

theorem visitOne (name : Str) (recorded : Recorded) :
    Follows (visitOne name recorded : Serializer (HVec capacity) Unit) (visitOne name recorded) := by
  cases recorded with
  | u64 value =>
    apply typed (fun type => type.writeU64 name value) (fun _ => rfl) fun _ => rfl
    intro type
    cases type with
    | string => exact throw _
    | _ => exact (str name).bind fun _ => extend _
  | str value =>
    apply typed (fun type => type.writeStr name value) (fun _ => rfl) fun _ => rfl
    intro type
    cases type with
    | string => exact (str name).bind fun _ => str value
    | _ => exact throw _
  | debug value =>
    apply typed (fun type => type.writeDebug name value) (fun _ => rfl) fun _ => rfl
    intro type
    cases type with
    | string => exact (str name).bind fun _ => collectStr value
    | _ => exact throw _
  | f64 | i64 | i128 | u128 | bool => exact panic _

theorem visit (fields : List (Str × Option Recorded)) :
    Follows (visit fields : Serializer (HVec capacity) Unit) (visit fields) := by
  induction fields with
  | nil => exact pure ()
  | cons field fields ih =>
    obtain ⟨name, recorded⟩ := field
    cases recorded with
    | none => exact ih
    | some recorded =>
      have both : Follows (Ktrace.visitOne name recorded >>= fun _ => Ktrace.visit fields)
          (Ktrace.visitOne name recorded >>= fun _ => Ktrace.visit fields) := (visitOne name recorded).bind fun _ => ih
      refine ⟨?_, ?_, ?_, ?_⟩
      · intro data result data' run
        exact both.grows _ _ _ (visit_cons_ok run)
      · intro vec result vec' run
        exact both.keeps _ _ _ (visit_cons_ok run)
      · intro vec a vec' run
        exact visit_cons_done (both.done _ _ _ (visit_cons_ok run))
      · intro vec a data' run fits
        obtain ⟨vec', written, same⟩ := both.room vec a data' (visit_cons_ok run) fits
        exact ⟨vec', visit_cons_done written, same⟩

theorem parent (parent : Parent) : Follows (parent.serialize : Serializer (HVec capacity) Unit) parent.serialize := by
  cases parent with
  | root => exact extend _
  | current _ => exact (extend _).bind fun _ => extend _
  | explicit _ => exact (extend _).bind fun _ => extend _

theorem metadata (metadata : Metadata Str) :
    Follows (metadata.serialize : Serializer (HVec capacity) Unit) metadata.serialize := by
  apply (str metadata.name).bind
  intro _
  apply (str metadata.target).bind
  intro _
  apply (extend (Varint.encode 5 metadata.level.index.toNat)).bind
  intro _
  apply (option str metadata.file).bind
  intro _
  exact option (fun _ => extend _) metadata.line

theorem fields (values : ValueSet) :
    Follows (serializeFields values : Serializer (HVec capacity) Unit) (serializeFields values) :=
  (extend _).bind fun _ => visit values.fields

theorem contents (m : SenderMessage) : Follows (m.contents : Serializer (HVec capacity) Unit) m.contents := by
  cases m with
  | spanCreated span =>
    apply (extend (Varint.encode 10 span.id.toNat)).bind
    intro _
    apply (parent span.parent).bind
    intro _
    exact (metadata span.metadata).bind fun _ => fields span.fields
  | event e =>
    apply (parent e.spanId).bind
    intro _
    exact (metadata e.metadata).bind fun _ => fields e.fields
  | spanEntered _ _ => exact (extend _).bind fun _ => extend _
  | spanExited _ _ => exact (extend _).bind fun _ => extend _
  | spanClosed _ => exact extend _

theorem message (m : SenderMessage) : Follows (m.serialize : Serializer (HVec capacity) Unit) m.serialize :=
  (extend _).bind fun _ => contents m

end Follows

end Platypos.Ktrace
