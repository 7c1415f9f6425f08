import Platypos.Ktrace.Proto

namespace Platypos.Ktrace

open PrefixCodec

/-- What the sender writes is read as `a`, whatever follows it, and asks for more if it is cut short. -/
def Codes {α : Type} (sender : Serializer (List UInt8) Unit) (receiver : Deserializer α) (a : α) : Prop :=
  ∃ bytes, (∀ data, sender.run.run data = .ok (.ok (), data ++ bytes)) ∧
    Reads PostcardError.deserializeUnexpectedEnd receiver bytes a

namespace Codes

variable {α β : Type} {sender sender' : Serializer (List UInt8) Unit} {receiver : Deserializer α}
  {next : α → Deserializer β} {a : α} {b : β}

theorem bind (first : Codes sender receiver a) (second : Codes sender' (next a) b) :
    Codes (sender >>= fun _ => sender') (receiver >>= next) b := by
  obtain ⟨bytes, written, read⟩ := first
  obtain ⟨bytes', written', read'⟩ := second
  refine ⟨bytes ++ bytes', ?_, read.bind read'⟩
  intro data
  rw [← List.append_assoc, ← written' (data ++ bytes), Serializer.bind_run (written data)]

theorem last (codes : Codes sender receiver a) (done : next a = pure b) : Codes sender (receiver >>= next) b := by
  obtain ⟨bytes, written, read⟩ := codes
  refine ⟨bytes, written, ?_⟩
  have both : Reads PostcardError.deserializeUnexpectedEnd (receiver >>= next) (bytes ++ []) b := by
    apply read.bind
    rw [done]
    exact Reads.pure b
  rwa [List.append_nil] at both

theorem nothing (a : α) : Codes (pure ()) (pure a) a := by
  refine ⟨[], ?_, Reads.pure a⟩
  intro data
  rw [List.append_nil]
  rfl

theorem extend {bytes : List UInt8} (read : Reads PostcardError.deserializeUnexpectedEnd receiver bytes a) :
    Codes (Serializer.extend bytes) receiver a :=
  ⟨bytes, fun _ => rfl, read⟩

theorem u32 (value : UInt32) : Codes (Serializer.u32 value) Deserializer.u32 value := by
  have fits : value.toNat < ((15 : UInt8).toNat + 1) * 128 ^ 4 := value.toNat_lt
  apply (extend (Varint.reads_decode _ _ 15 (by decide) fits)).last
  rw [UInt32.ofNat_toNat]

theorem u64 (value : UInt64) : Codes (Serializer.u64 value) Deserializer.u64 value := by
  have fits : value.toNat < ((1 : UInt8).toNat + 1) * 128 ^ 9 := value.toNat_lt
  apply (extend (Varint.reads_decode _ _ 1 (by decide) fits)).last
  rw [UInt64.ofNat_toNat]

theorem usize {value : Nat} (fits : value < 2^63) : Codes (Serializer.usize value) Deserializer.usize value := by
  have room : value < ((1 : UInt8).toNat + 1) * 128 ^ 9 := by
    show value < 2 * 128 ^ 9
    omega
  exact extend (Varint.reads_decode _ _ 1 (by decide) room)

theorem text (text : String) :
    Codes (Serializer.extend (bytesOf text)) (Deserializer.text text.utf8ByteSize) text := by
  have taken : Reads PostcardError.deserializeUnexpectedEnd (Deserializer.take text.utf8ByteSize) (bytesOf text)
      (bytesOf text) := by
    rw [← length_bytesOf]
    exact Deserializer.reads_take (bytesOf text)
  apply (extend taken).last
  rw [fromUTF8_bytesOf]

theorem str (value : Str) : Codes (Serializer.str value) Deserializer.str value.text :=
  (usize value.fits).bind (text value.text)

theorem collectStr (value : DebugText) :
    Codes (Serializer.collectStr value) Deserializer.str (String.join value.pieces) := by
  have fits := value.fits
  unfold Serializer.collectStr
  rw [← utf8ByteSize_join]
  apply (usize fits).bind
  obtain ⟨bytes, written, read⟩ := text (String.join value.pieces)
  refine ⟨bytes, ?_, read⟩
  intro data
  rw [← written data, Serializer.extend_run, bytesOf_join]
  exact Serializer.forM_writeStr_run value.pieces data

theorem option {γ : Type} {some' : γ → Serializer (List UInt8) Unit} {value : Option γ} {f : γ → α}
    (codes : ∀ v, Codes (some' v) receiver (f v)) :
    Codes (Serializer.option some' value) (Deserializer.option receiver) (value.map f) := by
  cases value with
  | none => exact (extend (Varint.reads_pop _ 0)).last rfl
  | some v => exact (extend (Varint.reads_pop _ 1)).bind ((codes v).last rfl)

end Codes

end Platypos.Ktrace
