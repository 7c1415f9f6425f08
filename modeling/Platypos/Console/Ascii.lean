import Platypos.Console.Slicing

namespace Platypos.Console

open Display Outcome Exec

variable {D ε : Type}

def Printable (ch : Char) : Prop := ch = '\n' ∨ ' ' ≤ ch ∧ ch ≤ '~'

instance (ch : Char) : Decidable (Printable ch) := inferInstanceAs (Decidable (_ ∨ _))

theorem Printable.utf8Size {ch : Char} (printable : Printable ch) : ch.utf8Size = 1 := by
  rcases printable with rfl | ⟨_, last⟩
  · decide
  · rw [Char.utf8Size_eq_one_iff]
    exact UInt32.le_trans (Char.le_def.mp last) (by decide)

/-- What is written is printable ASCII in lines. -/
def Call.Printable : Call → Prop
  | .write s => ∀ ch ∈ s, Console.Printable ch
  | .newline => True
  | .clear => True

instance : ∀ call : Call, Decidable call.Printable
  | .write s => List.decidableBAll Console.Printable s
  | .newline => .isTrue trivial
  | .clear => .isTrue trivial

section Measure

variable (canvas : Canvas D ε)

theorem measureString_ascii {ch : Char} (printable : Printable ch) (cursor : Point) :
    canvas.utf8Target.measureString [ch] cursor = canvas.target.measureString [ch] cursor := by
  simp only [Canvas.utf8Target, Canvas.target, Utf8.byteLength_cons, Utf8.byteLength_nil, printable.utf8Size,
    List.length_singleton]

theorem breaks_ascii (console : Console D) (lineWidth : Nat) {ch : Char} (printable : Printable ch) :
    breaks canvas.utf8Target console lineWidth ch = breaks canvas.target console lineWidth ch := by
  rw [breaks, breaks, measureString_ascii canvas printable]
  rfl

theorem lay_ascii (console : Console D) (line : List Char) (lineWidth : Nat) {rest : List Char}
    (printable : ∀ ch ∈ rest, Printable ch) :
    lay canvas.utf8Target console line lineWidth rest = lay canvas.target console line lineWidth rest := by
  induction rest generalizing console line lineWidth with
  | nil => rfl
  | cons ch rest ih =>
    obtain ⟨here, there⟩ := List.forall_mem_cons.mp printable
    rw [lay, lay, breaks_ascii canvas console lineWidth here]
    congr 1
    funext verdict
    simp only [ih _ _ _ there]
    rfl

/-- The console measures one character at a time, so that nothing but their bytes tells the targets apart. -/
theorem step_ascii (console : Console D) {call : Call} (printable : call.Printable) :
    console.step canvas.utf8Target call = console.step canvas.target call := by
  cases call with
  | write s =>
    rw [step, step, write_eq, write_eq, lay_ascii canvas console [] _ printable]
    rfl
  | newline => rfl
  | clear => rfl

variable {calls : List Call} (printable : ∀ call ∈ calls, call.Printable) (console : Console D)

include printable

theorem exec_ascii : exec (step canvas.utf8Target) console calls = exec (step canvas.target) console calls :=
  exec_congr (fun call member console => step_ascii canvas console (printable call member)) console

theorem meets_ascii {condition : Console D → Call → Prop} :
    Meets (step canvas.utf8Target) condition console calls ↔ Meets (step canvas.target) condition console calls :=
  meets_congr (fun call member console => step_ascii canvas console (printable call member)) console

end Measure

end Platypos.Console
