import Platypos.Ktrace.EndToEnd
import Platypos.Ktrace.Mirror
import Platypos.Ktrace.Trees

namespace Platypos.Ktrace

open Outcome Exec

open PlatyposSlab (Idx Book)

namespace Forest

variable {S E A : Type}

/-- The forest as the receiver should see it. -/
def received : Forest Str ValueSet ValueSet → Option (Forest String (List (String × Value)) (List (String × Value)))
  | nil => some nil
  | event metadata fields rest => do
    let fields ← fields.received
    let rest ← rest.received
    return event metadata.received fields rest
  | span id closed metadata fields children rest => do
    let fields ← fields.received
    let children ← children.received
    let rest ← rest.received
    return span id closed metadata.received fields children rest

end Forest

/-- The calls nest spans and events like this: each span is created, entered, and exited after what is in it, and all
    take their parents from the context. Handles may be cloned and closed and the queue emptied at any point. -/
inductive Scoped {P : Type} : List (Call P) → List Reply → Forest Str ValueSet ValueSet → Prop where
  | nil : Scoped [] [] .nil
  | quiet {call : Call P} {reply : Reply} {calls : List (Call P)} {replies : List Reply}
      {forest : Forest Str ValueSet ValueSet} (silent : ∀ id, call.message id = none)
      (rest : Scoped calls replies forest) : Scoped (call :: calls) (reply :: replies) forest
  | event {p : P} {e : Attributes} {reply : Reply} {calls : List (Call P)} {replies : List Reply}
      {forest : Forest Str ValueSet ValueSet} (contextual : e.parent = .contextual)
      (rest : Scoped calls replies forest) :
      Scoped (.event p e :: calls) (reply :: replies) (.event e.metadata e.values forest)
  | span {p : P} {a : Attributes} {idx : Idx} {id : UInt64} {made entered exited : Reply} {inner calls : List (Call P)}
      {answers replies : List Reply} {children forest : Forest Str ValueSet ValueSet} (contextual : a.parent = .contextual)
      (answer : made.answer = .created idx id) (inside : Scoped inner answers children)
      (rest : Scoped calls replies forest) :
      Scoped (.newSpan p a :: .enter p id :: (inner ++ .exit p id :: calls))
        (made :: entered :: (answers ++ exited :: replies)) (.span id false a.metadata a.values children forest)

namespace KTrace

variable {P : Type}

theorem Issued.nodup {s : KTrace P} {b : Book (Metadata Str)} {replies : List Reply} (issued : Issued replies b)
    (tracks : s.Tracks b) : (created replies).Nodup := by
  have keys := tracks.faithful.keys.map (Function.LeftInverse.injective Idx.ofU64_toU64)
  rw [List.map_map] at keys
  rw [issued.ids, List.nodup_reverse]
  exact keys

end KTrace

namespace Scoped

variable {P : Type} {calls : List (Call P)} {replies : List Reply} {forest : Forest Str ValueSet ValueSet}

theorem length_eq (nested : Scoped calls replies forest) : calls.length = replies.length := by
  induction nested with
  | nil => rfl
  | quiet _ _ ih => simp only [List.length_cons, ih]
  | event _ _ ih => simp only [List.length_cons, ih]
  | span _ _ _ _ ih ih' => simp only [List.length_cons, List.length_append, ih, ih']

end Scoped

namespace Formatter

end Formatter

namespace KTrace

variable {P : Type} [DecidableEq P]

end KTrace

end Platypos.Ktrace
