import Platypos.Library.Exec
import Platypos.Ktrace.RoundTrip

namespace Platypos.Ktrace

namespace Formatter

/-- `fmt::SpanState`. -/
structure SpanState (S : Type) where
  depth : Nat
  target : S
  name : S
  level : Level
  id : UInt64

/-- What is printed for a message: the opening of a span with its parent, an event, or the end of a span. -/
inductive Line (S E A : Type) where
  | opened (span : SpanState S) (parent : Option (SpanState S)) (fields : A)
  | logged (depth : Nat) (level : Level) (fields : E)
  | ended (span : SpanState S)

end Formatter

/-- The maps of the formatter. The stacks have their tops first. -/
structure Formatter (S : Type) where
  spans : UInt64 → Option (Formatter.SpanState S)
  spanStacks : UInt32 → List UInt64

namespace Formatter

variable {S E A : Type}

def new : Formatter S := ⟨fun _ => none, fun _ => []⟩

def resolveParent (f : Formatter S) : Parent → Option UInt64
  | .root => none
  | .current processor => (f.spanStacks processor).head?
  | .explicit id => some id

def exitedNotCurrent : String := "Exited span was not current!"

/-- One message, of any sender and receiver types: the fields are only printed. -/
def receive (f : Formatter S) : Message S E A → Except String (Option (Line S E A) × Formatter S)
  | .spanCreated span =>
    let parent := (f.resolveParent span.parent).bind f.spans
    let depth := parent.elim 0 fun s => s.depth + 1
    let state := ⟨depth, span.metadata.target, span.metadata.name, span.metadata.level, span.id⟩
    .ok (some (.opened state parent span.fields), { f with spans := Function.update f.spans span.id (some state) })
  | .event e =>
    let depth := ((f.resolveParent e.spanId).bind f.spans).elim 0 SpanState.depth + 1
    .ok (some (.logged depth e.metadata.level e.fields), f)
  | .spanClosed id =>
    .ok ((f.spans id).map Line.ended, { f with spans := Function.update f.spans id none })
  | .spanEntered id processor =>
    .ok (none, { f with spanStacks := Function.update f.spanStacks processor (id :: f.spanStacks processor) })
  | .spanExited id processor =>
    if (f.spanStacks processor).head? = some id then
      .ok (none, { f with spanStacks := Function.update f.spanStacks processor (f.spanStacks processor).tail })
    else .error exitedNotCurrent

end Formatter

end Platypos.Ktrace
