import Mathlib.Data.List.ReduceOption
import Platypos.Library.Margins
import Platypos.Ktrace.Formatter

namespace Platypos.Ktrace

open Exec Margins

def Level.text : Level → List Char
  | .error => "ERROR".toList
  | .warn => "WARN".toList
  | .info => "INFO".toList
  | .debug => "DEBUG".toList
  | .trace => "TRACE".toList

namespace Formatter

inductive Style where
  | red
  | yellow
  | green
  | blue
  | dimmed
  | bold
  | magenta
  | cyan

/-- What `if_supports_color` makes of a text. Colours add no lines. -/
structure Palette where
  paint : Style → List Char → List Char
  flat : ∀ style text, '\n' ∉ text → '\n' ∉ paint style text

def Palette.plain : Palette := ⟨fun _ text => text, fun _ _ flat => flat⟩

/-- The names of the places in the kernel, one line each. -/
structure Symbolizer where
  symbolize : UInt64 → List Char
  flat : ∀ address, '\n' ∉ symbolize address

/-- `Indent::spaces`. -/
def indent (depth : Nat) : List Char := (List.replicate depth "  ".toList).flatten

def levelStyle : Level → Style
  | .error => .red
  | .warn => .yellow
  | .info => .green
  | .debug => .blue
  | .trace => .dimmed

/-- `{:#012x}`. -/
def hexAddress (address : UInt64) : List Char := '0' :: 'x' :: (Nat.toDigits 16 address.toNat).leftpad 10 '0'

/-- `SpanName`. -/
def SpanState.title (span : SpanState String) : List Char :=
  span.target.toList ++ "::".toList ++ span.name.toList ++ '#' :: Nat.toDigits 10 span.id.toNat

section Printing

variable (palette : Palette) (symbolizer : Symbolizer)

def levelColor (level : Level) (text : List Char) : List Char := palette.paint (levelStyle level) text

def writeLines (depth : Nat) (isFirst : Bool) : List (List Char) → List Char
  | [] => []
  | line :: rest =>
    (if isFirst then [] else indent depth) ++ line ++ (if rest.isEmpty then [] else ['\n']) ++ writeLines depth false rest

def writeValue (depth : Nat) : Value → List Char
  | .kernelAddress address => symbolizer.symbolize address
  | .string s => writeLines depth true (lines s.toList)
  | .u64 x => Nat.toDigits 10 x.toNat
  | .physicalAddress address => palette.paint .magenta (hexAddress address)
  | .virtualAddress address => palette.paint .cyan (hexAddress address)

def displayFields (depth : Nat) (isFirst : Bool) : List (String × Value) → List Char
  | [] => []
  | (name, value) :: fields =>
    (if isFirst then [] else [' ']) ++ (if name = "message" then [] else palette.paint .bold name.toList ++ ": ".toList) ++
      writeValue palette symbolizer depth value ++ displayFields depth false fields

namespace Line

abbrev Printed := Line String (List (String × Value)) (List (String × Value))

def depth : Printed → Nat
  | .opened span _ _ => span.depth
  | .logged depth _ _ => depth
  | .ended span => span.depth

def mark : Printed → Char
  | .opened _ _ _ => '╔'
  | .logged _ _ _ => '└'
  | .ended _ => '╚'

/-- What is printed for a line. The fields of a span have a line of their own. -/
def text : Printed → List Char
  | .opened span parent fields =>
    indent span.depth ++ "╔ ".toList ++ levelColor palette span.level span.level.text ++ ' ' :: span.title ++
      parent.elim [] (fun parent => " ⇜ ".toList ++ parent.title) ++ ['\n'] ++
      if fields.isEmpty then []
      else indent span.depth ++ "  ".toList ++ displayFields palette symbolizer (span.depth + 2) true fields ++ ['\n']
  | .logged depth level fields =>
    indent depth ++ "└ ".toList ++ levelColor palette level level.text ++
      ' ' :: displayFields palette symbolizer (depth + 1) true fields ++ ['\n']
  | .ended span =>
    indent span.depth ++ "╚ ".toList ++ levelColor palette span.level "END".toList ++ ' ' :: span.title ++ ['\n']

end Line

end Printing

section Margins

theorem indent_succ (depth : Nat) : indent (depth + 1) = indent depth ++ "  ".toList := by
  rw [indent, List.replicate_succ', List.flatten_append, List.flatten_singleton]
  rfl

theorem indent_flat (depth : Nat) : '\n' ∉ indent depth := by
  induction depth with
  | zero => simp [indent]
  | succ depth ih =>
    rw [indent_succ, List.mem_append, not_or]
    exact ⟨ih, by decide⟩

theorem indent_initial (depth : Nat) : indent depth <+: indent (depth + 1) := by
  rw [indent_succ]
  exact List.prefix_append _ _

theorem notMem_hexAddress {c : Char} (other : ∀ d, Nat.digitChar d ≠ c) (cross : c ≠ 'x') (address : UInt64) :
    c ∉ hexAddress address := by
  have zero : c ≠ '0' := (other 0).symm
  have digits : c ∉ Nat.toDigits 16 address.toNat := Digits.notMem_toDigits other _
  simp only [hexAddress, List.leftpad, List.mem_cons, List.mem_append, List.mem_replicate, not_or]
  exact ⟨zero, cross, by simp [zero], digits⟩

theorem hexAddress_flat (address : UInt64) : '\n' ∉ hexAddress address :=
  notMem_hexAddress (fun _ => Nat.digitChar_ne '\n' (by decide)) (by decide) address

variable {palette : Palette} {symbolizer : Symbolizer}

theorem writeLines_hangs (depth : Nat) {text : List (List Char)} (flat : ∀ line ∈ text, '\n' ∉ line) (isFirst : Bool) :
    Hangs (indent depth) (writeLines depth isFirst text) := by
  induction text generalizing isFirst with
  | nil => exact hangs_of_flat (by simp [writeLines])
  | cons line rest ih =>
    obtain ⟨here, later⟩ := List.forall_mem_cons.mp flat
    have front : Hangs (indent depth) ((if isFirst then [] else indent depth) ++ line) := by
      refine .append ?_ (hangs_of_flat here)
      cases isFirst
      · exact hangs_of_flat (indent_flat depth)
      · exact hangs_of_flat (by simp)
    rw [writeLines, List.append_assoc]
    apply front.append
    cases rest with
    | nil => exact hangs_of_flat (by simp [writeLines])
    | cons next rest =>
      refine (ih later false).newline ?_
      rw [writeLines, if_neg (by decide), List.append_assoc, List.append_assoc]
      exact List.prefix_append _ _

theorem writeValue_hangs (depth : Nat) (value : Value) :
    Hangs (indent depth) (writeValue palette symbolizer depth value) := by
  cases value with
  | kernelAddress address => exact hangs_of_flat (symbolizer.flat address)
  | physicalAddress address => exact hangs_of_flat (palette.flat _ _ (hexAddress_flat address))
  | virtualAddress address => exact hangs_of_flat (palette.flat _ _ (hexAddress_flat address))
  | string s => exact writeLines_hangs depth (fun line member => lines_flat member) true
  | u64 x => exact hangs_of_flat (toDigits_flat 10 _)

/-- The names of the fields have no line breaks. -/
def CleanFields (fields : List (String × Value)) : Prop := ∀ field ∈ fields, '\n' ∉ field.1.toList

theorem displayFields_hangs (depth : Nat) {fields : List (String × Value)} (clean : CleanFields fields)
    (isFirst : Bool) : Hangs (indent depth) (displayFields palette symbolizer depth isFirst fields) := by
  induction fields generalizing isFirst with
  | nil => exact hangs_of_flat (by simp [displayFields])
  | cons field fields ih =>
    obtain ⟨here, later⟩ := List.forall_mem_cons.mp clean
    rw [displayFields]
    refine .append (.append (.append ?_ ?_) (writeValue_hangs depth _)) (ih later false)
    · apply hangs_of_flat
      split <;> simp
    · apply hangs_of_flat
      split
      · simp
      · rw [List.mem_append, not_or]
        exact ⟨palette.flat _ _ here, by decide⟩

def SpanState.Clean (span : SpanState String) : Prop := '\n' ∉ span.target.toList ∧ '\n' ∉ span.name.toList

theorem SpanState.Clean.title {span : SpanState String} (clean : span.Clean) : '\n' ∉ span.title := by
  simp only [SpanState.title, List.mem_append, List.mem_cons, not_or]
  exact ⟨⟨⟨clean.1, by decide⟩, clean.2⟩, by decide, toDigits_flat 10 _⟩

theorem levelColor_flat (level : Level) {text : List Char} (flat : '\n' ∉ text) :
    '\n' ∉ levelColor palette level text :=
  palette.flat _ _ flat

theorem level_flat (level : Level) : '\n' ∉ level.text := by
  cases level <;> decide

def Line.Clean : Line.Printed → Prop
  | .opened span parent fields => span.Clean ∧ (∀ s ∈ parent, s.Clean) ∧ CleanFields fields
  | .logged _ _ fields => CleanFields fields
  | .ended span => span.Clean

/-- The margin, the mark and the level, with which each line starts. -/
theorem start_flat (depth : Nat) {mark text : List Char} (marked : '\n' ∉ mark) (level : Level) (flat : '\n' ∉ text) :
    '\n' ∉ indent depth ++ mark ++ levelColor palette level text := by
  simp only [List.mem_append, not_or]
  exact ⟨⟨indent_flat depth, marked⟩, levelColor_flat level flat⟩

/-- What is printed for a line starts with its margin and its mark, and goes on to the right of them. -/
theorem text_hangs {line : Line.Printed} (clean : line.Clean) :
    ∃ body, line.text palette symbolizer = body ++ ['\n'] ∧ indent line.depth ++ [line.mark, ' '] <+: body ∧
      Hangs (indent (line.depth + 1)) body := by
  cases line with
  | opened span parent fields =>
    obtain ⟨named, above, clean⟩ := clean
    let heading := indent span.depth ++ "╔ ".toList ++ levelColor palette span.level span.level.text ++ ' ' :: span.title ++
      parent.elim [] (fun parent => " ⇜ ".toList ++ parent.title)
    have starts : indent span.depth ++ ['╔', ' '] <+: heading := by
      simp only [heading, List.append_assoc]
      exact ⟨_, List.append_assoc _ _ _⟩
    have flat : '\n' ∉ heading := by
      have title : '\n' ∉ ' ' :: span.title := by
        rw [List.mem_cons, not_or]
        exact ⟨by decide, named.title⟩
      have origin : '\n' ∉ parent.elim [] (fun parent => " ⇜ ".toList ++ parent.title) := by
        cases parent with
        | none => simp
        | some parent =>
          rw [Option.elim_some, List.mem_append, not_or]
          exact ⟨by decide, (above parent rfl).title⟩
      rw [List.mem_append, List.mem_append, not_or, not_or]
      exact ⟨⟨start_flat span.depth (by decide) span.level (level_flat _), title⟩, origin⟩
    cases fields with
    | nil => exact ⟨heading, List.append_nil _, starts, hangs_of_flat flat⟩
    | cons field fields =>
      let below := indent (span.depth + 1) ++ displayFields palette symbolizer (span.depth + 2) true (field :: fields)
      have hangs : Hangs (indent (span.depth + 1)) below :=
        .append (hangs_of_flat (indent_flat _)) ((displayFields_hangs _ clean true).mono (indent_initial _))
      refine ⟨heading ++ '\n' :: below, ?_, starts.trans (List.prefix_append _ _), ?_⟩
      · simp only [Line.text, heading, below, indent_succ, List.isEmpty_cons, Bool.false_eq_true, if_false,
          List.append_assoc, List.cons_append, List.nil_append]
      · exact .append (hangs_of_flat flat) (hangs.newline (List.prefix_append _ _))
  | logged depth level fields =>
    have fields' : Hangs (indent (depth + 1)) (displayFields palette symbolizer (depth + 1) true fields) :=
      displayFields_hangs _ clean true
    have space : Hangs (indent (depth + 1)) [' '] := hangs_of_flat (by decide)
    refine ⟨_, rfl, ?_, .append (hangs_of_flat (start_flat depth (by decide) level (level_flat _)))
      (space.append fields')⟩
    rw [List.append_assoc]
    exact List.prefix_append _ _
  | ended span =>
    have title : '\n' ∉ ' ' :: span.title := by
      rw [List.mem_cons, not_or]
      exact ⟨by decide, clean.title⟩
    refine ⟨_, rfl, ?_, .append (hangs_of_flat (start_flat span.depth (by decide) span.level (by decide)))
      (hangs_of_flat title)⟩
    rw [List.append_assoc]
    exact List.prefix_append _ _

end Margins

/-- The names that are printed for the message have no line breaks. The values may have some. -/
def CleanMessage : ReceiverMessage → Prop
  | .spanCreated span =>
    '\n' ∉ span.metadata.target.toList ∧ '\n' ∉ span.metadata.name.toList ∧ CleanFields span.fields
  | .event e => CleanFields e.fields
  | _ => True

def Tidy (f : Formatter String) : Prop := ∀ id span, f.spans id = some span → span.Clean

theorem Tidy.update {f : Formatter String} (tidy : f.Tidy) (id : UInt64) {span : Option (SpanState String)}
    (clean : ∀ s ∈ span, s.Clean) : Tidy { f with spans := Function.update f.spans id span } := by
  intro id' state found
  simp only at found
  by_cases same : id' = id
  · rw [same, Function.update_self] at found
    exact clean state found
  · rw [Function.update_of_ne same] at found
    exact tidy id' state found

theorem Tidy.receive {f f' : Formatter String} (tidy : f.Tidy) {m : ReceiverMessage} (clean : CleanMessage m)
    {line : Option Line.Printed} (received : f.receive m = .ok (line, f')) : f'.Tidy ∧ ∀ l ∈ line, l.Clean := by
  cases m with
  | spanCreated span =>
    obtain ⟨target, name, fields⟩ := clean
    cases received
    refine ⟨tidy.update span.id ?_, ?_⟩
    · intro state made
      cases made
      exact ⟨target, name⟩
    · intro l printed
      cases printed
      refine ⟨⟨target, name⟩, ?_, fields⟩
      intro parent known
      obtain ⟨id, _, found⟩ := Option.bind_eq_some_iff.mp known
      exact tidy id parent found
  | event e =>
    cases received
    refine ⟨tidy, ?_⟩
    intro l printed
    cases printed
    exact clean
  | spanClosed id =>
    cases received
    refine ⟨tidy.update id (by simp), ?_⟩
    intro l printed
    obtain ⟨span, found, rfl⟩ := Option.map_eq_some_iff.mp printed
    exact tidy id span found
  | spanEntered id processor =>
    cases received
    exact ⟨tidy, by simp⟩
  | spanExited id processor =>
    rw [Formatter.receive] at received
    split at received
    · cases received
      exact ⟨tidy, by simp⟩
    · cases received

theorem Tidy.run {f f' : Formatter String} (tidy : f.Tidy) {messages : List ReceiverMessage}
    (clean : ∀ m ∈ messages, CleanMessage m) {shown : List (Option Line.Printed)}
    (ran : exec Formatter.receive f messages = .ok (shown, f')) : ∀ line ∈ shown.reduceOption, line.Clean := by
  induction messages generalizing f shown with
  | nil =>
    cases ran
    simp
  | cons m messages ih =>
    obtain ⟨here, later⟩ := List.forall_mem_cons.mp clean
    obtain ⟨line, mid, rest, first, more, rfl⟩ := exec_cons_ok ran
    obtain ⟨tidy', printed⟩ := tidy.receive here first
    intro l member
    rw [List.reduceOption_mem_iff, List.mem_cons] at member
    rcases member with same | member
    · exact printed l same.symm
    · exact ih tidy' later more l (List.reduceOption_mem_iff.mpr member)

/-- Whatever messages come, what is printed for each of them starts with the margin of its depth and its mark, and all
    its further lines are to the right of the mark, also those of values that have several lines. -/
theorem printed_lines_indented (palette : Palette) (symbolizer : Symbolizer) {messages : List ReceiverMessage}
    (clean : ∀ m ∈ messages, CleanMessage m) {shown : List (Option Line.Printed)} {f : Formatter String}
    (ran : exec receive new messages = .ok (shown, f)) :
    ∀ line ∈ shown.reduceOption, ∃ body, line.text palette symbolizer = body ++ ['\n'] ∧
      indent line.depth ++ [line.mark, ' '] <+: body ∧ Hangs (indent (line.depth + 1)) body := by
  have tidy : (new : Formatter String).Tidy := by
    intro id span found
    cases found
  intro line member
  exact text_hangs (tidy.run clean ran line member)

/-- A span whose field has two lines. -/
def severalLines : List ReceiverMessage :=
  [.spanCreated ⟨1, .root, ⟨"boot", "kernel", .info, none, none⟩, [("note", .string "one\ntwo")]⟩]

theorem printed_lines_indented_several :
    ∃ (shown : List (Option Line.Printed)) (f : Formatter String), exec receive new severalLines = .ok (shown, f) ∧
      (shown.reduceOption.flatMap fun line => line.text .plain ⟨fun _ => [], fun _ => by simp⟩) =
        "╔ INFO kernel::boot#1\n  note: one\n    two\n".toList ∧
      ∀ line ∈ shown.reduceOption, ∃ body, line.text .plain ⟨fun _ => [], fun _ => by simp⟩ = body ++ ['\n'] ∧
        indent line.depth ++ [line.mark, ' '] <+: body ∧ Hangs (indent (line.depth + 1)) body := by
  have clean : ∀ m ∈ severalLines, CleanMessage m := by
    intro m member
    rw [List.mem_singleton.mp member]
    refine ⟨by decide, by decide, ?_⟩
    intro field listed
    rw [List.mem_singleton.mp listed]
    decide
  refine ⟨_, _, rfl, by decide, ?_⟩
  exact printed_lines_indented .plain ⟨fun _ => [], fun _ => by simp⟩ clean rfl

end Formatter

end Platypos.Ktrace
