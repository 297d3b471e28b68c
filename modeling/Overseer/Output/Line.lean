import Overseer.Output.Finding
import Overseer.Text.Numeral
import Overseer.Text.Search
import Overseer.Text.Word

set_option autoImplicit false

/-! # The lines of a report

A line of the report is `file`, up to four numbers each behind a colon, `: `, a severity word,
`: `, and a message, perhaps with an error code in brackets behind two blanks. The file is the
shortest beginning for which the rest has this form, so a file name with colons in it is cut
at the first place that could be a location.

One number is the line, two are line and column, four are start and end; three are a line and
an end. Numbers count from one in the report and from zero here. An end before the start
collapses to the start. -/

namespace Overseer.Output

open Overseer.Text

/-! ## The parts of a line -/

/-- The digits behind a colon. -/
def numberGroup? : List Char → Option (List Char × List Char)
  | ':' :: rest =>
    match rest.span isDigit with
    | ([], _) => none
    | r => some r
  | _ => none

/-- At most `n` numbers, each behind a colon. -/
def numberGroups : Nat → List Char → List (List Char) × List Char
  | 0, cs => ([], cs)
  | n + 1, cs =>
    match numberGroup? cs with
    | none => ([], cs)
    | some (digits, rest) =>
      let (more, rest) := numberGroups n rest
      (digits :: more, rest)

/-- The severity word between `: ` and `: `. -/
def severityWord? (cs : List Char) : Option (List Char × List Char) := do
  let cs ← dropFront? [':', ' '] cs
  let (word, rest) := cs.span isWord
  if word.isEmpty then none
  let rest ← dropFront? [':', ' '] rest
  return (word, rest)

/-- What follows the file name on a line. -/
structure Tail where
  /-- The digits of the numbers. -/
  numbers : List (List Char)
  severity : List Char
  /-- The message with the error code. -/
  body : List Char
  deriving DecidableEq, Repr

/-- Read what follows the file name. -/
def tail? (cs : List Char) : Option Tail := do
  let (numbers, rest) := numberGroups 4 cs
  let (severity, body) ← severityWord? rest
  return ⟨numbers, severity, body⟩

/-- The shortest non-empty file name behind which a tail follows; `before` holds, in reverse,
characters that belong to the file name already. -/
def splitFile? (before : List Char) : List Char → Option (List Char × Tail)
  | [] => none
  | c :: cs =>
    match tail? cs with
    | some t => some ((c :: before).reverse, t)
    | none => splitFile? (c :: before) cs

/-- Characters of an error code. -/
def isCodeChar (c : Char) : Bool := isWord c || c == '-'

/-- Split an error code in brackets, behind two blanks, from the end of a message. -/
def splitCode (body : List Char) : List Char × Option (List Char) :=
  match body.reverse with
  | ']' :: rest =>
    match rest.span isCodeChar with
    | ([], _) => (body, none)
    | (code, '[' :: ' ' :: ' ' :: message) => (message.reverse, some code.reverse)
    | _ => (body, none)
  | _ => (body, none)

/-- A line without the line feed that may end it; `none` if one stands elsewhere. -/
def oneLine? (cs : List Char) : Option (List Char) :=
  let cs := if cs.getLast? = some '\n' then cs.dropLast else cs
  if cs.contains '\n' then none else some cs

/-- The file and tail of a line, if it is a statement of the checker. -/
def split? (cs : List Char) : Option (List Char × Tail) := oneLine? cs >>= splitFile? []

/-- Whether a line is a statement of the checker. -/
def isStatement (line : String) : Bool := (split? line.toList).isSome

/-! ## Positions -/

/-- Start and end of a statement. -/
structure Span where
  line : Int
  column : Int
  endLine : Int
  endColumn : Int
  deriving DecidableEq, Repr

/-- A number of the report as a position that counts from zero. -/
def zeroBased (n : Nat) : Int := ((n - 1 : Nat) : Int)

/-- Whether the end lies before the start. -/
def Span.isReversed (s : Span) : Bool :=
  s.endLine < s.line || (s.endLine == s.line && s.endColumn < s.column)

/-- A span that ends before it starts becomes a caret at its start. -/
def Span.collapse (s : Span) : Span :=
  if s.isReversed then ⟨s.line, s.column, s.line, s.column⟩ else s

/-- The span that the numbers of a line stand for. -/
def spanOf : List Nat → Span
  | [] => ⟨0, 0, 0, 0⟩
  | [l] => ⟨zeroBased l, 0, zeroBased l, 0⟩
  | [l, c] => ⟨zeroBased l, zeroBased c, zeroBased l, zeroBased c⟩
  | [l, el, ec] => Span.collapse ⟨zeroBased l, 0, zeroBased el, zeroBased ec⟩
  | l :: c :: el :: ec :: _ =>
    Span.collapse ⟨zeroBased l, zeroBased c, zeroBased el, zeroBased ec⟩

/-! ## Whole lines -/

/-- Read the numbers of a split line. -/
def finding (file : List Char) (t : Tail) : Except TooManyDigits Finding := do
  let span := spanOf (← t.numbers.mapM readNumeral)
  let (message, code) := splitCode t.body
  return {
    file := String.ofList file
    line := span.line
    column := span.column
    endLine := span.endLine
    endColumn := span.endColumn
    severity := String.ofList t.severity
    message := String.ofList message
    code := code.map String.ofList }

/-- Read a line; banners, summaries and other noise give nothing. -/
def parseLine (line : String) : Except TooManyDigits (Option Finding) :=
  match split? line.toList with
  | none => .ok none
  | some (file, t) => (finding file t).map some

end Overseer.Output
