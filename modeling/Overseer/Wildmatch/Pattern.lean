import Overseer.Fault.Basic
import Overseer.Wildmatch.Glob

set_option autoImplicit false

/-! # Lists of path patterns

Each line of a list selects paths or, with an exclamation mark, takes them back; the last line
that matches a path decides. A pattern without an inner slash matches a name at any depth, one
with a slash is tied to the top. `**` stands for any directories, and a slash at the end asks
for something below. Empty lines, comments and patterns with an open bracket match nothing. -/

namespace Overseer.Wildmatch

open Overseer.Text

/-- What a pattern looks for. -/
inductive Form where
  /-- Pieces at the start of the path. -/
  | front (pieces : List Piece)
  /-- A slash anywhere. -/
  | slash
  /-- A character on the first lines, anywhere. -/
  | anything
  deriving DecidableEq, Repr

/-- A pattern that selects paths or takes them back. -/
structure Rule where
  selects : Bool
  form : Form
  deriving DecidableEq, Repr

/-- Why a segment of a pattern cannot be read. -/
inductive Problem where
  /-- A bracket is not closed. -/
  | openBracket
  /-- A backslash with nothing behind it. -/
  | loneBackslash
  deriving DecidableEq, Repr

/-! ## Segments -/

/-- The ranges between brackets. -/
def bracketRanges : List Char → List (Char × Char)
  | a :: '-' :: b :: rest => (a, b) :: bracketRanges rest
  | a :: rest => (a, a) :: bracketRanges rest
  | [] => []

/-- Read a bracket behind its opening: the piece and the number of characters. -/
def bracket? (cs : List Char) : Option (Piece × Nat) :=
  let negated := cs.head? = some '!' || cs.head? = some '^'
  let body := if negated then cs.drop 1 else cs
  let first := if body.head? = some ']' then [']'] else []
  let after := body.drop first.length
  let inner := after.takeWhile (· != ']')
  if inner.length < after.length then
    some (.oneOf negated (bracketRanges (first ++ inner)),
      (if negated then 1 else 0) + first.length + inner.length + 1)
  else none

/-- Read a segment; `skip` characters belong to a piece already read. -/
def segmentFrom : Nat → List Char → Except Problem (List Piece)
  | _, [] => .ok []
  | skip + 1, _ :: cs => segmentFrom skip cs
  | 0, '\\' :: cs =>
    match cs with
    | [] => .error .loneBackslash
    | c :: _ => do return .char c :: (← segmentFrom 1 cs)
  | 0, '*' :: cs => do return .run :: (← segmentFrom 0 cs)
  | 0, '?' :: cs => do return .any :: (← segmentFrom 0 cs)
  | 0, '[' :: cs =>
    match bracket? cs with
    | none => .error .openBracket
    | some (piece, length) => do return piece :: (← segmentFrom length cs)
  | 0, c :: cs => do return .char c :: (← segmentFrom 0 cs)

/-- The segment for any directories. -/
def deep : List Char := ['*', '*']

/-- Read a segment that does not stand for any directories. -/
def segment (cs : List Char) : Except Problem (List Piece) :=
  if cs = ['*'] then .ok [.someRun] else segmentFrom 0 cs

/-! ## Patterns -/

/-- Runs of segments for any directories count once. -/
def collapseDeep : List (List Char) → List (List Char)
  | a :: b :: rest =>
    if a = deep && b = deep then collapseDeep (b :: rest) else a :: collapseDeep (b :: rest)
  | l => l

/-- The segments of a pattern in a standard form: tied to the top, with any directories in
front where it may match at any depth and behind where it asks for something below. -/
def standardSegments (segments : List (List Char)) : List (List Char) :=
  let tied := match segments with
    | [] :: rest => rest
    | [a] => if a = deep then segments else deep :: segments
    | [a, []] => if a = deep then segments else deep :: segments
    | _ => segments
  let closed := match tied.getLast? with
    | some [] => tied.dropLast ++ [deep]
    | _ => tied
  collapseDeep closed

/-- The pieces of segments behind the first one; `joined` tells whether a slash is needed
before a name. -/
def laterPieces (joined : Bool) : List (List Char) → Except Problem (List Piece)
  | [] => .ok []
  | s :: rest =>
    if s = deep then
      if rest.isEmpty then .ok [.char '/']
      else do return .between :: (← laterPieces true rest)
    else do
      let name ← segment s
      let more ← laterPieces true rest
      return (if joined then [.char '/'] else []) ++ name ++
        (if rest.isEmpty then [.stop] else []) ++ more

/-- The pieces of segments in standard form. -/
def pieces : List (List Char) → Except Problem (List Piece)
  | [] => .ok []
  | s :: rest =>
    if s = deep then do return .directories :: (← laterPieces false rest)
    else laterPieces false (s :: rest)

/-- What segments in standard form look for; `below` tells whether the pattern ends with a
slash. -/
def form (below : Bool) (segments : List (List Char)) : Except Problem Form :=
  if segments = [deep] then .ok (if below then .slash else .anything)
  else if segments = [deep, ['*']] then .ok .anything
  else if segments = [deep, ['*'], deep] then .ok .slash
  else (pieces segments).map .front

/-- Whether a piece has a range whose end lies before its start. -/
def isReversed : Piece → Bool
  | .oneOf _ ranges => ranges.any fun r => r.2 < r.1
  | _ => false

/-- White space at the end of a line does not count, unless a backslash keeps a blank. -/
def trimLine (cs : List Char) : List Char :=
  match cs.reverse with
  | ' ' :: '\\' :: _ => cs
  | _ => trimEnd cs

/-- Read a line; `none` stands for a line that matches nothing. -/
def readRule (line : String) : Except Fault (Option Rule) :=
  let cs := trimLine line.toList
  if cs.isEmpty || cs.head? = some '#' || cs = ['/'] then .ok none
  else
    let selects := cs.head? ≠ some '!'
    let segments := splitAtChar '/' (if selects then cs else cs.drop 1)
    let standard := standardSegments segments
    if standard.isEmpty then .error (.badPattern line)
    else
      match form (segments.getLast? = some []) standard with
      | .error .openBracket => .ok none
      | .error .loneBackslash => .error (.badPattern line)
      | .ok (.front ps) =>
        if ps.any isReversed then .error .badRange else .ok (some ⟨selects, .front ps⟩)
      | .ok form => .ok (some ⟨selects, form⟩)

/-- Read a list of patterns. -/
def readRules (lines : List String) : Except Fault (List Rule) := do
  let rules ← (lines.filter (· ≠ "")).mapM readRule
  return rules.filterMap id

/-! ## Matching -/

/-- A path without the slash, or the dot and the slash, that it starts with. -/
def normalizePath : List Char → List Char
  | '/' :: cs => cs
  | '.' :: '/' :: cs => cs
  | cs => cs

/-- Whether a pattern matches a path. -/
def Rule.applies (r : Rule) (cs : List Char) : Bool :=
  match r.form with
  | .front ps => matchesFront ps cs
  | .slash => cs.contains '/'
  | .anything => cs.any (· != '\n')

/-- Whether a list of patterns selects a path. -/
def selects (rules : List Rule) (path : String) : Bool :=
  let cs := normalizePath path.toList
  rules.foldl (fun selected r => if r.applies cs then r.selects else selected) false

/-- A list of rules stands for the paths that it selects. -/
instance : Coe (List Rule) (String → Bool) := ⟨selects⟩

end Overseer.Wildmatch
