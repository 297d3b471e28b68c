import Overseer.Json.Basic

set_option autoImplicit false

/-! # Writing JSON

Output is ASCII: other characters are written as escapes, those past the basic plane as a
surrogate pair. A report is laid out with one item or member to a line, indented by two
blanks a level; an empty list or object stays on its line. -/

namespace Overseer.Json

/-- A sixteen-bit unit as an escape. -/
def unitEscape (n : Nat) : List Char := '\\' :: 'u' :: Text.digitsOfWidth 16 4 n

/-- One character inside a string. -/
def writeChar (c : Char) : List Char :=
  match c with
  | '"' => ['\\', '"']
  | '\\' => ['\\', '\\']
  | '\n' => ['\\', 'n']
  | '\r' => ['\\', 'r']
  | '\t' => ['\\', 't']
  | '\x08' => ['\\', 'b']
  | '\x0c' => ['\\', 'f']
  | _ =>
    let n := c.toNat
    if 32 ≤ n && n < 127 then [c]
    else if n < 0x10000 then unitEscape n
    else unitEscape (0xd800 + (n - 0x10000) / 0x400) ++ unitEscape (0xdc00 + (n - 0x10000) % 0x400)

/-- A string with its quotes. -/
def writeString (s : String) : String :=
  String.ofList ('"' :: s.toList.flatMap writeChar ++ ['"'])

/-- The text of a number with a fraction. -/
def writeFloat : Number.Binary64 → String
  | .nan => "NaN"
  | .infinite negative => if negative then "-Infinity" else "Infinity"
  | x => x.text

mutual

/-- A value on one line. -/
def compact : Json → String
  | null => "null"
  | bool b => if b then "true" else "false"
  | int n => toString n
  | float x => writeFloat x
  | str s => writeString s
  | arr items => "[" ++ ",".intercalate (compactItems items) ++ "]"
  | obj members => "\x7b" ++ ",".intercalate (compactMembers members) ++ "\x7d"

/-- The items of a list, each on one line. -/
def compactItems : List Json → List String
  | [] => []
  | v :: vs => compact v :: compactItems vs

/-- The members of an object, each on one line. -/
def compactMembers : List (String × Json) → List String
  | [] => []
  | m :: ms => (writeString m.1 ++ ":" ++ compact m.2) :: compactMembers ms

end

/-- A new line at a level of indentation. -/
def newLine (level : Nat) : String := String.ofList ('\n' :: List.replicate (2 * level) ' ')

/-- Brackets around parts that have a line each. -/
def block (opening closing : String) (level : Nat) (parts : List String) : String :=
  if parts.isEmpty then opening ++ closing
  else
    opening ++ newLine (level + 1) ++ ("," ++ newLine (level + 1)).intercalate parts ++
      newLine level ++ closing

mutual

/-- A value laid out over several lines at a level of indentation. -/
def laidOut (level : Nat) : Json → String
  | arr items => block "[" "]" level (laidOutItems (level + 1) items)
  | obj members => block "\x7b" "\x7d" level (laidOutMembers (level + 1) members)
  | null => "null"
  | bool b => if b then "true" else "false"
  | int n => toString n
  | float x => writeFloat x
  | str s => writeString s

/-- The items of a list, laid out. -/
def laidOutItems (level : Nat) : List Json → List String
  | [] => []
  | v :: vs => laidOut level v :: laidOutItems level vs

/-- The members of an object, laid out. -/
def laidOutMembers (level : Nat) : List (String × Json) → List String
  | [] => []
  | m :: ms => (writeString m.1 ++ ": " ++ laidOut level m.2) :: laidOutMembers level ms

end

/-- A value laid out over several lines. -/
def pretty (v : Json) : String := laidOut 0 v

end Overseer.Json
