import Overseer.Json.Basic
import Overseer.Text.Search

set_option autoImplicit false

/-! # Reading JSON

The reader goes from left to right and stops at the first character that cannot continue a
value. The complaint names what was expected and where: a character offset, and the line and
column that it falls on. A number ends where it no longer fits the grammar, so what follows it
is judged by the surrounding rule. Besides the numbers of the grammar the three words for
infinities and for no number are read. -/

namespace Overseer.Json

open Number (Binary64)

/-- What is wrong with a text that is not JSON. -/
inductive Problem where
  | expectedValue | expectedName | expectedColon | expectedComma | extraData
  | openString | controlCharacter | badEscape | badCodePoint | byteOrderMark
  deriving DecidableEq, Repr

/-- The wording of a problem. -/
def Problem.wording : Problem → String
  | expectedValue => "Expecting value"
  | expectedName => "Expecting property name enclosed in double quotes"
  | expectedColon => "Expecting ':' delimiter"
  | expectedComma => "Expecting ',' delimiter"
  | extraData => "Extra data"
  | openString => "Unterminated string starting at"
  | controlCharacter => "Invalid control character at"
  | badEscape => "Invalid \\escape"
  | badCodePoint => "Invalid \\uXXXX escape"
  | byteOrderMark => "Unexpected UTF-8 BOM (decode using utf-8-sig)"

/-- Why reading stopped; a place is given by the number of characters left there. -/
inductive Stop where
  /-- The text is not JSON. -/
  | malformed (problem : Problem) (left : Nat)
  /-- A whole number has too many digits. -/
  | digits (count : Text.TooManyDigits)
  deriving DecidableEq, Repr

/-- White space between tokens. -/
def isGap (c : Char) : Bool := c == ' ' || c == '\t' || c == '\n' || c == '\r'

/-- Skip white space between tokens. -/
def skipGap (cs : List Char) : List Char := cs.dropWhile isGap

/-- A complaint about the first character of a text. -/
def stopAt {α : Type} (problem : Problem) (cs : List Char) : Except Stop α :=
  .error (.malformed problem cs.length)

/-! ## Strings -/

/-- The value of a hexadecimal digit. -/
def hexValue? (c : Char) : Option Nat :=
  if c.isDigit then some (c.toNat - 48)
  else if 'a' ≤ c && c ≤ 'f' then some (c.toNat - 87)
  else if 'A' ≤ c && c ≤ 'F' then some (c.toNat - 55)
  else none

/-- The value of four hexadecimal digits. -/
def hex4? (a b c d : Char) : Option Nat := do
  let a ← hexValue? a
  let b ← hexValue? b
  let c ← hexValue? c
  let d ← hexValue? d
  return ((a * 16 + b) * 16 + c) * 16 + d

/-- The character behind a one-letter escape. -/
def plainEscape? : Char → Option Char
  | '"' => some '"'
  | '\\' => some '\\'
  | '/' => some '/'
  | 'b' => some '\x08'
  | 'f' => some '\x0c'
  | 'n' => some '\n'
  | 'r' => some '\r'
  | 't' => some '\t'
  | _ => none

/-- The first half of a surrogate pair. -/
def isHighHalf (n : Nat) : Bool := 0xd800 ≤ n && n < 0xdc00

/-- The second half of a surrogate pair. -/
def isLowHalf (n : Nat) : Bool := 0xdc00 ≤ n && n < 0xe000

/-- The character of a unit. Half a pair is no character: on its own it becomes the replacement
character, so that texts which differ in such halves only are read alike. -/
def unitChar (n : Nat) : Char :=
  if isHighHalf n || isLowHalf n then Char.ofNat 0xfffd else Char.ofNat n

/-- The character of a surrogate pair. -/
def pairChar (high low : Nat) : Char :=
  Char.ofNat (0x10000 + (high - 0xd800) * 0x400 + (low - 0xdc00))

/-- The unit of an escape that follows a first half, if there is one and the text goes on
behind it. -/
def followingUnit? : List Char → Option (Option Nat)
  | '\\' :: 'u' :: a :: b :: c :: d :: _ :: _ => some (hex4? a b c d)
  | _ => none

/-- Read a string whose opening quote has `opened` characters left; the characters read so far
are given in reverse, and `skip` further ones belong to an escape already treated. -/
def readChars (opened : Nat) : Nat → List Char → List Char → Except Stop (List Char × List Char)
  | _, _, [] => .error (.malformed .openString opened)
  | skip + 1, acc, _ :: cs => readChars opened skip acc cs
  | 0, acc, '"' :: cs => .ok (acc.reverse, cs)
  | 0, _, ['\\'] => .error (.malformed .openString opened)
  | 0, acc, '\\' :: e :: cs =>
    if e = 'u' then
      match cs with
      | a :: b :: c :: d :: rest =>
        if rest.isEmpty then stopAt .badCodePoint (e :: cs)
        else match hex4? a b c d with
          | none => stopAt .badCodePoint (e :: cs)
          | some n =>
            if isHighHalf n then
              match followingUnit? rest with
              | some none => stopAt .badCodePoint (rest.drop 1)
              | some (some m) =>
                if isLowHalf m then readChars opened 10 (pairChar n m :: acc) cs
                else readChars opened 4 (unitChar n :: acc) cs
              | none => readChars opened 4 (unitChar n :: acc) cs
            else readChars opened 4 (unitChar n :: acc) cs
      | _ => stopAt .badCodePoint (e :: cs)
    else
      match plainEscape? e with
      | some c => readChars opened 0 (c :: acc) cs
      | none => stopAt .badEscape ('\\' :: e :: cs)
  | 0, acc, c :: cs =>
    if c.toNat < 32 then stopAt .controlCharacter (c :: cs)
    else readChars opened 0 (c :: acc) cs

/-- Read the rest of a string behind its opening quote. -/
def readString (cs : List Char) : Except Stop (String × List Char) :=
  (readChars (cs.length + 1) 0 [] cs).map fun (s, rest) => (String.ofList s, rest)

/-! ## Numbers -/

/-- Split off the leading ASCII digits. -/
def spanDigits (cs : List Char) : List Char × List Char := cs.span Char.isDigit

/-- The fraction of a number: a point with a digit behind it. -/
def readFraction (cs : List Char) : Option (List Char) × List Char :=
  match cs with
  | '.' :: rest =>
    match spanDigits rest with
    | ([], _) => (none, cs)
    | (ds, rest) => (some ds, rest)
  | _ => (none, cs)

/-- The exponent of a number: a mark, perhaps a sign, and at least one digit. -/
def readExponent (cs : List Char) : Option Int × List Char :=
  let digits (sign : Int) (rest : List Char) : Option Int × List Char :=
    match spanDigits rest with
    | ([], _) => (none, cs)
    | (ds, rest) => (some (sign * Text.valueOfDigits ds), rest)
  match cs with
  | c :: rest =>
    if c == 'e' || c == 'E' then
      match rest with
      | '-' :: rest => digits (-1) rest
      | '+' :: rest => digits 1 rest
      | _ => digits 1 rest
    else (none, cs)
  | [] => (none, cs)

/-- The digits before the point: a lone zero, or digits that do not begin with one. -/
def readWhole (cs : List Char) : Option (List Char × List Char) :=
  match cs with
  | '0' :: rest => some (['0'], rest)
  | _ =>
    match spanDigits cs with
    | ([], _) => none
    | r => some r

/-- Read a number behind its sign. -/
def readNumber (negative : Bool) (cs : List Char) : Option (Except Stop (Json × List Char)) := do
  let (whole, afterWhole) ← readWhole cs
  let (fraction, afterFraction) := readFraction afterWhole
  let (exponent, rest) := readExponent afterFraction
  if fraction.isSome || exponent.isSome then
    let ds := whole ++ fraction.getD []
    let power := exponent.getD 0 - (fraction.getD []).length
    return .ok (float (Binary64.ofDecimal negative (Text.valueOfDigits ds) power), rest)
  else
    match Text.readNumeral whole with
    | .error e => return .error (.digits e)
    | .ok n => return .ok (int (if negative then -n else n), rest)

/-! ## Values -/

/-- Read a word or a number. -/
def readScalar (cs : List Char) : Except Stop (Json × List Char) :=
  let word (w : String) (v : Json) : Option (Json × List Char) :=
    (Text.dropFront? w.toList cs).map (v, ·)
  let words := word "null" null <|> word "true" (bool true) <|> word "false" (bool false) <|>
    word "NaN" (float .nan) <|> word "Infinity" (float (.infinite false)) <|>
    word "-Infinity" (float (.infinite true))
  match words with
  | some r => .ok r
  | none =>
    let number := match cs with
      | '-' :: rest => readNumber true rest
      | _ => readNumber false cs
    number.getD (stopAt .expectedValue cs)

mutual

/-- Read a value at the first character; the fuel bounds the number of nested steps. -/
def readValue : Nat → List Char → Except Stop (Json × List Char)
  | 0, cs => stopAt .expectedValue cs
  | fuel + 1, cs =>
    match cs with
    | '"' :: rest => (readString rest).map fun (s, rest) => (str s, rest)
    | '[' :: rest =>
      match skipGap rest with
      | ']' :: rest => .ok (arr [], rest)
      | rest => readItems fuel [] rest
    | '\x7b' :: rest =>
      match skipGap rest with
      | '\x7d' :: rest => .ok (obj [], rest)
      | rest => readMembers fuel [] rest
    | _ => readScalar cs

/-- Read the items of a list up to its end; those already read are given in reverse. -/
def readItems : Nat → List Json → List Char → Except Stop (Json × List Char)
  | 0, _, cs => stopAt .expectedValue cs
  | fuel + 1, acc, cs => do
    let (v, rest) ← readValue fuel cs
    match skipGap rest with
    | ']' :: rest => .ok (arr (v :: acc).reverse, rest)
    | ',' :: rest => readItems fuel (v :: acc) (skipGap rest)
    | rest => stopAt .expectedComma rest

/-- Read the members of an object up to its end; those already read are given in reverse. -/
def readMembers : Nat → List (String × Json) → List Char → Except Stop (Json × List Char)
  | 0, _, cs => stopAt .expectedName cs
  | fuel + 1, acc, cs =>
    match cs with
    | '"' :: rest => do
      let (name, rest) ← readString rest
      match skipGap rest with
      | ':' :: rest => do
        let (v, rest) ← readValue fuel (skipGap rest)
        match skipGap rest with
        | '\x7d' :: rest => .ok (obj (dedup ((name, v) :: acc).reverse), rest)
        | ',' :: rest => readMembers fuel ((name, v) :: acc) (skipGap rest)
        | rest => stopAt .expectedComma rest
      | rest => stopAt .expectedColon rest
    | _ => stopAt .expectedName cs

end

/-! ## Documents -/

/-- A complaint about a document, with its place. -/
structure Complaint where
  /-- What is wrong. -/
  problem : Problem
  /-- Line, counted from one. -/
  line : Nat
  /-- Column, counted from one. -/
  column : Nat
  /-- Offset in characters, counted from zero. -/
  offset : Nat
  deriving DecidableEq, Repr

/-- The wording of a complaint. -/
def Complaint.message (c : Complaint) : String :=
  s!"{c.problem.wording}: line {c.line} column {c.column} (char {c.offset})"

/-- Why a document was not read. -/
inductive ReadError where
  /-- It is not JSON. -/
  | malformed (complaint : Complaint)
  /-- A whole number has too many digits. -/
  | digits (count : Text.TooManyDigits)
  deriving DecidableEq, Repr

/-- Find the line and column of an offset. -/
def complaintAt (text : List Char) (problem : Problem) (offset : Nat) : Complaint :=
  let before := text.take offset
  let column := (before.reverse.takeWhile (· != '\n')).length + 1
  ⟨problem, before.count '\n' + 1, column, offset⟩

/-- Read one value with nothing but white space around it. -/
def readDocument (text : List Char) : Except Stop Json := do
  if text.head? = some (Char.ofNat 0xfeff) then stopAt .byteOrderMark text
  let (v, rest) ← readValue (2 * text.length + 2) (skipGap text)
  match skipGap rest with
  | [] => .ok v
  | rest => stopAt .extraData rest

/-- Read a document. -/
def read (text : String) : Except ReadError Json :=
  let cs := text.toList
  match readDocument cs with
  | .ok v => .ok v
  | .error (.digits e) => .error (.digits e)
  | .error (.malformed problem left) =>
    .error (.malformed (complaintAt cs problem (cs.length - left)))

end Overseer.Json
