set_option autoImplicit false

/-! # White space and line ends

White space is what Unicode calls so, together with the four information separators. A line
ends at a line feed, a carriage return, both in that order, a vertical tab, a form feed, one
of three information separators, a next-line character, or one of the two Unicode separators. -/

namespace Overseer.Text

/-- White space, information separators included. -/
def isBlank (c : Char) : Bool :=
  let n := c.toNat
  (9 ≤ n && n ≤ 13) || (28 ≤ n && n ≤ 32) || n == 0x85 || n == 0xa0 || n == 0x1680 ||
    (0x2000 ≤ n && n ≤ 0x200a) || n == 0x2028 || n == 0x2029 || n == 0x202f || n == 0x205f ||
    n == 0x3000

/-- Characters at which a line ends. -/
def isBreak (c : Char) : Bool :=
  let n := c.toNat
  (10 ≤ n && n ≤ 13) || (28 ≤ n && n ≤ 30) || n == 0x85 || n == 0x2028 || n == 0x2029

/-! ## Trimming -/

/-- Drop the longest end of a list whose members all pass a test. -/
def dropEndWhile {α : Type} (p : α → Bool) (l : List α) : List α :=
  (l.reverse.dropWhile p).reverse

/-- Without white space at the start. -/
def trimStart (cs : List Char) : List Char := cs.dropWhile isBlank

/-- Without white space at the end. -/
def trimEnd (cs : List Char) : List Char := dropEndWhile isBlank cs

/-- Without white space at either end. -/
def trim (cs : List Char) : List Char := trimEnd (trimStart cs)

/-! ## Lines -/

/-- Put a character in front of the first line. -/
def consFirst (c : Char) : List (List Char) → List (List Char)
  | [] => [[c]]
  | l :: ls => (c :: l) :: ls

/-- The lines of a text, without their ends; a text that ends with a line end has no further
empty line behind it. -/
def splitLines : List Char → List (List Char)
  | [] => []
  | '\r' :: '\n' :: cs => [] :: splitLines cs
  | c :: cs => if isBreak c then [] :: splitLines cs else consFirst c (splitLines cs)

/-- The lines of a text. -/
def lines (s : String) : List String := (splitLines s.toList).map String.ofList

/-- The pieces between the occurrences of a separator, one more than there are separators. -/
def splitAtChar (sep : Char) : List Char → List (List Char)
  | [] => [[]]
  | c :: cs => if c = sep then [] :: splitAtChar sep cs else consFirst c (splitAtChar sep cs)

/-- Every line end written as a carriage return, with or without a line feed behind it,
becomes a line feed. -/
def normalizeNewlines : List Char → List Char
  | [] => []
  | '\r' :: '\n' :: cs => '\n' :: normalizeNewlines cs
  | c :: cs => (if c = '\r' then '\n' else c) :: normalizeNewlines cs

end Overseer.Text
