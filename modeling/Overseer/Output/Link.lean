import Overseer.Text.Blank
import Overseer.Text.Search
import Overseer.Text.Word

set_option autoImplicit false

/-! # Documentation links

A message may send the reader to an address: `see` or `See` at the start of a word, a blank,
and an address. The address runs to the next white space; one closing punctuation mark at its
end belongs to the sentence. Without such an address the link is the documentation of the
error code. -/

namespace Overseer.Output

open Overseer.Text

/-- Punctuation that may close the sentence behind an address. -/
def isClosing (c : Char) : Bool := c == '.' || c == ',' || c == ';' || c == ')'

/-- Drop one closing mark, unless nothing else is left. -/
def dropClosing (cs : List Char) : List Char :=
  match cs.getLast? with
  | some c => if isClosing c && 1 < cs.length then cs.dropLast else cs
  | none => cs

/-- The address at the start of a text. -/
def address? (cs : List Char) : Option (List Char) :=
  let scheme (s : String) : Option (List Char) := do
    let rest ← dropFront? s.toList cs
    let host := rest.takeWhile fun c => !isBlank c
    if host.isEmpty then none else some (s.toList ++ dropClosing host)
  scheme "http://" <|> scheme "https://"

/-- The address behind `see` at the start of a text. -/
def seeHere? (cs : List Char) : Option (List Char) :=
  match cs with
  | s :: 'e' :: 'e' :: ' ' :: rest => if s == 's' || s == 'S' then address? rest else none
  | _ => none

/-- The first address behind `see`; `afterWord` tells whether a word character precedes. -/
def seeAddress? (afterWord : Bool) : List Char → Option (List Char)
  | [] => none
  | c :: cs =>
    match if afterWord then none else seeHere? (c :: cs) with
    | some a => some a
    | none => seeAddress? (isWord c) cs

/-- The documentation of an error code. -/
def codeAddress (code : String) : String :=
  "https://mypy.readthedocs.io/en/stable/_refs.html#code-" ++ code

/-- The documentation link of a message. -/
def findLink (message : String) (code : Option String) : Option String :=
  match seeAddress? false message.toList with
  | some a => some (String.ofList a)
  | none =>
    match code with
    | some code => if code.isEmpty then none else some (codeAddress code)
    | none => none

end Overseer.Output
