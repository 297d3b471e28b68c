import Overseer.Assoc
import Overseer.Text.Blank
import Overseer.Text.Search

set_option autoImplicit false

/-! # Environment files

An environment file holds bindings, one to a line: perhaps the word `export`, a name, and
perhaps an equals sign and a value in single quotes, in double quotes or without quotes. A
comment may follow. A line that cannot be read is skipped. Values may refer to earlier
bindings and to the environment. -/

namespace Overseer.EnvFile

open Overseer.Text

/-- White space inside a line. -/
def isGap (c : Char) : Bool := isBlank c && c != '\n' && c != '\r'

/-- The end of a line. -/
def isEnd (c : Char) : Bool := c == '\n' || c == '\r'

/-- Skip white space inside a line. -/
def skipGap (cs : List Char) : List Char := cs.dropWhile isGap

/-- Skip the rest of a line and one line end. -/
def skipLine (cs : List Char) : List Char := (cs.dropWhile fun c => !isEnd c).drop 1

/-! ## Values -/

/-- The text up to a closing quote that is not escaped, and what follows it. -/
def quotedBody (quote : Char) : List Char → Option (List Char × List Char)
  | [] => none
  | ['\\'] => none
  | '\\' :: c :: cs => (quotedBody quote cs).map fun (body, rest) => ('\\' :: c :: body, rest)
  | c :: cs =>
    if c = quote then some ([], cs)
    else (quotedBody quote cs).map fun (body, rest) => (c :: body, rest)

/-- The character of an escape inside single quotes. -/
def singleEscape? (c : Char) : Option Char := if c = '\\' || c = '\x27' then some c else none

/-- The character of an escape inside double quotes. -/
def doubleEscape? (c : Char) : Option Char :=
  match c with
  | '\\' | '\x27' | '"' => some c
  | 'a' => some '\x07'
  | 'b' => some '\x08'
  | 'f' => some '\x0c'
  | 'n' => some '\n'
  | 'r' => some '\r'
  | 't' => some '\t'
  | 'v' => some '\x0b'
  | _ => none

/-- Replace escapes; others stay as they are. -/
def unescape (escape? : Char → Option Char) : List Char → List Char
  | '\\' :: c :: cs =>
    match escape? c with
    | some e => e :: unescape escape? cs
    | none => '\\' :: unescape escape? (c :: cs)
  | c :: cs => c :: unescape escape? cs
  | [] => []

/-- Cut a value at the first comment sign behind white space. -/
def dropComment : List Char → List Char
  | [] => []
  | [c] => [c]
  | b :: c :: cs => if isBlank b && c == '#' then [] else b :: dropComment (c :: cs)

/-- A value without quotes: the rest of the line. -/
def plainValue (cs : List Char) : List Char × List Char :=
  let (part, rest) := cs.span fun c => !isEnd c
  (trimEnd (dropComment part), rest)

/-- The text from the place on at which reading stopped. -/
abbrev Stopped := List Char

/-- Read a quoted value behind its opening quote; without a closing quote reading stops at the
opening one. -/
def quotedValue (quote : Char) (escape? : Char → Option Char) (cs : List Char) :
    Except Stopped (List Char × List Char) :=
  match quotedBody quote cs with
  | some (body, rest) => .ok (unescape escape? body, rest)
  | none => .error (quote :: cs)

/-- Read the value behind an equals sign. -/
def readValue (cs : List Char) : Except Stopped (List Char × List Char) :=
  let afterGap := skipGap cs
  if afterGap.length < cs.length && afterGap.head? = some '#' then .ok ([], afterGap)
  else
    match afterGap with
    | '\x27' :: rest => quotedValue '\x27' singleEscape? rest
    | '"' :: rest => quotedValue '"' doubleEscape? rest
    | _ => .ok (plainValue afterGap)

/-! ## Bindings -/

/-- Skip the word `export` if white space follows it. -/
def skipExport (cs : List Char) : List Char :=
  match dropFront? "export".toList cs with
  | some rest =>
    let afterGap := skipGap rest
    if afterGap.length < rest.length then afterGap else cs
  | none => cs

/-- Read a name; a comment has none. -/
def readName (cs : List Char) : Except Stopped (Option (List Char) × List Char) :=
  match cs with
  | '#' :: _ => .ok (none, cs)
  | '\x27' :: rest =>
    let (name, after) := rest.span (· != '\x27')
    if name.isEmpty || after.isEmpty then .error cs else .ok (some name, after.drop 1)
  | _ =>
    let (name, rest) := cs.span fun c => c != '=' && c != '#' && !isBlank c
    if name.isEmpty then .error cs else .ok (some name, rest)

/-- Read an equals sign and a value, if there is an equals sign. -/
def readAssignment (cs : List Char) : Except Stopped (Option (List Char) × List Char) :=
  match cs with
  | '=' :: rest => do
    let (v, rest) ← readValue rest
    return (some v, rest)
  | _ => .ok (none, cs)

/-- Read a comment, if there is one, and the end of the line. -/
def readEnd (cs : List Char) : Except Stopped (List Char) :=
  let afterComment := match skipGap cs with
    | '#' :: rest => rest.dropWhile fun c => !isEnd c
    | _ => cs
  match skipGap afterComment with
  | [] => .ok []
  | '\r' :: '\n' :: rest => .ok rest
  | c :: rest => if isEnd c then .ok rest else .error cs

/-- A binding of a name to a value, or a name without one. -/
abbrev Binding := String × Option String

/-- Read one line behind its leading white space. -/
def readBinding (cs : List Char) : Except Stopped (Option Binding × List Char) := do
  let (name, rest) ← readName (skipExport cs)
  let (value, rest) ← readAssignment (skipGap rest)
  let rest ← readEnd rest
  return (name.map fun n => (String.ofList n, value.map String.ofList), rest)

/-- Read the bindings of a text; the bound is the length of the text. -/
def bindingsWithin : Nat → List Char → List Binding
  | 0, _ => []
  | bound + 1, cs =>
    match trimStart cs with
    | [] => []
    | cs =>
      match readBinding cs with
      | .ok (b, rest) => b.toList ++ bindingsWithin bound rest
      | .error stopped => bindingsWithin bound (skipLine stopped)

/-- The bindings of a text; one byte-order mark at its start is skipped. -/
def bindings (text : String) : List Binding :=
  let cs := text.toList
  let cs := if cs.head? = some (Char.ofNat 0xfeff) then cs.drop 1 else cs
  bindingsWithin (cs.length + 1) cs

/-! ## References -/

/-- A reference behind a dollar sign: name, default, and the number of characters. -/
def reference? (cs : List Char) : Option (List Char × List Char × Nat) :=
  match cs with
  | '\x7b' :: rest =>
    let (name, after) := rest.span fun c => c != '\x7d' && c != ':'
    match after with
    | '\x7d' :: _ => some (name, [], name.length + 2)
    | ':' :: '-' :: more =>
      let (default, after) := more.span (· != '\x7d')
      if after.isEmpty then none else some (name, default, name.length + default.length + 4)
    | _ => none
  | _ => none

/-- Replace references; `skip` characters belong to a reference already treated. -/
def interpolateFrom (value : String → Option String) : Nat → List Char → List Char
  | _, [] => []
  | skip + 1, _ :: cs => interpolateFrom value skip cs
  | 0, c :: cs =>
    if c = '$' then
      match reference? cs with
      | none => c :: interpolateFrom value 0 cs
      | some (name, default, length) =>
        ((value (String.ofList name)).map String.toList).getD default ++
          interpolateFrom value length cs
    else c :: interpolateFrom value 0 cs

/-- The value that a name has while a file is read: from the file, or from outside. -/
def currentValue (outer : String → Option String) (seen : Assoc String (Option String))
    (name : String) : Option String :=
  match seen.get? name with
  | some v => some (v.getD "")
  | none => outer name

/-- The values of bindings, in order; a later binding of a name replaces an earlier one. -/
def evaluate (outer : String → Option String) (bs : List Binding) :
    Assoc String (Option String) :=
  bs.foldl (fun seen b =>
    let v := b.2.map fun s =>
      String.ofList (interpolateFrom (currentValue outer seen) 0 s.toList)
    seen.insert b.1 v) Assoc.empty

/-- The values of the names in an environment file; a name that stands without an equals sign has
none. -/
def values (outer : String → Option String) (text : String) : Assoc String (Option String) :=
  evaluate outer (bindings text)

end Overseer.EnvFile
