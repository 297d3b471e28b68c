import Overseer.Text.Blank

set_option autoImplicit false

/-! # Fragments

A fragment is one piece of a virtual document, such as a cell of a notebook. Code fragments in
the checked language are its targets. A line that begins with `%` or `!` talks to the
environment of the document and is no code. -/

namespace Overseer

/-- One piece of a virtual document. -/
structure Fragment where
  /-- The number of the fragment in its document. -/
  index : Int
  text : String
  language : String := "python"
  kind : String := "code"
  deriving DecidableEq, Repr

namespace Fragment

/-- Whether a fragment is code in a language. -/
def isTarget (f : Fragment) (language : String) : Bool :=
  f.kind == "code" && f.language == language

/-- Whether a line talks to the environment of the document. -/
def isDirective (line : String) : Bool :=
  match Text.trimStart line.toList with
  | c :: _ => c == '%' || c == '!'
  | [] => false

/-- The lines of a fragment, without the carriage returns at their ends. -/
def lines (f : Fragment) : List String :=
  (Text.splitAtChar '\n' f.text.toList).map fun l =>
    String.ofList (Text.dropEndWhile (· == '\r') l)

end Fragment

end Overseer
