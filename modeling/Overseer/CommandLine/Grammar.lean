import Overseer.Text.Quoted

set_option autoImplicit false

/-! # Grammars of command lines

A command line has options, which start with a dash, and operands. A grammar names them, with
the texts that explain them. What can be wrong with a command line is a complaint about it. -/

namespace Overseer.CommandLine

/-- What an option is for. -/
inductive Purpose where
  /-- It asks for the help. -/
  | help
  /-- It switches something on. -/
  | switch
  /-- It carries a value. -/
  | value
  deriving DecidableEq, Repr

/-- An option with its names. -/
structure Flag where
  names : List String
  purpose : Purpose
  deriving DecidableEq, Repr

namespace Flag

/-- All names of an option, as complaints show them. -/
def title (f : Flag) : String := "/".intercalate f.names

/-- The name under which an option is remembered. -/
def key (f : Flag) : String := f.names.getLast?.getD ""

end Flag

/-- How many words an operand takes. -/
inductive Arity where
  /-- One word. -/
  | one
  /-- All words up to the next option, at least one. -/
  | many
  /-- One word and everything behind it. -/
  | rest
  deriving DecidableEq, Repr

/-- An operand. -/
structure Operand where
  name : String
  arity : Arity
  required : Bool := true
  deriving DecidableEq, Repr

/-- A grammar; an operand that takes many words stands last. -/
structure Grammar where
  /-- The words that start the command. -/
  program : String
  /-- The summary of options and operands. -/
  usage : String
  /-- What the help says behind the summary. -/
  details : String
  flags : List Flag
  operands : List Operand
  deriving DecidableEq, Repr

namespace Grammar

/-- The names of all options, with the options. -/
def names (g : Grammar) : List (String × Flag) :=
  g.flags.flatMap fun f => f.names.map (·, f)

/-- The option with a name. -/
def flag? (g : Grammar) (name : String) : Option Flag :=
  (g.names.find? fun e => e.1 == name).map Prod.snd

/-- The help. -/
def help (g : Grammar) : String := g.usage ++ "\n" ++ g.details

end Grammar

/-- What is wrong with a command line. -/
inductive Complaint where
  /-- A shortened option fits several names. -/
  | ambiguous (word : String) (names : List String)
  /-- An option lacks its value. -/
  | valueMissing (flag : Flag)
  /-- An option was given a value that it does not take. -/
  | valueRefused (flag : Flag) (value : String)
  /-- Operands are missing. -/
  | missing (names : List String)
  /-- An operand is none of the words that it may be. -/
  | noChoice (operand word : String) (choices : List String)
  /-- Words that nothing takes. -/
  | unrecognized (words : List String)
  deriving DecidableEq, Repr

/-- The text of a complaint. -/
def Complaint.message : Complaint → String
  | ambiguous word names => s!"ambiguous option: {word} could match " ++ ", ".intercalate names
  | valueMissing flag => s!"argument {flag.title}: expected one argument"
  | valueRefused flag value =>
    s!"argument {flag.title}: ignored explicit argument " ++ Text.quoted value
  | missing names => "the following arguments are required: " ++ ", ".intercalate names
  | noChoice operand word choices =>
    s!"argument {operand}: invalid choice: " ++ Text.quoted word ++
      " (choose from " ++ ", ".intercalate (choices.map Text.quoted) ++ ")"
  | unrecognized words => "unrecognized arguments: " ++ " ".intercalate words

/-- Why reading a command line stops. -/
inductive Halt where
  /-- The help of a grammar was asked for. -/
  | help (g : Grammar)
  /-- Something is wrong. -/
  | misuse (g : Grammar) (c : Complaint)
  deriving DecidableEq, Repr

/-- What is shown about a wrong command line. -/
def misuseText (g : Grammar) (c : Complaint) : String :=
  g.usage ++ g.program ++ ": error: " ++ c.message ++ "\n"

end Overseer.CommandLine
