import Overseer.CommandLine.Reading

set_option autoImplicit false

/-! # The command line of the program

Options that hold for every command stand before it, its own options and operands behind it.
Words that the command leaves over are refused together with those left over before it. -/

namespace Overseer.CommandLine

/-- What the program is asked to do. -/
inductive Order where
  /-- Check workspaces. -/
  | check (roots : List String) (json : Bool)
  /-- Check a notebook inside a workspace; there is no path if its word was a second
  separator. -/
  | notebook (roots : List String) (path : Option String) (json : Bool)
  /-- Restart daemons, then check. -/
  | restart (roots : List String) (json : Bool)
  /-- Stop daemons. -/
  | stop (roots : List String)
  deriving DecidableEq, Repr

/-- The workspaces that an order is about. -/
def Order.roots : Order → List String
  | check roots _ | notebook roots _ _ | restart roots _ | stop roots => roots

/-- A command line of the program. -/
structure Invocation where
  /-- The suffix of the files of daemons. -/
  identity : String := "cli"
  stateDir : Option String := none
  /-- The file with the settings of the user. -/
  settings : Option String := none
  debug : Bool := false
  logFile : Option String := none
  /-- There is none if no command was given. -/
  order : Option Order := none
  deriving DecidableEq, Repr

/-! ## Grammars -/

/-- The option that asks for the help. -/
def helpFlag : Flag := ⟨["-h", "--help"], .help⟩

/-- The option for machine-readable output. -/
def jsonFlag : Flag := ⟨["--json"], .switch⟩

/-- The words that name commands. -/
def commandWords : List String := ["check", "notebook", "restart", "stop"]

/-- The options before the command. -/
def mainGrammar : Grammar :=
  { program := "mypyd"
    usage :=
      "usage: mypyd [-h] [--instance INSTANCE] [--state-dir STATE_DIR]\n" ++
      "             [--settings SETTINGS] [--debug] [--log-file LOG_FILE]\n" ++
      "             \x7bcheck,notebook,restart,stop\x7d ...\n"
    details :=
      "Supervise dmypy daemons per workspace\n" ++
      "\n" ++
      "positional arguments:\n" ++
      "  \x7bcheck,notebook,restart,stop\x7d\n" ++
      "    check               Check workspaces\n" ++
      "    notebook            Check a notebook inside a workspace\n" ++
      "    restart             Restart daemons and recheck\n" ++
      "    stop                Stop daemons\n" ++
      "\n" ++
      "options:\n" ++
      "  -h, --help            show this help message and exit\n" ++
      "  --instance INSTANCE   Status file instance suffix\n" ++
      "  --state-dir STATE_DIR\n" ++
      "                        Directory for daemon status/log files\n" ++
      "  --settings SETTINGS   Global settings JSON file\n" ++
      "  --debug               Enable debug logging\n" ++
      "  --log-file LOG_FILE   Also write the log to this file\n"
    flags := [helpFlag, ⟨["--instance"], .value⟩, ⟨["--state-dir"], .value⟩,
      ⟨["--settings"], .value⟩, ⟨["--debug"], .switch⟩, ⟨["--log-file"], .value⟩]
    operands := [⟨"command", .rest, false⟩] }

/-- The help of a command behind its operands. -/
def optionDetails (json : Bool) : String :=
  "\noptions:\n  -h, --help  show this help message and exit\n" ++
    if json then "  --json      Output JSON\n" else ""

/-- A command that takes workspaces. -/
def rootsGrammar (word : String) (json : Bool) : Grammar :=
  { program := "mypyd " ++ word
    usage := "usage: mypyd " ++ word ++ " [-h]" ++ (if json then " [--json]" else "") ++
      " roots [roots ...]\n"
    details := "positional arguments:\n  roots       Workspace roots\n" ++ optionDetails json
    flags := helpFlag :: if json then [jsonFlag] else []
    operands := [⟨"roots", .many, true⟩] }

/-- The command that takes a notebook. -/
def notebookGrammar : Grammar :=
  { program := "mypyd notebook"
    usage := "usage: mypyd notebook [-h] [--json] root notebook\n"
    details := "positional arguments:\n  root        Workspace root\n" ++
      "  notebook    Path to .ipynb file\n" ++ optionDetails true
    flags := [helpFlag, jsonFlag]
    operands := [⟨"root", .one, true⟩, ⟨"notebook", .one, true⟩] }

/-- The grammar of the command that a word names, and the order that a reading comes to. -/
def commandGrammar? : String → Option (Grammar × (Reading → Order))
  | "check" => some (rootsGrammar "check" true, fun r => .check (r.words "roots") (r.has "--json"))
  | "notebook" => some (notebookGrammar, fun r =>
      .notebook (r.words "root") (r.words "notebook").head? (r.has "--json"))
  | "restart" =>
    some (rootsGrammar "restart" true, fun r => .restart (r.words "roots") (r.has "--json"))
  | "stop" => some (rootsGrammar "stop" false, fun r => .stop (r.words "roots"))
  | _ => none

/-! ## Reading -/

namespace Invocation

/-- The options before the command, with an order. -/
def ofReading (r : Reading) (order : Option Order) : Invocation :=
  { identity := (r.values.get? "--instance").getD "cli"
    stateDir := r.values.get? "--state-dir"
    settings := r.values.get? "--settings"
    debug := r.has "--debug"
    logFile := r.values.get? "--log-file"
    order }

/-- Read a command line of the program. -/
def read (words : List String) : Except Halt Invocation := do
  let before ← mainGrammar.read words
  let (order, leftover) ← match before.words "command" with
    | [] => pure (none, before.leftover)
    | word :: rest =>
      match commandGrammar? word with
      | none => throw (.misuse mainGrammar (.noChoice "command" word commandWords))
      | some (g, order) =>
        let behind ← g.read rest
        pure (some (order behind), before.leftover ++ behind.leftover)
  if leftover.isEmpty then return ofReading before order
  else throw (.misuse mainGrammar (.unrecognized leftover))

end Invocation

end Overseer.CommandLine
