set_option autoImplicit false

/-! # The operator's log

A record has a level, the name of the part of the program that wrote it, and a text. Records
below the current level are dropped. -/

namespace Overseer

/-- How urgent a record is. -/
inductive LogLevel where
  | debug | info | warning | error
  deriving DecidableEq, Repr

namespace LogLevel

/-- The name of a level. -/
def name : LogLevel → String
  | debug => "DEBUG"
  | info => "INFO"
  | warning => "WARNING"
  | error => "ERROR"

/-- The rank of a level. -/
def rank : LogLevel → Nat
  | debug => 10
  | info => 20
  | warning => 30
  | error => 40

/-- The level with a given name. -/
def ofName? (s : String) : Option LogLevel := [debug, info, warning, error].find? (·.name == s)

end LogLevel

/-- The parts of the program that write to the log. -/
inductive LogSource where
  | package | remap | retry | settings | store | handle | adapter | coordinator | supervisor
  deriving DecidableEq, Repr

/-- The name under which a part writes. -/
def LogSource.name : LogSource → String
  | package => "mypyd"
  | remap => "mypyd.remap"
  | retry => "mypyd.retry"
  | settings => "mypyd.workspace"
  | store => "mypyd.store"
  | handle => "mypyd.daemon.paths"
  | adapter => "mypyd.daemon.startup"
  | coordinator => "mypyd.coordinator"
  | supervisor => "mypyd.supervisor"

/-- A record of the log. -/
structure LogRecord where
  level : LogLevel
  source : LogSource
  text : String
  deriving DecidableEq, Repr

/-- A record as a line of the log; the clock stands at its origin. -/
def LogRecord.line (r : LogRecord) : String :=
  "1970-01-01 00:00:00,000 - " ++ r.source.name ++ " - " ++ r.level.name ++ " - " ++ r.text ++ "\n"

end Overseer
