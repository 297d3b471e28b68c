set_option autoImplicit false

/-! # Classes of faults

Faults are sorted into classes, and a class may be a special case of another one. Handlers
name classes and catch their special cases too. -/

namespace Overseer

/-- The class of a fault. -/
inductive FaultClass where
  | general
  | runtime
  | value
  | lookup | key
  | os | fileNotFound | notADirectory | isADirectory | fileExists | permission
  | type | member
  | encoding | json | pattern | expression
  | checker | executableNotFound | environmentMissing | toolFailure | daemonStuck
  deriving DecidableEq, Repr

namespace FaultClass

/-- The name of a class. -/
def name : FaultClass → String
  | general => "Exception"
  | runtime => "RuntimeError"
  | value => "ValueError"
  | lookup => "LookupError"
  | key => "KeyError"
  | os => "OSError"
  | fileNotFound => "FileNotFoundError"
  | notADirectory => "NotADirectoryError"
  | isADirectory => "IsADirectoryError"
  | fileExists => "FileExistsError"
  | permission => "PermissionError"
  | type => "TypeError"
  | member => "AttributeError"
  | encoding => "UnicodeDecodeError"
  | json => "JSONDecodeError"
  | pattern => "GitIgnorePatternError"
  | expression => "error"
  | checker => "MypydError"
  | executableNotFound => "ExecutableNotFound"
  | environmentMissing => "EnvironmentMissing"
  | toolFailure => "ToolReportedFailure"
  | daemonStuck => "DaemonStuck"

/-- The class of which a class is a special case. -/
def parent : FaultClass → FaultClass
  | key => lookup
  | fileNotFound | notADirectory | isADirectory | fileExists | permission => os
  | encoding | json | pattern => value
  | executableNotFound | environmentMissing | toolFailure => checker
  | daemonStuck => toolFailure
  | _ => general

/-- Whether a class is another one or a special case of it. -/
def isA (c d : FaultClass) : Bool :=
  c == d || c.parent == d || c.parent.parent == d || d == general

/-- The class with a given name. -/
def ofName? (s : String) : Option FaultClass :=
  [general, runtime, value, lookup, key, os, fileNotFound, notADirectory, isADirectory,
    fileExists, permission, type, member, encoding, json, pattern, expression, checker,
    executableNotFound, environmentMissing, toolFailure, daemonStuck].find? (·.name == s)

end FaultClass

end Overseer
