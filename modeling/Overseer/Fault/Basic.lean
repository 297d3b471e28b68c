import Overseer.Fault.Class
import Overseer.Fault.Failure
import Overseer.Files.Resolve
import Overseer.Json.Reader
import Overseer.Text.Malformed

set_option autoImplicit false

/-! # Faults

Everything that can stop an operation, as its cause. The class of a fault decides which
handler sees it, `message` is its text, and `literal` the form in which the log names a fault
that nobody expected. -/

namespace Overseer

open Files (Refusal)

/-- How a value of the wrong kind was used. -/
inductive Misuse where
  /-- A member was asked of a kind that does not have it. -/
  | noMember (kind : Json.Kind) (member : String)
  /-- Items were asked of a kind without items. -/
  | notIterable (kind : Json.Kind)
  /-- A text was looked for in a kind that holds none. -/
  | notContainer (kind : Json.Kind)
  /-- An item of a list to be joined is no text. -/
  | joinedItem (index : Nat) (kind : Json.Kind)
  /-- An item of a list of pairs has no length. -/
  | notPair (index : Nat)
  /-- A list or object was used as the name of a variable. -/
  | notHashable (kind : Json.Kind)
  /-- A text that is a path was something else. -/
  | notPath (kind : Json.Kind)
  deriving DecidableEq, Repr

namespace Misuse

/-- The text about a misuse. -/
def message : Misuse → String
  | noMember kind member => s!"'{kind.name}' object has no attribute '{member}'"
  | notIterable kind => s!"'{kind.name}' object is not iterable"
  | notContainer kind => s!"argument of type '{kind.name}' is not iterable"
  | joinedItem index kind => s!"sequence item {index}: expected str instance, {kind.name} found"
  | notPair index => s!"cannot convert dictionary update sequence element #{index} to a sequence"
  | notHashable kind => s!"unhashable type: '{kind.name}'"
  | notPath kind => s!"expected str, bytes or os.PathLike object, not {kind.name}"

/-- The class of a misuse. -/
def cls : Misuse → FaultClass
  | noMember _ _ => .member
  | _ => .type

end Misuse

/-- What stopped an operation. -/
inductive Fault where
  /-- The checker failed; the class is that of the fault behind it. -/
  | failure (f : Failure) (cause : Option FaultClass)
  /-- An operation on files was refused. -/
  | files (refusal : Refusal) (path : String)
  /-- A path runs into a loop of links. -/
  | linkLoop (loop : Files.LinkLoop)
  /-- The home directory is not known. -/
  | noHome
  /-- A numeral is too long. -/
  | digits (count : Text.TooManyDigits)
  /-- A text is not JSON. -/
  | json (complaint : Json.Complaint)
  /-- Bytes are not UTF-8. -/
  | encoding (bytes : List UInt8)
  /-- A value of the wrong kind was used. -/
  | misuse (m : Misuse)
  /-- An item of a list of pairs does not have two items. -/
  | pairLength (index length : Nat)
  /-- A line of the buffer has an entry already. -/
  | lineTaken (line : Int)
  /-- The bound on attempts is below one. -/
  | noAttempts (bound : Int)
  /-- A workspace is not registered. -/
  | unknownWorkspace (root : String)
  /-- A word does not name a signal. -/
  | unknownSignal (word : String)
  /-- A pattern cannot be read. -/
  | badPattern (line : String)
  /-- A range of characters in a pattern is reversed. -/
  | badRange
  /-- A fault that comes from outside, with its text. -/
  | foreign (cls : FaultClass) (text : String)
  deriving DecidableEq

namespace Fault

/-- The number of a refusal, if the system gives it one, and its text. -/
def refusalText : Refusal → Option Nat × String
  | .notFound => (some 2, "No such file or directory")
  | .notADirectory => (some 20, "Not a directory")
  | .isADirectory => (some 21, "Is a directory")
  | .alreadyExists => (some 17, "File exists")
  | .tooManyLinks => (some 40, "Too many levels of symbolic links")
  | .tooLong => (some 36, "File name too long")
  | .denied => (some 13, "Permission denied")
  | .nullByte => (none, "embedded null byte")

/-- The class of a refusal. -/
def refusalClass : Refusal → FaultClass
  | .notFound => .fileNotFound
  | .notADirectory => .notADirectory
  | .isADirectory => .isADirectory
  | .alreadyExists => .fileExists
  | .tooManyLinks | .tooLong => .os
  | .denied => .permission
  | .nullByte => .value

/-- The class of a failure. -/
def failureClass : Failure → FaultClass
  | .general _ => .checker
  | .executableNotFound _ _ => .executableNotFound
  | .environmentMissing _ _ => .environmentMissing
  | .toolFailure _ _ => .toolFailure
  | .daemonStuck _ _ => .daemonStuck

/-- The class of a fault. -/
def cls : Fault → FaultClass
  | failure f _ => failureClass f
  | files refusal _ => refusalClass refusal
  | linkLoop _ => .runtime
  | noHome => .runtime
  | digits _ => .value
  | json _ => .json
  | encoding _ => .encoding
  | misuse m => m.cls
  | pairLength _ _ => .value
  | lineTaken _ => .value
  | noAttempts _ => .value
  | unknownWorkspace _ => .key
  | unknownSignal _ => .value
  | badPattern _ => .pattern
  | badRange => .expression
  | foreign cls _ => cls

/-- The text of a fault. -/
def message : Fault → String
  | failure f _ => f.message
  | files refusal path =>
    match refusalText refusal with
    | (some number, text) => s!"[Errno {number}] {text}: {Text.quoted path}"
    | (none, text) => text
  | linkLoop loop => "Symlink loop from " ++ Text.quoted loop.path
  | noHome => "Could not determine home directory."
  | digits count =>
    s!"Exceeds the limit ({Text.maxDigits} digits) for integer string conversion: " ++
      s!"value has {count.count} digits; use sys.set_int_max_str_digits() to increase the limit"
  | json complaint => complaint.message
  | encoding bytes => Text.malformedMessage bytes
  | misuse m => m.message
  | pairLength index length =>
    s!"dictionary update sequence element #{index} has length {length}; 2 is required"
  | lineTaken line => s!"Concatenated line {line} is already mapped"
  | noAttempts bound => s!"max_attempts must be >= 1, got {bound}"
  | unknownWorkspace root => "Unknown workspace: " ++ root
  | unknownSignal word => Text.quoted word ++ " is not a valid Signal"
  | badPattern line => "Invalid git pattern: " ++ Text.quoted line
  | badRange => "bad character range"
  | foreign _ text => text

/-- The form in which the log names a fault. -/
def literal (f : Fault) : String :=
  let arguments := match f with
    | files refusal _ =>
      match refusalText refusal with
      | (some number, text) => s!"{number}, {Text.quoted text}"
      | (none, text) => Text.quoted text
    | encoding bytes => Text.malformedArguments bytes
    | f => Text.quoted f.message
  f.cls.name ++ "(" ++ arguments ++ ")"

end Fault

end Overseer
