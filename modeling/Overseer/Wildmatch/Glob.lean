set_option autoImplicit false

/-! # Wildcards

A wildcard pattern is a list of pieces, each of which can take a beginning off a text in
several ways. A text is matched by following all ways at once: the rests that are possible
behind the pieces so far. -/

namespace Overseer.Wildmatch

/-- A piece of a pattern. -/
inductive Piece where
  /-- One given character. -/
  | char (c : Char)
  /-- One character inside, or outside, of some ranges. -/
  | oneOf (negated : Bool) (ranges : List (Char × Char))
  /-- One character other than a slash. -/
  | any
  /-- Any number of characters other than slashes. -/
  | run
  /-- At least one character, none of them a slash. -/
  | someRun
  /-- Nothing, or directories with the slash behind them. -/
  | directories
  /-- Nothing, or a slash with names behind it. -/
  | between
  /-- A slash, or the end of the text. -/
  | stop
  deriving DecidableEq, Repr

/-- Whether a character lies in one of some ranges. -/
def inSome (ranges : List (Char × Char)) (c : Char) : Bool :=
  ranges.any fun r => r.1 ≤ c && c ≤ r.2

/-- The rests behind any number of characters other than slashes. -/
def runRests : List Char → List (List Char)
  | [] => [[]]
  | c :: cs => (c :: cs) :: if c = '/' then [] else runRests cs

/-- The rests behind at least one character on the line, a slash being the last of them;
`begun` tells whether a character stands before the next one. -/
def directoryRests (begun : Bool) : List Char → List (List Char)
  | [] => []
  | c :: cs =>
    (if begun && c = '/' then [cs] else []) ++ if c = '\n' then [] else directoryRests true cs

/-- The rests behind at least one character on the line. -/
def lineRests : List Char → List (List Char)
  | [] => []
  | c :: cs => if c = '\n' then [] else cs :: lineRests cs

/-- The rests behind one character that passes a test. -/
def oneRest (p : Char → Bool) : List Char → List (List Char)
  | [] => []
  | c :: cs => if p c then [cs] else []

/-- The rests behind a slash or the end; the end may have a line feed behind it. -/
def stopRests : List Char → List (List Char)
  | [] => [[]]
  | ['\n'] => [['\n']]
  | c :: cs => if c = '/' then [cs] else []

/-- The rests that are possible behind a piece. -/
def Piece.rests : Piece → List Char → List (List Char)
  | char c, cs => oneRest (· == c) cs
  | oneOf negated ranges, cs => oneRest (fun c => inSome ranges c != negated) cs
  | any, cs => oneRest (· != '/') cs
  | run, cs => runRests cs
  | someRun, cs => (oneRest (· != '/') cs).flatMap runRests
  | directories, cs => cs :: directoryRests false cs
  | between, cs => cs :: (oneRest (· == '/') cs).flatMap lineRests
  | stop, cs => stopRests cs

/-- The rests that are possible behind pieces, each once. -/
def restsAfter (pieces : List Piece) (cs : List Char) : List (List Char) :=
  pieces.foldl (fun rests p => (rests.flatMap p.rests).eraseDups) [cs]

/-- Whether pieces match a beginning of a text. -/
def matchesFront (pieces : List Piece) (cs : List Char) : Bool := !(restsAfter pieces cs).isEmpty

end Overseer.Wildmatch
