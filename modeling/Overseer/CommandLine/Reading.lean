import Overseer.Assoc
import Overseer.CommandLine.Grammar
import Overseer.Text.Blank
import Overseer.Text.Numeral

set_option autoImplicit false

/-! # Reading command lines

Every word is an option, an operand, or the separator behind which all words are operands. The
name of an option may be shortened as long as it stays the only one that fits, and a value may
follow it behind an equals sign. Options are handled one by one, and the operands that stand
between them go to the operands of the grammar in turn. Words that nothing takes are left
over; whoever asked for the reading decides about them. -/

namespace Overseer.CommandLine

/-! ## Words -/

/-- A value written in the word of its option. -/
structure Attached where
  /-- Whether an equals sign stands before it. -/
  marked : Bool
  text : String
  deriving DecidableEq, Repr

/-- An option of a grammar as it was written. -/
structure Spelling where
  flag : Flag
  /-- The full name that was meant. -/
  name : String
  attached : Option Attached
  deriving DecidableEq, Repr

/-- What a word of a command line is. -/
inductive Token where
  | operand (word : String)
  /-- Behind it all words are operands. -/
  | separator
  /-- An option, unknown if there is no spelling for it. -/
  | option (word : String) (spelling : Option Spelling)
  deriving DecidableEq, Repr

/-- The word that separates options from operands. -/
def separatorWord : String := "--"

namespace Token

/-- The word as it was written. -/
def word : Token → String
  | operand w => w
  | separator => separatorWord
  | option w _ => w

/-- Whether a word is an option. -/
def isOption : Token → Bool
  | option _ _ => true
  | _ => false

/-- Whether a word is the separator. -/
def isSeparator : Token → Bool
  | separator => true
  | _ => false

/-- The words from the first option on. -/
def operandsDropped (ts : List Token) : List Token := ts.dropWhile fun t => !t.isOption

/-- The words before the first option. -/
def operandsTaken (ts : List Token) : List Token := ts.takeWhile fun t => !t.isOption

theorem length_operandsDropped_le (ts : List Token) :
    (operandsDropped ts).length ≤ ts.length :=
  (List.dropWhile_sublist _).length_le

end Token

/-- Cut a word at its first equals sign. -/
def cutAtEquals (word : String) : String × Option Attached :=
  match word.toList.span (· ≠ '=') with
  | (front, _ :: value) => (String.ofList front, some ⟨true, String.ofList value⟩)
  | (_, []) => (word, none)

/-- A negative number, which is no option: digits, perhaps with a point before the last of
them. One line feed may follow. -/
def isNegativeNumber (word : String) : Bool :=
  let digits (cs : List Char) : Bool := !cs.isEmpty && cs.all Text.isDigit
  let isNumber (cs : List Char) : Bool :=
    match cs.span Text.isDigit with
    | (whole, []) => !whole.isEmpty
    | (_, '.' :: fraction) => digits fraction
    | _ => false
  match word.toList with
  | '-' :: cs => isNumber (if cs.getLast? = some '\n' then cs.dropLast else cs)
  | _ => false

namespace Grammar

/-- The options that a word may stand for when its name is shortened, or when a value follows
a short name directly. -/
def candidates (g : Grammar) (word : String) : List Spelling :=
  match word.toList with
  | '-' :: '-' :: _ =>
    let (front, attached) := cutAtEquals word
    g.names.filterMap fun (name, flag) =>
      if front.toList.isPrefixOf name.toList then some ⟨flag, name, attached⟩ else none
  | '-' :: c :: value =>
    g.names.filterMap fun (name, flag) =>
      if name.toList = ['-', c] then some ⟨flag, name, some ⟨false, String.ofList value⟩⟩
      else if word.toList.isPrefixOf name.toList then some ⟨flag, name, none⟩
      else none
  | _ => []

/-- What a word that is no full name of an option is. -/
def guess (g : Grammar) (word : String) : Except Complaint Token :=
  match g.candidates word with
  | [s] => .ok (.option word (some s))
  | [] =>
    if isNegativeNumber word || word.toList.contains ' ' then .ok (.operand word)
    else .ok (.option word none)
  | several => .error (.ambiguous word (several.map (·.name)))

/-- What a word is, before the separator. -/
def token (g : Grammar) (word : String) : Except Complaint Token :=
  if word.toList.head? ≠ some '-' then .ok (.operand word)
  else
    match g.flag? word with
    | some flag => .ok (.option word (some ⟨flag, word, none⟩))
    | none =>
      if word = "-" then .ok (.operand word)
      else
        match cutAtEquals word with
        | (front, some value) =>
          match g.flag? front with
          | some flag => .ok (.option word (some ⟨flag, front, some value⟩))
          | none => g.guess word
        | (_, none) => g.guess word

/-- What the words of a command line are. -/
def tokens (g : Grammar) : List String → Except Complaint (List Token)
  | [] => .ok []
  | word :: rest =>
    if word = separatorWord then .ok (.separator :: rest.map .operand)
    else do return (← g.token word) :: (← tokens g rest)

end Grammar

/-! ## What has been read -/

/-- What has been read from a command line. -/
structure Reading where
  /-- The switches that are on. -/
  switches : List String := []
  /-- The values of options; a later one replaces an earlier one. -/
  values : Assoc String String := Assoc.empty
  /-- The words of operands. -/
  operands : Assoc String (List String) := Assoc.empty
  /-- Operands that have got no words. -/
  waiting : List Operand := []
  /-- Words that nothing takes. -/
  leftover : List String := []

namespace Reading

/-- Leave words over. -/
def leave (r : Reading) (words : List String) : Reading :=
  { r with leftover := r.leftover ++ words }

/-- Whether a switch is on. -/
def has (r : Reading) (key : String) : Bool := r.switches.contains key

/-- The words of an operand. -/
def words (r : Reading) (name : String) : List String := (r.operands.get? name).getD []

end Reading

/-! ## Options -/

/-- The options that one word stands for. -/
structure Cluster where
  /-- Options with the values that they got. -/
  settled : List (Flag × String) := []
  /-- An option whose value, if it takes one, is the next word. -/
  pending : Option Flag := none
  /-- Words that are left over. -/
  leftover : List String := []

namespace Cluster

/-- Put an option without a value before the others. -/
def behind (f : Flag) (c : Cluster) : Cluster := { c with settled := (f, "") :: c.settled }

end Cluster

namespace Grammar

/-- The options in a word in which a text follows an option. The text is the value, or, behind
a short name without a value, further short names. -/
def cluster (g : Grammar) (flag : Flag) (short marked : Bool) (text : List Char) :
    Except Complaint Cluster :=
  if flag.purpose = .value then .ok { settled := [(flag, String.ofList text)] }
  else
    match text with
    | [] => .error (.valueRefused flag "")
    | c :: rest =>
      if !short || marked || c = '-' then .error (.valueRefused flag (String.ofList (c :: rest)))
      else
        match g.flag? (String.ofList ['-', c]) with
        | none =>
          .ok { settled := [(flag, "")], leftover := [String.ofList ('-' :: c :: rest)] }
        | some next =>
          match rest with
          | [] => .ok { settled := [(flag, "")], pending := some next }
          | '=' :: value => (Cluster.behind flag) <$> g.cluster next true true value
          | d :: rest => (Cluster.behind flag) <$> g.cluster next true false (d :: rest)
termination_by text.length

/-- The options in the word of an option. -/
def options (g : Grammar) (s : Spelling) : Except Complaint Cluster :=
  match s.attached with
  | none => .ok { pending := some s.flag }
  | some a =>
    g.cluster s.flag (s.name.toList.drop 1 |>.head? |>.all (· ≠ '-')) a.marked a.text.toList

/-- The option that waits for the next word gets it, if it takes a value. -/
def settle (c : Cluster) (rest : List Token) :
    Except Complaint (List (Flag × String) × List Token) :=
  match c.pending with
  | none => .ok (c.settled, rest)
  | some flag =>
    if flag.purpose = .value then
      match rest with
      | .operand word :: rest => .ok (c.settled ++ [(flag, word)], rest)
      | _ => .error (.valueMissing flag)
    else .ok (c.settled ++ [(flag, "")], rest)

/-- Take an option in. -/
def apply (g : Grammar) (r : Reading) (f : Flag × String) : Except Halt Reading :=
  match f.1.purpose with
  | .help => .error (.help g)
  | .switch => .ok { r with switches := r.switches ++ [f.1.key] }
  | .value => .ok { r with values := r.values.insert f.1.key f.2 }

theorem settle_length_le {c : Cluster} {rest after : List Token} {l : List (Flag × String)}
    (h : settle c rest = .ok (l, after)) : after.length ≤ rest.length := by
  unfold settle at h
  split at h
  · simp only [Except.ok.injEq, Prod.mk.injEq] at h
    simp [h.2]
  · split at h
    · split at h
      · simp only [Except.ok.injEq, Prod.mk.injEq] at h
        simp [← h.2]
      · simp at h
    · simp only [Except.ok.injEq, Prod.mk.injEq] at h
      simp [h.2]

end Grammar

/-! ## Operands -/

namespace Operand

/-- Whether an operand that has its first word also takes another one. -/
def takesMore : Arity → Token → Bool
  | .one, t => t.isSeparator
  | .many, t => !t.isOption
  | .rest, _ => true

/-- The words at the front that an operand takes, and what follows them. -/
def take (o : Operand) (tokens : List Token) : Option (List String × List Token) :=
  match tokens.dropWhile Token.isSeparator with
  | .operand word :: rest =>
    let before := (tokens.takeWhile Token.isSeparator).map Token.word
    let more := (rest.takeWhile (takesMore o.arity)).map Token.word
    some (before ++ word :: more, rest.dropWhile (takesMore o.arity))
  | _ => none

/-- The words that count: one separator among them does not. -/
def wordsOf (o : Operand) (words : List String) : List String :=
  if o.arity = .rest then words else words.erase separatorWord

end Operand

/-- Give the words at the front to operands in turn, as long as they fit. -/
def takeOperands (r : Reading) : List Operand → List Token → Reading × List Token
  | [], tokens => ({ r with waiting := [] }, tokens)
  | o :: os, tokens =>
    match o.take tokens with
    | some (words, rest) =>
      takeOperands { r with operands := r.operands.insert o.name (o.wordsOf words) } os rest
    | none => ({ r with waiting := o :: os }, tokens)

/-! ## Whole command lines -/

namespace Grammar

/-- Go through the words of a command line. -/
def consume (g : Grammar) (r : Reading) (tokens : List Token) : Except Halt Reading :=
  match tokens with
  | [] => .ok r
  | .option word none :: rest => g.consume (r.leave [word]) rest
  | .option _ (some s) :: rest =>
    match g.options s with
    | .error c => .error (.misuse g c)
    | .ok c =>
      match h : settle c rest with
      | .error c => .error (.misuse g c)
      | .ok (settled, after) =>
        have := settle_length_le h
        match settled.foldlM g.apply (r.leave c.leftover) with
        | .error e => .error e
        | .ok r => g.consume r after
  | t :: rest =>
    let (taken, after) := takeOperands r r.waiting (t :: rest)
    if rest.any Token.isOption then
      if after.length < (t :: rest).length then g.consume taken after
      else
        g.consume (r.leave (t.word :: (Token.operandsTaken rest).map Token.word))
          (Token.operandsDropped rest)
    else .ok (taken.leave (after.map Token.word))
termination_by tokens.length
decreasing_by
  all_goals have := Token.length_operandsDropped_le rest
  all_goals simp only [List.length_cons] at *
  all_goals omega

/-- Read a command line. Required operands must be there. -/
def read (g : Grammar) (words : List String) : Except Halt Reading :=
  match g.tokens words with
  | .error c => .error (.misuse g c)
  | .ok tokens => do
    let r ← g.consume { waiting := g.operands } tokens
    match (r.waiting.filter (·.required)).map (·.name) with
    | [] => return r
    | missing => throw (.misuse g (.missing missing))

end Grammar

end Overseer.CommandLine
