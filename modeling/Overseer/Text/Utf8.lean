import Overseer.Text.Blank

set_option autoImplicit false

/-! # UTF-8

The reader goes through the bytes once. It remembers how many continuation bytes are missing
and in which interval the next one has to lie, so overlong forms, surrogates and numbers past
the last code point are refused at the earliest byte. A sequence that breaks off counts as one
fault, and the byte that broke it is looked at again as the start of the next character. -/

namespace Overseer.Text

/-- A character begun: bytes missing, bounds for the next byte, the value so far. -/
structure Pending where
  /-- Number of continuation bytes that are missing. -/
  missing : Nat
  /-- Least value of the next byte. -/
  low : Nat
  /-- Greatest value of the next byte. -/
  high : Nat
  /-- Value of the bits read so far. -/
  value : Nat
  deriving DecidableEq, Repr

/-- What the reader produces: a character or a fault. -/
abbrev Decoded := Option Char

/-- Begin a character with a byte. -/
def beginChar (b : Nat) : List Decoded × Option Pending :=
  if b < 0x80 then ([some (Char.ofNat b)], none)
  else if b < 0xc2 then ([none], none)
  else if b < 0xe0 then ([], some ⟨1, 0x80, 0xbf, b - 0xc0⟩)
  else if b < 0xf0 then
    ([], some ⟨2, if b = 0xe0 then 0xa0 else 0x80, if b = 0xed then 0x9f else 0xbf, b - 0xe0⟩)
  else if b < 0xf5 then
    ([], some ⟨3, if b = 0xf0 then 0x90 else 0x80, if b = 0xf4 then 0x8f else 0xbf, b - 0xf0⟩)
  else ([none], none)

/-- Take one byte. -/
def takeByte : Option Pending → Nat → List Decoded × Option Pending
  | none, b => beginChar b
  | some p, b =>
    if p.low ≤ b && b ≤ p.high then
      let value := 64 * p.value + (b - 0x80)
      if p.missing ≤ 1 then ([some (Char.ofNat value)], none)
      else ([], some ⟨p.missing - 1, 0x80, 0xbf, value⟩)
    else
      let (out, next) := beginChar b
      (none :: out, next)

/-- Read bytes behind what is pending. -/
def decodeFrom : Option Pending → List UInt8 → List Decoded
  | none, [] => []
  | some _, [] => [none]
  | p, b :: bs =>
    let (out, next) := takeByte p b.toNat
    out ++ decodeFrom next bs

/-- The characters and faults of a byte sequence. -/
def decode (bytes : List UInt8) : List Decoded := decodeFrom none bytes

/-- Read bytes, each fault becoming a replacement character. -/
def decodeLossy (bytes : List UInt8) : List Char :=
  (decode bytes).map fun d => d.getD (Char.ofNat 0xfffd)

/-- Read bytes that must not hold a fault. -/
def decode? (bytes : List UInt8) : Option (List Char) := (decode bytes).mapM id

/-- The bytes of a text. -/
def encode (cs : List Char) : List UInt8 := cs.flatMap String.utf8EncodeChar

/-- The text that a program's output bytes stand for. -/
def outputText (bytes : List UInt8) : String :=
  String.ofList (normalizeNewlines (decodeLossy bytes))

/-- The text of a file, unless its bytes are not well-formed. -/
def fileText? (bytes : List UInt8) : Option String :=
  (decode? bytes).map fun cs => String.ofList (normalizeNewlines cs)

end Overseer.Text
