import Overseer.Text.Quoted
import Overseer.Text.Utf8

set_option autoImplicit false

/-! # Bytes that are no text

Where bytes stop being UTF-8, which of them are at fault, and how messages name bytes. -/

namespace Overseer.Text

/-- What is wrong with bytes that are not UTF-8. -/
inductive Trouble where
  /-- No character starts with the byte. -/
  | badStart
  /-- A character that was begun does not go on. -/
  | badContinuation
  /-- The bytes end inside a character. -/
  | cutOff
  deriving DecidableEq, Repr

/-- The wording of a trouble. -/
def Trouble.wording : Trouble → String
  | badStart => "invalid start byte"
  | badContinuation => "invalid continuation byte"
  | cutOff => "unexpected end of data"

/-- The first bytes that are not UTF-8. -/
structure Malformed where
  start : Nat
  /-- The place behind the last byte at fault. -/
  stop : Nat
  trouble : Trouble
  deriving DecidableEq, Repr

/-- Find the first trouble from a place on; a character may have begun at an earlier place. -/
def malformedFrom (place : Nat) : Option (Pending × Nat) → List UInt8 → Option Malformed
  | none, [] => none
  | some (_, start), [] => some ⟨start, place, .cutOff⟩
  | none, b :: bs =>
    match beginChar b.toNat with
    | ([], some p) => malformedFrom (place + 1) (some (p, place)) bs
    | ([some _], _) => malformedFrom (place + 1) none bs
    | _ => some ⟨place, place + 1, .badStart⟩
  | some (p, start), b :: bs =>
    match takeByte (some p) b.toNat with
    | ([], some p) => malformedFrom (place + 1) (some (p, start)) bs
    | ([some _], none) => malformedFrom (place + 1) none bs
    | _ => some ⟨start, place, .badContinuation⟩

/-- The first trouble in bytes. -/
def malformed? (bytes : List UInt8) : Option Malformed := malformedFrom 0 none bytes

/-- One byte inside quotes: printable ASCII as it is. -/
def quoteByte (quote : Char) (b : UInt8) : List Char :=
  let c := Char.ofNat b.toNat
  if b < 0x7f then quoteChar quote c else '\\' :: 'x' :: digitsOfWidth 16 2 b.toNat

/-- Bytes in quotes. -/
def quotedBytes (bytes : List UInt8) : String :=
  let quote := quoteFor (bytes.map fun b => Char.ofNat b.toNat)
  String.ofList ('b' :: quote :: bytes.flatMap (quoteByte quote) ++ [quote])

/-- The message about bytes that are not UTF-8. -/
def malformedMessage (bytes : List UInt8) : String :=
  match malformed? bytes with
  | none => ""
  | some m =>
    let place := if m.stop = m.start + 1 then
        let byte := String.ofList (digitsOfWidth 16 2 (bytes[m.start]?.getD 0).toNat)
        s!"byte 0x{byte} in position {m.start}"
      else
        let last := m.stop - 1
        s!"bytes in position {m.start}-{last}"
    s!"'utf-8' codec can't decode {place}: {m.trouble.wording}"

/-- The parts of that message as one list of arguments. -/
def malformedArguments (bytes : List UInt8) : String :=
  match malformed? bytes with
  | none => ""
  | some m =>
    let object := quotedBytes bytes
    let reason := quoted m.trouble.wording
    s!"'utf-8', {object}, {m.start}, {m.stop}, {reason}"

end Overseer.Text
