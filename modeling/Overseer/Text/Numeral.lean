set_option autoImplicit false

/-! # Numerals

Whole numbers are read in any decimal script of the standard. A numeral has a bound on its
number of digits, leading zeros included; longer ones are refused. -/

namespace Overseer.Text

/-- The zero of every decimal script; the other nine digits follow it. -/
def digitZeros : List Nat := [
    0x30, 0x660, 0x6f0, 0x7c0, 0x966, 0x9e6, 0xa66, 0xae6, 0xb66, 0xbe6,
    0xc66, 0xce6, 0xd66, 0xde6, 0xe50, 0xed0, 0xf20, 0x1040, 0x1090, 0x17e0,
    0x1810, 0x1946, 0x19d0, 0x1a80, 0x1a90, 0x1b50, 0x1bb0, 0x1c40, 0x1c50, 0xa620,
    0xa8d0, 0xa900, 0xa9d0, 0xa9f0, 0xaa50, 0xabf0, 0xff10, 0x104a0, 0x10d30, 0x11066,
    0x110f0, 0x11136, 0x111d0, 0x112f0, 0x11450, 0x114d0, 0x11650, 0x116c0, 0x11730, 0x118e0,
    0x11950, 0x11c50, 0x11d50, 0x11da0, 0x16a60, 0x16ac0, 0x16b50, 0x1d7ce, 0x1d7d8, 0x1d7e2,
    0x1d7ec, 0x1d7f6, 0x1e140, 0x1e2f0, 0x1e950, 0x1fbf0]

/-- The value of a decimal digit. -/
def digitValue? (c : Char) : Option Nat :=
  if c.toNat < 128 then
    if c.isDigit then some (c.toNat - 48) else none
  else (digitZeros.find? fun z => z ≤ c.toNat && c.toNat ≤ z + 9).map (c.toNat - ·)

/-- Whether a character is a decimal digit of some script. -/
def isDigit (c : Char) : Bool := (digitValue? c).isSome

theorem isDigit_of_isDigit_ascii {c : Char} (h : c.isDigit = true) : isDigit c = true := by
  have : c.toNat < 128 := by
    simp only [Char.isDigit, Bool.and_eq_true, decide_eq_true_eq] at h
    have := h.2
    simp only [UInt32.le_iff_toNat_le] at this
    exact Nat.lt_of_le_of_lt this (by decide)
  simp [isDigit, digitValue?, this, h]

/-- The longest numeral that is read. -/
def maxDigits : Nat := 4300

/-- A numeral with more digits than are read. -/
structure TooManyDigits where
  /-- The number of digits, leading zeros included. -/
  count : Nat
  deriving DecidableEq, Repr

/-- The number that a run of digits denotes. -/
def valueOfDigits (ds : List Char) : Nat :=
  ds.foldl (fun n d => 10 * n + (digitValue? d).getD 0) 0

/-- Read a run of digits, unless it is too long. -/
def readNumeral (ds : List Char) : Except TooManyDigits Nat :=
  if ds.length ≤ maxDigits then .ok (valueOfDigits ds) else .error ⟨ds.length⟩

/-- The digits of a number in a base up to sixteen, filled up with zeros to a least width. -/
def digitsOfWidth (base width n : Nat) : List Char :=
  let ds := Nat.toDigits base n
  List.replicate (width - ds.length) '0' ++ ds

end Overseer.Text
