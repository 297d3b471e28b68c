set_option autoImplicit false

/-! # Numbers in the 64-bit binary format

A finite number is a significand below 2^53 times a power of two. Decimals are read to the
nearest such number, a tie going to the even significand, and a number is written with the
fewest decimal digits that read back as the same number; of several such decimals the nearest
is taken. All arithmetic is exact, on natural numbers. -/

namespace Overseer.Number

/-- A number in the 64-bit binary format. -/
inductive Binary64 where
  /-- No number. -/
  | nan
  /-- Past the largest finite number. -/
  | infinite (negative : Bool)
  /-- `significand * 2 ^ exponent`, with a sign that zero keeps. -/
  | finite (negative : Bool) (significand : Nat) (exponent : Int)
  deriving DecidableEq, Repr, Inhabited

namespace Binary64

/-- Exponent of the smallest positive number. -/
def minExponent : Int := -1074

/-- Exponent of the largest finite number. -/
def maxExponent : Int := 971

/-- The least significand that uses all 53 bits. -/
def fullSignificand : Nat := 0x10000000000000

/-- A quotient rounded to the nearest integer, a tie to the even one. -/
def roundDiv (num den : Nat) : Nat :=
  let q := num / den
  let r := num % den
  if 2 * r < den then q
  else if den < 2 * r then q + 1
  else if q % 2 = 0 then q else q + 1

/-- A fraction times a power of a base. -/
def scaled (num den base : Nat) (exponent : Int) : Nat × Nat :=
  if 0 ≤ exponent then (num * Nat.pow base exponent.toNat, den)
  else (num, den * Nat.pow base (-exponent).toNat)

/-- The number nearest to a positive fraction. -/
def ofFraction (negative : Bool) (num den : Nat) : Binary64 :=
  let guess : Int := (Nat.log2 num : Int) - Nat.log2 den - 52
  let (n, d) := scaled num den 2 (-guess)
  let wanted := if n / d < fullSignificand then guess - 1 else guess
  let exponent := max wanted minExponent
  let (n, d) := scaled num den 2 (-exponent)
  let significand := roundDiv n d
  let (significand, exponent) :=
    if significand = 2 * fullSignificand then (fullSignificand, exponent + 1)
    else (significand, exponent)
  if maxExponent < exponent then infinite negative
  else if significand = 0 then finite negative 0 0
  else finite negative significand exponent

/-- The number nearest to `coefficient * 10 ^ exponent`. -/
def ofDecimal (negative : Bool) (coefficient : Nat) (exponent : Int) : Binary64 :=
  let magnitude : Int := (Nat.toDigits 10 coefficient).length + exponent
  if coefficient = 0 || magnitude < -330 then finite negative 0 0
  else if 310 < magnitude then infinite negative
  else
    let (n, d) := scaled coefficient 1 10 exponent
    ofFraction negative n d

/-! ## Shortest decimals -/

/-- Compare `a * 2 ^ q` with `d * 10 ^ k`. -/
def compareScaled (a : Nat) (q : Int) (d : Nat) (k : Int) : Ordering :=
  let (an, ad) := scaled a 1 2 q
  let (dn, dd) := scaled d 1 10 k
  compare (an * dd) (dn * ad)

/-- Whether `d * 10 ^ k` reads back as `m * 2 ^ q`: it lies between the midpoints to the two
neighbours, and on a midpoint only if the significand is even. -/
def readsBack (m : Nat) (q : Int) (d : Nat) (k : Int) : Bool :=
  let low := if m = fullSignificand && minExponent < q then 4 * m - 1 else 4 * m - 2
  let atLow := compareScaled low (q - 2) d k
  let atHigh := compareScaled (4 * m + 2) (q - 2) d k
  (atLow == .lt || (atLow == .eq && m % 2 == 0)) &&
    (atHigh == .gt || (atHigh == .eq && m % 2 == 0))

/-- The integer part of `m * 2 ^ q / 10 ^ k`. -/
def floorAt (m : Nat) (q k : Int) : Nat :=
  let (an, ad) := scaled m 1 2 q
  let (n, d) := scaled an ad 10 (-k)
  n / d

/-- The power of ten of the leading decimal digit. -/
def leadingPower (m : Nat) (q : Int) : Int :=
  let guess := ((Nat.log2 m + q) * 30103).fdiv 100000
  if compareScaled m q 1 (guess + 1) != .lt then guess + 1
  else if compareScaled m q 1 guess != .lt then guess
  else guess - 1

/-- The better of a grid point and the next one, if one of them reads back. -/
def nearestOnGrid (m : Nat) (q k : Int) : Option Nat :=
  let d := floorAt m q k
  match readsBack m q d k, readsBack m q (d + 1) k with
  | true, false => some d
  | false, true => some (d + 1)
  | false, false => none
  | true, true =>
    match compareScaled (2 * m) q (2 * d + 1) k with
    | .lt => some d
    | .gt => some (d + 1)
    | .eq => some (if d % 2 = 0 then d else d + 1)

/-- The shortest decimal that reads back as `m * 2 ^ q`, as coefficient and power of ten. -/
def shortest (m : Nat) (q : Int) : Nat × Int :=
  let top := leadingPower m q
  let hits := (List.range 17).filterMap fun (n : Nat) =>
    let k : Int := top - n
    (nearestOnGrid m q k).map fun d => (d, k)
  hits.headD (floorAt m q (top - 16), top - 16)

/-! ## Writing -/

/-- Digits with a point among them: positional from `0.0001` up to sixteen digits before the
point, otherwise with an exponent of at least two digits. -/
def layout (coefficient : Nat) (power : Int) : String :=
  let all := Nat.toDigits 10 coefficient
  let digits := (all.reverse.dropWhile (· == '0')).reverse
  let point : Int := all.length + power
  let count : Int := digits.length
  if -4 < point && point ≤ 16 then
    if point ≤ 0 then String.ofList ("0.".toList ++ List.replicate (-point).toNat '0' ++ digits)
    else if count ≤ point then
      String.ofList (digits ++ List.replicate (point - count).toNat '0' ++ ".0".toList)
    else String.ofList (digits.take point.toNat ++ '.' :: digits.drop point.toNat)
  else
    let e := point - 1
    let shown := Nat.toDigits 10 e.natAbs
    let fraction := match digits.drop 1 with
      | [] => []
      | ds => '.' :: ds
    String.ofList (digits.take 1 ++ fraction ++ ['e', if e < 0 then '-' else '+'] ++
      List.replicate (2 - shown.length) '0' ++ shown)

/-- The shortest text of a number. -/
def text : Binary64 → String
  | nan => "nan"
  | infinite negative => if negative then "-inf" else "inf"
  | finite negative m q =>
    let body := if m = 0 then "0.0" else
      let (d, k) := shortest m q
      layout d k
    if negative then "-" ++ body else body

/-- Whether a number is zero. -/
def isZero : Binary64 → Bool
  | finite _ m _ => m == 0
  | _ => false

end Binary64

end Overseer.Number
