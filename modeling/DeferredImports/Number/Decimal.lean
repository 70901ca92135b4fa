/-! Numbers with decimal places, and how they are written. -/

namespace DeferredImports

/-- The number `digits * 10 ^ exponent`, with a sign that zero has too. -/
structure Decimal where
  negative : Bool
  digits : Nat
  exponent : Int
deriving DecidableEq, Inhabited

namespace Decimal

def isZero (d : Decimal) : Bool := d.digits == 0

/-- The digits without zeros at the end, which count up in the exponent instead; the fuel bounds
their number. -/
def stripZeros : Nat → Nat → Int → Nat × Int
  | 0, digits, exponent => (digits, exponent)
  | fuel + 1, digits, exponent =>
    if digits ≠ 0 ∧ digits % 10 = 0 then stripZeros fuel (digits / 10) (exponent + 1)
    else (digits, exponent)

/-- Zero and the numbers with a last digit other than zero are in normal form. -/
def normalize (d : Decimal) : Decimal :=
  if d.digits = 0 then { d with exponent := 0 }
  else
    let (digits, exponent) := stripZeros (toString d.digits).length d.digits d.exponent
    { d with digits := digits, exponent := exponent }

/-- The number as a whole number, if it is one. -/
def whole? (d : Decimal) : Option Int :=
  let d := d.normalize
  if d.exponent < 0 then none
  else
    let size : Nat := d.digits * Nat.pow 10 d.exponent.toNat
    some (if d.negative then -(size : Int) else size)

def zeros (n : Nat) : String := String.ofList (List.replicate n '0')

/-- The digits with a point after the given number of them; a place is written on either side. -/
def positional (digits : List Char) (point : Int) : String :=
  if point ≤ 0 then "0." ++ zeros (-point).toNat ++ String.ofList digits
  else
    let n := point.toNat
    if digits.length ≤ n then String.ofList digits ++ zeros (n - digits.length) ++ ".0"
    else String.ofList (digits.take n) ++ "." ++ String.ofList (digits.drop n)

/-- A sign and at least two digits. -/
def exponentText (e : Int) : String :=
  let digits := toString e.natAbs
  (if e < 0 then "-" else "+") ++ zeros (2 - digits.length) ++ digits

/-- The first digit, a point if there are more, and the exponent of the first digit. -/
def scientific (digits : List Char) (e : Int) : String :=
  String.ofList (digits.take 1) ++
    (if digits.length ≤ 1 then "" else "." ++ String.ofList (digits.drop 1)) ++
    "e" ++ exponentText e

/-- Positional from four zeros after the point up to sixteen digits before it, and with an
exponent beyond. -/
def text (d : Decimal) : String :=
  let sign := if d.negative then "-" else ""
  let d := d.normalize
  let digits := (toString d.digits).toList
  let point := d.exponent + digits.length
  sign ++
    if d.digits = 0 then "0.0"
    else if -4 < point ∧ point ≤ 16 then positional digits point
    else scientific digits (point - 1)

end Decimal

end DeferredImports
