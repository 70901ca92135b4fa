import DeferredImports.Number.Decimal

/-! Numbers written with a given number of places. The number is rounded once, from its exact
value, and a tie goes to the even neighbour. -/

namespace DeferredImports.Number

/-- A number that is not negative, as a quotient. -/
structure Quotient where
  numerator : Nat
  denominator : Nat

/-- The nearest whole number, of two the even one. -/
def Quotient.round (v : Quotient) : Nat :=
  let n := v.numerator / v.denominator
  let rest := 2 * (v.numerator % v.denominator)
  if rest < v.denominator then n
  else if v.denominator < rest then n + 1
  else if n % 2 = 0 then n else n + 1

/-- The number times a power of ten. -/
def Quotient.shift (v : Quotient) (places : Int) : Quotient :=
  if places < 0 then ⟨v.numerator, v.denominator * Nat.pow 10 (-places).toNat⟩
  else ⟨v.numerator * Nat.pow 10 places.toNat, v.denominator⟩

/-- The exact value of a float with the given bits, without its sign; the bits of a float that is
no number are none. -/
def Quotient.ofBits? (bits : Nat) : Option Quotient :=
  let exponent := bits / Nat.pow 2 52 % 2048
  let fraction := bits % Nat.pow 2 52
  if exponent = 2047 then none
  else if exponent = 0 then some ⟨fraction, Nat.pow 2 1074⟩
  else
    let significand := Nat.pow 2 52 + fraction
    some (if exponent < 1075 then ⟨significand, Nat.pow 2 (1075 - exponent)⟩
      else ⟨significand * Nat.pow 2 (exponent - 1075), 1⟩)

/-- The float next to a decimal number, as an exact value. -/
def Quotient.nearest? (digits : Nat) (exponent : Int) : Option Quotient :=
  ofBits? (Float.ofScientific digits (exponent < 0) exponent.natAbs).toBits.toNat

/-- The exponent of the first digit; zero has none other than zero. -/
def Quotient.magnitude (v : Quotient) : Int :=
  if v.numerator = 0 then 0
  else if v.denominator ≤ v.numerator then
    ((toString (v.numerator / v.denominator)).length : Int) - 1
  else
    let zeros := (toString (v.denominator / v.numerator)).length - 1
    if v.denominator ≤ v.numerator * Nat.pow 10 zeros then -(zeros : Int) else -(zeros : Int) - 1

/-- How a float is written: with fixed places, with an exponent, or with a number of digits in
whichever way is shorter. -/
inductive Style where
  | fixed | scientific | general
deriving DecidableEq

/-- Digits with a point before the last `places` of them, or without one if there are no places
and none is asked for. -/
def pointed (alwaysPoint : Bool) (places : Nat) (digits : List Char) : List Char :=
  let whole := digits.take (digits.length - places)
  if places = 0 then whole ++ (if alwaysPoint then ['.'] else [])
  else whole ++ '.' :: digits.drop (digits.length - places)

def fixedDigits (alwaysPoint : Bool) (places : Nat) (v : Quotient) : List Char :=
  let digits := (toString (v.shift places).round).toList
  pointed alwaysPoint places (List.replicate (places + 1 - digits.length) '0' ++ digits)

/-- The rounded digits with one before the point, and the exponent of the first digit. -/
def scientificDigits (places : Nat) (v : Quotient) : Nat × Int :=
  let e := v.magnitude
  let n := (v.shift (places - e)).round
  if Nat.pow 10 (places + 1) ≤ n then (n / 10, e + 1) else (n, e)

def withExponent (mantissa : List Char) (e : Int) : List Char :=
  mantissa ++ 'e' :: (Decimal.exponentText e).toList

/-- The text without zeros after the last other digit behind the point. -/
def withoutTrailing (cs : List Char) : List Char :=
  if cs.contains '.' then
    let kept := (cs.reverse.dropWhile (· = '0'))
    (if kept.head? = some '.' then kept.drop 1 else kept).reverse
  else cs

/-- The text of a number in a style. With `alternate`, the point and the zeros at the end stay. -/
def written (style : Style) (alternate : Bool) (places : Nat) (v : Quotient) : List Char :=
  match style with
  | .fixed => fixedDigits alternate places v
  | .scientific =>
    let (n, e) := scientificDigits places v
    let digits := (toString n).toList
    withExponent (pointed alternate places
      (List.replicate (places + 1 - digits.length) '0' ++ digits)) e
  | .general =>
    let count := max places 1
    let (n, e) := scientificDigits (count - 1) v
    let tidy := if alternate then id else withoutTrailing
    if -4 ≤ e ∧ e < count then
      tidy (fixedDigits alternate ((count : Int) - 1 - e).toNat v)
    else
      let digits := (toString n).toList
      withExponent (tidy (pointed alternate (count - 1)
        (List.replicate (count - digits.length) '0' ++ digits))) e

end DeferredImports.Number
