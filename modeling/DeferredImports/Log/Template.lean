import DeferredImports.Failure
import DeferredImports.Number.Places

/-! Templates: texts with directives that arguments take the place of. A directive begins with a
percent sign and ends with the letter of a conversion; between them stand a name in parentheses,
flags, a width and a precision, all of them optional. -/

namespace DeferredImports.Template

/-- What is left of a template, the index of its first character, and the argument that is not
used yet. -/
structure Cursor where
  rest : List Char
  index : Nat
  argument : Option Raw

structure Directive where
  flags : List Char
  width : Nat
  precision : Option Nat
  letter : Char
  index : Nat

namespace Directive

def leftAligned (d : Directive) : Bool := d.flags.contains '-'

/-- Whether prefixes, points and zeros that could be left out are written. -/
def alternate (d : Directive) : Bool := d.flags.contains '#'

end Directive

def fault {α : Type} (f : TemplateFault) : Effect Cursor α := throw (.template f)

def skip (n : Nat) : Effect Cursor Unit :=
  modify fun c => { c with rest := c.rest.drop n, index := c.index + n }

/-- The unused argument, which is used up. -/
def useArgument : Effect Cursor Raw := do
  match (← get).argument with
  | none => throw .unfit
  | some v =>
    modify fun c => { c with argument := none }
    return v

/-- The number of characters up to the parenthesis that closes a name, in which parentheses are
balanced. -/
def nameLength? : Nat → List Char → Option Nat
  | _, [] => none
  | depth, c :: cs =>
    if c = ')' then
      match depth with
      | 0 => some 0
      | inner + 1 => (nameLength? inner cs).map (· + 1)
    else (nameLength? (if c = '(' then depth + 1 else depth) cs).map (· + 1)

/-- The value under a name; only a record has any. -/
def lookUp (name : String) : Raw → Except Failure Raw
  | .record fields =>
    match Raw.field? fields name with
    | some v => .ok v
    | none => .error (.unknownField name)
  | _ => .error .unfit

/-- Reads a name, if there is one, and makes its value the argument. -/
def readName (values : Raw) : Effect Cursor Unit := do
  match (← get).rest with
  | '(' :: cs =>
    if let .text _ := values then throw .unfit
    let some n := nameLength? 0 cs | fault .incompleteName
    let v ← Effect.ofExcept (lookUp (String.ofList (cs.take n)) values)
    skip (n + 2)
    modify fun c => { c with argument := some v }
  | _ => return

def isFlag (c : Char) : Bool := ['-', '+', ' ', '#', '0'].contains c

def readFlags : Effect Cursor (List Char) := do
  let flags := (← get).rest.takeWhile isFlag
  skip flags.length
  return flags

def countOf (digits : List Char) : Nat :=
  digits.foldl (fun n c => 10 * n + (c.toNat - '0'.toNat)) 0

/-- A count: digits up to a limit, or a star for an argument below the limit in size. -/
def readCount (limit : Nat) (tooLarge : TemplateFault) : Effect Cursor (Option Int) := do
  let rest := (← get).rest
  if rest.head? = some '*' then
    skip 1
    let n ← match ← useArgument with
      | .whole n => pure n
      | .flag b => pure (if b then 1 else 0)
      | _ => throw .unfit
    if n < -(limit : Int) - 1 ∨ (limit : Int) < n then throw .outOfRange
    return some n
  let digits := rest.takeWhile Char.isDigit
  if digits.isEmpty then return none
  if limit < countOf digits then fault tooLarge
  skip digits.length
  return some (countOf digits)

def widthLimit : Nat := 9223372036854775807

def precisionLimit : Nat := 2147483647

/-- A point without digits stands for no places, and so does a number below zero. -/
def readPrecision : Effect Cursor (Option Nat) := do
  if (← get).rest.head? = some '.' then
    skip 1
    return some (((← readCount precisionLimit .precisionTooLarge).getD 0).toNat)
  else return none

/-- A directive, after its percent sign. A negative width aligns to the left, and one letter for
the size of a number has no meaning. -/
def readDirective (values : Raw) : Effect Cursor Directive := do
  readName values
  let flags ← readFlags
  let width := (← readCount widthLimit .widthTooLarge).getD 0
  let precision ← readPrecision
  if (← get).rest.head?.any ['h', 'l', 'L'].contains then skip 1
  let index := (← get).index
  match (← get).rest with
  | [] => fault .incomplete
  | letter :: _ =>
    skip 1
    return ⟨if width < 0 then '-' :: flags else flags, width.natAbs, precision, letter, index⟩

/-- A text in a field of a width. -/
def padded (d : Directive) (cs : List Char) : List Char :=
  let blanks := List.replicate (d.width - cs.length) ' '
  if d.leftAligned then cs ++ blanks else blanks ++ cs

/-- A number in a field of a width: zeros go between the sign and the digits. -/
def paddedNumber (d : Directive) (negative : Bool) (start digits : List Char) : List Char :=
  let sign := if negative then ['-'] else if d.flags.contains '+' then ['+']
    else if d.flags.contains ' ' then [' '] else []
  let missing := d.width - (sign.length + start.length + digits.length)
  if d.flags.contains '0' && !d.leftAligned then
    sign ++ start ++ List.replicate missing '0' ++ digits
  else padded d (sign ++ start ++ digits)

/-- The nearest float below a decimal number in size, without its sign. -/
def magnitude (v : Decimal) : Except Failure Number.Quotient :=
  match Number.Quotient.nearest? v.digits v.exponent with
  | some q => .ok q
  | none => .error .outOfRange

/-- A whole number, or another number without its fraction. -/
def asWhole : Raw → Except Failure Int
  | .whole n => .ok n
  | .flag b => .ok (if b then 1 else 0)
  | .decimal v => do
    let q ← magnitude v
    let n := q.numerator / q.denominator
    return if v.negative then -(n : Int) else n
  | _ => .error .unfit

/-- A number with a fraction is none that can be written to the base 8 or 16. -/
def asUnbroken : Raw → Except Failure Int
  | .decimal _ => .error .unfit
  | v => asWhole v

/-- Digits with zeros before them up to the precision. -/
def wholeDigits (d : Directive) (base : Nat) (n : Int) : List Char :=
  let digits := Nat.toDigits base n.natAbs
  List.replicate (d.precision.getD 0 - digits.length) '0' ++ digits

def upper (d : Directive) (cs : List Char) : List Char :=
  if d.letter.isUpper then cs.map Char.toUpper else cs

def writeWhole (d : Directive) (base : Nat) (start : List Char) (n : Int) : List Char :=
  upper d (paddedNumber d (n < 0) (if d.alternate then start else []) (wholeDigits d base n))

def asDecimal : Raw → Except Failure Decimal
  | .decimal v => .ok v
  | v => do
    let n ← asWhole v
    return ⟨n < 0, n.natAbs, 0⟩

def writeFloat (d : Directive) (style : Number.Style) (v : Raw) : Except Failure (List Char) := do
  let v ← asDecimal v
  let digits := Number.written style d.alternate (d.precision.getD 6) (← magnitude v)
  return upper d (paddedNumber d v.negative [] digits)

/-- A single character, or a code point. -/
def asCharacter : Raw → Except Failure Char
  | .text s =>
    match s.toList with
    | [c] => .ok c
    | _ => .error .unfit
  | v => do
    let n ← asUnbroken v
    if n < 0 ∨ 0x110000 ≤ n then .error .outOfRange else return Char.ofNat n.toNat

def writeText (d : Directive) (s : String) : List Char :=
  padded d (match d.precision with
    | none => s.toList
    | some n => s.toList.take n)

/-- What takes the place of a directive. -/
def convert (d : Directive) (v : Raw) : Except Failure (List Char) :=
  match d.letter with
  | 's' => .ok (writeText d v.shown)
  | 'r' => .ok (writeText d v.inner)
  | 'a' => .ok (writeText d (Text.asciiOnly v.inner))
  | 'd' | 'i' | 'u' => do return writeWhole d 10 [] (← asWhole v)
  | 'o' => do return writeWhole d 8 ['0', 'o'] (← asUnbroken v)
  | 'x' | 'X' => do return writeWhole d 16 ['0', 'x'] (← asUnbroken v)
  | 'e' | 'E' => writeFloat d .scientific v
  | 'f' | 'F' => writeFloat d .fixed v
  | 'g' | 'G' => writeFloat d .general v
  | 'c' => do return padded d [← asCharacter v]
  | letter => .error (.template (.unknownConversion letter d.index))

/-- What takes the place of the next directive; a doubled percent sign stands for one. -/
def fillDirective (values : Raw) : Effect Cursor (List Char) := do
  skip 1
  if (← get).rest.head? = some '%' then
    skip 1
    return ['%']
  let d ← readDirective values
  Effect.ofExcept (convert d (← useArgument))

/-- The filled template; the fuel bounds the number of its directives. -/
def fillFrom (values : Raw) : Nat → Effect Cursor (List Char)
  | 0 => return (← get).rest
  | fuel + 1 => do
    let plain := (← get).rest.takeWhile (· ≠ '%')
    skip plain.length
    if (← get).rest.isEmpty then return plain
    let filled ← fillDirective values
    return plain ++ filled ++ (← fillFrom values fuel)

/-- The text with its directives filled from some values. Only lists and records may stay unused,
as their values are asked for by name. -/
def fill (template : String) (values : Raw) : Except Failure String :=
  let cs := template.toList
  match (fillFrom values (cs.length + 1)).runFrom ⟨cs, 0, some values⟩ with
  | (.error e, _) => .error e
  | (.ok filled, last) =>
    match values, last.argument with
    | .text _, some _ => .error .unfit
    | _, _ => .ok (String.ofList filled)

end DeferredImports.Template
