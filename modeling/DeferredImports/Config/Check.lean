import DeferredImports.Failure

/-! Checking untyped fields. Every bad field is reported, in the order of the fields. -/

namespace DeferredImports

/-- A value, or everything that is wrong with what it was to be read off. -/
inductive Checked (α : Type) where
  | valid (value : α)
  | invalid (issues : List Issue)

namespace Checked

variable {α β : Type}

/-- A function and its argument are both checked before either is given up. -/
def apply : Checked (α → β) → Checked α → Checked β
  | valid f, valid a => valid (f a)
  | valid _, invalid es => invalid es
  | invalid es, valid _ => invalid es
  | invalid es, invalid es' => invalid (es ++ es')

instance : Applicative Checked where
  pure := valid
  seq f x := apply f (x ())

/-- What needs a valid value first. -/
def andThen (x : Checked α) (f : α → Checked β) : Checked β :=
  match x with
  | valid a => f a
  | invalid es => invalid es

/-- Issues below a field. -/
def under (name : String) : Checked α → Checked α
  | valid a => valid a
  | invalid es => invalid (es.map fun e => ⟨name :: e.path, e.cause⟩)

def toExcept : Checked α → Except Failure α
  | valid a => .ok a
  | invalid es => .error (.invalid es)

theorem apply_eq_valid {f : Checked (α → β)} {x : Checked α} {b : β} :
    apply f x = valid b ↔ ∃ g a, f = valid g ∧ x = valid a ∧ g a = b := by
  cases f <;> cases x <;> simp [apply]

end Checked

namespace Raw

def refuse {α : Type} (cause : IssueCause) : Checked α := .invalid [⟨[], cause⟩]

def falseWords : List String := ["0", "off", "f", "false", "n", "no"]

def trueWords : List String := ["1", "on", "t", "true", "y", "yes"]

/-- A flag in words, whatever the case of its letters. -/
def flagOfText (s : String) : Checked Bool :=
  let word := Text.mapChars Char.toLower s
  if word ∈ falseWords then .valid false
  else if word ∈ trueWords then .valid true
  else refuse .unreadableFlag

/-- The numbers zero and one are flags. -/
def flagOfWhole (n : Int) : Checked Bool :=
  if n = 0 then .valid false else if n = 1 then .valid true else refuse .unreadableFlag

/-- One more than the largest whole number that is looked at. -/
def wholeBound : Int := 9223372036854775808

/-- A flag as such, as the number zero or one, or in words. Numbers with a fraction and those
beyond the bound are not looked at, and a decimal number may not reach the bound either way. -/
def asFlag : Raw → Checked Bool
  | flag b => .valid b
  | whole n => if -wholeBound ≤ n ∧ n < wholeBound then flagOfWhole n else refuse .notFlag
  | decimal d =>
    match d.whole? with
    | some n => if -wholeBound < n ∧ n < wholeBound then flagOfWhole n else refuse .notFlag
    | none => refuse .notFlag
  | text s => flagOfText s
  | _ => refuse .notFlag

def asName : Raw → Checked String
  | text s => if s = "" then refuse .emptyText else .valid s
  | _ => refuse .notText

/-- No untyped value can be called. -/
def asCallable {α : Type} (_ : Raw) : Checked α := refuse .notCallable

/-- As a callable, but nothing at all stands for the default. -/
def asOptionalCallable {α : Type} : Raw → Checked (Option α)
  | null => .valid none
  | _ => refuse .notCallable

/-- A field of a record, or its default if it is not given. -/
def check {α : Type} (fields : List (String × Raw)) (name : String) (default : α)
    (read : Raw → Checked α) : Checked α :=
  match field? fields name with
  | none => .valid default
  | some v => (read v).under name

end Raw

end DeferredImports
