import DeferredImports.Number.Decimal
import DeferredImports.Text.Quoted

/-! Untyped values, as a caller hands them over, and how a message shows them. -/

namespace DeferredImports

/-- Numbers that were written without decimal places are whole, all others are decimal. -/
inductive Raw where
  | null
  | flag (value : Bool)
  | whole (value : Int)
  | decimal (value : Decimal)
  | text (value : String)
  | list (items : List Raw)
  | record (fields : List (String × Raw))
deriving Inhabited

namespace Raw

/-- The name of the value's type in messages. -/
def typeLabel : Raw → String
  | null => "NoneType"
  | flag _ => "bool"
  | whole _ => "int"
  | decimal _ => "float"
  | text _ => "str"
  | list _ => "list"
  | record _ => "dict"

def isNull : Raw → Bool
  | null => true
  | _ => false

/-- Nothing, zero, and whatever is empty do not count as given. -/
def isGiven : Raw → Bool
  | null => false
  | flag b => b
  | whole n => n ≠ 0
  | decimal d => !d.isZero
  | text s => s ≠ ""
  | list items => !items.isEmpty
  | record fields => !fields.isEmpty

/-- The last entry of a name wins. -/
def field? (fields : List (String × Raw)) (name : String) : Option Raw :=
  (fields.reverse.find? fun f => f.1 == name).map Prod.snd

def ofOption : Option String → Raw
  | none => null
  | some s => text s

mutual

/-- The value as it stands inside a list or record. -/
def inner : Raw → String
  | null => "None"
  | flag true => "True"
  | flag false => "False"
  | whole n => toString n
  | decimal d => d.text
  | text s => Text.quoted s
  | list items => "[" ++ ", ".intercalate (innerItems items) ++ "]"
  | record fields => "\x7b" ++ ", ".intercalate (innerFields fields) ++ "\x7d"

def innerItems : List Raw → List String
  | [] => []
  | v :: vs => inner v :: innerItems vs

def innerFields : List (String × Raw) → List String
  | [] => []
  | (k, v) :: fs => (Text.quoted k ++ ": " ++ inner v) :: innerFields fs

end

/-- The value as a message shows it: a text stands for itself, without quotes. -/
def shown : Raw → String
  | text s => s
  | v => inner v

end Raw

end DeferredImports
