import DeferredImports.Text.Basic
import DeferredImports.Text.CharacterClass
import DeferredImports.Text.WordCharacter
import DeferredImports.Types

/-! Written types that are plain references to a named type. -/

namespace DeferredImports.TypeSymbol

open Text (trimBlanks continuesName pieces)

/-- Types of the language itself; they have no symbol. -/
def predefined : List String :=
  ["any", "unknown", "never", "void", "null", "undefined", "string", "number", "boolean",
    "bigint", "symbol", "object"]

def startsPart (c : Char) : Bool := c.isAlpha || c == '_' || c == '$'

def isPart : List Char → Bool
  | [] => false
  | c :: cs => startsPart c && cs.all continuesName

/-- A colon before the type is not part of it. -/
def dropColon (cs : List Char) : List Char :=
  match trimBlanks cs with
  | ':' :: rest => trimBlanks rest
  | cs => cs

/-- Type arguments at the end do not change the symbol. -/
def dropArguments (cs : List Char) : List Char :=
  if cs.contains '<' && cs.getLast? == some '>' then trimBlanks (cs.takeWhile (· ≠ '<')) else cs

/-- The symbol of a dotted name, unless it is predefined. -/
def ofText? (text : String) : Option TypeSymbol :=
  let name := dropArguments (dropColon text.toList)
  let parts := pieces '.' name
  if parts.all isPart && !predefined.contains (String.ofList name) then
    ofPath? (parts.map String.ofList)
  else none

end DeferredImports.TypeSymbol
