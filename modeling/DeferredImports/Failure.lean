import DeferredImports.Raw
import DeferredImports.Syntax.Kind

/-! Reasons why an operation ends without a value, and their wording; and computations with a state
that may fail. A failure keeps the state reached so far. -/

namespace DeferredImports

inductive IssueCause where
  | unreadableFlag | notFlag | notText | emptyText | notCallable | notRecord | frozen
deriving DecidableEq

/-- A field, by its path, and what is wrong with its value. -/
structure Issue where
  path : List String
  cause : IssueCause
deriving DecidableEq

/-- A sentence about what went wrong, with named details. -/
structure Report where
  sentence : Raw
  details : List (String × Raw)

namespace Report

def text (r : Report) : String :=
  match r.details with
  | [] => r.sentence.shown
  | ds =>
    r.sentence.shown ++ " [" ++ ", ".intercalate (ds.map fun d => d.1 ++ "=" ++ d.2.shown) ++ "]"

/-- A detail that is not given is left out. -/
def detail (name : String) (value : Raw) : List (String × Raw) :=
  if value.isGiven then [(name, value)] else []

def resolution (sentence specifier name : Raw) : Report :=
  ⟨sentence, detail "specifier" specifier ++ detail "name" name⟩

def parsing (sentence file : Raw) : Report := ⟨sentence, detail "file" file⟩

def emit (sentence node : Raw) : Report := ⟨sentence, detail "node" node⟩

end Report

/-- What is wrong with a template: it ends inside a directive or a name, a width or a number of
places is too large, or no conversion has the letter at the index. -/
inductive TemplateFault where
  | incomplete
  | incompleteName
  | widthTooLarge
  | precisionTooLarge
  | unknownConversion (letter : Char) (index : Nat)
deriving DecidableEq

/-- A letter outside of ASCII is shown by its code point only. -/
def TemplateFault.message : TemplateFault → String
  | incomplete => "incomplete format"
  | incompleteName => "incomplete format key"
  | widthTooLarge => "width too big"
  | precisionTooLarge => "precision too big"
  | unknownConversion c index =>
    let shown := if 31 ≤ c.toNat ∧ c.toNat ≤ 126 then c else '?'
    "unsupported format character '" ++ shown.toString ++ "' (0x" ++ Text.hexadecimal 1 c.toNat ++
      ") at index " ++ toString index

/-- Causes of failure: a wrong set-up, a failed symbol or type look-up, text that cannot be
read, a node that cannot be printed, a child position that needs exactly one node, a word that
no kind of variable or clause has, a log level that is none, a template that cannot be filled, a
file or a field that does not exist, a name that an import does not bind, a plan without
statements, bytes that are no text, a part that a node does not have, a value that does not fit
its use, a number that is too large, and fields with issues. -/
inductive Failure where
  | configuration (report : Report)
  | resolution (report : Report)
  | parsing (report : Report)
  | emit (report : Report)
  | splice (count : Nat) (parent : Kind) (field : Field)
  | unknownWord (given : Raw) (meaning : String)
  | unknownLevel (level : String)
  | template (fault : TemplateFault)
  | unknownFile (name : String)
  | unknownField (name : String)
  | unboundName (name : String)
  | emptyPlan
  | undecodable
  | absentPart
  | unfit
  | outOfRange
  | invalid (issues : List Issue)

namespace Failure

def noOracle : Failure :=
  .configuration ⟨.text "No program (symbol oracle) was passed to the transformer factory", []⟩

def wrongOptions (given : Raw) : Failure :=
  .configuration ⟨.text "Transformer options must be TransformOptions",
    [("got", .text given.typeLabel)]⟩

def circularReexport (file : String) : Failure :=
  .resolution (.resolution (.text "Circular re-export") (.text file) .null)

def undetectedLanguage (file : String) : Failure :=
  .parsing (.parsing (.text "Could not detect language") (.text file))

def unsupportedLanguage (language file : String) : Failure :=
  .parsing (.parsing (.text ("Language not supported: " ++ language)) (.text file))

def unprintable (kind : Kind) : Failure :=
  .emit (.emit (.text "Cannot print node") (.text kind.label))

def message : Failure → String
  | configuration r | resolution r | parsing r | emit r => r.text
  | splice n parent field =>
    "Cannot splice " ++ toString n ++ " nodes into " ++ parent.label ++ "." ++ field.label
  | unknownWord given meaning => given.inner ++ " is not a valid " ++ meaning
  | unknownLevel level => "Unknown level: " ++ Text.quoted level
  | template fault => fault.message
  | unknownFile name => "No such file: " ++ name
  | unknownField name => "No such field: " ++ name
  | unboundName name => "Not bound by the import: " ++ name
  | emptyPlan => "Nothing to put in place of the import"
  | undecodable => "The bytes are no text"
  | absentPart => "The node has no such part"
  | unfit => "The value does not fit its use"
  | outOfRange => "The number is too large"
  | invalid issues => toString issues.length ++ " fields with issues"

/-- Failed look-ups are the only failures that a classification survives. -/
def IsResolution : Failure → Prop
  | resolution _ => True
  | _ => False

end Failure

/-- A report with the details that a caller gives; only a record has any. -/
def Report.general (sentence : Raw) : (details : Raw) → Except Failure Report
  | .record fields => .ok ⟨sentence, fields⟩
  | details => if details.isGiven then .error .absentPart else .ok ⟨sentence, []⟩

abbrev Effect (σ α : Type) : Type := ExceptT Failure (StateM σ) α

namespace Effect

variable {σ α : Type}

/-- The outcome and the state reached. -/
def runFrom (x : Effect σ α) (s : σ) : Except Failure α × σ := x.run.run s

def ofExcept (x : Except Failure α) : Effect σ α := ExceptT.mk (pure x)

end Effect

end DeferredImports
