import DeferredImports.Plan
import DeferredImports.Syntax.Visit
import DeferredImports.Text.CharacterClass

/-! Deferring the component imports of a whole module. Candidates are the imports of a module that
may bind a component, told by their spelling. -/

namespace DeferredImports

open Text (startsUppercase)

/-- Whether a named binding is a value under an uppercase name. -/
def Node.bindsUppercase (n : Node) : Except Failure Bool := do
  if ← n.isTypeOnly then return false
  return startsUppercase (← n.localName)

/-- A clause that is not for types only binds a name that starts with an uppercase character. -/
def ImportStatement.isCandidate (d : ImportStatement) : Except Failure Bool := do
  if d.isForTypes || !d.hasClause then return false
  if (← d.defaultBinding?).any startsUppercase then return true
  (← d.specifiers).anyM Node.bindsUppercase

namespace Node

def isDeclarationFile (m : Node) : Except Failure Bool := do
  return Text.ends ".d.ts" (← m.fileName)

def importsFramework (framework : Framework) (m : Node) : Except Failure Bool := do
  (← m.imports).anyM fun d => do return (← d.specifier) == framework.moduleSpecifier

/-- Modules with runtime code that import the framework. -/
def isEligible (framework : Framework) (m : Node) : Except Failure Bool := do
  if ← m.isDeclarationFile then return false
  m.importsFramework framework

def isCandidate (n : Node) : Except Failure Bool :=
  match n.import? with
  | none => .ok false
  | some d => d.isCandidate

/-- The indices of the candidates among some statements, from the given index on. -/
def candidatesFrom : Nat → List Node → Except Failure (List Nat)
  | _, [] => .ok []
  | i, s :: ss => do
    let here ← s.isCandidate
    let others ← candidatesFrom (i + 1) ss
    return if here then i :: others else others

/-- The indices of the candidates among the module's statements. -/
def candidates (m : Node) : Except Failure (List Nat) := do candidatesFrom 0 (← m.statements)

end Node

variable {ω σ : Type}

/-- Each candidate among a module's statements gives way to the statements of its plan. -/
def candidateReplacer (oracle : Oracle ω σ) (options : Options) (file : String)
    (candidates : List Nat) : Replacer (Progress σ)
  | [⟨.statements, some i⟩] =>
    if candidates.contains i then some fun d => do
      return (← Plan.ofImport oracle options d file).replacement
    else none
  | _ => none

/-- The module with its component imports deferred; `none` if it stays the very module. -/
def transform (oracle : Oracle ω σ) (options : Options) (m : Node) :
    Session σ (Option Node) := do
  let eligible ← Effect.ofExcept (m.isEligible options.framework)
  let file ← Effect.ofExcept m.fileName
  if !eligible then
    Session.log (.moduleSkipped file)
    return none
  let candidates ← Effect.ofExcept m.candidates
  m.replaceImports (candidateReplacer oracle options file candidates)

end DeferredImports
