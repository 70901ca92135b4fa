import DeferredImports.Component
import DeferredImports.Config.Options
import DeferredImports.Syntax.Build
import DeferredImports.Syntax.Import

/-! Plans: the statements that take the place of an import, lazy bindings for its components and
an import of the rest. -/

namespace DeferredImports

/-- The statements in place of an import, whether it is deferred at all, the local names that
became lazy bindings, and the import of the other names. -/
structure Plan where
  statements : List Node
  deferred : Bool
  componentNames : List String
  residual : Option ImportStatement

namespace Plan

def unchanged (d : ImportStatement) : Plan := ⟨[d.toNode], false, [], none⟩

def defaultExport : String := "default"

/-- The parameter that stands for the loaded module. -/
def moduleParameter : String := "m"

/-- Selects a named export as the default one of what a module import resolves to. -/
def selectExport (loaded : Node) (exported : String) : Node :=
  .call (.propertyAccess loaded "then")
    [.arrow [moduleParameter] (some (.parenthesized (.objectOf
      [(defaultExport, .memberNamed (.identifier moduleParameter) exported)])))]

/-- The named binding with a local name. -/
def findBinding (localName : String) : List Node → Except Failure Node
  | [] => .error (.unboundName localName)
  | s :: ss => do
    if (← s.localName) == localName then return s else findBinding localName ss

/-- What a lazy binding loads for a local name that the import binds. -/
def loader (d : ImportStatement) (localName : String) : Except Failure Node := do
  if (← d.defaultBinding?) == some localName then return .importCall d.moduleSpecifier
  let s ← findBinding localName (← d.specifiers)
  return selectExport (.importCall d.moduleSpecifier) (← s.exportedName)

/-- The constant that wraps a loader. -/
def lazyBinding (wrapper : Node) (localName : String) (loader : Node) : Node :=
  .constantNamed localName (some (.call wrapper [.arrow [] (some loader)])) none

/-- The named bindings whose local names are not deferred. -/
def keptBindings (deferred : List String) : List Node → Except Failure (List Node)
  | [] => .ok []
  | s :: ss => do
    let here := !deferred.contains (← s.localName)
    let others ← keptBindings deferred ss
    return if here then s :: others else others

/-- The default binding, if its name is not deferred. -/
def keptDefault (d : ImportStatement) (deferred : List String) : Except Failure (Option Node) := do
  return if (← d.defaultBinding?).any deferred.contains then none else d.defaultName

/-- The bindings besides the default one that stay imports, with their number. -/
def keptClause (d : ImportStatement) (deferred : List String) :
    Except Failure (Option Node × Nat) := do
  match d.namedBindings with
  | some (.namespaceImport n) => return (some (.namespaceImport n), 1)
  | some (.namedImports es) =>
    let kept ← keptBindings deferred (← Node.items es)
    return (if kept.isEmpty then none else some (.namedImports (some kept)), kept.length)
  | _ => return (none, 0)

/-- The import of the names that are not deferred, with their number. -/
def residualImport (d : ImportStatement) (deferred : List String) :
    Except Failure (Option (ImportStatement × Nat)) := do
  let default ← keptDefault d deferred
  let (named, count) ← keptClause d deferred
  match default.toList.length + count with
  | 0 => return none
  | n => return some (⟨d.moduleSpecifier, default, named, some false, none, none⟩, n)

variable {ω σ : Type}

/-- The lazy bindings of some local names; the wrapper is asked for each. -/
def lazyBindings (options : Options) (d : ImportStatement) : List String → Session σ (List Node)
  | [] => pure []
  | name :: names => do
    let loader ← Effect.ofExcept (loader d name)
    if options.wrapper.isSome then Session.act .wrapperAsked
    let binding := lazyBinding options.wrapperExpression name loader
    return binding :: (← lazyBindings options d names)

/-- The import to inject, asked for if there is a hook. -/
def askInjected (options : Options) (file : String) : Session σ (Option Node) := do
  if options.injected.isSome then Session.act (.injectedAsked file)
  return options.injectedImport file

/-- The plan that defers some local names of an import. An import that would not vanish is left
alone if the options say so; else an injected import comes first, the residual one last, and the
first statement takes over the trivia. -/
def build (options : Options) (d : ImportStatement) (names : List String) (file : String) :
    Session σ Plan := do
  let bindings ← lazyBindings options d names
  let residual ← Effect.ofExcept (residualImport d names)
  let count := (residual.map Prod.snd).getD 0
  if residual.isSome && options.onlyIfFullyRemovable then
    Session.log (.importBailOut (← Effect.ofExcept d.specifier) file count)
    return unchanged d
  let injected ← askInjected options file
  let rest := residual.map Prod.fst
  match injected.toList ++ bindings ++ (rest.map ImportStatement.toNode).toList with
  | [] => throw .emptyPlan
  | first :: others =>
    let first ← Effect.ofExcept (first.withLeadingTrivia d.leadingTrivia)
    Session.log (.importDeferred (← Effect.ofExcept d.specifier) file names count)
    return ⟨first :: others, true, names, rest⟩

/-- The local name of a binding, if it is a value whose export is a component. -/
def namedComponent? (isComponent : String → Session σ Bool) (s : Node) :
    Session σ (Option String) := do
  if ← Effect.ofExcept s.isTypeOnly then return none
  if ← isComponent (← Effect.ofExcept s.exportedName) then
    return some (← Effect.ofExcept s.localName)
  return none

/-- The local names of the bindings whose exports are components. -/
def namedComponents (isComponent : String → Session σ Bool) :
    List Node → Session σ (List String)
  | [] => pure []
  | s :: ss => do
    let here ← namedComponent? isComponent s
    return here.toList ++ (← namedComponents isComponent ss)

/-- The local name of the default binding, if the default export is a component. -/
def defaultComponent (isComponent : String → Session σ Bool) (d : ImportStatement) :
    Session σ (List String) :=
  match d.defaultName with
  | none => pure []
  | some n => do
    if ← isComponent defaultExport then return [← Effect.ofExcept n.text] else return []

/-- The local names of an import that are components, the default one first. -/
def componentsOf (oracle : Oracle ω σ) (options : Options) (d : ImportStatement)
    (file : String) : Session σ (List String) := do
  let specifier ← Effect.ofExcept d.specifier
  let isComponent (exported : String) :=
    oracle.isComponent options.framework specifier exported file
  let default ← defaultComponent isComponent d
  if options.onlyDefaultExports then return default
  return default ++ (← namedComponents isComponent (← Effect.ofExcept d.specifiers))

/-- The plan for an import in a file: unchanged if it has no clause, is not allowed to change, or
binds no component. -/
def ofImport (oracle : Oracle ω σ) (options : Options) (d : ImportStatement) (file : String) :
    Session σ Plan := do
  if !d.hasClause then return unchanged d
  let specifier ← Effect.ofExcept d.specifier
  if options.allowed.isSome then Session.act (.allowedAsked specifier file)
  if !options.allows specifier file then
    Session.log (.importOptedOut specifier file)
    return unchanged d
  match ← componentsOf oracle options d file with
  | [] => return unchanged d
  | names => build options d names file

/-- The nodes that replace the import; `none` keeps it. -/
def replacement (p : Plan) : Option (List Node) := if p.deferred then some p.statements else none

/-- The names that the plan's statements bind, in order. -/
def boundNames (p : Plan) : Except Failure (List String) := do
  return (← p.statements.mapM Node.boundNames).flatten

end Plan

end DeferredImports
