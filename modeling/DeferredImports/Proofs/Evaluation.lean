import DeferredImports.Plan

/-! What expressions that load modules stand for: a small semantics of module imports, `then` with
an arrow function, object literals and member accesses. -/

namespace DeferredImports

/-- The value of an export is known only by the module and the name that it is exported under. -/
inductive LoadedValue where
  | moduleNamespace (specifier : String)
  | exported (specifier name : String)
  | promise (value : LoadedValue)
  | record (members : List (String × LoadedValue))

namespace LoadedValue

/-- The member of a namespace is an export of the module; of the members of a record with one name
the last counts. -/
def member? : LoadedValue → String → Option LoadedValue
  | moduleNamespace s, name => some (exported s name)
  | record members, name => members.reverse.lookup name
  | _, _ => none

/-- What a promise callback returns is promised, and a promise is not promised again. -/
def promised : LoadedValue → LoadedValue
  | promise v => promise v
  | v => promise v

end LoadedValue

namespace Node

mutual

/-- The value of an expression, given the values of its scope. A name follows a dot only if it
is an identifier. -/
def value? (scope : List (String × LoadedValue)) : Node → Option LoadedValue
  | identifier x => scope.lookup x
  | importCall (stringLiteral s _) => some (.promise (.moduleNamespace s))
  | parenthesized e => e.value? scope
  | objectLiteral (some properties) => (memberValues? scope properties).map .record
  | propertyAccess e name =>
    if Text.isIdentifierName name then (e.value? scope).bind (·.member? name) else none
  | elementAccess e (stringLiteral name _) => (e.value? scope).bind (·.member? name)
  | callExpression (propertyAccess e member)
      (some [arrowFunction (some [parameter x]) (some body)]) =>
    if member = "then" then
      match e.value? scope with
      | some (.promise v) => (body.value? ((x, v) :: scope)).map .promised
      | _ => none
    else none
  | _ => none

/-- The members of a record, in the order in which they are written. -/
def memberValues? (scope : List (String × LoadedValue)) :
    List Node → Option (List (String × LoadedValue))
  | [] => some []
  | propertyAssignment name e :: properties => do
    return (name, ← e.value? scope) :: (← memberValues? scope properties)
  | _ :: _ => none

end

variable (scope : List (String × LoadedValue))

@[simp] theorem value?_importCall (s : String) (quote : Option String) :
    (importCall (stringLiteral s quote)).value? scope = some (.promise (.moduleNamespace s)) :=
  rfl

/-- A member has the same value however its name is written. -/
@[simp] theorem value?_memberNamed (object : Node) (name : String) :
    (memberNamed object name).value? scope =
      (object.value? scope).bind (·.member? name) := by
  unfold memberNamed
  split
  · next h => exact if_pos h
  · rfl

theorem value?_objectOf_singleton (name : String) (e : Node) :
    (objectOf [(name, e)]).value? scope =
      (e.value? scope).map fun v => .record [(name, v)] := by
  show (do return (name, ← e.value? scope) :: (← memberValues? scope [])).map LoadedValue.record = _
  cases e.value? scope <;> rfl

theorem value?_then (e body : Node) (x : String) {v : LoadedValue}
    (he : e.value? scope = some (.promise v)) :
    (call (.propertyAccess e "then") [arrow [x] (some body)]).value? scope =
      (body.value? ((x, v) :: scope)).map .promised := by
  show (match e.value? scope with
    | some (.promise v) => (body.value? ((x, v) :: scope)).map LoadedValue.promised
    | _ => none) = _
  rw [he]

/-- The expression loads the export of the module as a default one, whatever its scope. -/
def LoadsAsDefault (specifier exported : String) (e : Node) : Prop :=
  ∀ scope, ∃ v, e.value? scope = some (.promise v) ∧
    v.member? Plan.defaultExport = some (.exported specifier exported)

/-- A module import alone loads the default export. -/
theorem loadsAsDefault_importCall (s : String) (quote : Option String) :
    (importCall (stringLiteral s quote)).LoadsAsDefault s Plan.defaultExport := by
  intro scope
  exact ⟨.moduleNamespace s, value?_importCall scope s quote, rfl⟩

/-- With a selection a module import loads the selected export. -/
theorem loadsAsDefault_selectExport (s : String) (quote : Option String) (exported : String) :
    (Plan.selectExport (importCall (stringLiteral s quote)) exported).LoadsAsDefault s
      exported := by
  intro scope
  refine ⟨.record [(Plan.defaultExport, .exported s exported)], ?_, rfl⟩
  unfold Plan.selectExport
  rw [value?_then scope _ _ _ (value?_importCall scope s quote)]
  have hm : (identifier Plan.moduleParameter).value?
      ((Plan.moduleParameter, .moduleNamespace s) :: scope) =
        some (.moduleNamespace s) :=
    List.lookup_cons_self
  show ((objectOf [(Plan.defaultExport, memberNamed (identifier Plan.moduleParameter)
    exported)]).value? _).map _ = _
  rw [value?_objectOf_singleton, value?_memberNamed, hm]
  rfl

end Node

end DeferredImports
