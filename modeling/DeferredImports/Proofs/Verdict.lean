import DeferredImports.Project.Lookup
import DeferredImports.Component
import DeferredImports.Proofs.Runs
import DeferredImports.Types

/-! How classifications end. Main statement: the outcome depends on nothing but what the oracle
answers, and on its answer for the type only through the first call signature. -/

namespace DeferredImports

/-- The element type directly inside its namespace. -/
def TypeSymbol.isElement (framework : Framework) (t : TypeSymbol) : Bool :=
  t.name == framework.elementTypeName &&
    t.namespaces.head?.any (· == framework.elementNamespace)

/-- Whether calls with the signature give an element, as far as it is known. -/
def CallSignature.returnsElement (framework : Framework) (s : CallSignature) : Bool :=
  s.returnType.any (TypeSymbol.isElement framework)

/-- The signature of a function component: it takes props and perhaps a context, and returns an
element. -/
def CallSignature.isComponent (framework : Framework) (s : CallSignature) : Bool :=
  (s.parameterCount == 1 || s.parameterCount == 2) && s.returnsElement framework

theorem TypeSymbol.isElementType_toNode (framework : Framework) (t : TypeSymbol) :
    t.toNode.isElementType framework = .ok (t.isElement framework) := by
  obtain ⟨name, namespaces⟩ := t
  have hname : ∀ ns, (describe name ns).name = .ok (.word name) := by
    intro ns
    cases ns <;> rfl
  have hparent : ∀ ns, (describe name ns).parent =
      .ok (ns.head?.map fun n => describe n ns.tail) := by
    intro ns
    cases ns <;> rfl
  have houter : ∀ n ns, (describe n ns).name = .ok (.word n) := by
    intro n ns
    cases ns <;> rfl
  unfold Node.isElementType toNode isElement
  simp only [hname, hparent, bind, Except.bind, pure, Except.pure, NodeName.isWord]
  cases hword : name == framework.elementTypeName with
  | false => rfl
  | true =>
    cases namespaces with
    | nil => rfl
    | cons n ns =>
      simp only [List.head?_cons, Option.map_some, houter]
      rfl

/-- The first call signature of a declared type decides. -/
theorem TypeHandle.returnsElement_toNode (framework : Framework) (t : TypeHandle) :
    t.toNode.returnsElement framework =
      .ok (t.callSignatures.head?.any (CallSignature.returnsElement framework)) := by
  obtain ⟨text, signatures⟩ := t
  cases signatures with
  | nil => rfl
  | cons s ss =>
    obtain ⟨count, returned⟩ := s
    cases returned with
    | none => rfl
    | some type => exact type.isElementType_toNode framework

namespace Oracle

variable {ω σ : Type}

/-- Goes on with the value of an outcome. What cannot be resolved is no component; any other failure
stays. -/
def settle {α : Type} (outcome : Except Failure α) (next : α → Except Failure Bool) :
    Except Failure Bool :=
  match outcome with
  | .ok a => next a
  | .error (.resolution _) => .ok false
  | .error e => .error e

/-- The verdict on a function of the given shape, where its type is told like this. -/
def functionVerdict (framework : Framework) (shape : CallableShape)
    (type : Except Failure (Option Node)) : Except Failure Bool := do
  let parameters ← Node.items shape.parameters
  if parameters.length = 1 ∨ parameters.length = 2 then
    settle type fun declared => (declared.map (Node.returnsElement framework)).getD (.ok false)
  else .ok false

/-- The verdict on a single declaration whose type is told like this. -/
def declarationVerdict (framework : Framework) (type : Except Failure (Option Node)) :
    Node → Except Failure Bool
  | .classDeclaration _ heritageClauses => do
    Node.extendsBaseComponent framework (← Node.items heritageClauses)
  | declaration =>
    match declaration.callable? with
    | none => .ok false
    | some shape => functionVerdict framework shape type

/-- The verdict on a symbol with these declarations, where its type is told like this. -/
def verdict (framework : Framework) (declarations : List Node)
    (type : Except Failure (Option Node)) : Except Failure Bool :=
  match declarations with
  | [declaration] => declarationVerdict framework type declaration
  | _ => .ok false

variable {oracle : Oracle ω σ} {framework : Framework}

theorem outcome_isFunctionComponent (symbol : ExportedSymbol ω) (shape : CallableShape)
    (progress : Progress σ) :
    ((oracle.isFunctionComponent framework symbol shape).runFrom progress).1 =
      functionVerdict framework shape (oracle.typeOf symbol progress.oracle).outcome := by
  unfold isFunctionComponent functionVerdict
  cases Node.items shape.parameters with
  | error e => rfl
  | ok parameters =>
    rw [Effect.ofExcept_ok_bind]
    change _ = ite _ _ _
    by_cases h : parameters.length = 1 ∨ parameters.length = 2
    · rw [if_pos h, if_pos h]
      unfold Session.ask
      rw [Effect.runFrom_bind, Effect.runFrom_bind_of_ok (Session.runFrom_act _ _)]
      rw [Session.runFrom_take]
      dsimp only
      cases (oracle.typeOf symbol progress.oracle).outcome with
      | ok declared => cases declared <;> rfl
      | error e => cases e <;> rfl
    · rw [if_neg h, if_neg h]
      rfl

theorem declarationVerdict_of_not_class (framework : Framework) {declaration : Node}
    (type : Except Failure (Option Node))
    (h : ∀ name heritageClauses, declaration ≠ .classDeclaration name heritageClauses) :
    declarationVerdict framework type declaration =
      (declaration.callable?.map (functionVerdict framework · type)).getD (.ok false) := by
  unfold declarationVerdict
  split
  · next name heritageClauses => exact absurd rfl (h name heritageClauses)
  · cases declaration.callable? <;> rfl

/-- A look-up ends with the symbol that the oracle knows under the name. -/
theorem exists_runFrom_resolveExport (specifier name file : String) (progress : Progress σ) :
    let reply := oracle.exportsOf specifier file progress.oracle
    ∃ trace, (oracle.resolveExport specifier name file).runFrom progress =
      (match reply.outcome with
        | .ok found => .ok ((found.getD []).find? fun s => s.name == name)
        | .error (.resolution _) => .ok none
        | .error e => .error e, ⟨trace, reply.state⟩) := by
  unfold resolveExport Session.ask
  dsimp only
  rw [Effect.runFrom_bind, Effect.runFrom_bind_of_ok (Session.runFrom_act _ _)]
  rw [Session.runFrom_take]
  dsimp only
  cases (oracle.exportsOf specifier file progress.oracle).outcome with
  | ok found => cases found <;> exact ⟨_, rfl⟩
  | error e => cases e <;> exact ⟨_, rfl⟩

/-- A classification ends with the verdict on the symbol that the oracle knows under the name. What
is missing is no component. -/
theorem outcome_isComponent (specifier name file : String) (progress : Progress σ) :
    let reply := oracle.exportsOf specifier file progress.oracle
    ((oracle.isComponent framework specifier name file).runFrom progress).1 =
      settle reply.outcome fun found =>
        match (found.getD []).find? fun s => s.name == name with
        | none => .ok false
        | some symbol =>
          verdict framework symbol.declarations (oracle.typeOf symbol reply.state).outcome := by
  obtain ⟨trace, hrun⟩ :=
    @exists_runFrom_resolveExport _ _ oracle specifier name file progress
  unfold isComponent
  dsimp only at hrun ⊢
  rw [Effect.runFrom_bind, hrun]
  cases (oracle.exportsOf specifier file progress.oracle).outcome with
  | error e => cases e <;> rfl
  | ok found =>
    dsimp only [settle]
    cases (found.getD []).find? fun s => s.name == name with
    | none => rfl
    | some symbol =>
      dsimp only
      split
      · next declared heritage hdeclarations =>
        rw [hdeclarations]
        rfl
      · next declaration hclass hdeclarations =>
        rw [hdeclarations, verdict, declarationVerdict_of_not_class framework _ hclass]
        cases declaration.callable? with
        | none => rfl
        | some shape => exact outcome_isFunctionComponent symbol shape _
      · next hclass hone =>
        unfold verdict
        split
        · next hdeclarations => exact absurd hdeclarations (hone _)
        · rfl

/-- A symbol without a single declaration is no component. -/
theorem verdict_nil (type : Except Failure (Option Node)) :
    verdict framework [] type = .ok false := rfl

/-- A function is a component exactly if its parameters are those of one and its first call
signature returns an element. -/
theorem verdict_function (name : Option String) (parameters : List Node) (type : TypeHandle) :
    verdict framework [.functionDeclaration name (some parameters)] (.ok (some type.toNode)) =
      .ok ((parameters.length == 1 || parameters.length == 2) &&
        type.callSignatures.head?.any (CallSignature.returnsElement framework)) := by
  have hitems : Node.items (some parameters) = .ok parameters := rfl
  simp only [verdict, declarationVerdict, Node.callable?, functionVerdict, hitems, bind,
    Except.bind, settle, Option.map_some, Option.getD_some, type.returnsElement_toNode]
  by_cases h : parameters.length = 1 ∨ parameters.length = 2
  · have hcount : (parameters.length == 1 || parameters.length == 2) = true := by simpa using h
    rw [if_pos h, hcount, Bool.true_and]
  · have hcount : (parameters.length == 1 || parameters.length == 2) = false := by
      simpa [not_or] using h
    rw [if_neg h, hcount, Bool.false_and]

end Oracle

namespace Project

variable {p : Project} {specifier name file : String} {s : ProjectState}

/-- What a program tells of the symbol that a module exports under a name: its declarations, and
what becomes of the question for its type; nothing if no symbol is found. -/
def told (p : Project) (specifier name file : String) (s : ProjectState) :
    Option (List Node × Except Failure (Option TypeHandle)) :=
  let reply := p.exportsOf specifier file s
  match reply.outcome with
  | .ok (some found) => (found.find? fun symbol => symbol.name == name).map fun symbol =>
      (symbol.declarations, (p.typeOf symbol reply.state).outcome)
  | _ => none

theorem told_of_found {found : List (ExportedSymbol (List Origin))}
    {symbol : ExportedSymbol (List Origin)}
    (houtcome : (p.exportsOf specifier file s).outcome = .ok (some found))
    (hsymbol : found.find? (fun symbol => symbol.name == name) = some symbol) :
    p.told specifier name file s = some (symbol.declarations,
      (p.typeOf symbol (p.exportsOf specifier file s).state).outcome) := by
  unfold told
  dsimp only
  rw [houtcome]
  dsimp only
  rw [hsymbol]
  rfl

/-- A symbol is classified by what the program tells of it. -/
theorem outcome_isComponent_of_told {declarations : List Node}
    {type : Except Failure (Option TypeHandle)}
    (h : p.told specifier name file s = some (declarations, type)) (framework : Framework)
    (trace : List Action) :
    ((p.oracle.isComponent framework specifier name file).runFrom ⟨trace, s⟩).1 =
      Oracle.verdict framework declarations (type.map (Option.map TypeHandle.toNode)) := by
  unfold told at h
  dsimp only at h
  split at h
  · next found houtcome =>
    obtain ⟨symbol, hsymbol, htold⟩ := Option.map_eq_some_iff.1 h
    have hexports : (p.oracle.exportsOf specifier file s).outcome = .ok (some found) := houtcome
    cases htold
    rw [Oracle.outcome_isComponent]
    dsimp only
    rw [hexports]
    dsimp only [Oracle.settle, Option.getD_some]
    rw [hsymbol]
    rfl
  · cases h

end Project

end DeferredImports
