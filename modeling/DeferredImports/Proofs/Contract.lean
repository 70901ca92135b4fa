import DeferredImports.Component
import DeferredImports.Proofs.Runs

/-! What oracles promise: they fail only with a resolution error, and what they describe has the
parts that its kind asks for. Main statement: under this contract a classification ends with an
answer, whatever the oracle knows. -/

namespace DeferredImports

namespace Node

/-- A function value has its list of parameters. -/
def HasParameters : Node → Prop
  | arrowFunction ps _ | functionExpression _ ps => ps.isSome
  | _ => True

/-- A clause lists types, each of which has an expression. -/
def IsHeritageClause (n : Node) : Prop :=
  ∃ token types, n = heritageClause token (some types) ∧
    ∀ t ∈ types, ∃ e arguments, t = expressionWithTypeArguments e arguments

def IsDeclarator : Node → Prop
  | variableDeclaration _ (some i) => i.HasParameters
  | _ => True

/-- A declaration has the parts that classification looks into. -/
def IsDeclaration : Node → Prop
  | classDeclaration _ clauses => ∃ cs, clauses = some cs ∧ ∀ c ∈ cs, c.IsHeritageClause
  | functionDeclaration _ ps => ps.isSome
  | exportAssignment e => e.HasParameters
  | variableStatement ds _ _ => ∀ d ∈ ds, d.IsDeclarator
  | n => n.IsDeclarator

/-- A type has a name, inside a type or nothing. -/
def IsTypeSymbol (n : Node) : Prop :=
  ∃ name parent, n = typeSymbol name parent ∧
    ∀ p, parent = some p → ∃ outer grandparent, p = typeSymbol outer grandparent

/-- A declared type lists signatures, each with a type or none. -/
def IsTypeHandle (n : Node) : Prop :=
  ∃ text signatures, n = typeHandle text (some signatures) ∧
    ∀ s ∈ signatures, ∃ count returned, s = callSignature count returned ∧
      ∀ t, returned = some t → t.IsTypeSymbol

theorem functionValue?_parameters {n : Node} {shape : CallableShape} (h : n.HasParameters)
    (hs : n.functionValue? = some shape) : ∃ ps, shape.parameters = some ps := by
  cases n <;> simp only [functionValue?, reduceCtorEq, Option.some.injEq] at hs
  all_goals
    subst hs
    exact Option.isSome_iff_exists.1 h

theorem declaratorValue?_parameters {n : Node} {shape : CallableShape} (h : n.IsDeclarator)
    (hs : n.declaratorValue? = some shape) : ∃ ps, shape.parameters = some ps := by
  cases n with
  | variableDeclaration name i =>
    obtain ⟨e, rfl, he⟩ := Option.bind_eq_some_iff.1 hs
    exact functionValue?_parameters h he
  | _ => simp [declaratorValue?] at hs

/-- A declaration that denotes a function has the function's parameters. -/
theorem callable?_parameters {n : Node} {shape : CallableShape} (h : n.IsDeclaration)
    (hs : n.callable? = some shape) : ∃ ps, shape.parameters = some ps := by
  cases n with
  | functionDeclaration name ps =>
    simp only [callable?, Option.some.injEq] at hs
    subst hs
    exact Option.isSome_iff_exists.1 h
  | exportAssignment e => exact functionValue?_parameters h hs
  | variableStatement ds kind trivia =>
    obtain ⟨d, hd, hs⟩ := Option.bind_eq_some_iff.1 hs
    exact declaratorValue?_parameters (h d (List.mem_of_mem_head? hd)) hs
  | variableDeclaration name i =>
    exact declaratorValue?_parameters (n := .variableDeclaration name i) h hs
  | _ => simp [callable?, declaratorValue?] at hs

theorem extendedTypes_ok {clauses : List Node} (h : ∀ c ∈ clauses, c.IsHeritageClause) :
    ∃ types, extendedTypes clauses = .ok types ∧
      ∀ t ∈ types, ∃ e arguments, t = expressionWithTypeArguments e arguments := by
  induction clauses with
  | nil => exact ⟨[], rfl, by simp⟩
  | cons c cs ih =>
    obtain ⟨token, types, rfl, ht⟩ := h c List.mem_cons_self
    cases token with
    | superclass => exact ⟨types, rfl, ht⟩
    | interfaces => exact ih fun d hd => h d (List.mem_cons_of_mem _ hd)

theorem anyM_ok {α : Type} {f : α → Except Failure Bool} {xs : List α}
    (h : ∀ x ∈ xs, ∃ b, f x = .ok b) : ∃ b, xs.anyM f = .ok b := by
  induction xs with
  | nil => exact ⟨false, rfl⟩
  | cons x xs ih =>
    obtain ⟨b, hb⟩ := h x List.mem_cons_self
    rw [List.anyM, hb]
    cases b with
    | true => exact ⟨true, rfl⟩
    | false => exact ih fun y hy => h y (List.mem_cons_of_mem x hy)

theorem extendsBaseComponent_ok (framework : Framework) {clauses : List Node}
    (h : ∀ c ∈ clauses, c.IsHeritageClause) :
    ∃ b, extendsBaseComponent framework clauses = .ok b := by
  obtain ⟨types, ht, htypes⟩ := extendedTypes_ok h
  simp only [extendsBaseComponent, ht]
  apply anyM_ok
  intro t hmem
  obtain ⟨e, arguments, rfl⟩ := htypes t hmem
  exact ⟨isBaseComponent framework e, rfl⟩

theorem isElementType_ok (framework : Framework) {t : Node} (h : t.IsTypeSymbol) :
    ∃ b, isElementType framework t = .ok b := by
  obtain ⟨name, parent, rfl, hp⟩ := h
  simp only [isElementType, Node.name, Node.parent, bind, Except.bind]
  split
  · exact ⟨false, rfl⟩
  · cases parent with
    | none => exact ⟨false, rfl⟩
    | some p =>
      obtain ⟨outer, grandparent, rfl⟩ := hp p rfl
      exact ⟨_, rfl⟩

theorem returnsElement_ok (framework : Framework) {n : Node} (h : n.IsTypeHandle) :
    ∃ b, returnsElement framework n = .ok b := by
  obtain ⟨text, signatures, rfl, hs⟩ := h
  cases signatures with
  | nil => exact ⟨false, rfl⟩
  | cons s ss =>
    obtain ⟨count, returned, rfl, hr⟩ := hs s List.mem_cons_self
    cases returned with
    | none => exact ⟨false, rfl⟩
    | some t => exact isElementType_ok framework (hr t rfl)

end Node

/-- Outcomes that a look-up may have: a value as described, or a failed resolution. -/
def Answers {α : Type} (P : α → Prop) : Except Failure α → Prop
  | .ok a => P a
  | .error e => e.IsResolution

namespace Oracle

variable {ω σ : Type}

/-- In a sound state the oracle fails only with a resolution error, describes declarations in full,
and knows the types of the symbols that it names; its state stays sound. -/
structure KeepsContract (oracle : Oracle ω σ) (Sound : σ → Prop)
    (Known : ExportedSymbol ω → Prop) : Prop where
  exports : ∀ specifier file s, Sound s →
    Sound (oracle.exportsOf specifier file s).state ∧
      Answers (fun found => ∀ symbols, found = some symbols →
          ∀ symbol ∈ symbols, Known symbol ∧ ∀ d ∈ symbol.declarations, d.IsDeclaration)
        (oracle.exportsOf specifier file s).outcome
  types : ∀ symbol, Known symbol → ∀ s, Sound s →
    Sound (oracle.typeOf symbol s).state ∧
      Answers (fun found => ∀ t, found = some t → t.IsTypeHandle) (oracle.typeOf symbol s).outcome

variable {oracle : Oracle ω σ} {Sound : σ → Prop} {Known : ExportedSymbol ω → Prop}

theorem KeepsContract.resolveExport_yields (h : oracle.KeepsContract Sound Known)
    (specifier name file : String) :
    (oracle.resolveExport specifier name file).Yields (Sound ·.oracle) fun found =>
      ∀ symbol, found = some symbol →
        Known symbol ∧ ∀ d ∈ symbol.declarations, d.IsDeclaration := by
  unfold resolveExport
  refine (Session.yields_ask _ (h.exports specifier file)).bind ?_
  intro outcome ho
  match outcome, ho with
  | .error (.resolution r), _ =>
    exact (Session.yields_log _).bind fun _ _ => .pure (by simp)
  | .ok none, _ => exact (Session.yields_log _).bind fun _ _ => .pure (by simp)
  | .ok (some symbols), ho =>
    apply Effect.Yields.pure
    intro symbol hs
    exact ho symbols rfl symbol (List.mem_of_find?_eq_some hs)

theorem KeepsContract.isFunctionComponent_yields (h : oracle.KeepsContract Sound Known)
    (framework : Framework) {symbol : ExportedSymbol ω} (hk : Known symbol) {shape : CallableShape}
    (hs : ∃ ps, shape.parameters = some ps) :
    (oracle.isFunctionComponent framework symbol shape).Yields (Sound ·.oracle) fun _ => True := by
  obtain ⟨ps, hps⟩ := hs
  unfold isFunctionComponent
  have hparameters : Node.items shape.parameters = .ok ps := by rw [hps]; rfl
  refine .ofExcept_bind hparameters ?_
  split
  · refine (Session.yields_ask _ (h.types symbol hk)).bind ?_
    intro outcome ho
    match outcome, ho with
    | .error (.resolution r), _ =>
      exact (Session.yields_log _).bind fun _ _ => .pure trivial
    | .ok none, _ => exact .pure trivial
    | .ok (some declared), ho =>
      obtain ⟨b, hb⟩ := Node.returnsElement_ok framework (ho declared rfl)
      exact .ofExcept hb trivial
  · exact .pure trivial

/-- Under the contract every export is classified. -/
theorem KeepsContract.isComponent_yields (h : oracle.KeepsContract Sound Known)
    (framework : Framework) (specifier name file : String) :
    (oracle.isComponent framework specifier name file).Yields (Sound ·.oracle) fun _ => True := by
  unfold isComponent
  refine (h.resolveExport_yields specifier name file).bind ?_
  intro found hfound
  cases found with
  | none => exact .pure trivial
  | some symbol =>
    obtain ⟨hk, hd⟩ := hfound symbol rfl
    dsimp only
    split
    · next name clauses heq =>
      obtain ⟨cs, rfl, hcs⟩ := hd _ (by rw [heq]; exact List.mem_singleton.2 rfl)
      obtain ⟨b, hb⟩ := Node.extendsBaseComponent_ok framework hcs
      exact .ofExcept hb trivial
    · next declaration _ heq =>
      split
      · exact .pure trivial
      · next shape hshape =>
        have := hd declaration (by rw [heq]; exact List.mem_singleton.2 rfl)
        exact h.isFunctionComponent_yields framework hk (Node.callable?_parameters this hshape)
    · exact (Session.yields_log _).bind fun _ _ => .pure trivial

/-- A class that extends the base class of components. -/
def panelClass : Node :=
  .classDeclaration (some "Panel") (some [.heritageClause .superclass (some
    [.expressionWithTypeArguments (.propertyAccess (.identifier "React") "Component") none])])

theorem panelClass_isDeclaration : panelClass.IsDeclaration := by
  refine ⟨_, rfl, ?_⟩
  intro c hc
  cases List.mem_singleton.1 hc
  refine ⟨_, _, rfl, ?_⟩
  intro t ht
  exact ⟨_, _, List.mem_singleton.1 ht⟩

/-- A module with two components and a value that is none. -/
def panelOracle : Oracle Unit Unit where
  exportsOf _ _ s :=
    ⟨.ok (some [⟨"default", [panelClass], ()⟩, ⟨"Side Panel", [panelClass], ()⟩,
      ⟨"width", [.variableDeclaration "width" none], ()⟩]), [], s⟩
  typeOf _ s := ⟨.ok none, [], s⟩

theorem panelOracle_keepsContract :
    panelOracle.KeepsContract (fun _ => True) fun _ => True where
  exports specifier file s hs := by
    refine ⟨hs, ?_⟩
    intro symbols hsymbols symbol hsymbol
    refine ⟨trivial, ?_⟩
    intro d hd
    cases hsymbols
    simp only [List.mem_cons, List.not_mem_nil, or_false] at hsymbol
    rcases hsymbol with rfl | rfl | rfl <;> cases List.mem_singleton.1 hd
    · exact panelClass_isDeclaration
    · exact panelClass_isDeclaration
    · trivial
  types symbol _ s hs := by
    refine ⟨hs, ?_⟩
    intro t ht
    cases ht

end Oracle

end DeferredImports
