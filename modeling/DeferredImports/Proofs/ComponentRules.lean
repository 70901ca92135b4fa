import DeferredImports.Proofs.FrameworkGate
import DeferredImports.Proofs.Verdict

/-! The two rules for components. Main statement: an export is told to be a component exactly if the
first symbol under its name has one declaration, and this is a class that extends the base class or
denotes a function of one or two parameters whose type is known to return an element; a look-up
that fails never ends a classification. -/

namespace DeferredImports

namespace Node

/-- An arrow function or a function expression with these parameters. -/
inductive IsFunctionValue (ps : List Node) : Node → Prop
  | arrow (body : Option Node) : IsFunctionValue ps (.arrowFunction (some ps) body)
  | named (name : Option String) : IsFunctionValue ps (.functionExpression name (some ps))

/-- A declaration denotes a function with these parameters: it declares one, exports one as the
default value, or is a variable, or a statement whose first variable is one, that starts as one. -/
inductive DenotesFunction (ps : List Node) : Node → Prop
  | declared (name : Option String) : DenotesFunction ps (.functionDeclaration name (some ps))
  | exported {e : Node} (h : e.IsFunctionValue ps) : DenotesFunction ps (.exportAssignment e)
  | declarator (name : String) {e : Node} (h : e.IsFunctionValue ps) :
      DenotesFunction ps (.variableDeclaration name (some e))
  | firstDeclarator (name : String) {e : Node} (h : e.IsFunctionValue ps) (others : List Node)
      (kind : VariableKind) (trivia : Option String) :
      DenotesFunction ps
        (.variableStatement (.variableDeclaration name (some e) :: others) kind trivia)

/-- One of the types is the member of the root identifier that is the base class, and those before
it can be read. -/
def NamesBase (framework : Framework) (types : List Node) : Prop :=
  ∃ earlier t later, types = earlier ++ t :: later ∧
    t.expression = .ok (.propertyAccess (.identifier framework.rootIdentifier)
      framework.baseComponentName) ∧
    ∀ u ∈ earlier, ∃ e, u.expression = .ok e

/-- A class whose first `extends` clause names the base class. -/
def ExtendsBase (framework : Framework) (n : Node) : Prop :=
  ∃ name before types after,
    n = .classDeclaration name
      (some (before ++ .heritageClause .superclass (some types) :: after)) ∧
    (∀ c ∈ before, ∃ ts, c = .heritageClause .interfaces ts) ∧ NamesBase framework types

/-- A type whose first call signature returns the element type directly inside its namespace. -/
def GivesElement (framework : Framework) (n : Node) : Prop :=
  ∃ text count outer others,
    n = .typeHandle text (some (.callSignature count
      (some (.typeSymbol framework.elementTypeName (some outer))) :: others)) ∧
    outer.name = .ok (.word framework.elementNamespace)

theorem functionValue?_iff {n : Node} {ps : List Node} :
    (∃ shape, n.functionValue? = some shape ∧ shape.parameters = some ps) ↔
      n.IsFunctionValue ps := by
  constructor
  · rintro ⟨shape, hshape, hps⟩
    cases n <;> simp only [functionValue?, reduceCtorEq, Option.some.injEq] at hshape
    case arrowFunction =>
      subst hshape hps
      exact .arrow _
    case functionExpression =>
      subst hshape hps
      exact .named _
  · rintro (body | name) <;> exact ⟨_, rfl, rfl⟩

theorem callable?_iff {n : Node} {ps : List Node} :
    (∃ shape, n.callable? = some shape ∧ shape.parameters = some ps) ↔ n.DenotesFunction ps := by
  constructor
  · rintro ⟨shape, hshape, hps⟩
    cases n with
    | functionDeclaration name parameters =>
      simp only [callable?, Option.some.injEq] at hshape
      subst hshape hps
      exact .declared name
    | exportAssignment e => exact .exported (functionValue?_iff.1 ⟨shape, hshape, hps⟩)
    | variableDeclaration name i =>
      obtain ⟨e, rfl, he⟩ := Option.bind_eq_some_iff.1 hshape
      exact .declarator name (functionValue?_iff.1 ⟨shape, he, hps⟩)
    | variableStatement ds kind trivia =>
      obtain ⟨d, hd, he⟩ := Option.bind_eq_some_iff.1 hshape
      obtain ⟨others, rfl⟩ := List.head?_eq_some_iff.1 hd
      cases d <;> simp only [declaratorValue?, reduceCtorEq] at he
      obtain ⟨e, rfl, he⟩ := Option.bind_eq_some_iff.1 he
      exact .firstDeclarator _ (functionValue?_iff.1 ⟨shape, he, hps⟩) others kind trivia
    | _ => simp [callable?, declaratorValue?] at hshape
  · rintro (name | h | ⟨name, h⟩ | ⟨name, h, others, kind, trivia⟩)
    · exact ⟨_, rfl, rfl⟩
    all_goals exact functionValue?_iff.2 h

/-- The scan stops at the first clause of the superclass. -/
theorem extendedTypes_append {before : List Node} (types : Option (List Node)) (after : List Node)
    (h : ∀ c ∈ before, ∃ ts, c = .heritageClause .interfaces ts) :
    extendedTypes (before ++ .heritageClause .superclass types :: after) = items types := by
  induction before with
  | nil => rfl
  | cons c cs ih =>
    obtain ⟨ts, rfl⟩ := h c List.mem_cons_self
    exact ih fun d hd => h d (List.mem_cons_of_mem _ hd)

theorem extendedTypes_cases {clauses types : List Node} (h : extendedTypes clauses = .ok types) :
    types = [] ∨ ∃ before after,
      clauses = before ++ .heritageClause .superclass (some types) :: after ∧
      ∀ c ∈ before, ∃ ts, c = .heritageClause .interfaces ts := by
  induction clauses with
  | nil =>
    cases h
    exact .inl rfl
  | cons c cs ih =>
    cases c with
    | heritageClause token ts =>
      cases token with
      | superclass =>
        cases ts with
        | none => cases h
        | some ts =>
          cases h
          exact .inr ⟨[], cs, rfl, by simp⟩
      | interfaces =>
        refine (ih h).imp_right ?_
        rintro ⟨before, after, rfl, hbefore⟩
        refine ⟨.heritageClause .interfaces ts :: before, after, rfl, ?_⟩
        simpa using hbefore
    | _ => cases h

theorem exists_of_anyM_eq_true {α : Type} {f : α → Except Failure Bool} {xs : List α}
    (h : xs.anyM f = .ok true) : ∃ earlier x later, xs = earlier ++ x :: later ∧
      f x = .ok true ∧ ∀ y ∈ earlier, ∃ b, f y = .ok b := by
  induction xs with
  | nil => cases h
  | cons x xs ih =>
    rw [List.anyM] at h
    obtain ⟨here, hx, h⟩ := exists_of_bind_eq_ok h
    cases here with
    | true => exact ⟨[], x, xs, rfl, hx, by simp⟩
    | false =>
      obtain ⟨earlier, y, later, rfl, hy, hearlier⟩ := ih h
      exact ⟨x :: earlier, y, later, rfl, hy, List.forall_mem_cons.2 ⟨⟨false, hx⟩, hearlier⟩⟩

/-- Whether a type is the base class, where it has an expression. -/
theorem isBase_eq_ok {framework : Framework} {t : Node} {b : Bool} :
    (do return isBaseComponent framework (← t.expression) : Except Failure Bool) = .ok b ↔
      ∃ e, t.expression = .ok e ∧ isBaseComponent framework e = b := by
  cases t.expression <;> simp [bind, Except.bind, pure, Except.pure]

theorem isBaseComponent_iff {framework : Framework} {e : Node} :
    isBaseComponent framework e = true ↔ e =
      .propertyAccess (.identifier framework.rootIdentifier) framework.baseComponentName := by
  constructor
  · intro h
    unfold isBaseComponent at h
    split at h
    · next root member =>
      obtain ⟨hroot, hmember⟩ := (Bool.and_eq_true_iff.1 h)
      rw [eq_of_beq hroot, eq_of_beq hmember]
    · cases h
  · rintro rfl
    simp [isBaseComponent]

theorem extendsBaseComponent_iff {framework : Framework} {name : Option String}
    {clauses : Option (List Node)} :
    (do extendsBaseComponent framework (← items clauses) : Except Failure Bool) = .ok true ↔
      ExtendsBase framework (.classDeclaration name clauses) := by
  constructor
  · intro h
    obtain ⟨cs, hcs, h⟩ := exists_of_bind_eq_ok h
    obtain ⟨types, htypes, h⟩ := exists_of_bind_eq_ok h
    obtain ⟨earlier, t, later, rfl, ht, hearlier⟩ := exists_of_anyM_eq_true h
    rcases extendedTypes_cases htypes with hnil | ⟨before, after, rfl, hbefore⟩
    · simp at hnil
    · cases clauses with
      | none => cases hcs
      | some clauses =>
        obtain rfl := Except.ok.inj hcs
        obtain ⟨e, he, hbase⟩ := isBase_eq_ok.1 ht
        rw [isBaseComponent_iff.1 hbase] at he
        refine ⟨name, before, _, after, rfl, hbefore, earlier, t, later, rfl, he, ?_⟩
        intro u hu
        obtain ⟨b, hb⟩ := hearlier u hu
        obtain ⟨e, he, -⟩ := isBase_eq_ok.1 hb
        exact ⟨e, he⟩
  · rintro ⟨_, before, types, after, hclass, hbefore, earlier, t, later, rfl, ht, hearlier⟩
    obtain ⟨rfl, rfl⟩ := Node.classDeclaration.inj hclass
    have htypes : extendedTypes (before ++ .heritageClause .superclass
        (some (earlier ++ t :: later)) :: after) = .ok (earlier ++ t :: later) :=
      extendedTypes_append _ after hbefore
    simp only [items, bind, Except.bind, extendsBaseComponent, htypes]
    apply anyM_eq_true
    · exact isBase_eq_ok.2 ⟨_, ht, isBaseComponent_iff.2 rfl⟩
    · intro u hu
      obtain ⟨e, he⟩ := hearlier u hu
      exact ⟨_, isBase_eq_ok.2 ⟨e, he, rfl⟩⟩

theorem isWord_iff {word : String} {n : NodeName} : n.isWord word = true ↔ n = .word word := by
  cases n <;> simp [NodeName.isWord]

theorem isElementType_iff {framework : Framework} {t : Node} :
    isElementType framework t = .ok true ↔ ∃ outer,
      t = .typeSymbol framework.elementTypeName (some outer) ∧
      outer.name = .ok (.word framework.elementNamespace) := by
  constructor
  · intro h
    unfold isElementType at h
    obtain ⟨name, hname, h⟩ := exists_of_bind_eq_ok h
    cases hword : name.isWord framework.elementTypeName with
    | false =>
      rw [hword] at h
      cases h
    | true =>
      rw [hword] at h
      obtain ⟨outer, hparent, h⟩ := exists_of_bind_eq_ok h
      cases outer with
      | none => cases h
      | some outer =>
        obtain ⟨outerName, houter, h⟩ := exists_of_bind_eq_ok h
        have hnamespace : outerName = .word framework.elementNamespace :=
          isWord_iff.1 (Except.ok.inj h)
        obtain rfl := isWord_iff.1 hword
        cases t <;> cases hparent
        cases hname
        exact ⟨outer, rfl, hnamespace ▸ houter⟩
  · rintro ⟨outer, rfl, houter⟩
    have hname : (Node.typeSymbol framework.elementTypeName (some outer)).name =
        .ok (.word framework.elementTypeName) := rfl
    have hparent : (Node.typeSymbol framework.elementTypeName (some outer)).parent =
        .ok (some outer) := rfl
    simp [isElementType, hname, hparent, houter, NodeName.isWord, bind, Except.bind, pure,
      Except.pure]

theorem returnsElement_iff {framework : Framework} {n : Node} :
    returnsElement framework n = .ok true ↔ GivesElement framework n := by
  constructor
  · intro h
    unfold returnsElement at h
    split at h
    · cases h
    · cases h
    · cases h
    · next text count t others =>
      obtain ⟨outer, rfl, houter⟩ := isElementType_iff.1 h
      exact ⟨text, count, outer, others, rfl, houter⟩
    · cases h
  · rintro ⟨text, count, outer, others, rfl, houter⟩
    exact isElementType_iff.2 ⟨outer, rfl, houter⟩

end Node

theorem Failure.isResolution_iff {e : Failure} : e.IsResolution ↔ ∃ r, e = .resolution r := by
  cases e <;> simp [IsResolution]

/-- A failed look-up is not how it ends. -/
def NoFailedLookup {α : Type} : Except Failure α → Prop
  | .ok _ => True
  | .error e => ¬ e.IsResolution

section

variable {α β : Type}

@[simp] theorem noFailedLookup_ok (a : α) : NoFailedLookup (.ok a) := trivial

@[simp] theorem noFailedLookup_absentPart :
    NoFailedLookup (.error .absentPart : Except Failure α) := id

@[simp] theorem noFailedLookup_unfit : NoFailedLookup (.error .unfit : Except Failure α) := id

@[simp] theorem noFailedLookup_pure (a : α) : NoFailedLookup (pure a : Except Failure α) := trivial

theorem NoFailedLookup.bind {x : Except Failure α} {f : α → Except Failure β}
    (hx : NoFailedLookup x) (hf : ∀ a, NoFailedLookup (f a)) : NoFailedLookup (x >>= f) := by
  cases x with
  | error e => exact hx
  | ok a => exact hf a

end

namespace Node

theorem noFailedLookup_items {α : Type} (xs : Option (List α)) : NoFailedLookup (items xs) := by
  cases xs <;> simp [items]

theorem noFailedLookup_expression (n : Node) : NoFailedLookup n.expression := by
  cases n <;> simp [expression]

theorem noFailedLookup_name (n : Node) : NoFailedLookup n.name := by
  cases n <;> simp [Node.name]

theorem noFailedLookup_parent (n : Node) : NoFailedLookup n.parent := by
  cases n <;> simp [parent]

theorem noFailedLookup_extendedTypes (clauses : List Node) :
    NoFailedLookup (extendedTypes clauses) := by
  fun_induction extendedTypes clauses with
  | case1 => simp
  | case2 types => exact noFailedLookup_items types
  | case3 _ _ ih => exact ih
  | case4 => simp

theorem noFailedLookup_anyM {α : Type} {f : α → Except Failure Bool}
    (h : ∀ x, NoFailedLookup (f x)) (xs : List α) : NoFailedLookup (xs.anyM f) := by
  induction xs with
  | nil => simp
  | cons x xs ih =>
    rw [List.anyM]
    apply (h x).bind
    rintro (_ | _)
    · exact ih
    · simp

theorem noFailedLookup_extendsBaseComponent (framework : Framework) (clauses : List Node) :
    NoFailedLookup (extendsBaseComponent framework clauses) := by
  apply (noFailedLookup_extendedTypes clauses).bind
  apply noFailedLookup_anyM
  intro t
  apply (noFailedLookup_expression t).bind
  simp

theorem noFailedLookup_isElementType (framework : Framework) (t : Node) :
    NoFailedLookup (isElementType framework t) := by
  apply (noFailedLookup_name t).bind
  intro name
  split
  · simp
  · apply (noFailedLookup_parent t).bind
    rintro (_ | outer)
    · simp
    · apply (noFailedLookup_name outer).bind
      simp

theorem noFailedLookup_returnsElement (framework : Framework) (n : Node) :
    NoFailedLookup (returnsElement framework n) := by
  unfold returnsElement
  split
  case h_4 => apply noFailedLookup_isElementType
  all_goals simp

end Node

namespace Oracle

variable {ω σ : Type}

section verdicts

variable {framework : Framework} {type : Except Failure (Option Node)}

theorem settle_eq_true_iff {α : Type} {outcome : Except Failure α}
    {next : α → Except Failure Bool} :
    settle outcome next = .ok true ↔ ∃ a, outcome = .ok a ∧ next a = .ok true := by
  unfold settle
  split <;> simp

theorem functionVerdict_iff {shape : CallableShape} :
    functionVerdict framework shape type = .ok true ↔ ∃ ps t, shape.parameters = some ps ∧
      (ps.length = 1 ∨ ps.length = 2) ∧ type = .ok (some t) ∧ t.GivesElement framework := by
  constructor
  · intro h
    obtain ⟨ps, hps, h⟩ := exists_of_bind_eq_ok h
    have hparameters : shape.parameters = some ps := by
      cases hshape : shape.parameters with
      | none =>
        rw [hshape] at hps
        cases hps
      | some qs =>
        rw [hshape] at hps
        rw [Except.ok.inj hps]
    by_cases hcount : ps.length = 1 ∨ ps.length = 2
    · rw [if_pos hcount] at h
      obtain ⟨declared, hdeclared, h⟩ := settle_eq_true_iff.1 h
      cases declared with
      | none => cases h
      | some t => exact ⟨ps, t, hparameters, hcount, hdeclared, Node.returnsElement_iff.1 h⟩
    · rw [if_neg hcount] at h
      cases h
  · rintro ⟨ps, t, hps, hcount, rfl, ht⟩
    have hitems : Node.items shape.parameters = .ok ps := by
      rw [hps]
      rfl
    simp only [functionVerdict, hitems, bind, Except.bind, if_pos hcount]
    exact Node.returnsElement_iff.2 ht

theorem declarationVerdict_iff {d : Node} :
    declarationVerdict framework type d = .ok true ↔ d.ExtendsBase framework ∨
      ∃ ps t, d.DenotesFunction ps ∧ (ps.length = 1 ∨ ps.length = 2) ∧ type = .ok (some t) ∧
        t.GivesElement framework := by
  by_cases hclass : ∃ name clauses, d = .classDeclaration name clauses
  · obtain ⟨name, clauses, rfl⟩ := hclass
    have hfunction : ∀ ps, ¬ (Node.classDeclaration name clauses).DenotesFunction ps :=
      fun ps h => nomatch h
    simp only [hfunction, false_and, exists_false, or_false]
    exact Node.extendsBaseComponent_iff
  · have hbase : ¬ d.ExtendsBase framework := by
      rintro ⟨name, before, types, after, rfl, -⟩
      exact hclass ⟨_, _, rfl⟩
    rw [declarationVerdict_of_not_class framework type fun name clauses h =>
      hclass ⟨name, clauses, h⟩]
    simp only [hbase, false_or, ← Node.callable?_iff]
    cases hcallable : d.callable? with
    | none => simp
    | some shape =>
      simp only [Option.map_some, Option.getD_some, functionVerdict_iff, Option.some.injEq,
        exists_eq_left']

theorem noFailedLookup_settle {α : Type} {outcome : Except Failure α}
    {next : α → Except Failure Bool} (h : ∀ a, NoFailedLookup (next a)) :
    NoFailedLookup (settle outcome next) := by
  unfold settle
  split
  · next a => exact h a
  · simp
  · next e he =>
    intro hresolution
    obtain ⟨r, rfl⟩ := Failure.isResolution_iff.1 hresolution
    exact he r rfl

theorem noFailedLookup_verdict (declarations : List Node) :
    NoFailedLookup (verdict framework declarations type) := by
  unfold verdict
  split
  · unfold declarationVerdict
    split
    · apply (Node.noFailedLookup_items _).bind
      apply Node.noFailedLookup_extendsBaseComponent
    · split
      · simp
      · apply (Node.noFailedLookup_items _).bind
        intro ps
        split
        · apply noFailedLookup_settle
          rintro (_ | t)
          · simp
          · apply Node.noFailedLookup_returnsElement
        · simp
  · simp

theorem exists_settle {α : Type} {outcome : Except Failure α} {next : α → Except Failure Bool}
    {P : α → Prop} (h : Answers P outcome) (hnext : ∀ a, P a → ∃ b, next a = .ok b) :
    ∃ b, settle outcome next = .ok b := by
  match outcome, h with
  | .ok a, h => exact hnext a h
  | .error e, h =>
    obtain ⟨r, rfl⟩ := Failure.isResolution_iff.1 h
    exact ⟨false, rfl⟩

/-- Where declarations and the type are described in full, there is a verdict. -/
theorem exists_verdict {declarations : List Node} (hd : ∀ d ∈ declarations, d.IsDeclaration)
    (ht : Answers (fun found => ∀ t, found = some t → t.IsTypeHandle) type) :
    ∃ b, verdict framework declarations type = .ok b := by
  unfold verdict
  split
  · next d =>
    have hdeclared := hd d List.mem_cons_self
    unfold declarationVerdict
    split
    · obtain ⟨clauses, rfl, hclauses⟩ := hdeclared
      exact Node.extendsBaseComponent_ok framework hclauses
    · split
      · exact ⟨false, rfl⟩
      · next shape hshape =>
        obtain ⟨ps, hps⟩ := Node.callable?_parameters hdeclared hshape
        simp only [functionVerdict, hps, Node.items, bind, Except.bind]
        split
        · apply exists_settle ht
          rintro (_ | t) htype
          · exact ⟨false, rfl⟩
          · exact Node.returnsElement_ok framework (htype t rfl)
        · exact ⟨false, rfl⟩
  · exact ⟨false, rfl⟩

theorem verdict_iff {declarations : List Node} :
    verdict framework declarations type = .ok true ↔
      ∃ d, declarations = [d] ∧ declarationVerdict framework type d = .ok true := by
  unfold verdict
  split
  · simp
  · next h => simpa using fun d hd => absurd hd (h d)

end verdicts

variable {oracle : Oracle ω σ} {framework : Framework} {specifier name file : String} {s : σ}

/-- The look-up succeeds, and the symbol is the first one under the name. -/
def Finds (oracle : Oracle ω σ) (specifier name file : String) (s : σ)
    (symbol : ExportedSymbol ω) : Prop :=
  ∃ before after,
    (oracle.exportsOf specifier file s).outcome = .ok (some (before ++ symbol :: after)) ∧
    symbol.name = name ∧ ∀ other ∈ before, other.name ≠ name

/-- The symbol has one declaration, which denotes a function that takes props and perhaps a
context. -/
def FindsFunction (oracle : Oracle ω σ) (specifier name file : String) (s : σ)
    (symbol : ExportedSymbol ω) : Prop :=
  oracle.Finds specifier name file s symbol ∧ ∃ d ps, symbol.declarations = [d] ∧
    d.DenotesFunction ps ∧ (ps.length = 1 ∨ ps.length = 2)

/-- The answer to the question for the type of a symbol, asked after the one for the exports. -/
def typeTold (oracle : Oracle ω σ) (specifier file : String) (s : σ) (symbol : ExportedSymbol ω) :
    Except Failure (Option Node) :=
  (oracle.typeOf symbol (oracle.exportsOf specifier file s).state).outcome

/-- What is found under the name is a component by one of the two rules. -/
inductive KnowsComponent (oracle : Oracle ω σ) (framework : Framework)
    (specifier name file : String) (s : σ) : Prop
  | ofClass {symbol : ExportedSymbol ω} {d : Node}
      (hfound : oracle.Finds specifier name file s symbol) (hone : symbol.declarations = [d])
      (hbase : d.ExtendsBase framework)
  | ofFunction {symbol : ExportedSymbol ω} {type : Node}
      (hfound : oracle.FindsFunction specifier name file s symbol)
      (htype : oracle.typeTold specifier file s symbol = .ok (some type))
      (hreturn : type.GivesElement framework)

/-- The answers to the questions of a classification are what they should be: a failed resolution,
or declarations and a type that are described in full. -/
def AnswersFully (oracle : Oracle ω σ) (specifier file : String) (s : σ) : Prop :=
  Answers (fun found => ∀ symbols, found = some symbols → ∀ symbol ∈ symbols,
    (∀ d ∈ symbol.declarations, d.IsDeclaration) ∧
      Answers (fun type => ∀ t, type = some t → t.IsTypeHandle)
        (oracle.typeTold specifier file s symbol))
    (oracle.exportsOf specifier file s).outcome

theorem finds_iff {symbol : ExportedSymbol ω} :
    oracle.Finds specifier name file s symbol ↔ ∃ symbols,
      (oracle.exportsOf specifier file s).outcome = .ok (some symbols) ∧
      symbols.find? (fun other => other.name == name) = some symbol := by
  simp only [Finds, List.find?_eq_some_iff_append]
  constructor
  · rintro ⟨before, after, houtcome, hname, hbefore⟩
    exact ⟨_, houtcome, by simpa using hname, before, after, rfl, by simpa using hbefore⟩
  · rintro ⟨_, houtcome, hname, before, after, rfl, hbefore⟩
    exact ⟨before, after, houtcome, by simpa using hname, by simpa using hbefore⟩

/-- The rules decide by the verdict on the symbol that is found. -/
theorem knowsComponent_iff : oracle.KnowsComponent framework specifier name file s ↔
    ∃ symbol, oracle.Finds specifier name file s symbol ∧
      verdict framework symbol.declarations (oracle.typeTold specifier file s symbol) =
        .ok true := by
  simp only [verdict_iff, declarationVerdict_iff]
  constructor
  · rintro (@⟨symbol, d, hfound, hone, hbase⟩ |
      @⟨symbol, type, ⟨hfound, d, ps, hone, hd, hcount⟩, htype, hreturn⟩)
    · exact ⟨symbol, hfound, d, hone, .inl hbase⟩
    · exact ⟨symbol, hfound, d, hone, .inr ⟨ps, type, hd, hcount, htype, hreturn⟩⟩
  · rintro ⟨symbol, hfound, d, hone, hbase | ⟨ps, type, hd, hcount, htype, hreturn⟩⟩
    · exact .ofClass hfound hone hbase
    · exact .ofFunction ⟨hfound, d, ps, hone, hd, hcount⟩ htype hreturn

/-- A failed resolution never ends a classification. An export is told to be a component exactly if
it is one by one of the rules, and where the oracle answers in full the export is told to be none
otherwise. -/
theorem isComponent_iff_knowsComponent (oracle : Oracle ω σ) (framework : Framework)
    (specifier name file : String) (p : Progress σ) :
    let outcome := ((oracle.isComponent framework specifier name file).runFrom p).1
    (∀ e, outcome = .error e → ¬ e.IsResolution) ∧
      (outcome = .ok true ↔ oracle.KnowsComponent framework specifier name file p.oracle) ∧
      (oracle.AnswersFully specifier file p.oracle → outcome = .ok true ∨ outcome = .ok false) := by
  intro outcome
  have houtcome : outcome = _ := outcome_isComponent specifier name file p
  refine ⟨fun e he => ?_, ?_, fun hfully => ?_⟩
  · have hnone : NoFailedLookup outcome := by
      rw [houtcome]
      apply noFailedLookup_settle
      intro found
      split
      · simp
      · apply noFailedLookup_verdict
    rwa [he] at hnone
  · rw [houtcome, settle_eq_true_iff, knowsComponent_iff]
    simp only [finds_iff]
    constructor
    · rintro ⟨found, hfound, h⟩
      split at h
      · cases h
      · next symbol hsymbol =>
        cases found with
        | none => cases hsymbol
        | some symbols => exact ⟨symbol, ⟨symbols, hfound, hsymbol⟩, h⟩
    · rintro ⟨symbol, ⟨symbols, hfound, hsymbol⟩, h⟩
      refine ⟨some symbols, hfound, ?_⟩
      rw [Option.getD_some, hsymbol]
      exact h
  · obtain ⟨b, hb⟩ : ∃ b, outcome = .ok b := by
      rw [houtcome]
      apply exists_settle hfully
      intro found hdescribed
      split
      · exact ⟨false, rfl⟩
      · next symbol hsymbol =>
        cases found with
        | none => cases hsymbol
        | some symbols =>
          obtain ⟨hd, ht⟩ := hdescribed symbols rfl symbol (List.mem_of_find?_eq_some hsymbol)
          exact exists_verdict hd ht
    cases b <;> simp [hb]

/-- A function that takes props, as the first variable of a statement. -/
def cardStatement : Node :=
  .variableStatement [.variableDeclaration "Card" (some (.arrowFunction (some [.parameter "props"])
    none))] .constant none

/-- A module with a function of one parameter, a class under the same name, and a function whose
type cannot be resolved. -/
def cardsOracle : Oracle Unit Unit where
  exportsOf _ _ s :=
    ⟨.ok (some [⟨"Card", [cardStatement], ()⟩, ⟨"Card", [panelClass], ()⟩,
      ⟨"Lost", [cardStatement], ()⟩]), [], s⟩
  typeOf symbol s :=
    ⟨if symbol.name = "Lost" then .error (.resolution ⟨.text "type failed", []⟩)
      else .ok (some (TypeHandle.toNode ⟨"Card", [⟨1, some .jsxElement⟩]⟩)), [], s⟩

theorem isTypeHandle_card : (TypeHandle.toNode ⟨"Card", [⟨1, some .jsxElement⟩]⟩).IsTypeHandle := by
  refine ⟨_, _, rfl, fun t ht => ?_⟩
  obtain rfl := List.mem_singleton.1 ht
  refine ⟨_, _, rfl, fun t ht => ?_⟩
  obtain rfl := Option.some.inj ht
  exact ⟨_, _, rfl, fun outer houter => ⟨_, _, (Option.some.inj houter).symm⟩⟩

theorem cardsOracle_answersFully : cardsOracle.AnswersFully "./cards" "app.tsx" () := by
  have hcard : cardStatement.IsDeclaration := fun d hd => by
    obtain rfl := List.mem_singleton.1 hd
    rfl
  rintro symbols ⟨rfl⟩ symbol hsymbol
  simp only [List.mem_cons, List.not_mem_nil, or_false] at hsymbol
  rcases hsymbol with rfl | rfl | rfl
  · refine ⟨by simpa using hcard, fun t ht => ?_⟩
    obtain rfl := Option.some.inj ht
    exact isTypeHandle_card
  · refine ⟨by simpa using panelClass_isDeclaration, fun t ht => ?_⟩
    obtain rfl := Option.some.inj ht
    exact isTypeHandle_card
  · exact ⟨by simpa using hcard, trivial⟩

/-- Of two symbols under one name the first one counts, and a type that cannot be resolved makes no
component. -/
theorem isComponent_iff_knowsComponent_cards :
    cardsOracle.AnswersFully "./cards" "app.tsx" () ∧
      cardsOracle.KnowsComponent {} "./cards" "Card" "app.tsx" () ∧
      ¬ cardsOracle.KnowsComponent {} "./cards" "Lost" "app.tsx" () ∧
      ((cardsOracle.isComponent {} "./cards" "Lost" "app.tsx").runFrom ⟨[], ()⟩).1 = .ok false := by
  obtain ⟨-, hcard, -⟩ :=
    isComponent_iff_knowsComponent cardsOracle {} "./cards" "Card" "app.tsx" ⟨[], ()⟩
  obtain ⟨-, hlost, hanswer⟩ :=
    isComponent_iff_knowsComponent cardsOracle {} "./cards" "Lost" "app.tsx" ⟨[], ()⟩
  have hno : ¬ cardsOracle.KnowsComponent {} "./cards" "Lost" "app.tsx" () := fun h =>
    nomatch hlost.2 h
  refine ⟨cardsOracle_answersFully, hcard.1 rfl, hno, ?_⟩
  exact (hanswer cardsOracle_answersFully).resolve_left fun h => hno (hlost.1 h)

end Oracle

end DeferredImports
