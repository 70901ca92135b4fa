import DeferredImports.Proofs.ComponentRules
import DeferredImports.Proofs.RestrictedPlans
import DeferredImports.Proofs.StatementPlans

/-! The questions to the oracle and the calls of the hooks during a transformation. Main statement:
there are none for a module that is refused; for every other one they are those for its candidate
imports, in the order of the source and up to a failure: the question whether the import may change,
the questions for each of its bindings, and the calls for what is built. -/

namespace DeferredImports

/-- Whether the oracle is asked or a hook is called. -/
def Action.isCall : Action → Bool
  | .logged _ => false
  | _ => true

/-- The questions and hook calls in a trace, in their order. -/
def calls (trace : List Action) : List Action := trace.filter Action.isCall

@[simp] theorem calls_append (trace others : List Action) :
    calls (trace ++ others) = calls trace ++ calls others :=
  List.filter_append trace others

@[simp] theorem calls_logged (events : List Event) : calls (events.map .logged) = [] := by
  simp [calls, Action.isCall]

variable {ω σ : Type}

namespace Session

variable {α β : Type} {x : Session σ α} {f : α → Session σ β} {s t u : σ}
  {made others : List Action}

/-- Whatever was done before, a session that starts in the first of the oracle's states makes these
calls, and then ends like this in the other state. -/
def Makes (x : Session σ α) (s : σ) (made : List Action) (outcome : Except Failure α) (t : σ) :
    Prop :=
  ∀ trace, ∃ trace', x.runFrom ⟨trace, s⟩ = (outcome, ⟨trace', t⟩) ∧
    calls trace' = calls trace ++ made

theorem Makes.pure (a : α) (s : σ) : (Pure.pure a : Session σ α).Makes s [] (.ok a) s :=
  fun trace => ⟨trace, rfl, (List.append_nil _).symm⟩

theorem Makes.throw (e : Failure) (s : σ) : (throw e : Session σ α).Makes s [] (.error e) s :=
  fun trace => ⟨trace, rfl, (List.append_nil _).symm⟩

theorem Makes.ofExcept (x : Except Failure α) (s : σ) :
    Makes (Effect.ofExcept x : Session σ α) s [] x s :=
  fun trace => ⟨trace, rfl, (List.append_nil _).symm⟩

theorem Makes.bind {a : α} {outcome : Except Failure β} (hx : x.Makes s made (.ok a) t)
    (hf : (f a).Makes t others outcome u) : (x >>= f).Makes s (made ++ others) outcome u := by
  intro trace
  obtain ⟨trace', hrun, hmade⟩ := hx trace
  obtain ⟨trace'', hrun', hothers⟩ := hf trace'
  refine ⟨trace'', ?_, ?_⟩
  · rw [Effect.runFrom_bind_of_ok hrun, hrun']
  · rw [hothers, hmade, List.append_assoc]

theorem Makes.bind_error {e : Failure} (hx : x.Makes s made (.error e) t) :
    (x >>= f).Makes s made (.error e) t := by
  intro trace
  obtain ⟨trace', hrun, hmade⟩ := hx trace
  exact ⟨trace', by rw [Effect.runFrom_bind, hrun], hmade⟩

/-- What comes after may make no calls. -/
theorem Makes.bind_nil {a : α} {outcome : Except Failure β} (hx : x.Makes s made (.ok a) t)
    (hf : (f a).Makes t [] outcome u) : (x >>= f).Makes s made outcome u := by
  have h := hx.bind hf
  rwa [List.append_nil] at h

/-- What comes before may make no calls. -/
theorem Makes.nil_bind {a : α} {outcome : Except Failure β} (hx : x.Makes s [] (.ok a) t)
    (hf : (f a).Makes t made outcome u) : (x >>= f).Makes s made outcome u :=
  hx.bind hf

theorem Makes.ofExcept_bind {y : Except Failure α} {a : α} {outcome : Except Failure β}
    (hy : y = .ok a) (hf : (f a).Makes s made outcome t) :
    Makes (Effect.ofExcept y >>= f) s made outcome t := by
  rw [hy, Effect.ofExcept_ok_bind]
  exact hf

theorem makes_log (e : Event) (s : σ) : (log e).Makes s [] (.ok ()) s :=
  fun trace => ⟨_, rfl, by simp [calls, Action.isCall]⟩

theorem makes_act {a : Action} (h : a.isCall = true) (s : σ) : (act a).Makes s [a] (.ok ()) s :=
  fun trace => ⟨_, rfl, by simp [calls, h]⟩

theorem makes_take (answer : σ → Reply σ α) (s : σ) :
    (take answer).Makes s [] (.ok (answer s).outcome) (answer s).state :=
  fun trace => ⟨_, rfl, by simp⟩

theorem makes_ask {question : Action} (h : question.isCall = true) (answer : σ → Reply σ α)
    (s : σ) : (ask question answer).Makes s [question] (.ok (answer s).outcome) (answer s).state :=
  (makes_act h s).bind_nil (makes_take answer s)

/-- A hook that is not given is not called. -/
theorem Makes.act_if {c : Prop} [Decidable c] {a : Action} (ha : a.isCall = true)
    {y : Unit → Session σ β} {outcome : Except Failure β} (hy : (y ()).Makes s made outcome t) :
    (if c then act a >>= y else y ()).Makes s ((if c then [a] else []) ++ made) outcome t := by
  split
  · exact (makes_act ha s).bind hy
  · exact hy

theorem Makes.outcome_eq {outcome : Except Failure α} (h : x.Makes s made outcome t) :
    (x.runFrom ⟨[], s⟩).1 = outcome := by
  obtain ⟨_, hrun, -⟩ := h []
  rw [hrun]

/-- Like `Makes` for a session whose value does not matter: if it fails, no state is reached. -/
def MakesUntil (x : Session σ α) (s : σ) (made : List Action) (ending : Option σ) : Prop :=
  ∃ outcome t, x.Makes s made outcome t ∧ ending = outcome.toOption.map fun _ => t

variable {ending : Option σ}

theorem Makes.until {a : α} (h : x.Makes s made (.ok a) t) : x.MakesUntil s made (some t) :=
  ⟨_, t, h, rfl⟩

theorem Makes.until_error {e : Failure} (h : x.Makes s made (.error e) t) :
    x.MakesUntil s made none :=
  ⟨_, t, h, rfl⟩

theorem Makes.bind_until {a : α} (hx : x.Makes s made (.ok a) t)
    (hf : (f a).MakesUntil t others ending) : (x >>= f).MakesUntil s (made ++ others) ending := by
  obtain ⟨outcome, u, hmakes, hending⟩ := hf
  exact ⟨outcome, u, hx.bind hmakes, hending⟩

theorem Makes.bind_nil_until {a : α} (hx : x.Makes s made (.ok a) t)
    (hf : (f a).MakesUntil t [] ending) : (x >>= f).MakesUntil s made ending := by
  have h := hx.bind_until hf
  rwa [List.append_nil] at h

theorem Makes.nil_bind_until {a : α} (hx : x.Makes s [] (.ok a) t)
    (hf : (f a).MakesUntil t made ending) : (x >>= f).MakesUntil s made ending :=
  hx.bind_until hf

/-- What comes after matters only if there is a value. -/
theorem MakesUntil.bind_none (hx : x.MakesUntil s made none) :
    (x >>= f).MakesUntil s made none := by
  obtain ⟨outcome, t, hmakes, hending⟩ := hx
  rcases outcome with e | a
  · exact hmakes.bind_error.until_error
  · cases hending

theorem MakesUntil.bind (hx : x.MakesUntil s made (some t))
    (hf : ∀ a, (f a).MakesUntil t others ending) :
    (x >>= f).MakesUntil s (made ++ others) ending := by
  obtain ⟨outcome, t', hmakes, hending⟩ := hx
  rcases outcome with e | a
  · cases hending
  · cases hending
    exact hmakes.bind_until (hf a)

theorem MakesUntil.map (hx : x.MakesUntil s made ending) (g : α → β) :
    (do return g (← x)).MakesUntil s made ending := by
  cases ending with
  | none => exact hx.bind_none
  | some t =>
    have h := hx.bind fun a => (Makes.pure (g a) t).until
    rwa [List.append_nil] at h

theorem MakesUntil.act_if {c : Prop} [Decidable c] {a : Action} (ha : a.isCall = true)
    {y : Unit → Session σ β} (hy : (y ()).MakesUntil s made ending) :
    (if c then act a >>= y else y ()).MakesUntil s ((if c then [a] else []) ++ made) ending := by
  obtain ⟨outcome, u, hmakes, hending⟩ := hy
  exact ⟨outcome, u, hmakes.act_if ha, hending⟩

/-- The calls of a session and its end are those of its run. -/
theorem MakesUntil.eq_of_runFrom {trace : List Action} (h : x.MakesUntil s made ending) :
    calls (x.runFrom ⟨trace, s⟩).2.trace = calls trace ++ made ∧
      ((x.runFrom ⟨trace, s⟩).1.toOption.map fun _ => (x.runFrom ⟨trace, s⟩).2.oracle) =
        ending := by
  obtain ⟨outcome, t, hmakes, hending⟩ := h
  obtain ⟨trace', hrun, hmade⟩ := hmakes trace
  rw [hrun]
  exact ⟨hmade, hending.symm⟩

end Session

namespace Oracle

variable {oracle : Oracle ω σ} {framework : Framework} {specifier name file : String} {s t : σ}
  {made : List Action} {symbol : ExportedSymbol ω}

/-- What is asked in order to classify an export: the exports, and then the type of the symbol if
it is a function that takes props and perhaps a context. -/
inductive Asks (oracle : Oracle ω σ) (specifier name file : String) (s : σ) :
    List Action → σ → Prop
  | forExports (h : ∀ symbol, ¬ oracle.FindsFunction specifier name file s symbol) :
      Asks oracle specifier name file s [.exportsAsked specifier file]
        (oracle.exportsOf specifier file s).state
  | forType {symbol : ExportedSymbol ω} (h : oracle.FindsFunction specifier name file s symbol) :
      Asks oracle specifier name file s [.exportsAsked specifier file, .typeAsked name]
        (oracle.typeOf symbol (oracle.exportsOf specifier file s).state).state

theorem exists_asks (oracle : Oracle ω σ) (specifier name file : String) (s : σ) :
    ∃ made t, oracle.Asks specifier name file s made t := by
  by_cases h : ∃ symbol, oracle.FindsFunction specifier name file s symbol
  · obtain ⟨symbol, h⟩ := h
    exact ⟨_, _, .forType h⟩
  · exact ⟨_, _, .forExports (not_exists.1 h)⟩

/-- The verdict on an export, as it is told in a state of the oracle. -/
def judged (oracle : Oracle ω σ) (framework : Framework) (specifier name file : String) (s : σ) :
    Except Failure Bool :=
  ((oracle.isComponent framework specifier name file).runFrom ⟨[], s⟩).1

/-- A look-up asks for the exports, and ends with the symbol that they have under the name. -/
theorem makes_resolveExport (oracle : Oracle ω σ) (specifier name file : String) (s : σ) :
    ∃ found, (oracle.resolveExport specifier name file).Makes s [.exportsAsked specifier file] found
        (oracle.exportsOf specifier file s).state ∧
      ∀ symbol, found = .ok (some symbol) ↔ oracle.Finds specifier name file s symbol := by
  have hasked := @Session.makes_ask _ _ (.exportsAsked specifier file) rfl
    (oracle.exportsOf specifier file) s
  unfold resolveExport
  simp only [finds_iff]
  cases houtcome : (oracle.exportsOf specifier file s).outcome with
  | ok found =>
    rw [houtcome] at hasked
    cases found with
    | none =>
      exact ⟨_, hasked.bind_nil ((Session.makes_log _ _).nil_bind (.pure none _)), by simp⟩
    | some symbols => exact ⟨_, hasked.bind_nil (.pure _ _), by simp⟩
  | error e =>
    rw [houtcome] at hasked
    cases e with
    | resolution r =>
      exact ⟨_, hasked.bind_nil ((Session.makes_log _ _).nil_bind (.pure none _)), by simp⟩
    | _ => exact ⟨_, hasked.bind_nil (.throw _ _), by simp⟩

/-- The type of a function that takes props is asked for. -/
theorem makes_isFunctionComponent (oracle : Oracle ω σ) (framework : Framework)
    (symbol : ExportedSymbol ω) {shape : CallableShape} {ps : List Node}
    (hps : shape.parameters = some ps) (hcount : ps.length = 1 ∨ ps.length = 2) (s : σ) :
    ∃ outcome, (oracle.isFunctionComponent framework symbol shape).Makes s [.typeAsked symbol.name]
      outcome (oracle.typeOf symbol s).state := by
  have hitems : Node.items shape.parameters = .ok ps := by rw [hps]; rfl
  have hasked := @Session.makes_ask _ _ (.typeAsked symbol.name) rfl (oracle.typeOf symbol) s
  unfold isFunctionComponent
  rw [hitems, Effect.ofExcept_ok_bind, if_pos hcount]
  cases houtcome : (oracle.typeOf symbol s).outcome with
  | ok declared =>
    rw [houtcome] at hasked
    cases declared with
    | none => exact ⟨_, hasked.bind_nil (.pure false _)⟩
    | some declared => exact ⟨_, hasked.bind_nil (.ofExcept _ _)⟩
  | error e =>
    rw [houtcome] at hasked
    cases e with
    | resolution r =>
      exact ⟨_, hasked.bind_nil ((Session.makes_log _ _).nil_bind (.pure false _))⟩
    | _ => exact ⟨_, hasked.bind_nil (.throw _ _)⟩

/-- No other function's type is asked for. -/
theorem makes_isFunctionComponent_nil (oracle : Oracle ω σ) (framework : Framework)
    (symbol : ExportedSymbol ω) {shape : CallableShape}
    (h : ∀ ps, shape.parameters = some ps → ¬ (ps.length = 1 ∨ ps.length = 2)) (s : σ) :
    ∃ outcome, (oracle.isFunctionComponent framework symbol shape).Makes s [] outcome s := by
  unfold isFunctionComponent
  cases hps : shape.parameters with
  | none => exact ⟨_, (Session.Makes.ofExcept _ _).bind_error⟩
  | some ps =>
    refine ⟨.ok false, .ofExcept_bind rfl ?_⟩
    rw [if_neg (h ps hps)]
    exact .pure false s

/-- Whether a symbol that is found is a component. -/
def judgeSymbol (oracle : Oracle ω σ) (framework : Framework) (specifier name : String)
    (symbol : ExportedSymbol ω) : Session σ Bool :=
  match symbol.declarations with
  | [.classDeclaration _ heritageClauses] => Effect.ofExcept do
    Node.extendsBaseComponent framework (← Node.items heritageClauses)
  | [declaration] =>
    match declaration.callable? with
    | none => return false
    | some shape => oracle.isFunctionComponent framework symbol shape
  | declarations => do
    Session.log (.symbolAmbiguous specifier name declarations.length)
    return false

theorem isComponent_eq (oracle : Oracle ω σ) (framework : Framework)
    (specifier name file : String) :
    oracle.isComponent framework specifier name file = (do
      match ← oracle.resolveExport specifier name file with
      | none => return false
      | some symbol => oracle.judgeSymbol framework specifier name symbol) := rfl

theorem makes_judgeSymbol (oracle : Oracle ω σ) (framework : Framework) (specifier name : String)
    {symbol : ExportedSymbol ω} {d : Node} {ps : List Node} (hone : symbol.declarations = [d])
    (hd : d.DenotesFunction ps) (hcount : ps.length = 1 ∨ ps.length = 2) (s : σ) :
    ∃ outcome, (oracle.judgeSymbol framework specifier name symbol).Makes s
      [.typeAsked symbol.name] outcome (oracle.typeOf symbol s).state := by
  obtain ⟨shape, hshape, hps⟩ := Node.callable?_iff.2 hd
  unfold judgeSymbol
  rw [hone]
  cases hd <;>
    · dsimp only
      rw [hshape]
      exact makes_isFunctionComponent oracle framework symbol hps hcount s

/-- Nothing is asked about a symbol that has another number of declarations or is no function that
takes props. -/
theorem makes_judgeSymbol_nil (oracle : Oracle ω σ) (framework : Framework)
    (specifier name : String) {symbol : ExportedSymbol ω}
    (h : ∀ d ps, symbol.declarations = [d] →
      d.DenotesFunction ps → ¬ (ps.length = 1 ∨ ps.length = 2)) (s : σ) :
    ∃ outcome, (oracle.judgeSymbol framework specifier name symbol).Makes s [] outcome s := by
  unfold judgeSymbol
  split
  · exact ⟨_, .ofExcept _ s⟩
  · next d _ hone =>
    split
    · exact ⟨_, .pure false s⟩
    · next shape hshape =>
      apply makes_isFunctionComponent_nil
      intro ps hps
      exact h d ps hone (Node.callable?_iff.1 ⟨shape, hshape, hps⟩)
  · exact ⟨_, (Session.makes_log _ s).nil_bind (.pure false s)⟩

theorem Asks.exists_makes (h : oracle.Asks specifier name file s made t) (framework : Framework) :
    ∃ outcome, (oracle.isComponent framework specifier name file).Makes s made outcome t := by
  obtain ⟨found, hasked, hfound⟩ := makes_resolveExport oracle specifier name file s
  rw [isComponent_eq]
  cases h with
  | @forType symbol h =>
    obtain ⟨hfinds, d, ps, hone, hd, hcount⟩ := h
    obtain ⟨outcome, hjudged⟩ := makes_judgeSymbol oracle framework specifier name hone hd hcount
      (oracle.exportsOf specifier file s).state
    rw [(hfound symbol).2 hfinds] at hasked
    obtain ⟨_, _, -, hname, -⟩ := hfinds
    rw [hname] at hjudged
    exact ⟨outcome, hasked.bind hjudged⟩
  | forExports h =>
    rcases found with e | _ | symbol
    · exact ⟨.error e, hasked.bind_error⟩
    · exact ⟨.ok false, hasked.bind_nil (.pure false _)⟩
    · have hfinds : oracle.Finds specifier name file s symbol := (hfound symbol).1 rfl
      obtain ⟨outcome, hjudged⟩ := makes_judgeSymbol_nil oracle framework specifier name
        (fun d ps hone hd hcount => h symbol ⟨hfinds, d, ps, hone, hd, hcount⟩)
        (oracle.exportsOf specifier file s).state
      exact ⟨outcome, hasked.bind_nil hjudged⟩

/-- The calls of a classification are those that are to be asked. -/
theorem Asks.makes (h : oracle.Asks specifier name file s made t) (framework : Framework) :
    (oracle.isComponent framework specifier name file).Makes s made
      (oracle.judged framework specifier name file s) t := by
  obtain ⟨outcome, hmakes⟩ := h.exists_makes framework
  rwa [judged, hmakes.outcome_eq]

end Oracle

namespace Options

/-- Whether the import may change is asked if there is a hook for it. -/
def allowedCalls (o : Options) (specifier file : String) : List Action :=
  if o.allowed.isSome then [.allowedAsked specifier file] else []

/-- The wrapper is asked for once for each component. -/
def wrapperCalls (o : Options) (names : List String) : List Action :=
  if o.wrapper.isSome then names.map fun _ => .wrapperAsked else []

/-- What to inject is asked once. -/
def injectedCalls (o : Options) (file : String) : List Action :=
  if o.injected.isSome then [.injectedAsked file] else []

/-- The import stays as it is, as something would be left over besides these names. -/
def BailsOut (o : Options) (i : PlainImport) (names : List String) : Prop :=
  o.onlyIfFullyRemovable = true ∧ (i.without names).localNames ≠ []

/-- The bindings that are classified, as local names with their exports: the default one, and
those of named values if the options do not restrict to default exports. -/
def classifiedBindings (o : Options) (i : PlainImport) : List (String × String) :=
  if o.onlyDefaultExports then (i.defaultName.map fun n => (n, "default")).toList
  else i.valueBindings

end Options

/-- The import binds values, one of them under an uppercase name. -/
def PlainImport.BindsUppercase (i : PlainImport) : Prop :=
  i.forTypes = false ∧ ∃ n ∈ i.deferrable, Text.startsUppercase n = true

section plans

variable {oracle : Oracle ω σ} {options : Options} {framework : Framework} {i : PlainImport}
  {specifier file : String} {s t : σ} {made others : List Action} {ending : Option σ}

/-- Bindings are classified one after the other, up to a failure: the calls, the local names of the
components, and the oracle's state after it. -/
inductive Classifies (oracle : Oracle ω σ) (framework : Framework) (specifier file : String) :
    List (String × String) → σ → List Action → Except Failure (List String) → σ → Prop
  | done (s : σ) : Classifies oracle framework specifier file [] s [] (.ok []) s
  | failed {name exported : String} {bs : List (String × String)} {s t : σ} {made : List Action}
      {e : Failure} (hasks : oracle.Asks specifier exported file s made t)
      (hjudged : oracle.judged framework specifier exported file s = .error e) :
      Classifies oracle framework specifier file ((name, exported) :: bs) s made (.error e) t
  | judged {name exported : String} {bs : List (String × String)} {s t u : σ}
      {made others : List Action} {isComponent : Bool} {names : Except Failure (List String)}
      (hasks : oracle.Asks specifier exported file s made t)
      (hjudged : oracle.judged framework specifier exported file s = .ok isComponent)
      (hothers : Classifies oracle framework specifier file bs t others names u) :
      Classifies oracle framework specifier file ((name, exported) :: bs) s (made ++ others)
        (names.map fun ns => if isComponent then name :: ns else ns) u

theorem exists_classifies (oracle : Oracle ω σ) (framework : Framework) (specifier file : String)
    (bs : List (String × String)) (s : σ) :
    ∃ made names t, Classifies oracle framework specifier file bs s made names t := by
  induction bs generalizing s with
  | nil => exact ⟨_, _, _, .done s⟩
  | cons b bs ih =>
    obtain ⟨made, t, hasks⟩ := oracle.exists_asks specifier b.2 file s
    cases hjudged : oracle.judged framework specifier b.2 file s with
    | error e => exact ⟨_, _, _, .failed hasks hjudged⟩
    | ok isComponent =>
      obtain ⟨others, names, u, hothers⟩ := ih t
      exact ⟨_, _, _, .judged hasks hjudged hothers⟩

theorem Classifies.makes {bs : List (String × String)} {names : Except Failure (List String)}
    (h : Classifies oracle framework specifier file bs s made names t) :
    (Plan.classified (oracle.isComponent framework specifier · file) bs).Makes s made names t := by
  induction h with
  | done s => exact .pure [] s
  | failed hasks hjudged =>
    have hmakes := hasks.makes framework
    rw [hjudged] at hmakes
    exact hmakes.bind_error
  | @judged name exported bs s t u made others isComponent names hasks hjudged _ ih =>
    have hmakes := hasks.makes framework
    rw [hjudged] at hmakes
    refine hmakes.bind ?_
    cases names with
    | error e => exact ih.bind_error
    | ok names => exact ih.bind_nil (.pure _ u)

/-- The components are among the bindings. -/
theorem Classifies.subset {bs : List (String × String)} {names : List String}
    (h : Classifies oracle framework specifier file bs s made (.ok names) t) :
    names ⊆ bs.map Prod.fst := by
  obtain ⟨_, hrun, -⟩ := h.makes []
  exact (Plan.sublist_of_classified hrun).subset

/-- The calls for what is built from the names of an import's components, and the oracle's state
after them, unless what is injected fails. -/
inductive BuildCalls (options : Options) (i : PlainImport) (file : String) (names : List String)
    (s : σ) : List Action → Option σ → Prop
  | bailedOut (h : options.BailsOut i names) :
      BuildCalls options i file names s (options.wrapperCalls names) (some s)
  | built (h : ¬ options.BailsOut i names) (hfits : ¬ Plan.InjectsMisfit options file .unfit) :
      BuildCalls options i file names s
        (options.wrapperCalls names ++ options.injectedCalls file) (some s)
  | misfit (h : ¬ options.BailsOut i names) (hmisfit : Plan.InjectsMisfit options file .unfit) :
      BuildCalls options i file names s
        (options.wrapperCalls names ++ options.injectedCalls file) none

/-- The calls for a candidate import, and the oracle's state after them if nothing fails. -/
inductive ImportCalls (oracle : Oracle ω σ) (options : Options) (i : PlainImport) (file : String)
    (s : σ) : List Action → Option σ → Prop
  | refused (h : options.allows i.specifier file = false) :
      ImportCalls oracle options i file s (options.allowedCalls i.specifier file) (some s)
  | failed {made : List Action} {e : Failure} {t : σ}
      (h : options.allows i.specifier file = true)
      (hnames : Classifies oracle options.framework i.specifier file (options.classifiedBindings i)
        s made (.error e) t) :
      ImportCalls oracle options i file s (options.allowedCalls i.specifier file ++ made) none
  | noComponent {made : List Action} {t : σ} (h : options.allows i.specifier file = true)
      (hnames : Classifies oracle options.framework i.specifier file (options.classifiedBindings i)
        s made (.ok []) t) :
      ImportCalls oracle options i file s (options.allowedCalls i.specifier file ++ made) (some t)
  | components {made others : List Action} {names : List String} {t : σ} {ending : Option σ}
      (h : options.allows i.specifier file = true)
      (hnames : Classifies oracle options.framework i.specifier file (options.classifiedBindings i)
        s made (.ok names) t)
      (hne : names ≠ []) (hbuild : BuildCalls options i file names t others ending) :
      ImportCalls oracle options i file s
        (options.allowedCalls i.specifier file ++ (made ++ others)) ending

theorem exists_buildCalls (options : Options) (i : PlainImport) (file : String)
    (names : List String) (s : σ) :
    ∃ made ending, BuildCalls options i file names s made ending := by
  by_cases h : options.BailsOut i names
  · exact ⟨_, _, .bailedOut h⟩
  · by_cases hmisfit : Plan.InjectsMisfit options file .unfit
    · exact ⟨_, _, .misfit h hmisfit⟩
    · exact ⟨_, _, .built h hmisfit⟩

theorem exists_importCalls (oracle : Oracle ω σ) (options : Options) (i : PlainImport)
    (file : String) (s : σ) :
    ∃ made ending, ImportCalls oracle options i file s made ending := by
  cases h : options.allows i.specifier file with
  | false => exact ⟨_, _, .refused h⟩
  | true =>
    obtain ⟨made, names, t, hnames⟩ := exists_classifies oracle options.framework i.specifier file
      (options.classifiedBindings i) s
    rcases names with e | _ | ⟨name, names⟩
    · exact ⟨_, _, .failed h hnames⟩
    · exact ⟨_, _, .noComponent h hnames⟩
    · obtain ⟨others, ending, hbuild⟩ := exists_buildCalls options i file (name :: names) t
      exact ⟨_, _, .components h hnames (List.cons_ne_nil name names) hbuild⟩

theorem makes_lazyBindings (options : Options) {names : List String}
    (h : ∀ name ∈ names, ∃ l, Plan.loader i.toStatement name = .ok l) (s : σ) :
    ∃ constants, (Plan.lazyBindings options i.toStatement names).Makes s
        (options.wrapperCalls names) (.ok constants) s ∧
      List.Forall₂ (fun name c =>
        Plan.IsLazyConstant options.wrapperExpression i.toStatement name c ∧
          c.leadingTrivia? = none) names constants := by
  induction names with
  | nil =>
    refine ⟨[], ?_, .nil⟩
    unfold Plan.lazyBindings Options.wrapperCalls
    rw [List.map_nil, ite_self]
    exact .pure [] s
  | cons name names ih =>
    obtain ⟨l, hl⟩ := h name List.mem_cons_self
    obtain ⟨constants, hmakes, hconstants⟩ := ih fun n hn => h n (List.mem_cons_of_mem name hn)
    refine ⟨_, ?_, .cons ⟨⟨l, none, hl, rfl⟩, rfl⟩ hconstants⟩
    unfold Plan.lazyBindings
    apply Session.Makes.ofExcept_bind hl
    have hcalls : options.wrapperCalls (name :: names) =
        (if options.wrapper.isSome then [.wrapperAsked] else []) ++ options.wrapperCalls names := by
      unfold Options.wrapperCalls
      split <;> rfl
    rw [hcalls]
    exact Session.Makes.act_if rfl (hmakes.bind_nil (.pure _ s))

theorem makes_askInjected (options : Options) (file : String) (s : σ) :
    (Plan.askInjected options file).Makes s (options.injectedCalls file)
      (.ok (options.injectedImport file)) s := by
  have hmakes : Session.Makes (do
      if options.injected.isSome then Session.act (.injectedAsked file)
      return options.injectedImport file : Session σ (Option Node)) s
        ((if options.injected.isSome then [.injectedAsked file] else []) ++ [])
        (.ok (options.injectedImport file)) s :=
    Session.Makes.act_if rfl (.pure _ s)
  rwa [List.append_nil] at hmakes

/-- What is left over is what makes an import bail out. -/
theorem isSome_rest?_iff {names : List String} :
    (((i.rest? names).map fun r => (r.toStatement, r.localNames.length)).isSome &&
      options.onlyIfFullyRemovable) = true ↔ options.BailsOut i names := by
  rw [Option.isSome_map, Bool.and_eq_true_iff, PlainImport.rest?_isSome, and_comm, Options.BailsOut]

theorem BuildCalls.makes {names : List String} (hne : names ≠ [])
    (hloaders : ∀ name ∈ names, ∃ l, Plan.loader i.toStatement name = .ok l)
    (h : BuildCalls options i file names s made ending) :
    (Plan.build options i.toStatement names file).MakesUntil s made ending := by
  obtain ⟨constants, hlazy, hconstants⟩ := makes_lazyBindings options hloaders s
  have hinjected := makes_askInjected options file s
  have hhead := Plan.withLeadingTrivia_of_head file hconstants hne
  unfold Plan.build
  simp only [Plan.residualImport_toStatement, Effect.ofExcept_ok_bind]
  cases h with
  | bailedOut h =>
    apply hlazy.bind_nil_until
    rw [if_pos (isSome_rest?_iff.2 h), i.specifier_toStatement, Effect.ofExcept_ok_bind]
    exact (Session.makes_log _ s).nil_bind_until (Session.Makes.pure _ s).until
  | built h hfits =>
    apply hlazy.bind_until
    rw [if_neg (mt isSome_rest?_iff.1 h)]
    apply hinjected.bind_nil_until
    obtain ⟨first, others, hlist, ⟨head, hfirst⟩ | ⟨-, hmisfit⟩⟩ := hhead _
    · rw [hlist]
      dsimp only
      have htrivia : i.toStatement.leadingTrivia = i.leadingTrivia := rfl
      rw [htrivia, hfirst, i.specifier_toStatement, Effect.ofExcept_ok_bind,
        Effect.ofExcept_ok_bind]
      exact (Session.makes_log _ s).nil_bind_until (Session.Makes.pure _ s).until
    · exact absurd hmisfit hfits
  | misfit h hmisfit =>
    apply hlazy.bind_until
    rw [if_neg (mt isSome_rest?_iff.1 h)]
    apply hinjected.bind_nil_until
    obtain ⟨-, n, hn, hunfit⟩ := hmisfit
    rw [hn]
    dsimp only [Option.toList_some, List.singleton_append, List.cons_append]
    rw [hunfit]
    exact (Session.Makes.ofExcept _ s).bind_error.until_error

theorem componentsOf_eq_classified (oracle : Oracle ω σ) (options : Options) (i : PlainImport)
    (file : String) :
    Plan.componentsOf oracle options i.toStatement file =
      Plan.classified (oracle.isComponent options.framework i.specifier · file)
        (options.classifiedBindings i) :=
  Plan.componentsOf_toStatement oracle options i file

/-- The names of components that are found have loaders. -/
theorem Classifies.loader_ok {names : List String}
    (h : Classifies oracle framework specifier file (options.classifiedBindings i) s made
      (.ok names) t) : ∀ name ∈ names, ∃ l, Plan.loader i.toStatement name = .ok l := by
  intro name hname
  apply Plan.loader_ok
  apply i.deferrable_sublist.subset
  have hvalues : options.classifiedBindings i ⊆ i.valueBindings := by
    unfold Options.classifiedBindings
    split
    · exact List.subset_append_left _ _
    · exact List.Subset.refl _
  rw [← i.map_fst_valueBindings]
  exact List.map_subset _ hvalues (h.subset hname)

theorem ImportCalls.makes (hclause : i.toStatement.hasClause = true)
    (h : ImportCalls oracle options i file s made ending) :
    (Plan.ofImport oracle options i.toStatement file).MakesUntil s made ending := by
  unfold Plan.ofImport
  rw [if_neg (by simp [hclause]), i.specifier_toStatement, Effect.ofExcept_ok_bind,
    componentsOf_eq_classified]
  cases h with
  | refused h =>
    rw [h, ← List.append_nil (options.allowedCalls i.specifier file)]
    apply Session.MakesUntil.act_if rfl
    exact (Session.makes_log _ s).nil_bind_until (Session.Makes.pure _ s).until
  | failed h hnames =>
    rw [h]
    apply Session.MakesUntil.act_if rfl
    exact hnames.makes.bind_error.until_error
  | noComponent h hnames =>
    rw [h]
    apply Session.MakesUntil.act_if rfl
    exact hnames.makes.bind_nil_until (Session.Makes.pure _ _).until
  | @components made others names t ending h hnames hne hbuild =>
    rw [h]
    apply Session.MakesUntil.act_if rfl
    apply hnames.makes.bind_until
    cases names with
    | nil => exact absurd rfl hne
    | cons name names => exact hbuild.makes hne hnames.loader_ok

/-- Imports that bind a value under an uppercase name are the candidates. -/
theorem bindsUppercase_iff : i.BindsUppercase ↔ i.toStatement.toNode.isCandidate = .ok true := by
  have hcandidate : i.toStatement.toNode.isCandidate =
      .ok (!i.forTypes && i.deferrable.any Text.startsUppercase) := i.isCandidate_eq
  simp [hcandidate, PlainImport.BindsUppercase]

theorem PlainImport.BindsUppercase.hasClause (h : i.BindsUppercase) :
    i.toStatement.hasClause = true := by
  apply Plan.hasClause_toStatement
  obtain ⟨-, n, hn, -⟩ := h
  exact List.ne_nil_of_mem ((i.deferrable_sublist.trans i.exportsBound_sublist).subset hn)

/-- The calls for the statements of a module, one after the other and up to a failure, and the
oracle's state after them if nothing fails. There are none for a statement that is no candidate. -/
inductive StatementCalls (oracle : Oracle ω σ) (options : Options) (file : String) :
    List Node → σ → List Action → Option σ → Prop
  | done (s : σ) : StatementCalls oracle options file [] s [] (some s)
  | kept {n : Node} {ss : List Node} {s : σ} {made : List Action} {ending : Option σ}
      (h : ∀ i : PlainImport, n = i.toStatement.toNode → ¬ i.BindsUppercase)
      (hothers : StatementCalls oracle options file ss s made ending) :
      StatementCalls oracle options file (n :: ss) s made ending
  | failed {i : PlainImport} {ss : List Node} {s : σ} {made : List Action}
      (h : i.BindsUppercase) (hcalls : ImportCalls oracle options i file s made none) :
      StatementCalls oracle options file (i.toStatement.toNode :: ss) s made none
  | candidate {i : PlainImport} {ss : List Node} {s t : σ} {made others : List Action}
      {ending : Option σ} (h : i.BindsUppercase)
      (hcalls : ImportCalls oracle options i file s made (some t))
      (hothers : StatementCalls oracle options file ss t others ending) :
      StatementCalls oracle options file (i.toStatement.toNode :: ss) s (made ++ others) ending

theorem exists_statementCalls (oracle : Oracle ω σ) (options : Options) (file : String)
    (ss : List Node) (s : σ) :
    ∃ made ending, StatementCalls oracle options file ss s made ending := by
  induction ss generalizing s with
  | nil => exact ⟨_, _, .done s⟩
  | cons n ss ih =>
    by_cases h : ∃ i : PlainImport, n = i.toStatement.toNode ∧ i.BindsUppercase
    · obtain ⟨i, rfl, h⟩ := h
      obtain ⟨made, ending, hcalls⟩ := exists_importCalls oracle options i file s
      rcases ending with _ | t
      · exact ⟨_, _, .failed h hcalls⟩
      · obtain ⟨others, ending, hothers⟩ := ih t
        exact ⟨_, _, .candidate h hcalls hothers⟩
    · obtain ⟨made, ending, hothers⟩ := ih s
      exact ⟨_, _, .kept (fun i hi hupper => h ⟨i, hi, hupper⟩) hothers⟩

theorem planFor_candidate (h : i.BindsUppercase) :
    planFor oracle options file i.toStatement.toNode =
      (do return some (← Plan.ofImport oracle options i.toStatement file)) := by
  have himport : i.toStatement.toNode.import? = some i.toStatement := rfl
  rw [planFor, himport, bindsUppercase_iff.1 h]

theorem planFor_kept {n : Node} {ss : List Node} (hplain : ImportsPlain (n :: ss))
    (h : ∀ i : PlainImport, n = i.toStatement.toNode → ¬ i.BindsUppercase) :
    planFor oracle options file n = pure none := by
  unfold planFor
  split
  · next d himport hcandidate =>
    obtain rfl := Node.import?_eq_some.1 himport
    obtain ⟨i, rfl⟩ := hplain d List.mem_cons_self
    exact absurd (bindsUppercase_iff.2 hcandidate) (h i rfl)
  · rfl

theorem StatementCalls.makes {ss : List Node} (hplain : ImportsPlain ss)
    (h : StatementCalls oracle options file ss s made ending) :
    (plansFor oracle options file ss).MakesUntil s made ending := by
  induction h with
  | done s => exact (Session.Makes.pure _ s).until
  | kept h _ ih =>
    rw [plansFor, planFor_kept hplain h, pure_bind]
    exact (ih fun d hd => hplain d (List.mem_cons_of_mem _ hd)).map _
  | failed h hcalls =>
    rw [plansFor, planFor_candidate h]
    exact ((hcalls.makes h.hasClause).map some).bind_none
  | candidate h hcalls _ ih =>
    rw [plansFor, planFor_candidate h]
    apply ((hcalls.makes h.hasClause).map some).bind
    intro plan
    exact (ih fun d hd => hplain d (List.mem_cons_of_mem _ hd)).map _

end plans

/-- Plain imports can be read, so that the gate only refuses where none is of the framework. -/
theorem ImportsPlain.importsFramework {framework : Framework} {ss : List Node}
    (h : ImportsPlain ss) (hnone : ¬ ImportsNone framework ss) : ImportsFramework framework ss := by
  rcases importsFramework_cases framework ss with hnone' | hframework | ⟨e, he⟩
  · exact absurd hnone' hnone
  · exact hframework
  · obtain ⟨b, hb⟩ : ∃ b, (ss.filterMap Node.import?).anyM
        (ImportStatement.isOfFramework framework) = .ok b := by
      apply Node.anyM_ok
      intro d hd
      obtain ⟨i, rfl⟩ := h d (mem_filterMap_import?.1 hd)
      exact ⟨_, isOfFramework_of_specifier i.specifier_toStatement⟩
    rw [hb] at he
    cases he

/-- A module that is refused causes no call. For every other one the calls and the state that is
reached are those for its statements, and nothing fails under the oracle's contract if what is
injected is an import. -/
theorem transform_calls (oracle : Oracle ω σ) (options : Options) (file : String) {ss : List Node}
    (hplain : ImportsPlain ss) (trailing : Option String) (p : Progress σ) :
    let run := (transform oracle options (.sourceModule file (some ss) trailing)).runFrom p
    (Text.ends ".d.ts" file = true ∨ ImportsNone options.framework ss →
      calls run.2.trace = calls p.trace) ∧
    (¬ (Text.ends ".d.ts" file = true ∨ ImportsNone options.framework ss) →
      ∀ made ending, StatementCalls oracle options file ss p.oracle made ending ↔
        calls run.2.trace = calls p.trace ++ made ∧
          (run.1.toOption.map fun _ => run.2.oracle) = ending) ∧
    ∀ Sound Known, oracle.KeepsContract Sound Known → Sound p.oracle →
      Plan.InjectsImports options file → ∃ changed, run.1 = .ok changed := by
  intro run
  refine ⟨fun hgate => ?_, fun hgate => ?_, fun Sound Known hcontract hp hinjects => ?_⟩
  · have hrun : run = _ := transform_runFrom_skipped (isEligible_of_importsNone hgate) p
    rw [hrun]
    simp [calls, Action.isCall]
  · obtain ⟨hfile, hnone⟩ := not_or.1 hgate
    have heligible : Node.isEligible options.framework (.sourceModule file (some ss) trailing) =
        .ok true :=
      isEligible_of_importsFramework (Bool.eq_false_iff.2 hfile)
        (hplain.importsFramework hnone)
    have hrun : ∀ made ending, StatementCalls oracle options file ss p.oracle made ending →
        calls run.2.trace = calls p.trace ++ made ∧
          (run.1.toOption.map fun _ => run.2.oracle) = ending := by
      intro made ending h
      have hplans : run = _ := transform_runFrom_plans heligible hplain.isCandidate_ok p
      rw [hplans]
      exact ((h.makes hplain).map _).eq_of_runFrom
    intro made ending
    refine ⟨hrun made ending, fun h => ?_⟩
    obtain ⟨made', ending', h'⟩ := exists_statementCalls oracle options file ss p.oracle
    obtain ⟨hmade, hending⟩ := hrun made' ending' h'
    rw [hmade] at h
    rw [← List.append_cancel_left h.1, ← h.2, hending]
    exact h'
  · have hplans : (plansFor oracle options file ss).Yields (Sound ·.oracle) fun _ => True :=
      ((hplain.plansFor_yieldsOr hcontract).yields hinjects.not_misfit).mono fun _ _ => trivial
    obtain ⟨changed, q, hrun, -⟩ := hplain.transform_yields hplans trailing p hp
    exact ⟨changed, congrArg Prod.fst hrun⟩

/-- An import of components, of a type and of a value. -/
def cardsImport : PlainImport where
  specifier := "./cards"
  quote := none
  defaultName := none
  clause := some (.named [⟨"Card", none, false⟩, ⟨"Props", none, true⟩, ⟨"Lost", none, false⟩,
    ⟨"width", none, false⟩])
  forTypes := false
  leadingTrivia := none
  sourceText := none

/-- An import of the framework, one of components, the same one for types, and once more inside of
an expression. -/
def cardsStatements : List Node :=
  [PlainImport.toStatement ⟨"react", none, none, some (.namespaceAs "React"), false, none, none⟩,
    cardsImport.toStatement, PlainImport.toStatement { cardsImport with forTypes := true }].map
      ImportStatement.toNode ++
    [.variableStatement [.variableDeclaration "again" (some (.arrow []
      (some cardsImport.toStatement.toNode)))] .constant none]

/-- Hooks that allow every import, wrap components and inject nothing. -/
def givenHooks : Options where
  allowed := some fun _ _ => true
  wrapper := some (.identifier "lazily")
  injected := some fun _ => none

theorem importsPlain_cardsStatements : ImportsPlain cardsStatements := by
  intro d hd
  simp only [cardsStatements, List.map_cons, List.map_nil, List.cons_append, List.nil_append,
    List.mem_cons, List.not_mem_nil, or_false, ImportStatement.toNode_inj] at hd
  rcases hd with rfl | rfl | rfl | hd
  · exact ⟨_, rfl⟩
  · exact ⟨_, rfl⟩
  · exact ⟨_, rfl⟩
  · cases hd

/-- A component, a function whose type cannot be resolved and a value that is not found are asked
for, and the component is wrapped. -/
theorem transform_calls_cards :
    ImportsPlain cardsStatements ∧
      ¬ (Text.ends ".d.ts" "app.tsx" = true ∨ ImportsNone givenHooks.framework cardsStatements) ∧
      StatementCalls Oracle.cardsOracle givenHooks "app.tsx" cardsStatements ()
        [.allowedAsked "./cards" "app.tsx", .exportsAsked "./cards" "app.tsx", .typeAsked "Card",
          .exportsAsked "./cards" "app.tsx", .typeAsked "Lost", .exportsAsked "./cards" "app.tsx",
          .wrapperAsked, .injectedAsked "app.tsx"] (some ()) := by
  have hfile : Text.ends ".d.ts" "app.tsx" = false := by decide
  have hnone : ¬ ImportsNone givenHooks.framework cardsStatements := by
    intro hnone
    obtain ⟨specifier, hspecifier, hne⟩ := hnone _ List.mem_cons_self
    cases hspecifier
    exact hne rfl
  have hgate :
      ¬ (Text.ends ".d.ts" "app.tsx" = true ∨
        ImportsNone givenHooks.framework cardsStatements) := by
    simp [hfile, hnone]
  obtain ⟨-, hcalls, -⟩ := transform_calls Oracle.cardsOracle givenHooks "app.tsx"
    importsPlain_cardsStatements none ⟨[], ()⟩
  have heligible : Node.isEligible givenHooks.framework
      (.sourceModule "app.tsx" (some cardsStatements) none) = .ok true :=
    isEligible_of_importsFramework hfile (importsPlain_cardsStatements.importsFramework hnone)
  have hplans := @transform_runFrom_plans _ _ Oracle.cardsOracle _ _ _ _ heligible
    importsPlain_cardsStatements.isCandidate_ok ⟨[], ()⟩
  simp only [hplans] at hcalls
  exact ⟨importsPlain_cardsStatements, hgate, (hcalls hgate _ _).2 ⟨by decide, rfl⟩⟩

end DeferredImports
