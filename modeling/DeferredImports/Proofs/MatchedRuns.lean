import DeferredImports.Plan
import DeferredImports.Proofs.Runs

/-! Two runs side by side. Main statement: from states that an oracle answers alike, the plan for
an import is the same, and the states after it are answered alike as well. -/

namespace DeferredImports

namespace Effect

variable {σ α β : Type} {R : σ → σ → Prop}

/-- From related states the two effects end the same way, in related states again. -/
def Matches (x y : Effect σ α) (R : σ → σ → Prop) : Prop :=
  ∀ s t, R s t → (x.runFrom s).1 = (y.runFrom t).1 ∧ R (x.runFrom s).2 (y.runFrom t).2

theorem Matches.pure (a : α) : (Pure.pure a : Effect σ α).Matches (Pure.pure a) R :=
  fun _ _ h => ⟨rfl, h⟩

theorem Matches.throw (e : Failure) :
    (MonadExcept.throw e : Effect σ α).Matches (MonadExcept.throw e) R :=
  fun _ _ h => ⟨rfl, h⟩

theorem Matches.ofExcept (x : Except Failure α) :
    (Effect.ofExcept x : Effect σ α).Matches (Effect.ofExcept x) R :=
  fun _ _ h => ⟨rfl, h⟩

/-- Matching effects are followed by matching ones if these match after every value that there can
be. -/
theorem Matches.bind_of {x y : Effect σ α} {f g : α → Effect σ β} {P : α → Prop}
    (hx : x.Matches y R) (hP : x.YieldsOr (fun _ => True) P fun _ => True)
    (hf : ∀ a, P a → (f a).Matches (g a) R) : (x >>= f).Matches (y >>= g) R := by
  intro s t hst
  obtain ⟨houtcome, hstates⟩ := hx s t hst
  rw [runFrom_bind, runFrom_bind]
  rcases hy : y.runFrom t with ⟨outcome, t'⟩
  rw [hy] at houtcome hstates
  rcases hP s trivial with ⟨a, s', hrun, -, ha⟩ | ⟨e, s', hrun, -⟩
  · rw [hrun] at houtcome hstates ⊢
    subst houtcome
    exact hf a ha s' t' hstates
  · rw [hrun] at houtcome hstates ⊢
    subst houtcome
    exact ⟨rfl, hstates⟩

theorem Matches.bind {x y : Effect σ α} {f g : α → Effect σ β} (hx : x.Matches y R)
    (hf : ∀ a, (f a).Matches (g a) R) : (x >>= f).Matches (y >>= g) R :=
  hx.bind_of (yieldsOr_any x) fun a _ => hf a

theorem Matches.symm (hR : Equivalence R) {x y : Effect σ α} (h : x.Matches y R) :
    y.Matches x R := by
  intro s t hst
  obtain ⟨houtcome, hstates⟩ := h t s (hR.symm hst)
  exact ⟨houtcome.symm, hR.symm hstates⟩

theorem Matches.trans (hR : Equivalence R) {x y z : Effect σ α} (h : x.Matches y R)
    (h' : y.Matches z R) : x.Matches z R := by
  intro s t hst
  obtain ⟨houtcome, hstates⟩ := h s t hst
  obtain ⟨houtcome', hstates'⟩ := h' t t (hR.refl t)
  exact ⟨houtcome.trans houtcome', hR.trans hstates hstates'⟩

end Effect

variable {ω σ α : Type} {oracle : Oracle ω σ} {R : σ → σ → Prop}

/-- From related states the oracle gives the same answers, and goes to related states. -/
structure Oracle.Respects (oracle : Oracle ω σ) (R : σ → σ → Prop) : Prop where
  exports : ∀ specifier file s t, R s t →
    (oracle.exportsOf specifier file s).outcome = (oracle.exportsOf specifier file t).outcome ∧
      R (oracle.exportsOf specifier file s).state (oracle.exportsOf specifier file t).state
  types : ∀ symbol s t, R s t →
    (oracle.typeOf symbol s).outcome = (oracle.typeOf symbol t).outcome ∧
      R (oracle.typeOf symbol s).state (oracle.typeOf symbol t).state

/-- Every oracle answers the same from the same state. -/
theorem Oracle.respects_eq (oracle : Oracle ω σ) : oracle.Respects Eq where
  exports _ _ _ _ h := by subst h; exact ⟨rfl, rfl⟩
  types _ _ _ h := by subst h; exact ⟨rfl, rfl⟩

namespace Session

/-- Sessions match if they ask the same questions: what they log may differ. -/
abbrev Matches (x y : Session σ α) (R : σ → σ → Prop) : Prop :=
  Effect.Matches x y (InvImage R Progress.oracle)

theorem equivalence_sameOracle :
    Equivalence (InvImage Eq (Progress.oracle : Progress σ → σ)) :=
  ⟨fun _ => rfl, fun h => Eq.symm h, fun h h' => Eq.trans h h'⟩

/-- What matches a session from the same state of the oracle yields what it yields. -/
theorem Matches.yields {x y : Session σ α} (h : Matches x y Eq) {Sound : σ → Prop} {P : α → Prop}
    (hy : y.Yields (Sound ·.oracle) P) : x.Yields (Sound ·.oracle) P := by
  intro p hp
  obtain ⟨a, p', hrun, hp', ha⟩ := hy p hp
  obtain ⟨houtcome, horacle⟩ := h p p rfl
  rw [hrun] at houtcome horacle
  rcases hx : x.runFrom p with ⟨outcome, q⟩
  rw [hx] at houtcome horacle
  cases houtcome
  have hsame : q.oracle = p'.oracle := horacle
  have hq : Sound q.oracle := by
    rw [hsame]
    exact hp'
  exact ⟨a, q, rfl, hq, ha⟩

theorem Matches.exists_run {x y : Session σ α} (h : Matches x y Eq) {a : α} {p p' : Progress σ}
    (hrun : x.runFrom p = (.ok a, p')) : ∃ q, y.runFrom p = (.ok a, q) := by
  obtain ⟨houtcome, -⟩ := h p p rfl
  rw [hrun] at houtcome
  exact ⟨(y.runFrom p).2, Prod.ext houtcome.symm rfl⟩

theorem matches_act (a b : Action) : Matches (act a : Session σ Unit) (act b) R :=
  fun _ _ h => ⟨rfl, h⟩

theorem matches_act_if (c : Prop) [Decidable c] (a : Action) {x y : Unit → Session σ α}
    (h : Matches (x ()) (y ()) R) :
    Matches (if c then act a >>= x else x ()) (if c then act a >>= y else y ()) R := by
  split
  · exact (matches_act a a).bind fun _ => h
  · exact h

theorem matches_ask {answer : σ → Reply σ α} (question : Action)
    (h : ∀ s t, R s t → (answer s).outcome = (answer t).outcome ∧
      R (answer s).state (answer t).state) :
    Matches (ask question answer) (ask question answer) R := by
  refine (matches_act question question).bind fun _ p q hpq => ?_
  obtain ⟨houtcome, hstates⟩ := h p.oracle q.oracle hpq
  rw [runFrom_take, runFrom_take, houtcome]
  exact ⟨rfl, hstates⟩

end Session

namespace Oracle.Respects

open Effect Session

theorem resolveExport (h : oracle.Respects R) (specifier name file : String) :
    Session.Matches (oracle.resolveExport specifier name file)
      (oracle.resolveExport specifier name file) R := by
  unfold Oracle.resolveExport
  refine (matches_ask _ (h.exports specifier file)).bind fun outcome => ?_
  split
  · exact (matches_act _ _).bind fun _ => .pure _
  · exact .throw _
  · exact (matches_act _ _).bind fun _ => .pure _
  · exact .pure _

theorem isFunctionComponent (h : oracle.Respects R) (framework : Framework)
    (symbol : ExportedSymbol ω) (shape : CallableShape) :
    Session.Matches (oracle.isFunctionComponent framework symbol shape)
      (oracle.isFunctionComponent framework symbol shape) R := by
  unfold Oracle.isFunctionComponent
  refine (Matches.ofExcept _).bind fun parameters => ?_
  split
  · refine (matches_ask _ (h.types symbol)).bind fun outcome => ?_
    split
    · exact (matches_act _ _).bind fun _ => .pure _
    · exact .throw _
    · exact .pure _
    · exact .ofExcept _
  · exact .pure _

/-- Whether an export is a component is told the same way from related states. -/
theorem isComponent (h : oracle.Respects R) (framework : Framework)
    (specifier name file : String) :
    Session.Matches (oracle.isComponent framework specifier name file)
      (oracle.isComponent framework specifier name file) R := by
  unfold Oracle.isComponent
  refine (h.resolveExport specifier name file).bind fun found => ?_
  split
  · exact .pure _
  · split
    · exact .ofExcept _
    · split
      · exact .pure _
      · exact h.isFunctionComponent framework _ _
    · exact (matches_act _ _).bind fun _ => .pure _

end Oracle.Respects

namespace Plan

open Effect Session

variable {isComponent : String → Session σ Bool}

theorem defaultComponent_matches
    (h : ∀ exported, Session.Matches (isComponent exported) (isComponent exported) R)
    (d : ImportStatement) :
    Session.Matches (defaultComponent isComponent d) (defaultComponent isComponent d) R := by
  unfold defaultComponent
  split
  · exact .pure _
  · refine (h defaultExport).bind fun isOne => ?_
    split
    · exact (Matches.ofExcept _).bind fun _ => .pure _
    · exact .pure _

theorem namedComponent?_matches
    (h : ∀ exported, Session.Matches (isComponent exported) (isComponent exported) R) (s : Node) :
    Session.Matches (namedComponent? isComponent s) (namedComponent? isComponent s) R := by
  unfold namedComponent?
  refine (Matches.ofExcept _).bind fun forTypes => ?_
  split
  · exact .pure _
  · refine (Matches.ofExcept _).bind fun exported => (h exported).bind fun isOne => ?_
    split
    · exact (Matches.ofExcept _).bind fun _ => .pure _
    · exact .pure _

theorem namedComponents_matches
    (h : ∀ exported, Session.Matches (isComponent exported) (isComponent exported) R)
    (ss : List Node) :
    Session.Matches (namedComponents isComponent ss) (namedComponents isComponent ss) R := by
  induction ss with
  | nil => exact .pure _
  | cons s ss ih =>
    unfold namedComponents
    exact (namedComponent?_matches h s).bind fun _ => ih.bind fun _ => .pure _

theorem componentsOf_matches (h : oracle.Respects R) (options : Options) (d : ImportStatement)
    (file : String) : Session.Matches (componentsOf oracle options d file)
      (componentsOf oracle options d file) R := by
  unfold componentsOf
  refine (Matches.ofExcept _).bind fun specifier => ?_
  have hone := fun exported => h.isComponent options.framework specifier exported file
  refine (defaultComponent_matches hone d).bind fun default => ?_
  split
  · exact .pure _
  · refine (Matches.ofExcept _).bind fun ss => ?_
    exact (namedComponents_matches hone ss).bind fun _ => .pure _

theorem lazyBindings_matches (options : Options) (d : ImportStatement) (names : List String) :
    Session.Matches (lazyBindings options d names) (lazyBindings options d names) R := by
  induction names with
  | nil => exact .pure _
  | cons name names ih =>
    unfold lazyBindings
    refine (Matches.ofExcept _).bind fun l => ?_
    exact matches_act_if _ _ (ih.bind fun _ => .pure _)

theorem build_matches (options : Options) (d : ImportStatement) (names : List String)
    (file : String) :
    Session.Matches (build options d names file) (build options d names file) R := by
  have hinjected : Session.Matches (askInjected options file) (askInjected options file) R := by
    unfold askInjected
    exact matches_act_if _ _ (.pure _)
  unfold build
  refine (lazyBindings_matches options d names).bind fun constants => ?_
  refine (Matches.ofExcept _).bind fun residual => ?_
  dsimp only
  split
  · exact (Matches.ofExcept _).bind fun _ => (matches_act _ _).bind fun _ => .pure _
  · refine hinjected.bind fun injected => ?_
    split
    · exact .throw _
    · refine (Matches.ofExcept _).bind fun _ => (Matches.ofExcept _).bind fun _ => ?_
      exact (matches_act _ _).bind fun _ => .pure _

/-- The plan for an import is the same from related states. -/
theorem ofImport_matches (h : oracle.Respects R) (options : Options) (d : ImportStatement)
    (file : String) :
    Session.Matches (ofImport oracle options d file) (ofImport oracle options d file) R := by
  unfold ofImport
  split
  · exact .pure _
  refine (Matches.ofExcept _).bind fun specifier => ?_
  apply matches_act_if
  split
  · exact (matches_act _ _).bind fun _ => .pure _
  refine (componentsOf_matches h options d file).bind fun names => ?_
  split
  · exact .pure _
  · exact build_matches options d _ file

end Plan

end DeferredImports
