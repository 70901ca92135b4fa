import DeferredImports.Proofs.Contract
import DeferredImports.Proofs.MatchedRuns

/-! Oracles that answer the same question the same way. Main statement: with such an oracle the plan
for an import is the same from every state. -/

namespace DeferredImports

namespace Effect

variable {σ α : Type} {I : σ → Prop}

/-- From every state that keeps an invariant the effect ends the same way, in a state that keeps the
invariant as well. -/
def Steady (x : Effect σ α) (I : σ → Prop) : Prop :=
  ∃ outcome, ∀ s, I s → (x.runFrom s).1 = outcome ∧ I (x.runFrom s).2

/-- An effect is steady if it matches itself from any two states that keep the invariant. -/
theorem steady_iff {x : Effect σ α} : x.Steady I ↔ x.Matches x fun s t => I s ∧ I t := by
  constructor
  · rintro ⟨outcome, h⟩ s t ⟨hs, ht⟩
    obtain ⟨hsoutcome, hskept⟩ := h s hs
    obtain ⟨htoutcome, htkept⟩ := h t ht
    exact ⟨hsoutcome.trans htoutcome.symm, hskept, htkept⟩
  · intro h
    by_cases hstate : ∃ s, I s
    · obtain ⟨s, hs⟩ := hstate
      refine ⟨(x.runFrom s).1, fun t ht => ?_⟩
      obtain ⟨houtcome, -, hkept⟩ := h s t ⟨hs, ht⟩
      exact ⟨houtcome.symm, hkept⟩
    · exact ⟨.error .unfit, fun s hs => absurd ⟨s, hs⟩ hstate⟩

/-- What a steady effect ended with once, it ends with from every state. -/
theorem Steady.yields {x : Effect σ α} (hx : x.Steady I) {a : α} {s s' : σ} (hs : I s)
    (hrun : x.runFrom s = (.ok a, s')) : x.Yields I (· = a) := by
  obtain ⟨outcome, hx⟩ := hx
  have houtcome : Except.ok a = outcome := by
    rw [← (hx s hs).1, hrun]
  intro t ht
  obtain ⟨htoutcome, hkept⟩ := hx t ht
  rw [← houtcome] at htoutcome
  exact ⟨a, (x.runFrom t).2, by rw [← htoutcome], hkept, rfl⟩

theorem Steady.keeps {x : Effect σ α} (hx : x.Steady I) {s s' : σ} (hs : I s)
    {r : Except Failure α} (hrun : x.runFrom s = (r, s')) : I s' := by
  obtain ⟨outcome, hx⟩ := hx
  obtain ⟨-, hkept⟩ := hx s hs
  rwa [hrun] at hkept

end Effect

/-- In a sound state the oracle answers a question as it does in every other one, and its state
stays sound. -/
structure Oracle.IsSteady {ω σ : Type} (oracle : Oracle ω σ) (Sound : σ → Prop) : Prop where
  exports : ∀ specifier file, ∃ outcome, ∀ s, Sound s →
    (oracle.exportsOf specifier file s).outcome = outcome ∧
      Sound (oracle.exportsOf specifier file s).state
  types : ∀ symbol, ∃ outcome, ∀ s, Sound s →
    (oracle.typeOf symbol s).outcome = outcome ∧ Sound (oracle.typeOf symbol s).state

theorem Oracle.panelOracle_isSteady : panelOracle.IsSteady fun _ => True where
  exports _ _ := ⟨_, fun _ hs => ⟨rfl, hs⟩⟩
  types _ := ⟨_, fun _ hs => ⟨rfl, hs⟩⟩

variable {ω σ : Type} {oracle : Oracle ω σ} {Sound : σ → Prop}

namespace Oracle.IsSteady

theorem respects (h : oracle.IsSteady Sound) : oracle.Respects fun s t => Sound s ∧ Sound t where
  exports specifier file s t := by
    rintro ⟨hs, ht⟩
    obtain ⟨outcome, houtcome⟩ := h.exports specifier file
    exact ⟨(houtcome s hs).1.trans (houtcome t ht).1.symm, (houtcome s hs).2, (houtcome t ht).2⟩
  types symbol s t := by
    rintro ⟨hs, ht⟩
    obtain ⟨outcome, houtcome⟩ := h.types symbol
    exact ⟨(houtcome s hs).1.trans (houtcome t ht).1.symm, (houtcome s hs).2, (houtcome t ht).2⟩

/-- Whether an export is a component is told the same way from every state. -/
theorem isComponent (h : oracle.IsSteady Sound) (framework : Framework)
    (specifier name file : String) :
    (oracle.isComponent framework specifier name file).Steady (Sound ·.oracle) :=
  Effect.steady_iff.2 (h.respects.isComponent framework specifier name file)

end Oracle.IsSteady

namespace Plan

open Effect

variable {isComponent : String → Session σ Bool}

theorem defaultComponent_steady (h : ∀ exported, (isComponent exported).Steady (Sound ·.oracle))
    (d : ImportStatement) : (defaultComponent isComponent d).Steady (Sound ·.oracle) :=
  steady_iff.2 (defaultComponent_matches (R := fun s t => Sound s ∧ Sound t)
    (fun exported => steady_iff.1 (h exported)) d)

theorem namedComponent?_steady (h : ∀ exported, (isComponent exported).Steady (Sound ·.oracle))
    (s : Node) : (namedComponent? isComponent s).Steady (Sound ·.oracle) :=
  steady_iff.2 (namedComponent?_matches (R := fun s t => Sound s ∧ Sound t)
    (fun exported => steady_iff.1 (h exported)) s)

/-- The plan for an import is the same from every state. -/
theorem ofImport_steady (h : oracle.IsSteady Sound) (options : Options) (d : ImportStatement)
    (file : String) : (ofImport oracle options d file).Steady (Sound ·.oracle) :=
  steady_iff.2 (ofImport_matches h.respects options d file)

end Plan

end DeferredImports
