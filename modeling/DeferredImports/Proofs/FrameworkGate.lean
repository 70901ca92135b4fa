import DeferredImports.Proofs.Contract
import DeferredImports.Proofs.PlainImport
import DeferredImports.Transform

/-! The gate of a transformation: which modules import the framework. Main statements: a module is
refused if none of its imports is of the framework, let through if one is, and fails if the
specifier of an import cannot be read before the first such one. -/

namespace DeferredImports

/-- No import among the statements is of the framework's module. -/
def ImportsNone (framework : Framework) (ss : List Node) : Prop :=
  ∀ d : ImportStatement, d.toNode ∈ ss →
    ∃ specifier, d.specifier = .ok specifier ∧ specifier ≠ framework.moduleSpecifier

/-- Some import among the statements is of the framework's module, and the specifiers of those
before it can be read. -/
def ImportsFramework (framework : Framework) (ss : List Node) : Prop :=
  ∃ before d after, ss = before ++ ImportStatement.toNode d :: after ∧
    d.specifier = .ok framework.moduleSpecifier ∧
    ∀ e : ImportStatement, e.toNode ∈ before → ∃ specifier, e.specifier = .ok specifier

namespace Node

theorem anyM_eq_false {α : Type} {f : α → Except Failure Bool} {xs : List α}
    (h : ∀ x ∈ xs, f x = .ok false) : xs.anyM f = .ok false := by
  induction xs with
  | nil => rfl
  | cons x xs ih =>
    rw [List.anyM, h x List.mem_cons_self]
    exact ih fun y hy => h y (List.mem_cons_of_mem x hy)

theorem anyM_eq_true {α : Type} {f : α → Except Failure Bool} {before after : List α} {x : α}
    (hx : f x = .ok true) (hbefore : ∀ y ∈ before, ∃ b, f y = .ok b) :
    (before ++ x :: after).anyM f = .ok true := by
  induction before with
  | nil =>
    rw [List.nil_append, List.anyM, hx]
    rfl
  | cons y ys ih =>
    obtain ⟨b, hb⟩ := hbefore y List.mem_cons_self
    rw [List.cons_append, List.anyM, hb]
    cases b with
    | true => rfl
    | false => exact ih fun z hz => hbefore z (List.mem_cons_of_mem y hz)

theorem anyM_append {α : Type} {f : α → Except Failure Bool} (xs ys : List α) :
    (xs ++ ys).anyM f = (do if ← xs.anyM f then return true else ys.anyM f) := by
  induction xs with
  | nil => rfl
  | cons x xs ih =>
    rw [List.cons_append, List.anyM, List.anyM, ih]
    rcases f x with e | _ | _ <;> rfl

theorem anyM_eq_of_forall {α : Type} {f : α → Except Failure Bool} {xs : List α} {b : Bool}
    (hne : xs ≠ []) (h : ∀ x ∈ xs, f x = .ok b) : xs.anyM f = .ok b := by
  cases xs with
  | nil => exact absurd rfl hne
  | cons x xs =>
    obtain ⟨hx, hxs⟩ := List.forall_mem_cons.1 h
    cases b with
    | false => exact anyM_eq_false h
    | true =>
      rw [List.anyM, hx]
      rfl

end Node

variable {framework : Framework} {file : String} {ss : List Node} {trailing : Option String}

/-- Whether an import is of the framework's module. -/
def ImportStatement.isOfFramework (framework : Framework) (d : ImportStatement) :
    Except Failure Bool := do
  return (← d.specifier) == framework.moduleSpecifier

theorem isOfFramework_of_specifier {d : ImportStatement} {specifier : String}
    (h : d.specifier = .ok specifier) :
    d.isOfFramework framework = .ok (specifier == framework.moduleSpecifier) := by
  rw [ImportStatement.isOfFramework, h]
  rfl

theorem mem_filterMap_import? {d : ImportStatement} :
    d ∈ ss.filterMap Node.import? ↔ d.toNode ∈ ss := by
  rw [List.mem_filterMap]
  constructor
  · rintro ⟨s, hs, hd⟩
    rwa [← Node.import?_eq_some.1 hd]
  · intro h
    exact ⟨d.toNode, h, rfl⟩

/-- Only the name of a declaration file decides; for every other one its imports do. -/
theorem isEligible_eq :
    Node.isEligible framework (.sourceModule file (some ss) trailing) =
      if Text.ends ".d.ts" file then .ok false
      else (ss.filterMap Node.import?).anyM (ImportStatement.isOfFramework framework) := by
  have hname : (Node.sourceModule file (some ss) trailing).isDeclarationFile =
      .ok (Text.ends ".d.ts" file) := rfl
  rw [Node.isEligible, hname]
  cases Text.ends ".d.ts" file <;> rfl

theorem isEligible_of_importsNone
    (h : Text.ends ".d.ts" file = true ∨ ImportsNone framework ss) :
    Node.isEligible framework (.sourceModule file (some ss) trailing) = .ok false := by
  rw [isEligible_eq]
  rcases h with hd | hnone
  · rw [if_pos hd]
  · have hany : (ss.filterMap Node.import?).anyM (ImportStatement.isOfFramework framework) =
        .ok false := by
      apply Node.anyM_eq_false
      intro d hd
      obtain ⟨specifier, hspecifier, hne⟩ := hnone d (mem_filterMap_import?.1 hd)
      rw [isOfFramework_of_specifier hspecifier, beq_false_of_ne hne]
    rw [hany, ite_self]

theorem isEligible_of_importsFramework (hd : Text.ends ".d.ts" file = false)
    (h : ImportsFramework framework ss) :
    Node.isEligible framework (.sourceModule file (some ss) trailing) = .ok true := by
  obtain ⟨before, d, after, rfl, hspecifier, hbefore⟩ := h
  have hsplit : (before ++ d.toNode :: after).filterMap Node.import? =
      before.filterMap Node.import? ++ d :: after.filterMap Node.import? := by
    rw [List.filterMap_append]
    rfl
  rw [isEligible_eq, hd, hsplit]
  apply Node.anyM_eq_true
  · rw [isOfFramework_of_specifier hspecifier, beq_self_eq_true]
  · intro e he
    obtain ⟨specifier, hspecifier⟩ := hbefore e (mem_filterMap_import?.1 he)
    exact ⟨_, isOfFramework_of_specifier hspecifier⟩

/-- Where all specifiers can be read, the gate decides. -/
theorem isEligible_ok
    (h : ∀ d : ImportStatement, d.toNode ∈ ss → ∃ specifier, d.specifier = .ok specifier) :
    ∃ b, Node.isEligible framework (.sourceModule file (some ss) trailing) = .ok b := by
  have hany : ∃ b, (ss.filterMap Node.import?).anyM (ImportStatement.isOfFramework framework) =
      .ok b := by
    apply Node.anyM_ok
    intro d hd
    obtain ⟨specifier, hspecifier⟩ := h d (mem_filterMap_import?.1 hd)
    exact ⟨_, isOfFramework_of_specifier hspecifier⟩
  obtain ⟨b, hb⟩ := hany
  rw [isEligible_eq, hb]
  split
  · exact ⟨false, rfl⟩
  · exact ⟨b, rfl⟩

/-- Whether an import stands in one statement or in several does not matter to the gate. -/
theorem isEligible_pieces {before after : List Node} {i : PlainImport} {pieces : List PlainImport}
    (hne : pieces ≠ []) (h : ∀ j ∈ pieces, j.specifier = i.specifier) :
    Node.isEligible framework (.sourceModule file
        (some (before ++ pieces.map (fun j => j.toStatement.toNode) ++ after)) trailing) =
      Node.isEligible framework (.sourceModule file
        (some (before ++ [i].map (fun j => j.toStatement.toNode) ++ after)) trailing) := by
  have hmiddle : ∀ js : List PlainImport, js ≠ [] → (∀ j ∈ js, j.specifier = i.specifier) →
      ((js.map fun j => j.toStatement.toNode).filterMap Node.import?).anyM
        (ImportStatement.isOfFramework framework) =
          .ok (i.specifier == framework.moduleSpecifier) := by
    intro js hjs hspecifier
    have himports : (js.map fun j => j.toStatement.toNode).filterMap Node.import? =
        js.map PlainImport.toStatement := by
      rw [List.filterMap_map]
      exact List.filterMap_eq_map ▸ rfl
    rw [himports]
    apply Node.anyM_eq_of_forall (by simpa using hjs)
    intro d hd
    obtain ⟨j, hj, rfl⟩ := List.mem_map.1 hd
    rw [isOfFramework_of_specifier j.specifier_toStatement, hspecifier j hj]
  rw [isEligible_eq, isEligible_eq]
  simp only [List.filterMap_append, Node.anyM_append]
  rw [hmiddle pieces hne h, hmiddle [i] (List.cons_ne_nil i []) fun j hj => by
    rw [List.mem_singleton.1 hj]]

/-- Where the imports do not decide, the specifier of one of them cannot be read. -/
theorem importsFramework_cases (framework : Framework) (ss : List Node) :
    ImportsNone framework ss ∨ ImportsFramework framework ss ∨
      ∃ e, (ss.filterMap Node.import?).anyM (ImportStatement.isOfFramework framework) =
        .error e := by
  induction ss with
  | nil => exact .inl fun d hd => nomatch hd
  | cons s ss ih =>
    cases himport : s.import? with
    | none =>
      have hne : ∀ d : ImportStatement, d.toNode ≠ s := fun d hd => by
        rw [← hd] at himport
        cases himport
      rcases ih with hnone | ⟨before, d, after, rfl, hd, hbefore⟩ | ⟨e, he⟩
      · refine .inl fun d hd => hnone d ?_
        exact (List.mem_cons.1 hd).resolve_left (hne d)
      · refine .inr (.inl ⟨s :: before, d, after, rfl, hd, fun e he => hbefore e ?_⟩)
        exact (List.mem_cons.1 he).resolve_left (hne e)
      · refine .inr (.inr ⟨e, ?_⟩)
        rwa [List.filterMap_cons, himport]
    | some d =>
      obtain rfl := Node.import?_eq_some.1 himport
      cases hspecifier : d.specifier with
      | error e =>
        refine .inr (.inr ⟨e, ?_⟩)
        rw [List.filterMap_cons, himport, List.anyM, ImportStatement.isOfFramework, hspecifier]
        rfl
      | ok specifier =>
        have hread : ∀ e : ImportStatement, e.toNode = d.toNode → e.specifier = .ok specifier :=
          fun e he => by
            have heq : e.toNode.import? = some e := rfl
            rw [he, himport] at heq
            rw [← Option.some.inj heq, hspecifier]
        by_cases hf : specifier = framework.moduleSpecifier
        · refine .inr (.inl ⟨[], d, ss, rfl, by rw [hspecifier, hf], fun e he => nomatch he⟩)
        · rcases ih with hnone | ⟨before, d', after, rfl, hd', hbefore⟩ | ⟨e, he⟩
          · refine .inl fun e he => ?_
            rcases List.mem_cons.1 he with he | he
            · exact ⟨specifier, hread e he, hf⟩
            · exact hnone e he
          · refine .inr (.inl ⟨d.toNode :: before, d', after, rfl, hd', fun e he => ?_⟩)
            rcases List.mem_cons.1 he with he | he
            · exact ⟨specifier, hread e he⟩
            · exact hbefore e he
          · refine .inr (.inr ⟨e, ?_⟩)
            rw [List.filterMap_cons, himport, List.anyM, isOfFramework_of_specifier hspecifier,
              beq_false_of_ne hf]
            exact he

theorem isEligible_error (hd : Text.ends ".d.ts" file = false) (hnone : ¬ ImportsNone framework ss)
    (hframework : ¬ ImportsFramework framework ss) :
    ∃ e, Node.isEligible framework (.sourceModule file (some ss) trailing) = .error e := by
  obtain ⟨e, he⟩ := ((importsFramework_cases framework ss).resolve_left hnone).resolve_left
    hframework
  exact ⟨e, by rw [isEligible_eq, hd]; exact he⟩

theorem anyM_bindsUppercase (bs : List PlainBinding) :
    (bs.map PlainBinding.toNode).anyM Node.bindsUppercase =
      .ok (((bs.filter fun b => !b.forTypes).map PlainBinding.localName).any
        Text.startsUppercase) := by
  induction bs with
  | nil => rfl
  | cons b bs ih =>
    rw [List.map_cons, List.anyM, Node.bindsUppercase, b.isTypeOnly_toNode, b.localName_toNode, ih]
    cases hb : b.forTypes with
    | true =>
      rw [List.filter_cons_of_neg (by simp [hb])]
      rfl
    | false =>
      rw [List.filter_cons_of_pos (by simp [hb]), List.map_cons, List.any_cons]
      simp only [bind, Except.bind, pure, Except.pure]
      cases Text.startsUppercase b.localName <;> rfl

/-- A plain import is a candidate if one of the names that it may defer starts with an uppercase
character. -/
theorem PlainImport.isCandidate_eq (i : PlainImport) :
    i.toStatement.isCandidate = .ok (!i.forTypes && i.deferrable.any Text.startsUppercase) := by
  have hnames : i.deferrable.any Text.startsUppercase =
      (i.defaultName.any Text.startsUppercase || ((i.namedBindings.filter fun b =>
        !b.forTypes).map PlainBinding.localName).any Text.startsUppercase) := by
    cases h : i.defaultName <;> simp [deferrable, h]
  have htypes : i.toStatement.isForTypes = i.forTypes := by
    rcases i with ⟨_, _, _, _, _ | _, _, _⟩ <;> rfl
  simp only [ImportStatement.isCandidate, PlainImport.defaultBinding?_toStatement,
    PlainImport.specifiers_toStatement, anyM_bindsUppercase, htypes, hnames, bind, Except.bind,
    pure, Except.pure]
  cases i.forTypes with
  | true => rfl
  | false =>
    cases hclause : i.toStatement.hasClause with
    | false =>
      have hnone : i.defaultName = none ∧ i.clause = none := by
        simpa [ImportStatement.hasClause, toStatement] using hclause
      simp [namedBindings, hnone.1, hnone.2]
    | true =>
      cases i.defaultName.any Text.startsUppercase <;> rfl

/-- Whether a plain import is a candidate can be told. -/
theorem PlainImport.isCandidate_toStatement (i : PlainImport) :
    ∃ b, i.toStatement.isCandidate = .ok b :=
  ⟨_, i.isCandidate_eq⟩

end DeferredImports
