import DeferredImports.Proofs.StatementPlans
import DeferredImports.Proofs.SteadyOracle

/-! Imports that are split up, one statement for each binding. Main statement: where all names of
values in an import start with an uppercase character, or none does, the same names become lazy;
else, with an oracle that answers the same question the same way, of these names the uppercase
ones. -/

namespace DeferredImports

open Text (startsUppercase)

/-- The name of a constant that calls the lazy member of the framework's root. -/
def Node.lazyName? (framework : Framework) : Node → Option String
  | .variableStatement [.variableDeclaration name (some (.callExpression
      (.propertyAccess (.identifier root) member) _))] .constant _ =>
    if root = framework.rootIdentifier ∧ member = framework.lazyMember then some name else none
  | _ => none

/-- The names of the lazy constants among some statements. -/
def lazyNames (ss : List Node) : List String := ss.filterMap (Node.lazyName? {})

variable {ω σ : Type}

/-- The names of the lazy constants in a module after it is transformed by default. -/
def lazyNamesAfter (oracle : Oracle ω σ) (m : Node) (p : Progress σ) :
    Except Failure (List String) := do
  let changed ← ((transform oracle {} m).runFrom p).1
  return lazyNames (← (changed.getD m).statements)

/-- The names of the lazy constants that stand in place of some statements, one after the other. -/
def lazyNamesFor (oracle : Oracle ω σ) (file : String) : List Node → Session σ (List String)
  | [] => pure []
  | s :: ss => do
    let plan ← planFor oracle {} file s
    let others ← lazyNamesFor oracle file ss
    return lazyNames ((plan.map Plan.statements).getD [s]) ++ others

namespace PlainImport

/-- A new import from the same module. -/
def only (i : PlainImport) (defaultName : Option String) (clause : Option PlainClause) :
    PlainImport :=
  ⟨i.specifier, i.quote, defaultName, clause, false, none, none⟩

/-- The imports of the single bindings, in their order, as newly written. -/
def parts (i : PlainImport) : List PlainImport :=
  (i.defaultName.map fun n => i.only (some n) none).toList ++
    (i.namespaceName.map fun n => i.only none (some (.namespaceAs n))).toList ++
    i.namedBindings.map fun b => i.only none (some (.named [b]))

def withoutLayout (i : PlainImport) : PlainImport :=
  { i with leadingTrivia := none, sourceText := none }

/-- The pieces are the imports of the single bindings, whatever stands around them and however they
were written. -/
def IsSplit (i : PlainImport) (pieces : List PlainImport) : Prop :=
  pieces.map withoutLayout = i.parts

variable {i : PlainImport} {pieces : List PlainImport}

/-- The names of values in an import start alike. -/
def IsUniform (i : PlainImport) : Prop :=
  ∃ case, ∀ n ∈ i.deferrable, startsUppercase n = case

theorem flatMap_valueBindings_parts (i : PlainImport) :
    i.parts.flatMap valueBindings = i.valueBindings := by
  have hnamed : ∀ bs : List PlainBinding,
      (bs.map fun b => i.only none (some (.named [b]))).flatMap valueBindings =
        (bs.filter fun b => !b.forTypes).map fun b => (b.localName, b.exportedName) := by
    intro bs
    induction bs with
    | nil => rfl
    | cons b bs ih =>
      rw [List.map_cons, List.flatMap_cons, ih]
      cases hb : b.forTypes <;> simp [valueBindings, only, namedBindings, hb]
  have hdefault : (i.defaultName.map fun n => i.only (some n) none).toList.flatMap valueBindings =
      (i.defaultName.map fun n => (n, "default")).toList := by
    cases i.defaultName <;> rfl
  have hnamespace : (i.namespaceName.map fun n =>
      i.only none (some (.namespaceAs n))).toList.flatMap valueBindings = [] := by
    cases i.namespaceName <;> rfl
  rw [parts, List.flatMap_append, List.flatMap_append, hdefault, hnamespace, hnamed,
    List.append_nil]
  rfl

/-- The pieces bind the values of the import. -/
theorem IsSplit.valueBindings_eq (h : i.IsSplit pieces) :
    pieces.flatMap valueBindings = i.valueBindings := by
  rw [← flatMap_valueBindings_parts, ← h, List.flatMap_map]
  rfl

/-- Each part is an import of values, from the same module, of one name at most. -/
theorem of_mem_parts {j : PlainImport} (h : j ∈ i.parts) :
    j.forTypes = false ∧ j.specifier = i.specifier ∧ j.IsUniform := by
  rcases List.mem_append.1 h with h | h
  · rcases List.mem_append.1 h with h | h
    · obtain ⟨n, -, rfl⟩ := Option.map_eq_some_iff.1 (Option.mem_toList.1 h)
      exact ⟨rfl, rfl, startsUppercase n, fun m hm => by rw [List.mem_singleton.1 hm]⟩
    · obtain ⟨n, -, rfl⟩ := Option.map_eq_some_iff.1 (Option.mem_toList.1 h)
      exact ⟨rfl, rfl, true, fun m hm => nomatch hm⟩
  · obtain ⟨b, -, rfl⟩ := List.mem_map.1 h
    refine ⟨rfl, rfl, startsUppercase b.localName, fun m hm => ?_⟩
    obtain ⟨c, hc, rfl⟩ := List.mem_map.1 hm
    rw [List.mem_singleton.1 (List.mem_filter.1 hc).1]

theorem IsSplit.of_mem (h : i.IsSplit pieces) {j : PlainImport} (hj : j ∈ pieces) :
    j.forTypes = false ∧ j.specifier = i.specifier ∧ j.IsUniform := by
  have hparts : j.withoutLayout ∈ i.parts := h ▸ List.mem_map_of_mem hj
  exact of_mem_parts (j := j.withoutLayout) hparts

theorem IsSplit.ne_nil (h : i.IsSplit pieces) (hi : i.localNames ≠ []) : pieces ≠ [] := by
  rintro rfl
  have hparts : i.parts = [] := h.symm
  apply hi
  simpa [parts, localNames] using hparts

end PlainImport

variable {oracle : Oracle ω σ} {file : String} {p q : Progress σ}

theorem lazyNamesFor_append (oracle : Oracle ω σ) (file : String) (ss others : List Node) :
    lazyNamesFor oracle file (ss ++ others) = (do
      let names ← lazyNamesFor oracle file ss
      let otherNames ← lazyNamesFor oracle file others
      return names ++ otherNames) := by
  induction ss with
  | nil => simp [lazyNamesFor]
  | cons s ss ih =>
    simp only [List.cons_append, lazyNamesFor, ih, bind_assoc, pure_bind, List.append_assoc]

/-- The lazy constants are those of the plans. -/
theorem lazyNamesFor_eq (oracle : Oracle ω σ) (file : String) (ss : List Node) :
    lazyNamesFor oracle file ss = (do
      let plans ← plansFor oracle {} file ss
      return lazyNames (planned ss plans)) := by
  induction ss with
  | nil => rfl
  | cons s ss ih =>
    simp only [lazyNamesFor, plansFor, ih, bind_assoc, pure_bind]
    congr 1
    funext plan
    congr 1
    funext plans
    rw [planned_cons, lazyNames, lazyNames, lazyNames, List.filterMap_append]

theorem lazyNamesAfter_eq {ss : List Node} {trailing : Option String}
    (he : (Node.sourceModule file (some ss) trailing).isEligible {} = .ok true)
    (oracle : Oracle ω σ) (p : Progress σ) :
    lazyNamesAfter oracle (.sourceModule file (some ss) trailing) p = (do
      let _ ← ss.mapM Node.isCandidate
      ((lazyNamesFor oracle file ss).runFrom p).1) := by
  have heligible : (Node.sourceModule file (some ss) trailing).isEligible
      ({} : Options).framework = .ok true := he
  rw [lazyNamesAfter, transform_runFrom_eligible heligible, lazyNamesFor_eq]
  cases ss.mapM Node.isCandidate with
  | error e => rfl
  | ok flags =>
    show _ = ((plansFor oracle {} file ss >>= fun plans =>
      pure (lazyNames (planned ss plans))).runFrom p).1
    rw [Effect.ofExcept_ok_bind, Effect.runFrom_bind, Effect.runFrom_bind]
    rcases hrun : (plansFor oracle {} file ss).runFrom p with ⟨e | plans, p'⟩
    · rfl
    · have hplans := getD_eq_planned (forall₂_isPlanOf_true hrun) trailing
      show (do
        let ss' ← ((if anyDeferred plans then
          some (Node.sourceModule file (some (planned ss plans)) trailing) else none).getD
            (.sourceModule file (some ss) trailing)).statements
        return lazyNames ss') = .ok (lazyNames (planned ss plans))
      rw [hplans]
      rfl

theorem lazyNames_constants {d : ImportStatement} {names : List String} {constants : List Node}
    (h : List.Forall₂ (Plan.IsLazyConstant ({} : Options).wrapperExpression d) names constants) :
    lazyNames constants = names := by
  induction h with
  | nil => rfl
  | @cons name s names constants hc _ ih =>
    obtain ⟨l, trivia, -, rfl⟩ := hc
    have hname : Node.lazyName? {} (.constantNamed name (some (.call
        ({} : Options).wrapperExpression [.arrow [] (some l)])) trivia) = some name := by
      simp [Node.lazyName?, Node.constantNamed, Node.call, Options.wrapperExpression]
    rw [lazyNames, List.filterMap_cons, hname]
    exact congrArg _ ih

variable {i : PlainImport} {names : List String} {plan : Plan}

theorem Plan.Defers.lazyNames_statements (h : Plan.Defers {} file i names plan)
    (hnames : names ≠ []) : lazyNames plan.statements = names := by
  obtain ⟨constants, hstatements, hconstants⟩ := h.ownStatements_eq hnames
  have hall : plan.statements =
      constants ++ (plan.residual.map ImportStatement.toNode).toList := hstatements
  have hresidual : lazyNames (plan.residual.map ImportStatement.toNode).toList = [] := by
    cases plan.residual <;> rfl
  rw [hall, lazyNames, List.filterMap_append, ← lazyNames, ← lazyNames,
    lazyNames_constants hconstants, hresidual, List.append_nil]

/-- By default all names for which a plan is built become lazy, and nothing is asked. -/
theorem build_lazyNames (file : String) (hnames : names ≠ [])
    (hl : ∀ name ∈ names, ∃ l, Plan.loader i.toStatement name = .ok l) :
    Session.Matches (do
      let plan ← Plan.build {} i.toStatement names file
      return lazyNames plan.statements : Session σ (List String)) (pure names) Eq := by
  intro p q hpq
  have hinjects : Plan.InjectsImports {} file := fun n hn => nomatch hn
  have hbuild := (@Plan.build_yieldsOr σ (· = p.oracle) {} i file names hnames hl).yields
    hinjects.not_misfit
  obtain ⟨plan, p', hrun, hkept, ⟨hbail, -⟩ | hdefers⟩ := hbuild p rfl
  · cases hbail
  · rw [Effect.runFrom_bind_of_ok hrun]
    exact ⟨congrArg Except.ok (hdefers.lazyNames_statements hnames), hkept.trans hpq⟩

/-- The bindings of an import that are classified by default, one after the other. -/
def classifiedIn (oracle : Oracle ω σ) (file specifier : String) (bs : List (String × String)) :
    Session σ (List String) :=
  Plan.classified (oracle.isComponent {} specifier · file) bs

theorem classifiedIn_matches {R : σ → σ → Prop} (h : oracle.Respects R) (file specifier : String)
    (bs : List (String × String)) :
    Session.Matches (classifiedIn oracle file specifier bs)
      (classifiedIn oracle file specifier bs) R := by
  unfold classifiedIn
  induction bs with
  | nil => exact .pure _
  | cons b bs ih =>
    unfold Plan.classified
    exact (h.isComponent {} specifier b.2 file).bind fun _ => ih.bind fun _ => .pure _

/-- The plan that defers some names, if there are any. -/
def plannedNames (i : PlainImport) (file : String) : List String → Session σ Plan
  | [] => pure (Plan.unchanged i.toStatement)
  | names => Plan.build {} i.toStatement names file

theorem planFor_toStatement (oracle : Oracle ω σ) (file : String) (hi : i.forTypes = false) :
    planFor oracle {} file i.toStatement.toNode =
      if i.deferrable.any startsUppercase then
        some <$> Plan.ofImport oracle {} i.toStatement file
      else pure none := by
  have himport : i.toStatement.toNode.import? = some i.toStatement := rfl
  have hcandidate : i.toStatement.toNode.isCandidate =
      .ok (i.deferrable.any startsUppercase) := by
    have h := i.isCandidate_eq
    rw [hi] at h
    exact h
  unfold planFor
  rw [himport, hcandidate]
  cases i.deferrable.any startsUppercase with
  | false => rfl
  | true => rfl

theorem lazyNamesFor_of_not_candidate (oracle : Oracle ω σ) (file : String)
    (hi : i.forTypes = false) (hc : i.deferrable.any startsUppercase = false) :
    lazyNamesFor oracle file [i.toStatement.toNode] = pure [] := by
  rw [lazyNamesFor, planFor_toStatement oracle file hi, hc]
  rfl

/-- A candidate is classified, and then the plan for its components is built. -/
theorem lazyNamesFor_eq_of_candidate (oracle : Oracle ω σ) (file : String)
    (hi : i.forTypes = false) (hc : i.deferrable.any startsUppercase = true) :
    lazyNamesFor oracle file [i.toStatement.toNode] = (do
      let names ← classifiedIn oracle file i.specifier i.valueBindings
      let plan ← plannedNames i file names
      return lazyNames plan.statements) := by
  have hclause : i.toStatement.hasClause = true := by
    apply Plan.hasClause_toStatement
    intro hnil
    have hsub := i.deferrable_sublist.trans i.exportsBound_sublist
    rw [hnil] at hsub
    rw [List.sublist_nil.1 hsub] at hc
    cases hc
  have himport : Plan.ofImport oracle {} i.toStatement file =
      (classifiedIn oracle file i.specifier i.valueBindings >>= plannedNames i file) := by
    rw [Plan.ofImport, hclause, i.specifier_toStatement, Plan.componentsOf_toStatement]
    rfl
  rw [lazyNamesFor, planFor_toStatement oracle file hi, hc, himport, lazyNamesFor]
  simp

/-- Of a candidate all components become lazy, whatever their names are. -/
theorem lazyNamesFor_of_candidate (oracle : Oracle ω σ) (file : String) (hi : i.forTypes = false)
    (hc : i.deferrable.any startsUppercase = true) :
    Session.Matches (lazyNamesFor oracle file [i.toStatement.toNode])
      (classifiedIn oracle file i.specifier i.valueBindings) Eq := by
  have hmatches : Session.Matches (do
      let names ← classifiedIn oracle file i.specifier i.valueBindings
      let plan ← plannedNames i file names
      return lazyNames plan.statements)
      (classifiedIn oracle file i.specifier i.valueBindings >>= pure) Eq := by
    refine (classifiedIn_matches oracle.respects_eq file i.specifier i.valueBindings).bind_of
      (Plan.classified_yieldsOr (fun exported => Effect.yieldsOr_any _) i.valueBindings) ?_
    intro names hsub
    cases names with
    | nil => exact .pure []
    | cons name names =>
      apply build_lazyNames file (List.cons_ne_nil name names)
      intro other hother
      rw [i.map_fst_valueBindings] at hsub
      exact Plan.loader_ok (i.deferrable_sublist.subset (hsub.subset hother))
  rw [lazyNamesFor_eq_of_candidate oracle file hi hc]
  rwa [bind_pure] at hmatches

theorem filter_valueBindings_of_not_candidate (hc : i.deferrable.any startsUppercase = false) :
    i.valueBindings.filter (startsUppercase ·.1) = [] := by
  apply List.filter_eq_nil_iff.2
  intro b hb
  have hname : b.1 ∈ i.deferrable := i.map_fst_valueBindings ▸ List.mem_map_of_mem hb
  exact List.any_eq_false.1 hc b.1 hname

/-- Where the names of values start alike, only uppercase ones need to be classified. -/
theorem lazyNamesFor_of_isUniform (oracle : Oracle ω σ) (file : String) (hi : i.forTypes = false)
    (hu : i.IsUniform) :
    Session.Matches (lazyNamesFor oracle file [i.toStatement.toNode])
      (classifiedIn oracle file i.specifier
        (i.valueBindings.filter (startsUppercase ·.1))) Eq := by
  obtain ⟨case, hcase⟩ := hu
  cases hc : i.deferrable.any startsUppercase with
  | false =>
    rw [lazyNamesFor_of_not_candidate oracle file hi hc, filter_valueBindings_of_not_candidate hc]
    exact .pure []
  | true =>
    obtain ⟨n, hn, hupper⟩ := List.any_eq_true.1 hc
    have hall : i.valueBindings.filter (startsUppercase ·.1) = i.valueBindings := by
      apply List.filter_eq_self.2
      intro b hb
      have hname : b.1 ∈ i.deferrable := i.map_fst_valueBindings ▸ List.mem_map_of_mem hb
      rw [hcase b.1 hname, ← hcase n hn, hupper]
    rw [hall]
    exact lazyNamesFor_of_candidate oracle file hi hc

/-- Of imports from one module whose names start alike in each, the uppercase names are classified,
one after the other. -/
theorem lazyNamesFor_pieces (oracle : Oracle ω σ) (file specifier : String)
    {pieces : List PlainImport}
    (h : ∀ j ∈ pieces, j.forTypes = false ∧ j.specifier = specifier ∧ j.IsUniform) :
    Session.Matches (lazyNamesFor oracle file (pieces.map fun j => j.toStatement.toNode))
      (classifiedIn oracle file specifier
        ((pieces.flatMap PlainImport.valueBindings).filter (startsUppercase ·.1))) Eq := by
  induction pieces with
  | nil => exact .pure []
  | cons j pieces ih =>
    obtain ⟨⟨htypes, rfl, hu⟩, hothers⟩ := List.forall_mem_cons.1 h
    have hsplit : (j :: pieces).map (fun j => j.toStatement.toNode) =
        [j.toStatement.toNode] ++ pieces.map fun j => j.toStatement.toNode := rfl
    rw [hsplit, lazyNamesFor_append, List.flatMap_cons, List.filter_append, classifiedIn,
      Plan.classified_append]
    refine (lazyNamesFor_of_isUniform oracle file htypes hu).bind fun names => ?_
    exact (ih hothers).bind fun others => .pure (names ++ others)

/-- The pieces of an import make the uppercase names of its components lazy. -/
theorem PlainImport.IsSplit.lazyNamesFor_matches {pieces : List PlainImport}
    (h : i.IsSplit pieces) (oracle : Oracle ω σ) (file : String) :
    Session.Matches (lazyNamesFor oracle file (pieces.map fun j => j.toStatement.toNode))
      (classifiedIn oracle file i.specifier
        (i.valueBindings.filter (startsUppercase ·.1))) Eq := by
  rw [← h.valueBindings_eq]
  exact lazyNamesFor_pieces oracle file i.specifier fun j hj => h.of_mem hj

theorem lazyNamesFor_matches {R : σ → σ → Prop} (h : oracle.Respects R) (file : String)
    (ss : List Node) :
    Session.Matches (lazyNamesFor oracle file ss) (lazyNamesFor oracle file ss) R := by
  induction ss with
  | nil => exact .pure []
  | cons s ss ih =>
    have hplan : Session.Matches (planFor oracle {} file s) (planFor oracle {} file s) R := by
      unfold planFor
      split
      · exact (Plan.ofImport_matches h {} _ file).bind fun plan => .pure (some plan)
      · exact .pure none
    unfold lazyNamesFor
    exact hplan.bind fun plan => ih.bind fun others => .pure _

/-- With a steady oracle, what is classified among some bindings is classified among fewer. -/
theorem classifiedIn_filter_yields {Sound : σ → Prop} (h : oracle.IsSteady Sound)
    {file specifier : String} (keep : String → Bool) {bs : List (String × String)}
    {names : List String} {p p' : Progress σ} (hp : Sound p.oracle)
    (hrun : (classifiedIn oracle file specifier bs).runFrom p = (.ok names, p')) :
    (classifiedIn oracle file specifier (bs.filter (keep ·.1))).Yields (Sound ·.oracle)
      (· = names.filter keep) := by
  induction bs generalizing p names with
  | nil =>
    cases hrun
    exact .pure rfl
  | cons b bs ih =>
    obtain ⟨here, q, hhere, hrun⟩ := Effect.runFrom_bind_eq_ok hrun
    obtain ⟨others, q', hothers, hrun⟩ := Effect.runFrom_bind_eq_ok hrun
    cases hrun
    have hsteady := h.isComponent {} specifier b.2 file
    have hbelow := ih (hsteady.keeps hp hhere) hothers
    cases hkeep : keep b.1 with
    | false =>
      rw [List.filter_cons_of_neg (by simp [hkeep])]
      refine hbelow.mono ?_
      rintro _ rfl
      cases here <;> simp [hkeep]
    | true =>
      rw [List.filter_cons_of_pos (by simp [hkeep])]
      unfold classifiedIn Plan.classified
      refine (hsteady.yields hp hhere).bind_eq ?_
      refine hbelow.bind_eq ?_
      cases here with
      | false => exact .pure rfl
      | true => exact .pure (by simp [hkeep])

/-- From every sound state exactly these names become lazy in place of the statements. -/
def BecomeLazy (oracle : Oracle ω σ) (Sound : σ → Prop) (file : String) (ss : List Node)
    (names : List String) : Prop :=
  (lazyNamesFor oracle file ss).Yields (Sound ·.oracle) (· = names)

theorem BecomeLazy.append {Sound : σ → Prop} {ss others : List Node}
    {names otherNames : List String}
    (h : BecomeLazy oracle Sound file ss names)
    (hothers : BecomeLazy oracle Sound file others otherNames) :
    BecomeLazy oracle Sound file (ss ++ others) (names ++ otherNames) := by
  rw [BecomeLazy, lazyNamesFor_append]
  exact Effect.Yields.bind_eq h (Effect.Yields.bind_eq hothers (.pure rfl))

/-- With a steady oracle, what becomes lazy in one run becomes lazy in all. -/
theorem becomeLazy_of_run {Sound : σ → Prop} (h : oracle.IsSteady Sound) {ss : List Node}
    {names : List String} {p p' : Progress σ} (hp : Sound p.oracle)
    (hrun : (lazyNamesFor oracle file ss).runFrom p = (.ok names, p')) :
    BecomeLazy oracle Sound file ss names ∧ Sound p'.oracle := by
  have hsteady : (lazyNamesFor oracle file ss).Steady (Sound ·.oracle) :=
    Effect.steady_iff.2 (lazyNamesFor_matches h.respects file ss)
  exact ⟨hsteady.yields hp hrun, hsteady.keeps hp hrun⟩

theorem lazyNamesFor_append_eq_ok {ss others : List Node} {names : List String}
    {p p' : Progress σ}
    (hrun : (lazyNamesFor oracle file (ss ++ others)).runFrom p = (.ok names, p')) :
    ∃ first q second, (lazyNamesFor oracle file ss).runFrom p = (.ok first, q) ∧
      (lazyNamesFor oracle file others).runFrom q = (.ok second, p') ∧ first ++ second = names := by
  rw [lazyNamesFor_append] at hrun
  obtain ⟨first, q, hfirst, hrun⟩ := Effect.runFrom_bind_eq_ok hrun
  obtain ⟨second, q', hsecond, hrun⟩ := Effect.runFrom_bind_eq_ok hrun
  cases hrun
  exact ⟨first, q, second, hfirst, hsecond, rfl⟩

/-- What stands around some statements becomes lazy as it does around others. -/
theorem lazyNamesFor_congr {R : σ → σ → Prop} (hR : oracle.Respects R) {ss others : List Node}
    (h : Session.Matches (lazyNamesFor oracle file ss) (lazyNamesFor oracle file others) R)
    (before after : List Node) :
    Session.Matches (lazyNamesFor oracle file (before ++ ss ++ after))
      (lazyNamesFor oracle file (before ++ others ++ after)) R := by
  simp only [lazyNamesFor_append, bind_assoc, pure_bind]
  refine (lazyNamesFor_matches hR file before).bind fun _ => h.bind fun _ => ?_
  exact (lazyNamesFor_matches hR file after).bind fun _ => .pure _

theorem mapM_isCandidate_congr {ss others : List Node} (h : ∀ s ∈ ss, ∃ b, s.isCandidate = .ok b)
    (h' : ∀ s ∈ others, ∃ b, s.isCandidate = .ok b) (before after : List Node) {α : Type}
    (outcome : Except Failure α) :
    (do let _ ← (before ++ ss ++ after).mapM Node.isCandidate; outcome) =
      (do let _ ← (before ++ others ++ after).mapM Node.isCandidate; outcome) := by
  obtain ⟨flags, hflags⟩ := exists_mapM_eq_ok h
  obtain ⟨flags', hflags'⟩ := exists_mapM_eq_ok h'
  simp only [List.mapM_append, hflags, hflags']
  cases before.mapM Node.isCandidate with
  | error e => rfl
  | ok _ => cases after.mapM Node.isCandidate <;> rfl

/-- A module with some imports among its statements. -/
def moduleWith (file : String) (before : List Node) (imports : List PlainImport)
    (after : List Node) (trailing : Option String) : Node :=
  .sourceModule file (some (before ++ imports.map (fun j => j.toStatement.toNode) ++ after))
    trailing

variable {before after : List Node} {trailing : Option String} {pieces : List PlainImport}

theorem isCandidate_ok_of_mem_imports (imports : List PlainImport) :
    ∀ s ∈ imports.map (fun j => j.toStatement.toNode), ∃ b, s.isCandidate = .ok b := by
  intro s hs
  obtain ⟨j, -, rfl⟩ := List.mem_map.1 hs
  exact j.isCandidate_toStatement

/-- With names that start alike the pieces become lazy as the import does. -/
theorem lazyNamesAfter_pieces (hi : i.forTypes = false) (hu : i.IsUniform)
    (hpieces : i.IsSplit pieces)
    (hgate : (moduleWith file before [i] after trailing).isEligible {} = .ok true)
    (hgate' : (moduleWith file before pieces after trailing).isEligible {} = .ok true)
    (hpq : p.oracle = q.oracle) :
    lazyNamesAfter oracle (moduleWith file before pieces after trailing) q =
      lazyNamesAfter oracle (moduleWith file before [i] after trailing) p := by
  have hmiddle : Session.Matches (lazyNamesFor oracle file [i.toStatement.toNode])
      (lazyNamesFor oracle file (pieces.map fun j => j.toStatement.toNode)) Eq :=
    (lazyNamesFor_of_isUniform oracle file hi hu).trans Session.equivalence_sameOracle
      ((hpieces.lazyNamesFor_matches oracle file).symm Session.equivalence_sameOracle)
  obtain ⟨houtcome, -⟩ := lazyNamesFor_congr oracle.respects_eq hmiddle before after p q hpq
  unfold moduleWith
  rw [lazyNamesAfter_eq hgate', lazyNamesAfter_eq hgate, ← houtcome]
  exact mapM_isCandidate_congr (isCandidate_ok_of_mem_imports pieces)
    (isCandidate_ok_of_mem_imports [i]) before after _

variable {Sound : σ → Prop}

/-- With a steady oracle, of the names that an import makes lazy its pieces make the uppercase ones
lazy. -/
theorem PlainImport.IsSplit.becomeLazy (hpieces : i.IsSplit pieces) (hi : i.forTypes = false)
    (hsteady : oracle.IsSteady Sound) (hp : Sound p.oracle) {own : List String} {p' : Progress σ}
    (hown : (lazyNamesFor oracle file [i.toStatement.toNode]).runFrom p = (.ok own, p')) :
    own.Sublist i.deferrable ∧ BecomeLazy oracle Sound file
      (pieces.map fun j => j.toStatement.toNode) (own.filter startsUppercase) := by
  have hmatches := hpieces.lazyNamesFor_matches oracle file
  cases hc : i.deferrable.any startsUppercase with
  | false =>
    rw [lazyNamesFor_of_not_candidate oracle file hi hc] at hown
    cases hown
    rw [filter_valueBindings_of_not_candidate hc] at hmatches
    exact ⟨List.nil_sublist _, hmatches.yields (.pure rfl)⟩
  | true =>
    obtain ⟨r, hrun⟩ := (lazyNamesFor_of_candidate oracle file hi hc).exists_run hown
    constructor
    · have hsub := Plan.classified_yieldsOr (fun exported => Effect.yieldsOr_any
        (oracle.isComponent {} i.specifier exported file)) i.valueBindings p trivial
      rw [← i.map_fst_valueBindings]
      obtain ⟨names, _, hrun', -, hnames⟩ | ⟨e, _, hrun', -⟩ := hsub
      · cases hrun.symm.trans hrun'
        exact hnames
      · cases hrun.symm.trans hrun'
    · exact hmatches.yields (classifiedIn_filter_yields hsteady startsUppercase hp hrun)

/-- With a steady oracle, what becomes lazy in a module with the pieces is what becomes lazy with
the import, without the names in it that are not uppercase. -/
theorem lazyNamesAfter_pieces_of_isSteady (hsteady : oracle.IsSteady Sound)
    (hi : i.forTypes = false) (hpieces : i.IsSplit pieces)
    (hgate : (moduleWith file before [i] after trailing).isEligible {} = .ok true)
    (hgate' : (moduleWith file before pieces after trailing).isEligible {} = .ok true)
    (hp : Sound p.oracle) (hq : Sound q.oracle) {names : List String}
    (hnames : lazyNamesAfter oracle (moduleWith file before [i] after trailing) p = .ok names) :
    ∃ earlier own later, BecomeLazy oracle Sound file before earlier ∧
      BecomeLazy oracle Sound file [i.toStatement.toNode] own ∧
      BecomeLazy oracle Sound file after later ∧ own.Sublist i.deferrable ∧
      names = earlier ++ own ++ later ∧
      lazyNamesAfter oracle (moduleWith file before pieces after trailing) q =
        .ok (earlier ++ own.filter startsUppercase ++ later) := by
  rw [moduleWith, lazyNamesAfter_eq hgate] at hnames
  obtain ⟨flags, hflags, hnames⟩ := exists_of_bind_eq_ok hnames
  -- the run with the import, part by part
  have hrun : (lazyNamesFor oracle file (before ++ [i].map (fun j => j.toStatement.toNode) ++
      after)).runFrom p = (.ok names, _) := Prod.ext hnames rfl
  obtain ⟨front, p₂, later, hfront, hlater, rfl⟩ := lazyNamesFor_append_eq_ok hrun
  obtain ⟨earlier, p₁, own, hearlier, hown, rfl⟩ := lazyNamesFor_append_eq_ok hfront
  obtain ⟨hbefore, hp₁⟩ := becomeLazy_of_run hsteady hp hearlier
  obtain ⟨hjoint, hp₂⟩ := becomeLazy_of_run hsteady hp₁ hown
  obtain ⟨hafter, -⟩ := becomeLazy_of_run hsteady hp₂ hlater
  obtain ⟨hsub, hsplit⟩ := hpieces.becomeLazy hi hsteady hp₁ hown
  refine ⟨earlier, own, later, hbefore, hjoint, hafter, hsub, rfl, ?_⟩
  -- the run with the pieces
  obtain ⟨_, q', hrun', -, rfl⟩ := (hbefore.append hsplit).append hafter q hq
  rw [moduleWith, lazyNamesAfter_eq hgate', mapM_isCandidate_congr
    (isCandidate_ok_of_mem_imports pieces) (isCandidate_ok_of_mem_imports [i]), hflags, hrun']
  rfl

/-- Under the contract a module with plain imports is transformed. -/
theorem lazyNamesAfter_ok {Known : ExportedSymbol ω → Prop}
    (hcontract : oracle.KeepsContract Sound Known) (hplain : ImportsPlain (before ++ after))
    (hgate : (moduleWith file before [i] after trailing).isEligible {} = .ok true)
    (hp : Sound p.oracle) :
    ∃ names, lazyNamesAfter oracle (moduleWith file before [i] after trailing) p = .ok names := by
  have hall : ImportsPlain (before ++ [i].map (fun j => j.toStatement.toNode) ++ after) := by
    intro d hd
    rcases List.mem_append.1 hd with hd | hd
    · rcases List.mem_append.1 hd with hd | hd
      · exact hplain d (List.mem_append_left after hd)
      · exact ⟨i, ImportStatement.toNode_inj.1 (List.mem_singleton.1 hd)⟩
    · exact hplain d (List.mem_append_right before hd)
  have hinjects : Plan.InjectsImports {} file := fun n hn => nomatch hn
  obtain ⟨flags, hflags⟩ := exists_mapM_eq_ok hall.isCandidate_ok
  obtain ⟨plans, p', hrun, -⟩ :=
    (hall.plansFor_yieldsOr hcontract).yields hinjects.not_misfit p hp
  refine ⟨lazyNames
    (planned (before ++ [i].map (fun j => j.toStatement.toNode) ++ after) plans), ?_⟩
  rw [moduleWith, lazyNamesAfter_eq hgate, hflags, lazyNamesFor_eq]
  show ((plansFor oracle {} file _ >>= _).runFrom p).1 = _
  rw [Effect.runFrom_bind_of_ok hrun]
  rfl

/-- An import that gives way to one import for each of its bindings makes the same names lazy with
every oracle, if all its names of values start with an uppercase character or none does. With an
oracle that answers the same question the same way, its pieces make lazy those of the names that
start with an uppercase character, and what stands around them becomes lazy as before. Under the
contract there are such names. -/
theorem split_lazyNames (oracle : Oracle ω σ) (hi : i.forTypes = false)
    (hpieces : i.IsSplit pieces)
    (hgate : (moduleWith file before [i] after trailing).isEligible {} = .ok true)
    (hempty : i.localNames = [] →
      (moduleWith file before pieces after trailing).isEligible {} = .ok true) :
    (i.IsUniform → ∀ p q : Progress σ, p.oracle = q.oracle →
      lazyNamesAfter oracle (moduleWith file before pieces after trailing) q =
        lazyNamesAfter oracle (moduleWith file before [i] after trailing) p) ∧
    ∀ Sound : σ → Prop, oracle.IsSteady Sound → ∀ p q : Progress σ, Sound p.oracle →
      Sound q.oracle →
      (∀ names, lazyNamesAfter oracle (moduleWith file before [i] after trailing) p = .ok names →
        ∃ earlier own later, BecomeLazy oracle Sound file before earlier ∧
          BecomeLazy oracle Sound file [i.toStatement.toNode] own ∧
          BecomeLazy oracle Sound file after later ∧ own.Sublist i.deferrable ∧
          names = earlier ++ own ++ later ∧
          lazyNamesAfter oracle (moduleWith file before pieces after trailing) q =
            .ok (earlier ++ own.filter startsUppercase ++ later)) ∧
      (ImportsPlain (before ++ after) → ∀ Known, oracle.KeepsContract Sound Known → ∃ names,
        lazyNamesAfter oracle (moduleWith file before [i] after trailing) p = .ok names) := by
  have hgate' : (moduleWith file before pieces after trailing).isEligible {} = .ok true := by
    by_cases hnames : i.localNames = []
    · exact hempty hnames
    · rw [← hgate]
      exact isEligible_pieces (hpieces.ne_nil hnames) fun j hj => (hpieces.of_mem hj).2.1
  refine ⟨fun hu p q hpq => lazyNamesAfter_pieces hi hu hpieces hgate hgate' hpq, ?_⟩
  intro Sound hsteady p q hp hq
  constructor
  · intro names hnames
    exact lazyNamesAfter_pieces_of_isSteady hsteady hi hpieces hgate hgate' hp hq hnames
  · intro hplain Known hcontract
    exact lazyNamesAfter_ok hcontract hplain hgate hp

/-- The import of the framework, as in `import * as React from "react";`. -/
def frameworkImport : Node := .importOf (.doubleQuoted "react") none none (some "React")

/-- An import of a component by two names, as in
`import Panel, { default as side } from "./panel";`. -/
def twoNamesImport (first second : String) : PlainImport :=
  ⟨"./panel", some "\"", some first, some (.named [⟨second, some "default", false⟩]), false,
    none, none⟩

/-- A module with some imports after that of the framework. -/
def moduleOfImports (imports : List PlainImport) : Node :=
  moduleWith "app.tsx" [frameworkImport] imports [] none

theorem moduleOfImports_isEligible (imports : List PlainImport) :
    (moduleOfImports imports).isEligible {} = .ok true := by
  apply isEligible_of_importsFramework (by decide)
  exact ⟨[], ⟨.doubleQuoted "react", none, some (.namespaceImport (.identifier "React")),
    some false, none, none⟩, _, rfl, rfl, fun e he => nomatch he⟩

theorem split_lazyNames_panel :
    lazyNamesAfter Oracle.panelOracle (moduleOfImports (twoNamesImport "Panel" "Side").parts)
          ⟨[], ()⟩ =
        lazyNamesAfter Oracle.panelOracle (moduleOfImports [twoNamesImport "Panel" "Side"])
          ⟨[], ()⟩ ∧
      ∃ earlier own later, own.Sublist ["Panel", "side"] ∧
        lazyNamesAfter Oracle.panelOracle (moduleOfImports [twoNamesImport "Panel" "side"])
          ⟨[], ()⟩ = .ok (earlier ++ own ++ later) ∧
        lazyNamesAfter Oracle.panelOracle (moduleOfImports (twoNamesImport "Panel" "side").parts)
          ⟨[], ()⟩ = .ok (earlier ++ own.filter startsUppercase ++ later) := by
  have hsplit (second : String) :
      (twoNamesImport "Panel" second).IsSplit (twoNamesImport "Panel" second).parts := rfl
  have huniform : (twoNamesImport "Panel" "Side").IsUniform := ⟨true, by decide⟩
  have hplain : ImportsPlain ([frameworkImport] ++ []) := by
    intro d hd
    refine ⟨⟨"react", some "\"", none, some (.namespaceAs "React"), false, none, none⟩, ?_⟩
    exact ImportStatement.toNode_inj.1 (List.mem_singleton.1 hd)
  constructor
  · exact (split_lazyNames Oracle.panelOracle rfl (hsplit "Side") (moduleOfImports_isEligible _)
      fun _ => moduleOfImports_isEligible _).1 huniform ⟨[], ()⟩ ⟨[], ()⟩ rfl
  · obtain ⟨-, hsteady⟩ := split_lazyNames Oracle.panelOracle rfl (hsplit "side")
      (moduleOfImports_isEligible _) fun _ => moduleOfImports_isEligible _
    obtain ⟨hpieces, hruns⟩ :=
      hsteady _ Oracle.panelOracle_isSteady ⟨[], ()⟩ ⟨[], ()⟩ trivial trivial
    obtain ⟨names, hnames⟩ := hruns hplain _ Oracle.panelOracle_keepsContract
    obtain ⟨earlier, own, later, -, -, -, hown, rfl, hlazy⟩ := hpieces names hnames
    exact ⟨earlier, own, later, hown, hnames, hlazy⟩

/-- An oracle that knows a component when it is asked for the first time, the third time and so
on. -/
def Oracle.alternatingOracle : Oracle Unit Bool where
  exportsOf _ _ asked :=
    ⟨.ok (if asked then none else some [⟨"default", [panelClass], ()⟩]), [], !asked⟩
  typeOf _ asked := ⟨.ok none, [], asked⟩

/-- An import of the framework that binds no name. -/
def bareImport : PlainImport := ⟨"react", some "\"", none, none, false, none, none⟩

/-- A component with a lowercase name becomes lazy beside one with an uppercase name, and does not
where it stands alone. If the oracle remembers the question for it, an uppercase name may become
lazy by the split only; and without the import of the framework, which binds no name and leaves
nothing where it is split, no name becomes lazy. -/
theorem lazyNamesAfter_twoNamesImport :
    (moduleOfImports [twoNamesImport "Panel" "side"]).isEligible {} = .ok true ∧
      (twoNamesImport "Panel" "side").forTypes = false ∧
      (twoNamesImport "Panel" "side").localNames.Nodup ∧
      lazyNamesAfter Oracle.panelOracle (moduleOfImports [twoNamesImport "Panel" "side"])
        ⟨[], ()⟩ = .ok ["Panel", "side"] ∧
      lazyNamesAfter Oracle.panelOracle (moduleOfImports (twoNamesImport "Panel" "side").parts)
        ⟨[], ()⟩ = .ok ["Panel"] ∧
      lazyNamesAfter Oracle.alternatingOracle (moduleOfImports [twoNamesImport "side" "Panel"])
        ⟨[], false⟩ = .ok ["side"] ∧
      lazyNamesAfter Oracle.alternatingOracle
        (moduleOfImports (twoNamesImport "side" "Panel").parts) ⟨[], false⟩ = .ok ["Panel"] ∧
      lazyNamesAfter Oracle.panelOracle (moduleWith "app.tsx" [] [bareImport]
        [(twoNamesImport "Panel" "Side").toStatement.toNode] none) ⟨[], ()⟩ =
          .ok ["Panel", "Side"] ∧
      lazyNamesAfter Oracle.panelOracle (moduleWith "app.tsx" [] bareImport.parts
        [(twoNamesImport "Panel" "Side").toStatement.toNode] none) ⟨[], ()⟩ = .ok [] := by
  have hbare : (moduleWith "app.tsx" [] [bareImport]
      [(twoNamesImport "Panel" "Side").toStatement.toNode] none).isEligible {} = .ok true := rfl
  refine ⟨moduleOfImports_isEligible _, rfl, by decide, ?_, ?_, ?_, ?_, ?_, rfl⟩
  · rw [moduleOfImports, moduleWith, lazyNamesAfter_eq (moduleOfImports_isEligible _)]
    rfl
  · rw [moduleOfImports, moduleWith, lazyNamesAfter_eq (moduleOfImports_isEligible _)]
    rfl
  · rw [moduleOfImports, moduleWith, lazyNamesAfter_eq (moduleOfImports_isEligible _)]
    rfl
  · rw [moduleOfImports, moduleWith, lazyNamesAfter_eq (moduleOfImports_isEligible _)]
    rfl
  · rw [moduleWith, lazyNamesAfter_eq hbare]
    rfl

end DeferredImports
