import DeferredImports.Proofs.LocalDeclarations

/-! The names that declarations bind, also by patterns, and the declarations of a file under each
name. Main statement: the entries of a local name are those of its declarations where variables of
that name are declared without patterns and once in a statement. -/

namespace DeferredImports

/-- The declarator has an identifier for its name, and no pattern. -/
def ParseTree.namesIdentifier (d : ParseTree) : Bool :=
  (d.child? .name).any fun n => n.type == "identifier"

namespace SourceFile

/-- The names that a pattern binds, in their order: those of the patterns in it, of a property those
of its value. A default value binds nothing. -/
def patternNames (f : SourceFile) (t : ParseTree) : List String :=
  match t.type with
  | "identifier" | "shorthand_property_identifier_pattern" => [f.text t]
  | "object_pattern" | "array_pattern" | "rest_pattern" =>
    t.namedChildren.attach.flatMap fun c => f.patternNames c.1
  | "pair_pattern" =>
    match _h : t.child? .value with
    | none => []
    | some value => f.patternNames value
  | "assignment_pattern" | "object_assignment_pattern" =>
    match _h : t.firstMeaningful? with
    | none => []
    | some target => f.patternNames target
  | _ => []
termination_by sizeOf t
decreasing_by
  · exact ParseTree.sizeOf_lt_of_mem_children (ParseTree.mem_children_of_mem_namedChildren c.2)
  · exact ParseTree.sizeOf_lt_of_child? _h
  · exact ParseTree.sizeOf_lt_of_firstMeaningful? _h

def declaratorNames (f : SourceFile) (d : ParseTree) : List String :=
  ((d.child? .name).map f.patternNames).getD []

/-- The names that a declaration binds, ambient or not: a variable statement those that the patterns
of its declarators bind, and any other declaration its own. -/
def boundNames (f : SourceFile) (t : ParseTree) : List String :=
  if t.type == "ambient_declaration" then
    match _h : t.firstMeaningful? with
    | none => []
    | some inner => f.boundNames inner
  else if t.isVariableStatement then t.declarators.flatMap f.declaratorNames
  else ((t.child? .name).map f.text).toList
termination_by sizeOf t
decreasing_by exact ParseTree.sizeOf_lt_of_firstMeaningful? _h

/-- The parts of a value declaration by the names that they declare: the declarators of a variable
statement, or the declaration as a whole. A function without a name has the empty one. -/
def declaredParts (f : SourceFile) (t : ParseTree) : List (String × ParseTree) :=
  if t.isVariableStatement then
    t.declarators.flatMap fun d => (f.declaratorNames d).map fun name => (name, d)
  else if t.isFunctionDeclaration then [(f.declaredName t, t)]
  else ((t.child? .name).map fun n => (f.text n, t)).toList

/-- What declares a value of the name in some declarations, in their order. -/
def partsIn (f : SourceFile) (name : String) (ts : List ParseTree) : List ParseTree :=
  ((ts.flatMap f.declaredParts).filter fun e => e.1 == name).map Prod.snd

/-- The entries of what declares a name. All functions are one entry at the first of them, with the
signatures that can be called. -/
def entriesOf (f : SourceFile) (functions : List ParseTree) : List ParseTree → List Entry
  | [] => []
  | t :: ts =>
    if t.isFunctionDeclaration then
      f.entry t (ParseTree.callableSignatures functions) ::
        (ts.filter fun u => !u.isFunctionDeclaration).map fun u => f.entry u []
    else f.entry t [] :: f.entriesOf functions ts

/-- The value declarations of a local name at the top level of the file. -/
def valueEntries (f : SourceFile) (name : String) : List Entry :=
  let parts := f.partsIn name f.declaredValues
  f.entriesOf (parts.filter ParseTree.isFunctionDeclaration) parts

/-- Of the declarators in the statement one at most is about the name, and it has an identifier for
it. -/
def NamesPlainly (f : SourceFile) (name : String) (t : ParseTree) : Prop :=
  (∀ d ∈ t.declarators, f.declaredName d = name ∨ name ∈ f.declaratorNames d →
    d.namesIdentifier) ∧
  (t.declarators.filter fun d => f.declaredName d == name).length ≤ 1

instance (f : SourceFile) (name : String) (t : ParseTree) : Decidable (f.NamesPlainly name t) :=
  inferInstanceAs (Decidable (_ ∧ _))

/-- Variables of the name are declared without patterns, and once in a statement. -/
def BindsPlainly (f : SourceFile) (name : String) : Prop :=
  ∀ t ∈ f.declaredValues, t.isVariableStatement → f.NamesPlainly name t

instance (f : SourceFile) (name : String) : Decidable (f.BindsPlainly name) :=
  inferInstanceAs (Decidable (∀ t ∈ f.declaredValues, _ → _))

variable {f : SourceFile} {name : String} {d t : ParseTree}

/-- A declarator with an identifier binds its text. -/
theorem declaratorNames_of_namesIdentifier (h : d.namesIdentifier) :
    f.declaratorNames d = [f.declaredName d] := by
  obtain ⟨n, hn, htype⟩ := (Option.any_eq_true ..).1 h
  have hnames : f.patternNames n = [f.text n] := by
    rw [patternNames, beq_iff_eq.1 htype]
    rfl
  simp only [declaratorNames, declaredName, hn, Option.map_some, Option.getD_some, hnames, textOf]

theorem withoutAmbient?_of_ambient (h : d.type == "ambient_declaration") :
    d.withoutAmbient? = d.firstMeaningful?.bind ParseTree.withoutAmbient? := by
  rw [ParseTree.withoutAmbient?, if_pos h]
  split <;> simp_all

theorem boundNames_of_ambient (h : d.type == "ambient_declaration") :
    f.boundNames d = (d.firstMeaningful?.map f.boundNames).getD [] := by
  rw [boundNames, if_pos h]
  split <;> simp_all

/-- The names that a declaration binds are those of the one inside all ambient ones around it. -/
theorem boundNames_eq (f : SourceFile) (d : ParseTree) :
    f.boundNames d = match d.withoutAmbient? with
      | none => []
      | some t =>
        if t.isVariableStatement then t.declarators.flatMap f.declaratorNames
        else ((t.child? .name).map f.text).toList := by
  induction hsize : sizeOf d using Nat.strongRecOn generalizing d with
  | ind size ih =>
    subst hsize
    by_cases hambient : d.type == "ambient_declaration"
    · rw [boundNames_of_ambient hambient, withoutAmbient?_of_ambient hambient]
      cases hinner : d.firstMeaningful? with
      | none => rfl
      | some inner => exact ih _ (ParseTree.sizeOf_lt_of_firstMeaningful? hinner) inner rfl
    · rw [boundNames, if_neg hambient, ParseTree.withoutAmbient?, if_neg hambient]

/-- Where the declarators that have to do with a name have an identifier, the declaration is read as
declaring the name if it binds it. -/
theorem mem_declaredNames_iff (h : ∀ t ∈ d.withoutAmbient?, t.isVariableStatement →
    ∀ c ∈ t.declarators, f.declaredName c = name ∨ name ∈ f.declaratorNames c →
      c.namesIdentifier) : name ∈ f.declaredNames d ↔ name ∈ f.boundNames d := by
  rw [boundNames_eq, declaredNames]
  cases hinner : d.withoutAmbient? with
  | none => rfl
  | some t =>
    dsimp only
    split
    · next hvariable =>
      rw [List.mem_map, List.mem_flatMap]
      refine exists_congr fun c => and_congr_right fun hc => ?_
      have hnames := h t hinner hvariable c hc
      constructor
      · intro hname
        rw [declaratorNames_of_namesIdentifier (hnames (.inl hname)), hname]
        exact List.mem_singleton_self name
      · intro hname
        rw [declaratorNames_of_namesIdentifier (hnames (.inr hname)), List.mem_singleton] at hname
        exact hname.symm
    · rfl

/-- The declarators of a name that is declared plainly are those with its text. -/
theorem NamesPlainly.filter_declarators (h : f.NamesPlainly name t) :
    ((t.declarators.flatMap fun d => (f.declaratorNames d).map fun name => (name, d)).filter
      fun e => e.1 == name) =
    (t.declarators.filter fun d => f.declaredName d == name).map fun d => (name, d) := by
  have hplain := h.1
  generalize t.declarators = ds at hplain ⊢
  induction ds with
  | nil => rfl
  | cons d ds ih =>
    obtain ⟨hd, hds⟩ := List.forall_mem_cons.1 hplain
    rw [List.flatMap_cons, List.filter_append, ih hds]
    by_cases hname : f.declaredName d = name
    · rw [declaratorNames_of_namesIdentifier (hd (.inl hname)), List.filter_cons_of_pos (by simpa)]
      simp [hname]
    · have hnone : ((f.declaratorNames d).map fun name => (name, d)).filter
          (fun e => e.1 == name) = [] := by
        refine List.filter_eq_nil_iff.2 fun e he => ?_
        obtain ⟨other, hother, rfl⟩ := List.mem_map.1 he
        intro hsame
        obtain rfl : other = name := beq_iff_eq.1 hsame
        rw [declaratorNames_of_namesIdentifier (hd (.inr hother)), List.mem_singleton] at hother
        exact hname hother.symm
      rw [hnone, List.filter_cons_of_neg (by simpa), List.nil_append]

/-- So a variable statement has one entry for each of them. -/
theorem NamesPlainly.filter_variableEntries (h : f.NamesPlainly name t) :
    (f.variableEntries t).filter (fun e => e.1 == name) =
      (t.declarators.filter fun d => f.declaredName d == name).map fun d =>
        (name, f.entry d []) := by
  have hentry : ∀ d ∈ t.declarators.filter fun d => f.declaredName d == name,
      t.declarators.find? (fun e => f.declaredName e == name) = some d := by
    intro d hd
    rw [← List.head?_filter]
    match hfilter : t.declarators.filter fun d => f.declaredName d == name, h.2 with
    | [], _ => simp [hfilter] at hd
    | [e], _ => simpa [hfilter, eq_comm] using hd
  unfold variableEntries
  rw [List.filter_filterMap, ← List.filterMap_eq_map', List.filterMap_filter]
  refine List.filterMap_congr fun d hd => ?_
  by_cases hname : f.declaredName d = name
  · have hfirst := hentry d (List.mem_filter.2 ⟨hd, by simpa using hname⟩)
    simp [hname, hfirst]
  · simp [hname]

theorem isFunctionDeclaration_of_mem_declarators (h : d ∈ t.declarators) :
    d.isFunctionDeclaration = false := by
  have htype := beq_iff_eq.1 (List.mem_filter.1 h).2
  simp [ParseTree.isFunctionDeclaration, htype]

/-- What declares a name in a statement without functions has one entry each. -/
theorem filter_otherEntries (ht : ¬ t.isFunctionDeclaration)
    (h : t.isVariableStatement → f.NamesPlainly name t) :
    (f.otherEntries t).filter (fun e => e.1 == name) =
      ((f.declaredParts t).filter fun e => e.1 == name).map fun e => (name, f.entry e.2 []) := by
  unfold otherEntries declaredParts
  by_cases hvariable : t.isVariableStatement
  · rw [if_pos hvariable, if_pos hvariable, (h hvariable).filter_variableEntries,
      (h hvariable).filter_declarators, List.map_map]
    rfl
  · rw [if_neg hvariable, if_neg hvariable, if_neg ht]
    cases t.child? .name with
    | none => rfl
    | some n =>
      by_cases hname : f.text n = name <;> simp [hname]

/-- Nothing in a statement without functions is a function. -/
theorem not_isFunctionDeclaration_of_mem_declaredParts (ht : ¬ t.isFunctionDeclaration)
    {e : String × ParseTree} (h : e ∈ f.declaredParts t) : e.2.isFunctionDeclaration = false := by
  unfold declaredParts at h
  by_cases hvariable : t.isVariableStatement
  · rw [if_pos hvariable] at h
    obtain ⟨d, hd, he⟩ := List.mem_flatMap.1 h
    obtain ⟨other, -, rfl⟩ := List.mem_map.1 he
    exact isFunctionDeclaration_of_mem_declarators hd
  · rw [if_neg hvariable, if_neg ht] at h
    obtain ⟨n, -, rfl⟩ := Option.map_eq_some_iff.1 (Option.mem_toList.1 h)
    simpa using ht

theorem partsIn_cons (t : ParseTree) (ts : List ParseTree) :
    f.partsIn name (t :: ts) = f.partsIn name [t] ++ f.partsIn name ts := by
  simp [partsIn]

theorem partsIn_function (h : t.isFunctionDeclaration) :
    f.partsIn name [t] = if f.declaredName t = name then [t] else [] := by
  have hparts : f.declaredParts t = [(f.declaredName t, t)] := by
    unfold declaredParts
    rw [if_neg (by simp [not_isVariableStatement h]), if_pos h]
  by_cases hname : f.declaredName t = name <;> simp [partsIn, hparts, hname]

theorem partsIn_cons_of_function (h : t.isFunctionDeclaration) (hname : f.declaredName t = name)
    (ts : List ParseTree) : f.partsIn name (t :: ts) = t :: f.partsIn name ts := by
  rw [partsIn_cons, partsIn_function h, if_pos hname, List.singleton_append]

theorem not_isFunctionDeclaration_of_mem_partsIn (ht : ¬ t.isFunctionDeclaration) :
    ∀ u ∈ f.partsIn name [t], u.isFunctionDeclaration = false := by
  intro u hu
  obtain ⟨e, he, rfl⟩ := List.mem_map.1 hu
  have hmem := (List.mem_filter.1 he).1
  rw [List.flatMap_singleton] at hmem
  exact not_isFunctionDeclaration_of_mem_declaredParts ht hmem

theorem entriesOf_append {functions others ts : List ParseTree}
    (h : ∀ u ∈ others, u.isFunctionDeclaration = false) :
    f.entriesOf functions (others ++ ts) =
      others.map (fun u => f.entry u []) ++ f.entriesOf functions ts := by
  induction others with
  | nil => rfl
  | cons u others ih =>
    obtain ⟨hu, hothers⟩ := List.forall_mem_cons.1 h
    rw [List.cons_append, entriesOf, if_neg (by simp [hu]), ih hothers, List.map_cons,
      List.cons_append]

/-- The entries of a name come from what declares it. The functions are entered at the first of
them, or not at all if one was met before. -/
theorem filter_entriesAfter_eq {functions : List String} {ts : List ParseTree}
    (h : ∀ t ∈ ts, t.isVariableStatement → f.NamesPlainly name t) :
    ((f.entriesAfter functions ts).filter fun e => e.1 == name).map Prod.snd =
      if name ∈ functions then
        ((f.partsIn name ts).filter fun u => !u.isFunctionDeclaration).map fun u => f.entry u []
      else f.entriesOf (f.signaturesOf name) (f.partsIn name ts) := by
  induction ts generalizing functions with
  | nil => split <;> rfl
  | cons t ts ih =>
    obtain ⟨ht, hts⟩ := List.forall_mem_cons.1 h
    rw [partsIn_cons]
    by_cases hfunction : t.isFunctionDeclaration
    · rw [entriesAfter_function hfunction, partsIn_function hfunction]
      by_cases hname : f.declaredName t = name
      · rw [if_pos hname, hname]
        by_cases hmet : name ∈ functions
        · rw [if_pos hmet, if_pos hmet, ih hts, if_pos hmet, List.singleton_append,
            List.filter_cons_of_neg (by simp [hfunction])]
        · rw [if_neg hmet, if_neg hmet, List.filter_cons_of_pos (by simp), List.map_cons, ih hts,
            if_pos List.mem_cons_self, List.singleton_append, entriesOf, if_pos hfunction]
      · rw [if_neg hname, List.nil_append]
        split
        · exact ih hts
        · rw [List.filter_cons_of_neg (by simpa using hname), ih hts]
          simp only [List.mem_cons, Ne.symm hname, false_or]
    · have hparts : ∀ u ∈ f.partsIn name [t], u.isFunctionDeclaration = false :=
        not_isFunctionDeclaration_of_mem_partsIn hfunction
      have hhere : ((f.otherEntries t).filter fun e => e.1 == name).map Prod.snd =
          (f.partsIn name [t]).map fun u => f.entry u [] := by
        rw [filter_otherEntries hfunction ht, partsIn, List.flatMap_singleton, List.map_map,
          List.map_map]
        rfl
      have hkept : (f.partsIn name [t]).filter (fun u => !u.isFunctionDeclaration) =
          f.partsIn name [t] := List.filter_eq_self.2 fun u hu => by simp [hparts u hu]
      rw [entriesAfter_other hfunction, List.filter_append, List.map_append, hhere, ih hts]
      split
      · rw [List.filter_append, hkept, List.map_append]
      · rw [entriesOf_append hparts]

theorem filter_isFunctionDeclaration_partsIn (ts : List ParseTree) :
    (f.partsIn name ts).filter ParseTree.isFunctionDeclaration =
      ts.filter fun t => t.isFunctionDeclaration && f.declaredName t == name := by
  induction ts with
  | nil => rfl
  | cons t ts ih =>
    rw [partsIn_cons, List.filter_append, ih]
    by_cases hfunction : t.isFunctionDeclaration
    · rw [partsIn_function hfunction]
      by_cases hname : f.declaredName t = name <;> simp [hfunction, hname]
    · have hparts : ∀ u ∈ f.partsIn name [t], u.isFunctionDeclaration = false :=
        not_isFunctionDeclaration_of_mem_partsIn hfunction
      have hnone : (f.partsIn name [t]).filter ParseTree.isFunctionDeclaration = [] :=
        List.filter_eq_nil_iff.2 fun u hu => by simp [hparts u hu]
      rw [hnone, List.filter_cons_of_neg (by simp [hfunction]), List.nil_append]

/-- The entries of a local name are those of its declarations, where variables of the name are
declared plainly. -/
theorem BindsPlainly.localEntries (h : f.BindsPlainly name) :
    f.localEntries name = f.valueEntries name := by
  have hsignatures : (f.partsIn name f.declaredValues).filter ParseTree.isFunctionDeclaration =
      f.signaturesOf name := filter_isFunctionDeclaration_partsIn f.declaredValues
  rw [SourceFile.localEntries, filter_entriesAfter_eq h, if_neg List.not_mem_nil, valueEntries,
    hsignatures]

end SourceFile

end DeferredImports
