import DeferredImports.Proofs.NameReading

/-! The declarations of a file under one local name, and the ways to export it. Main statement: a
local name that is exported under some name, and in no other way, stands there for the entries of
its own declarations, which no other declaration of the file has any part in. -/

namespace DeferredImports.SourceFile

/-- The local names that a value declaration enters. A function without a name enters the empty
one. -/
def enteredNames (f : SourceFile) (t : ParseTree) : List String :=
  if t.isVariableStatement then t.declarators.map f.declaredName
  else if t.isFunctionDeclaration then [f.declaredName t]
  else ((t.child? .name).map f.text).toList

/-- The value declarations of a local name at the top level of the file, in their order. -/
def declarationsOf (f : SourceFile) (name : String) : List ParseTree :=
  f.declaredValues.filter fun t => name ∈ f.enteredNames t

variable {f : SourceFile} {name : String}

theorem not_isVariableStatement {t : ParseTree} (h : t.isFunctionDeclaration) :
    t.isVariableStatement = false := by
  simp only [ParseTree.isFunctionDeclaration, List.contains_eq_mem, List.mem_cons,
    List.not_mem_nil, or_false, decide_eq_true_eq] at h
  rcases h with h | h | h <;> simp [ParseTree.isVariableStatement, h]

theorem not_isClass {t : ParseTree} (h : t.isFunctionDeclaration) : t.isClass = false := by
  simp only [ParseTree.isFunctionDeclaration, List.contains_eq_mem, List.mem_cons,
    List.not_mem_nil, or_false, decide_eq_true_eq] at h
  rcases h with h | h | h <;> simp [ParseTree.isClass, h]

theorem not_isVariableStatement_of_isClass {t : ParseTree} (h : t.isClass) :
    t.isVariableStatement = false := by
  simp only [ParseTree.isClass, List.contains_eq_mem, List.mem_cons, List.not_mem_nil, or_false,
    decide_eq_true_eq] at h
  rcases h with h | h | h <;> simp [ParseTree.isVariableStatement, h]

theorem mem_enteredNames_function {t : ParseTree} (h : t.isFunctionDeclaration) :
    name ∈ f.enteredNames t ↔ f.declaredName t = name := by
  unfold enteredNames
  rw [if_neg (by simp [not_isVariableStatement h]), if_pos h, List.mem_singleton, eq_comm]

/-- The signatures of a function are the functions among the declarations of its name. -/
theorem signaturesOf_eq (f : SourceFile) (name : String) :
    f.signaturesOf name = (f.declarationsOf name).filter ParseTree.isFunctionDeclaration := by
  unfold signaturesOf declarationsOf
  rw [List.filter_filter]
  refine List.filter_congr fun t _ => ?_
  by_cases h : t.isFunctionDeclaration
  · rw [Bool.eq_iff_iff]
    simp [h, mem_enteredNames_function h]
  · simp [h]

theorem mem_enteredNames_of_variableEntries {t : ParseTree} {e : String × Entry}
    (ht : t.isVariableStatement) (h : e ∈ f.variableEntries t) : e.1 ∈ f.enteredNames t := by
  obtain ⟨d, hd, hentry⟩ := List.mem_filterMap.1 h
  obtain ⟨first, -, rfl⟩ := Option.map_eq_some_iff.1 hentry
  rw [enteredNames, if_pos ht]
  exact List.mem_map_of_mem hd

/-- The entries of a declaration that is no function, by name. -/
def otherEntries (f : SourceFile) (t : ParseTree) : List (String × Entry) :=
  if t.isVariableStatement then f.variableEntries t
  else ((t.child? .name).map fun n => (f.text n, f.entry t [])).toList

theorem entriesAfter_other {t : ParseTree} (h : ¬ t.isFunctionDeclaration)
    (functions : List String) (ts : List ParseTree) :
    f.entriesAfter functions (t :: ts) = f.otherEntries t ++ f.entriesAfter functions ts := by
  rw [entriesAfter, if_neg h, otherEntries]
  split <;> rfl

theorem entriesAfter_function {t : ParseTree} (h : t.isFunctionDeclaration)
    (functions : List String) (ts : List ParseTree) :
    f.entriesAfter functions (t :: ts) =
      if f.declaredName t ∈ functions then f.entriesAfter functions ts
      else (f.declaredName t,
          f.entry t (ParseTree.callableSignatures (f.signaturesOf (f.declaredName t)))) ::
        f.entriesAfter (f.declaredName t :: functions) ts := by
  rw [entriesAfter, if_pos h]
  simp only [List.contains_eq_mem, decide_eq_true_eq]

theorem mem_enteredNames_of_otherEntries {t : ParseTree} {e : String × Entry}
    (ht : ¬ t.isFunctionDeclaration) (h : e ∈ f.otherEntries t) : e.1 ∈ f.enteredNames t := by
  unfold otherEntries at h
  split at h
  · next hvariable => exact mem_enteredNames_of_variableEntries hvariable h
  · next hvariable =>
    obtain ⟨n, hn, rfl⟩ := Option.map_eq_some_iff.1 (Option.mem_toList.1 h)
    rw [enteredNames, if_neg hvariable, if_neg ht, hn]
    exact List.mem_singleton.2 rfl

/-- Entries under a name come only from declarations that enter it, and which functions with other
names were met does not matter. -/
theorem filter_entriesAfter (ts : List ParseTree) {functions others : List String}
    (h : name ∈ functions ↔ name ∈ others) :
    (f.entriesAfter functions ts).filter (fun e => e.1 == name) =
      (f.entriesAfter others (ts.filter fun t => name ∈ f.enteredNames t)).filter
        fun e => e.1 == name := by
  induction ts generalizing functions others with
  | nil => rfl
  | cons t ts ih =>
    by_cases hfunction : t.isFunctionDeclaration
    · have hentered : name ∈ f.enteredNames t ↔ f.declaredName t = name :=
        mem_enteredNames_function hfunction
      rw [entriesAfter_function hfunction]
      by_cases hname : f.declaredName t = name
      · subst hname
        rw [List.filter_cons_of_pos (by simp [hentered]), entriesAfter_function hfunction]
        -- a function that was met adds its signature to an earlier entry, and no new one
        by_cases hmet : f.declaredName t ∈ functions
        · rw [if_pos hmet, if_pos (h.1 hmet)]
          exact ih h
        · rw [if_neg hmet, if_neg fun hother => hmet (h.2 hother),
            List.filter_cons_of_pos (by simp), List.filter_cons_of_pos (by simp),
            @ih (f.declaredName t :: functions) (f.declaredName t :: others) (by simp)]
      · rw [List.filter_cons_of_neg (by simp [hentered, hname])]
        split
        · exact ih h
        · rw [List.filter_cons_of_neg (by simpa using hname)]
          exact ih (by simp [Ne.symm hname, h])
    · rw [entriesAfter_other hfunction]
      by_cases hentered : name ∈ f.enteredNames t
      · rw [List.filter_cons_of_pos (by simpa using hentered), entriesAfter_other hfunction,
          List.filter_append, List.filter_append, ih h]
      · have hnone : (f.otherEntries t).filter (fun e => e.1 == name) = [] := by
          refine List.filter_eq_nil_iff.2 fun e he hname => hentered ?_
          have hmem := mem_enteredNames_of_otherEntries hfunction he
          rwa [beq_iff_eq.1 hname] at hmem
        rw [List.filter_cons_of_neg (by simpa using hentered), List.filter_append, hnone,
          List.nil_append]
        exact ih h

/-- The entries of a name come from the declarations of the name alone. -/
theorem localEntries_eq (f : SourceFile) (name : String) :
    f.localEntries name = ((f.entriesAfter [] (f.declarationsOf name)).filter
      fun e => e.1 == name).map Prod.snd := by
  unfold localEntries declarationsOf
  rw [filter_entriesAfter _ Iff.rfl]

/-- Functions of one name that was met are entered no more. -/
theorem entriesAfter_eq_nil {functions : List String} {ts : List ParseTree}
    (h : ∀ t ∈ ts, t.isFunctionDeclaration ∧ f.declaredName t ∈ functions) :
    f.entriesAfter functions ts = [] := by
  induction ts with
  | nil => rfl
  | cons t ts ih =>
    obtain ⟨hfunction, hmet⟩ := h t List.mem_cons_self
    rw [entriesAfter_function hfunction, if_pos hmet]
    exact ih fun u hu => h u (List.mem_cons_of_mem t hu)

theorem declaredName_of_mem {t : ParseTree} (ht : t ∈ f.declarationsOf name)
    (h : t.isFunctionDeclaration) : f.declaredName t = name := by
  have hmem := (List.mem_filter.1 ht).2
  rw [decide_eq_true_eq] at hmem
  exact (mem_enteredNames_function h).1 hmem

theorem callableSignatures_ne_nil (first : ParseTree) (others : List ParseTree) :
    ParseTree.callableSignatures (first :: others) ≠ [] := by
  unfold ParseTree.callableSignatures
  dsimp only
  split
  · exact List.cons_ne_nil first others
  · next hempty => simpa using hempty

/-- Functions of one name are one entry, at the first of them, with the signatures that can be
called. -/
theorem localEntries_functions {first : ParseTree} {others : List ParseTree}
    (hdeclarations : f.declarationsOf name = first :: others)
    (h : ∀ t ∈ first :: others, t.isFunctionDeclaration) :
    f.localEntries name = [f.entry first (ParseTree.callableSignatures (first :: others))] := by
  have hname : ∀ t ∈ first :: others, f.declaredName t = name := fun t ht =>
    declaredName_of_mem (hdeclarations ▸ ht) (h t ht)
  have hsignatures : f.signaturesOf name = first :: others := by
    rw [signaturesOf_eq, hdeclarations]
    exact List.filter_eq_self.2 h
  have hrest : f.entriesAfter [name] others = [] := by
    refine entriesAfter_eq_nil fun t ht => ?_
    have hmem := List.mem_cons_of_mem first ht
    exact ⟨h t hmem, List.mem_singleton.2 (hname t hmem)⟩
  rw [localEntries_eq, hdeclarations, entriesAfter_function (h first List.mem_cons_self),
    hname first List.mem_cons_self, if_neg List.not_mem_nil, hsignatures, hrest]
  simp

/-- A declaration that enters the name has an entry under it, unless it is a function. -/
theorem filter_otherEntries_ne_nil {t : ParseTree} (ht : ¬ t.isFunctionDeclaration)
    (h : name ∈ f.enteredNames t) : (f.otherEntries t).filter (fun e => e.1 == name) ≠ [] := by
  unfold enteredNames at h
  unfold otherEntries
  by_cases hvariable : t.isVariableStatement
  · rw [if_pos hvariable] at h ⊢
    obtain ⟨d, hd, rfl⟩ := List.mem_map.1 h
    have hfirst : (t.declarators.find? fun c => f.declaredName c == f.declaredName d).isSome :=
      List.find?_isSome.2 ⟨d, hd, BEq.rfl⟩
    obtain ⟨first, hfirst⟩ := Option.isSome_iff_exists.1 hfirst
    have hentry : (f.declaredName d, f.entry first []) ∈ f.variableEntries t :=
      List.mem_filterMap.2 ⟨d, hd, by simp only [hfirst, Option.map_some]⟩
    exact List.ne_nil_of_mem (List.mem_filter.2 ⟨hentry, BEq.rfl⟩)
  · rw [if_neg hvariable, if_neg ht] at h
    obtain ⟨n, hn, hname⟩ := Option.map_eq_some_iff.1 (Option.mem_toList.1 h)
    rw [if_neg hvariable, hn, Option.map_some, Option.toList_some, hname]
    simp

/-- Declarations of the name have no entry under it only if they are functions that were met. -/
theorem met_of_filter_entriesAfter_eq_nil {functions : List String} {ts : List ParseTree}
    (h : ∀ t ∈ ts, name ∈ f.enteredNames t)
    (hnil : (f.entriesAfter functions ts).filter (fun e => e.1 == name) = []) :
    ∀ t ∈ ts, t.isFunctionDeclaration ∧ name ∈ functions := by
  induction ts with
  | nil => exact List.forall_mem_nil _
  | cons t ts ih =>
    have hentered := h t List.mem_cons_self
    have hrest := fun u hu => h u (List.mem_cons_of_mem t hu)
    by_cases hfunction : t.isFunctionDeclaration
    · have hname := (mem_enteredNames_function hfunction).1 hentered
      rw [entriesAfter_function hfunction, hname] at hnil
      by_cases hmet : name ∈ functions
      · rw [if_pos hmet] at hnil
        exact List.forall_mem_cons.2 ⟨⟨hfunction, hmet⟩, ih hrest hnil⟩
      · rw [if_neg hmet, List.filter_cons_of_pos (by simp)] at hnil
        cases hnil
    · rw [entriesAfter_other hfunction, List.filter_append, List.append_eq_nil_iff] at hnil
      exact absurd hnil.1 (filter_otherEntries_ne_nil hfunction hentered)

theorem mem_enteredNames_of_mem {t : ParseTree} (h : t ∈ f.declarationsOf name) :
    name ∈ f.enteredNames t := by
  simpa using (List.mem_filter.1 h).2

theorem localEntries_ne_nil {t : ParseTree} (h : t ∈ f.declarationsOf name) :
    f.localEntries name ≠ [] := by
  rw [localEntries_eq]
  intro hnil
  have hmet := met_of_filter_entriesAfter_eq_nil (fun _ => mem_enteredNames_of_mem)
    (List.map_eq_nil_iff.1 hnil) t h
  exact List.not_mem_nil hmet.2

/-- A name with a single entry has functions alone, or a single declaration. -/
theorem functions_or_single_of_localEntries {e : Entry} (h : f.localEntries name = [e])
    {d : ParseTree} (hd : d ∈ f.declarationsOf name) :
    (∀ t ∈ f.declarationsOf name, t.isFunctionDeclaration) ∨ f.declarationsOf name = [d] := by
  have hentered : ∀ t ∈ f.declarationsOf name, name ∈ f.enteredNames t := fun _ =>
    mem_enteredNames_of_mem
  rw [localEntries_eq] at h
  have hlength := congrArg List.length h
  rw [List.length_map, List.length_singleton] at hlength
  generalize f.declarationsOf name = ts at hd hentered hlength ⊢
  cases ts with
  | nil => cases hd
  | cons t ts =>
    have hrest := fun u hu => hentered u (List.mem_cons_of_mem t hu)
    by_cases hfunction : t.isFunctionDeclaration
    · have hname := (mem_enteredNames_function hfunction).1 (hentered t List.mem_cons_self)
      rw [entriesAfter_function hfunction, hname, if_neg List.not_mem_nil,
        List.filter_cons_of_pos (by simp), List.length_cons, Nat.add_eq_right,
        List.length_eq_zero_iff] at hlength
      have hmet := met_of_filter_entriesAfter_eq_nil hrest hlength
      exact .inl (List.forall_mem_cons.2 ⟨hfunction, fun u hu => (hmet u hu).1⟩)
    · have hne := filter_otherEntries_ne_nil hfunction (hentered t List.mem_cons_self)
      have hpos := List.length_pos_iff.2 hne
      rw [entriesAfter_other hfunction, List.filter_append, List.length_append] at hlength
      have hnil : (f.entriesAfter [] ts).filter (fun e => e.1 == name) = [] := by
        apply List.length_eq_zero_iff.1
        omega
      have hnone : ts = [] := by
        refine List.eq_nil_iff_forall_not_mem.2 fun u hu => ?_
        exact absurd (met_of_filter_entriesAfter_eq_nil hrest hnil u hu).2 List.not_mem_nil
      subst hnone
      rw [List.mem_singleton.1 hd]
      exact .inr rfl

/-- The exported and the local name in braces. -/
def specifierNames (f : SourceFile) (t : ParseTree) : String × String :=
  let original := f.exportNameOf (t.child? .name)
  (((t.child? .newName).map f.exportName).getD original, original)

/-- The statement exports the local name under the exported one: by a declaration of it, as the
default value, or in braces, which name it under no other local name. -/
inductive ExportsLocal (f : SourceFile) (name exported : String) (statement : ParseTree) : Prop
  | declaration {d : ParseTree} (hd : statement.child? .declaration = some d)
      (hdefault : statement.hasToken "default" = false) (hname : name ∈ f.declaredNames d)
      (he : exported = name)
  | value {v : ParseTree} (hd : statement.child? .declaration = none)
      (hv : statement.child? .value = some v) (hdefault : statement.hasToken "default" = true)
      (hidentifier : v.type = "identifier") (hname : f.text v = name) (he : exported = "default")
  | braces {clause : ParseTree} (hd : statement.child? .declaration = none)
      (hv : statement.child? .value = none) (hs : statement.child? .source = none)
      (hc : statement.namedOfType? "export_clause" = some clause)
      (hnamed : ∃ t ∈ valueSpecifiers clause, (f.specifierNames t).1 = exported)
      (hname : ∀ t ∈ valueSpecifiers clause, (f.specifierNames t).1 = exported →
        (f.specifierNames t).2 = name)

/-- Some statement exports the local name under the exported one, and every statement that exports
anything under it does so. -/
structure IsExportedAs (f : SourceFile) (name exported : String) : Prop where
  stated : ∃ statement ∈ f.root.namedChildren, (f.statementMeaning? exported statement).isSome
  only : ∀ statement ∈ f.root.namedChildren, (f.statementMeaning? exported statement).isSome →
    f.ExportsLocal name exported statement

/-- A last statement that exports the local name is enough where no other exports anything under
the name. -/
theorem isExportedAs_of_last {exported : String} {before : List ParseTree} {statement : ParseTree}
    (hstatements : f.root.namedChildren = before ++ [statement])
    (hnone : ∀ t ∈ before, f.statementMeaning? exported t = none)
    (hsome : (f.statementMeaning? exported statement).isSome)
    (h : f.ExportsLocal name exported statement) : f.IsExportedAs name exported := by
  refine ⟨⟨statement, by simp [hstatements], hsome⟩, fun t ht hmeaning => ?_⟩
  rw [hstatements] at ht
  rcases List.mem_append.1 ht with ht | ht
  · simp [hnone t ht] at hmeaning
  · rw [List.mem_singleton.1 ht]
    exact h

theorem meaningOf_eq (h : f.localEntries name ≠ []) :
    f.meaningOf name = .own (f.localEntries name) := by
  unfold meaningOf
  split
  · next hnil => exact absurd hnil h
  · rfl

/-- What such a statement says of the exported name, if it says anything. -/
theorem ExportsLocal.meaning {exported : String} {statement : ParseTree} {meaning : Meaning}
    (h : f.ExportsLocal name exported statement) (hentries : f.localEntries name ≠ [])
    (hmeaning : f.statementMeaning? exported statement = some meaning) :
    meaning = .own (f.localEntries name) := by
  unfold statementMeaning? at hmeaning
  split at hmeaning
  · cases hmeaning
  cases h with
  | declaration hd hdefault hname he =>
    simp only [hd, hdefault, he, hname, hentries, ne_eq, not_false_eq_true, and_self, if_true,
      Option.some.injEq] at hmeaning
    exact hmeaning.symm
  | value hd hv hdefault hidentifier hname he =>
    simp only [hd, hv, hdefault, defaultMeaning?, he, hidentifier, hname, BEq.rfl, if_true,
      Option.some.injEq] at hmeaning
    rw [← hmeaning, meaningOf_eq hentries]
  | braces hd hv hs hc _ hname =>
    simp only [hd, hv, listedMeaning?, hs, hc] at hmeaning
    obtain ⟨t, ht, hspecifier⟩ := List.exists_of_findSome?_eq_some hmeaning
    unfold specifierMeaning? at hspecifier
    simp only [Option.ite_none_right_eq_some, Option.some.injEq] at hspecifier
    obtain ⟨hexported, hlocal⟩ := hspecifier
    have horiginal : f.exportNameOf (t.child? .name) = name := hname t ht hexported
    rw [← hlocal, horiginal, meaningOf_eq hentries]

/-- A local name with declarations that is exported under a name, and in no other way, stands for
its entries. -/
theorem IsExportedAs.meaning {exported : String} (h : f.IsExportedAs name exported)
    (hentries : f.localEntries name ≠ []) :
    f.explicit? exported = some (.own (f.localEntries name)) := by
  have hsome : (f.explicit? exported).isSome := by
    rw [SourceFile.explicit?, List.findSome?_isSome_iff]
    obtain ⟨statement, hmem, hstatement⟩ := h.stated
    exact ⟨statement, List.mem_reverse.2 hmem, hstatement⟩
  obtain ⟨meaning, hmeaning⟩ := Option.isSome_iff_exists.1 hsome
  obtain ⟨statement, hmem, hstatement⟩ := List.exists_of_findSome?_eq_some hmeaning
  have hexports := h.only statement (List.mem_reverse.1 hmem) (by simp [hstatement])
  rw [hmeaning, hexports.meaning hentries hstatement]

end DeferredImports.SourceFile
