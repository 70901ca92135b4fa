import DeferredImports.Proofs.LocalDeclarations
import DeferredImports.Proofs.NestedScopes

/-! Declarations that stand elsewhere, in the same file or in another one. Main statement: what is
read from a declaration, its type included, depends on its tree and the texts in it alone. -/

namespace DeferredImports

namespace SourceFile

mutual

/-- Whether trees in two files differ at most in where they stand. -/
def alike (f g : SourceFile) : ParseTree → ParseTree → Bool
  | ⟨type, isNamed, _, start, stop, children, fields⟩,
      ⟨type', isNamed', _, start', stop', children', fields'⟩ =>
    type == type' && isNamed == isNamed' && f.between start stop == g.between start' stop' &&
      alikeAll f g children children' && fields == fields'

def alikeAll (f g : SourceFile) : List ParseTree → List ParseTree → Bool
  | [], [] => true
  | t :: ts, u :: us => alike f g t u && alikeAll f g ts us
  | _, _ => false

end

def Alike (f g : SourceFile) (t u : ParseTree) : Prop := f.alike g t u

instance (f g : SourceFile) (t u : ParseTree) : Decidable (f.Alike g t u) :=
  inferInstanceAs (Decidable (f.alike g t u = true))

variable {f g : SourceFile} {t u : ParseTree}

theorem alikeAll_iff {ts us : List ParseTree} :
    f.alikeAll g ts us ↔ List.Forall₂ (Alike f g) ts us := by
  induction ts generalizing us with
  | nil => cases us <;> simp [alikeAll]
  | cons t ts ih =>
    cases us with
    | nil => simp [alikeAll]
    | cons u us => simp [alikeAll, ih, Alike]

theorem alike_iff : Alike f g t u ↔ t.type = u.type ∧ t.isNamed = u.isNamed ∧
    f.text t = g.text u ∧ List.Forall₂ (Alike f g) t.children u.children ∧
    t.fields = u.fields := by
  cases t
  cases u
  simp only [Alike, alike, Bool.and_eq_true, alikeAll_iff, beq_iff_eq, text, and_assoc]

namespace Alike

variable (h : Alike f g t u)
include h

theorem type : t.type = u.type := (alike_iff.1 h).1

theorem isNamed : t.isNamed = u.isNamed := (alike_iff.1 h).2.1

theorem text : f.text t = g.text u := (alike_iff.1 h).2.2.1

theorem children : List.Forall₂ (Alike f g) t.children u.children := (alike_iff.1 h).2.2.2.1

theorem fields : t.fields = u.fields := (alike_iff.1 h).2.2.2.2

theorem namedChildren : List.Forall₂ (Alike f g) t.namedChildren u.namedChildren :=
  ParseTree.forall₂_namedChildren h.children fun _ _ hc => hc.isNamed

theorem child? (field : TreeField) : Option.Rel (Alike f g) (t.child? field) (u.child? field) :=
  ParseTree.rel_child? h.children h.fields field

theorem namedOfType? (type : String) :
    Option.Rel (Alike f g) (t.namedOfType? type) (u.namedOfType? type) :=
  forall₂_find? h.namedChildren fun _ _ hc => by rw [hc.type]

theorem firstMeaningful? :
    Option.Rel (Alike f g) t.firstMeaningful? u.firstMeaningful? :=
  ParseTree.rel_firstMeaningful? h.namedChildren fun _ _ hc => hc.type

theorem textOf (field : TreeField) : f.textOf (t.child? field) = g.textOf (u.child? field) := by
  rcases rel_cases (h.child? field) with ⟨ht, hu⟩ | ⟨c, d, ht, hu, hc⟩
  · rw [ht, hu]
    rfl
  · rw [ht, hu]
    exact hc.text

theorem nameOf? (field : TreeField) : f.nameOf? (t.child? field) = g.nameOf? (u.child? field) := by
  unfold SourceFile.nameOf?
  rw [h.textOf field]

theorem isClass : t.isClass = u.isClass := by
  unfold ParseTree.isClass
  rw [h.type]

theorem isFunctionDeclaration : t.isFunctionDeclaration = u.isFunctionDeclaration := by
  unfold ParseTree.isFunctionDeclaration
  rw [h.type]

theorem isFunctionExpression : t.isFunctionExpression = u.isFunctionExpression := by
  unfold ParseTree.isFunctionExpression
  rw [h.type]

theorem isFunctionLike : t.isFunctionLike = u.isFunctionLike := by
  unfold ParseTree.isFunctionLike
  rw [h.isFunctionDeclaration, h.isFunctionExpression, h.type]

theorem isVariableStatement : t.isVariableStatement = u.isVariableStatement := by
  unfold ParseTree.isVariableStatement
  rw [h.type]

theorem parameter : f.parameter t = g.parameter u := by
  unfold SourceFile.parameter
  rcases rel_cases (h.child? .pattern) with ⟨ht, hu⟩ | ⟨c, d, ht, hu, hc⟩
  · rw [ht, hu]
    exact congrArg Node.parameter h.text
  · rw [ht, hu]
    exact congrArg Node.parameter hc.text

theorem parameterList? : Option.Rel (Alike f g) t.parameterList? u.parameterList? :=
  rel_or (h.child? .parameters) (h.namedOfType? "formal_parameters")

theorem parameters : f.parameters t = g.parameters u := by
  unfold SourceFile.parameters
  rcases rel_cases (h.child? .parameter) with ⟨ht, hu⟩ | ⟨c, d, ht, hu, hc⟩
  · rw [ht, hu]
    dsimp only
    rcases rel_cases h.parameterList? with ⟨ht, hu⟩ | ⟨ps, qs, ht, hu, hps⟩
    · rw [ht, hu]
    · rw [ht, hu]
      refine map_eq_of_forall₂ (forall₂_filter hps.namedChildren ?_) fun _ _ hc => hc.parameter
      intro c d hc
      unfold ParseTree.isParameter
      rw [hc.type]
  · rw [ht, hu]
    dsimp only
    rw [hc.text]

theorem otherExpression : f.otherExpression t = g.otherExpression u := by
  unfold SourceFile.otherExpression
  rw [h.type, h.text]

end Alike

theorem expression_eq (f : SourceFile) (t : ParseTree) : f.expression t =
    if t.type == "identifier" then .identifier (f.text t)
    else if t.type == "member_expression" then
      ((t.child? .object).map fun object =>
        Node.propertyAccess (f.expression object) (f.textOf (t.child? .property))).getD
          (f.otherExpression t)
    else if t.type == "arrow_function" then .arrowFunction (some (f.parameters t)) none
    else if t.isFunctionExpression then
      .functionExpression (f.nameOf? (t.child? .name)) (some (f.parameters t))
    else if t.type == "parenthesized_expression" then
      (t.firstMeaningful?.map fun inner => Node.parenthesized (f.expression inner)).getD
        (f.otherExpression t)
    else f.otherExpression t := by
  rw [expression]
  generalize t.child? .object = object
  generalize t.firstMeaningful? = inner
  cases object <;> cases inner <;> rfl

theorem valueType_eq (f : SourceFile) (t : ParseTree) : f.valueType t =
    if t.type == "variable_declarator" then
      ((t.child? .type).map f.annotatedType).getD
        (((t.child? .value).map f.valueType).getD ⟨"any", []⟩)
    else if t.isClass then f.classType t
    else if t.type == "parenthesized_expression" then
      (t.firstMeaningful?.map f.valueType).getD ⟨t.type, []⟩
    else if t.isFunctionLike then ⟨"function", [f.callSignature t]⟩
    else ⟨t.type, []⟩ := by
  rw [valueType]
  generalize t.child? .type = written
  generalize t.child? .value = value
  generalize t.firstMeaningful? = inner
  cases written <;> cases value <;> cases inner <;> rfl

namespace Alike

theorem expression (h : Alike f g t u) : f.expression t = g.expression u := by
  induction hn : sizeOf t using Nat.strongRecOn generalizing t u with
  | ind n ih =>
    subst hn
    have hobject : ((t.child? .object).map fun object =>
          Node.propertyAccess (f.expression object) (f.textOf (t.child? .property))) =
        (u.child? .object).map fun object =>
          Node.propertyAccess (g.expression object) (g.textOf (u.child? .property)) :=
      map_eq_of_rel (h.child? .object) fun c d hc halike => by
        rw [ih _ (ParseTree.sizeOf_lt_of_child? hc) halike rfl, h.textOf .property]
    have hinner : (t.firstMeaningful?.map fun inner => Node.parenthesized (f.expression inner)) =
        u.firstMeaningful?.map fun inner => Node.parenthesized (g.expression inner) :=
      map_eq_of_rel h.firstMeaningful? fun c d hc halike => by
        rw [ih _ (ParseTree.sizeOf_lt_of_firstMeaningful? hc) halike rfl]
    rw [expression_eq, expression_eq, hobject, hinner, h.type, h.text, h.isFunctionExpression,
      h.parameters, h.nameOf? .name, h.otherExpression]

/-- The extended types of a class are those of the class elsewhere. -/
theorem addExtended (h : Alike f g t u) (types : List Node) :
    f.addExtended types t = g.addExtended types u := by
  have harguments : t.namedChildren.map f.text = u.namedChildren.map g.text :=
    map_eq_of_forall₂ h.namedChildren fun _ _ hc => hc.text
  unfold SourceFile.addExtended
  rw [h.type, h.expression, harguments]

theorem heritageClause? (h : Alike f g t u) : f.heritageClause? t = g.heritageClause? u := by
  have hextended : t.namedChildren.foldl f.addExtended [] =
      u.namedChildren.foldl g.addExtended [] := by
    refine List.rel_foldl (P := Eq) ?_ rfl h.namedChildren
    rintro types _ rfl c d hc
    exact hc.addExtended types
  have himplemented : (t.namedChildren.map fun c =>
        Node.expressionWithTypeArguments (f.otherExpression c) (some [])) =
      u.namedChildren.map fun c =>
        Node.expressionWithTypeArguments (g.otherExpression c) (some []) :=
    map_eq_of_forall₂ h.namedChildren fun _ _ hc => by rw [hc.otherExpression]
  unfold SourceFile.heritageClause?
  rw [h.type, hextended, himplemented]

theorem classDeclaration (h : Alike f g t u) : f.classDeclaration t = g.classDeclaration u := by
  have hheritage : List.Forall₂ (Alike f g)
      (t.namedChildren.filter fun c => c.type == "class_heritage")
      (u.namedChildren.filter fun c => c.type == "class_heritage") :=
    forall₂_filter h.namedChildren fun _ _ hc => by rw [hc.type]
  have hclauses : ((t.namedChildren.filter fun c => c.type == "class_heritage").flatMap
        fun c => c.namedChildren.filterMap f.heritageClause?) =
      (u.namedChildren.filter fun c => c.type == "class_heritage").flatMap
        fun c => c.namedChildren.filterMap g.heritageClause? := by
    rw [List.flatMap_def, List.flatMap_def]
    refine congrArg List.flatten (map_eq_of_forall₂ hheritage fun c d hc => ?_)
    exact filterMap_eq_of_forall₂ hc.namedChildren fun _ _ hd => hd.heritageClause?
  unfold SourceFile.classDeclaration
  dsimp only
  rw [h.nameOf? .name, hclauses]

theorem declaration (h : Alike f g t u) : f.declaration t = g.declaration u := by
  have hvalue : (t.child? .value).map f.expression = (u.child? .value).map g.expression :=
    map_eq_of_rel (h.child? .value) fun _ _ _ hc => hc.expression
  unfold SourceFile.declaration
  rw [h.isClass, h.classDeclaration, h.isFunctionDeclaration, h.nameOf? .name, h.parameters,
    h.type, h.textOf .name, hvalue]

theorem exists_mem {ts us : List ParseTree} (h : List.Forall₂ (Alike f g) ts us)
    (ht : t ∈ ts) : ∃ u ∈ us, Alike f g t u :=
  exists_of_mem_forall₂ h ht

theorem refilled (h : Alike f g t u) : t.Refilled u := by
  induction hn : sizeOf t using Nat.strongRecOn generalizing t u with
  | ind n ih =>
    subst hn
    refine .node h.type h.isNamed h.fields (forall₂_of_mem h.children fun c hc d hcd => ?_)
    exact ih _ (ParseTree.sizeOf_lt_of_mem_children hc) hcd rfl

theorem returnType? (h : Alike f g t u) : f.returnType? t = g.returnType? u := by
  rcases rel_cases (h.child? .returnType) with ⟨ht, -⟩ | ⟨c, d, ht, hu, hc⟩
  · exact returnType?_eq_of_refilledBelow ⟨h.fields, h.children.imp fun _ _ hc => hc.refilled⟩ ht
  · unfold SourceFile.returnType?
    rw [ht, hu]
    dsimp only
    rw [hc.text]

theorem callSignature (h : Alike f g t u) : f.callSignature t = g.callSignature u := by
  unfold SourceFile.callSignature
  rw [h.parameters, h.returnType?]

theorem annotatedType (h : Alike f g t u) : f.annotatedType t = g.annotatedType u := by
  have hmeaningful : Alike f g (t.firstMeaningful?.getD t) (u.firstMeaningful?.getD u) := by
    rcases rel_cases h.firstMeaningful? with ⟨ht, hu⟩ | ⟨c, d, ht, hu, hc⟩
    · rw [ht, hu]
      exact h
    · rw [ht, hu]
      exact hc
  unfold SourceFile.annotatedType
  dsimp only
  rw [hmeaningful.text, hmeaningful.type, hmeaningful.callSignature]

theorem valueType (h : Alike f g t u) : f.valueType t = g.valueType u := by
  induction hn : sizeOf t using Nat.strongRecOn generalizing t u with
  | ind n ih =>
    subst hn
    have hwritten : (t.child? .type).map f.annotatedType =
        (u.child? .type).map g.annotatedType :=
      map_eq_of_rel (h.child? .type) fun _ _ _ hc => hc.annotatedType
    have hvalue : (t.child? .value).map f.valueType = (u.child? .value).map g.valueType :=
      map_eq_of_rel (h.child? .value) fun _ _ hc halike =>
        ih _ (ParseTree.sizeOf_lt_of_child? hc) halike rfl
    have hinner : t.firstMeaningful?.map f.valueType = u.firstMeaningful?.map g.valueType :=
      map_eq_of_rel h.firstMeaningful? fun _ _ hc halike =>
        ih _ (ParseTree.sizeOf_lt_of_firstMeaningful? hc) halike rfl
    have hclass : f.classType t = g.classType u := by
      unfold SourceFile.classType
      rw [h.nameOf? .name]
    rw [valueType_eq, valueType_eq, hwritten, hvalue, hinner, hclass, h.type, h.isClass,
      h.isFunctionLike, h.callSignature]

theorem declaredType (h : Alike f g t u) {signatures others : List ParseTree}
    (hs : List.Forall₂ (Alike f g) signatures others) :
    f.declaredType t signatures = g.declaredType u others := by
  have hcalls : signatures.map f.callSignature = others.map g.callSignature :=
    map_eq_of_forall₂ hs fun _ _ hc => hc.callSignature
  unfold SourceFile.declaredType
  rw [h.isFunctionLike, isEmpty_eq_of_forall₂ hs, hcalls, h.valueType]

end Alike

/-- Entries in two files of declarations that differ at most in where they stand. -/
structure EntryAlike (f g : SourceFile) (e e' : Entry) : Prop where
  declaration : e.declaration = e'.declaration
  node : Alike f g e.origin.node e'.origin.node
  signatures : List.Forall₂ (Alike f g) e.origin.signatures e'.origin.signatures
  file : e.origin.file = f.path ∧ e'.origin.file = g.path

theorem Alike.entry (h : Alike f g t u) {signatures others : List ParseTree}
    (hs : List.Forall₂ (Alike f g) signatures others) :
    EntryAlike f g (f.entry t signatures) (g.entry u others) :=
  ⟨h.declaration, h, hs, rfl, rfl⟩

/-- Entries under the same name. -/
def NamedAlike (f g : SourceFile) (e e' : String × Entry) : Prop :=
  e.1 = e'.1 ∧ EntryAlike f g e.2 e'.2

theorem Alike.variableEntries (h : Alike f g t u) :
    List.Forall₂ (NamedAlike f g) (f.variableEntries t) (g.variableEntries u) := by
  have hdeclarators : List.Forall₂ (Alike f g) t.declarators u.declarators :=
    forall₂_filter h.namedChildren fun _ _ hc => by rw [hc.type]
  refine List.rel_filterMap (fun d e hd => ?_) hdeclarators
  have hname : f.declaredName d = g.declaredName e := hd.textOf .name
  have hfirst : Option.Rel (Alike f g)
      (t.declarators.find? fun c => f.declaredName c == f.declaredName d)
      (u.declarators.find? fun c => g.declaredName c == g.declaredName e) := by
    refine forall₂_find? hdeclarators fun a b hab => ?_
    have hab : f.declaredName a = g.declaredName b := hab.textOf .name
    rw [hab, hname]
  rcases rel_cases hfirst with ⟨ht, hu⟩ | ⟨a, b, ht, hu, hab⟩
  · simp only [ht, hu, Option.map_none]
    exact .none
  · simp only [ht, hu, Option.map_some]
    exact .some ⟨hname, hab.entry .nil⟩

theorem Alike.otherEntries (h : Alike f g t u) :
    List.Forall₂ (NamedAlike f g) (f.otherEntries t) (g.otherEntries u) := by
  unfold SourceFile.otherEntries
  rw [h.isVariableStatement]
  split
  · exact h.variableEntries
  · rcases rel_cases (h.child? .name) with ⟨ht, hu⟩ | ⟨c, d, ht, hu, hc⟩
    · rw [ht, hu]
      exact .nil
    · rw [ht, hu]
      exact .cons ⟨hc.text, h.entry .nil⟩ .nil

theorem callableSignatures_alike {signatures others : List ParseTree}
    (h : List.Forall₂ (Alike f g) signatures others) :
    List.Forall₂ (Alike f g) (ParseTree.callableSignatures signatures)
      (ParseTree.callableSignatures others) := by
  have hoverloads : List.Forall₂ (Alike f g)
      (signatures.filter fun s => s.type == "function_signature")
      (others.filter fun s => s.type == "function_signature") :=
    forall₂_filter h fun _ _ hc => by rw [hc.type]
  unfold ParseTree.callableSignatures
  dsimp only
  rw [isEmpty_eq_of_forall₂ hoverloads]
  split
  · exact h
  · exact hoverloads

/-- Declarations of one name are entered alike in both files. -/
theorem entriesAfter_alike {name : String}
    (hsignatures : List.Forall₂ (Alike f g) (f.signaturesOf name) (g.signaturesOf name))
    {ts us : List ParseTree} (h : List.Forall₂ (Alike f g) ts us)
    (hname : ∀ t ∈ ts, t.isFunctionDeclaration → f.declaredName t = name)
    (functions : List String) :
    List.Forall₂ (NamedAlike f g) (f.entriesAfter functions ts) (g.entriesAfter functions us) := by
  induction h generalizing functions with
  | nil => exact .nil
  | @cons t u ts us htu _ ih =>
    have hrest := ih fun c hc => hname c (List.mem_cons_of_mem t hc)
    by_cases hfunction : t.isFunctionDeclaration
    · have ht := hname t List.mem_cons_self hfunction
      have hu : g.declaredName u = name := by
        rw [← ht]
        exact (htu.textOf .name).symm
      rw [entriesAfter_function hfunction,
        entriesAfter_function (htu.isFunctionDeclaration ▸ hfunction), ht, hu]
      split
      · exact hrest functions
      · exact .cons ⟨rfl, htu.entry (callableSignatures_alike hsignatures)⟩ (hrest _)
    · rw [entriesAfter_other hfunction,
        entriesAfter_other (htu.isFunctionDeclaration ▸ hfunction)]
      exact List.rel_append htu.otherEntries (hrest functions)

/-- A name has the same entries in two files that declare it alike. -/
theorem localEntries_alike {name : String}
    (h : List.Forall₂ (Alike f g) (f.declarationsOf name) (g.declarationsOf name)) :
    List.Forall₂ (EntryAlike f g) (f.localEntries name) (g.localEntries name) := by
  have hsignatures : List.Forall₂ (Alike f g) (f.signaturesOf name) (g.signaturesOf name) := by
    rw [signaturesOf_eq, signaturesOf_eq]
    exact forall₂_filter h fun _ _ hc => hc.isFunctionDeclaration
  have hentries := entriesAfter_alike hsignatures h (fun _ => declaredName_of_mem) []
  rw [localEntries_eq, localEntries_eq]
  refine List.rel_map (fun _ _ hab => hab.2) (forall₂_filter hentries ?_)
  intro a b hab
  rw [hab.1]

end SourceFile

end DeferredImports
