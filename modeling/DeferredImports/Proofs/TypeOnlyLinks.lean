import DeferredImports.Proofs.LocalDeclarations
import DeferredImports.Proofs.NameReading

/-! The exports of a file with the marks that say that they are for types only, on themselves or on
the imports that they export. Main statement: what a name stands for is what the last of its exports
says that carries no mark of its own; marks on imports change nothing. -/

namespace DeferredImports

/-- The places at which a link can be marked as being for types only. -/
inductive TypeMark where
  | exportStatement | exportSpecifier | importStatement | importSpecifier
deriving DecidableEq

def TypeMark.isOnExport : TypeMark → Bool
  | exportStatement | exportSpecifier => true
  | importStatement | importSpecifier => false

/-- What one export says of its name, and the marks on it and on the import that it exports. -/
structure Link where
  marks : List TypeMark
  meaning : Meaning

namespace Link

/-- The link, seen from behind one more place that may carry a mark. -/
def behind (mark : TypeMark) (t : ParseTree) (l : Link) : Link :=
  if t.isTypeOnly then { l with marks := mark :: l.marks } else l

/-- Whether the export itself is for types only. -/
def isErased (l : Link) : Bool := l.marks.any TypeMark.isOnExport

/-- What the link says where exports for types are left out. -/
def value? (l : Link) : Option Meaning := if l.isErased then none else some l.meaning

/-- What the last of some links says that is not left out. -/
def lastValue? (ls : List Link) : Option Meaning := ls.reverse.findSome? value?

theorem lastValue?_append (ls others : List Link) :
    lastValue? (ls ++ others) = (lastValue? others).or (lastValue? ls) := by
  rw [lastValue?, List.reverse_append, List.findSome?_append, lastValue?, lastValue?]

theorem lastValue?_cons (l : Link) (ls : List Link) :
    lastValue? (l :: ls) = (lastValue? ls).or l.value? := by
  rw [lastValue?, List.reverse_cons, List.findSome?_append, List.findSome?_singleton, lastValue?]

theorem lastValue?_singleton (l : Link) : lastValue? [l] = l.value? := by
  rw [lastValue?, List.reverse_singleton, List.findSome?_singleton]

theorem value?_behind (mark : TypeMark) (t : ParseTree) (l : Link) :
    (l.behind mark t).value? = if mark.isOnExport && t.isTypeOnly then none else l.value? := by
  cases mark <;> by_cases ht : t.isTypeOnly <;>
    simp [behind, ht, value?, isErased, TypeMark.isOnExport]

end Link

namespace SourceFile

/-- What the import specifier says of a local name that it binds. -/
def importedLink? (f : SourceFile) (source : ParseTree) (name : String) (t : ParseTree) :
    Option Link :=
  (f.specifierFor? name t).map fun imported =>
    Link.behind .importSpecifier t ⟨[], .taken (f.exportName source) imported⟩

/-- What a part of an import clause says of a local name that it binds. -/
def clauseLink? (f : SourceFile) (source : ParseTree) (name : String) (part : ParseTree) :
    Option Link :=
  if part.type = "identifier" then
    if f.text part == name then some ⟨[], .taken (f.exportName source) "default"⟩ else none
  else if part.type = "named_imports" then
    (specifiersIn part).findSome? (f.importedLink? source name)
  else none

def importLink? (f : SourceFile) (name : String) (statement : ParseTree) : Option Link :=
  if statement.type == "import_statement" then
    match statement.child? .source, importClause? statement with
    | some source, some clause =>
      (clause.namedChildren.findSome? (f.clauseLink? source name)).map
        (Link.behind .importStatement statement)
    | _, _ => none
  else none

/-- What a local name stands for, with the marks on the import that binds it. -/
def localLink (f : SourceFile) (name : String) : Link :=
  match f.localEntries name with
  | [] => (f.root.namedChildren.findSome? (f.importLink? name)).getD ⟨[], .own []⟩
  | entries => ⟨[], .own entries⟩

/-- What a specifier in braces says of the name, if it exports it. -/
def specifierLink? (f : SourceFile) (source : Option ParseTree) (name : String) (t : ParseTree) :
    Option Link :=
  if (f.specifierNames t).1 = name then
    some (Link.behind .exportSpecifier t (match source with
      | some source => ⟨[], .taken (f.exportName source) (f.specifierNames t).2⟩
      | none => f.localLink (f.specifierNames t).2))
  else none

def defaultLinks (f : SourceFile) (name : String) (value : ParseTree) : List Link :=
  if name = "default" then
    if value.type == "identifier" then [f.localLink (f.text value)]
    else [⟨[], .own [⟨f.exportValue value, ⟨f.path, value, []⟩⟩]⟩]
  else []

/-- What names in braces, or a whole module under one name, say of the name. -/
def listedLinks (f : SourceFile) (name : String) (statement : ParseTree) : List Link :=
  match statement.namedOfType? "export_clause" with
  | some clause =>
    (clause.namedChildren.filter fun c => c.type == "export_specifier").filterMap
      (f.specifierLink? (statement.child? .source) name)
  | none =>
    match statement.child? .source, statement.namedOfType? "namespace_export" with
    | some _, some t =>
      if f.textOf t.firstMeaningful? = name then
        [⟨[], .own [⟨.otherDeclaration "namespace_export" (some name), ⟨f.path, t, []⟩⟩]⟩]
      else []
    | _, _ => []

/-- All that a statement says of an exported name, be it for types only or not. -/
def statementLinks (f : SourceFile) (name : String) (statement : ParseTree) : List Link :=
  if statement.type != "export_statement" then []
  else
    (match statement.child? .declaration, statement.child? .value,
        statement.hasToken "default" with
      | some declaration, _, true =>
        if name = "default" then [Link.mk [] (.own [f.ownEntry declaration])] else []
      | some declaration, _, false =>
        if name ∈ f.declaredNames declaration ∧ f.localEntries name ≠ [] then
          [Link.mk [] (.own (f.localEntries name))]
        else []
      | none, some value, true => f.defaultLinks name value
      | none, _, _ => f.listedLinks name statement).map (Link.behind .exportStatement statement)

/-- All exports of a name, be they for types only or not. -/
def links (f : SourceFile) (name : String) : List Link :=
  f.root.namedChildren.flatMap (f.statementLinks name)

/-- The module whose names a statement exports, if it is a star, for types only or not. -/
def starSource? (statement : ParseTree) : Option ParseTree :=
  if statement.type != "export_statement" then none
  else
    match statement.child? .declaration, statement.child? .value, statement.hasToken "default" with
    | some _, _, _ => none
    | none, some _, true => none
    | none, _, _ =>
      match statement.namedOfType? "export_clause", statement.namedOfType? "namespace_export" with
      | none, none => statement.child? .source
      | _, _ => none

/-- The marks on a star, and the module that it names. -/
def starLink? (f : SourceFile) (statement : ParseTree) : Option (List TypeMark × String) :=
  (starSource? statement).map fun source =>
    (if statement.isTypeOnly then [.exportStatement] else [], f.exportName source)

/-- All stars of a file, be they for types only or not. -/
def starLinks (f : SourceFile) : List (List TypeMark × String) :=
  f.root.namedChildren.filterMap f.starLink?

/-- The link is an export of the name, and all later exports of the name are for types only. -/
def IsLast (f : SourceFile) (name : String) (l : Link) : Prop :=
  ∃ earlier later, f.links name = earlier ++ l :: later ∧ ∀ other ∈ later, other.isErased

open Link

variable {f : SourceFile} {name : String}

/-- A mark on an import specifier changes nothing of what the name stands for. -/
theorem map_value?_clauseLink? (f : SourceFile) (source : ParseTree) (name : String)
    (part : ParseTree) : (f.clauseLink? source name part).map value? =
      (f.importedName? name part).map fun imported =>
        some (.taken (f.exportName source) imported) := by
  have hspecifier : Option.map value? ∘ f.importedLink? source name =
      Option.map (fun imported => some (.taken (f.exportName source) imported)) ∘
        f.specifierFor? name := by
    funext t
    unfold importedLink?
    simp only [Function.comp_apply, Option.map_map]
    congr 1
    funext imported
    exact value?_behind _ _ _
  unfold clauseLink? importedName?
  by_cases hidentifier : part.type = "identifier"
  · simp only [hidentifier, if_true]
    split <;> rfl
  rw [if_neg hidentifier]
  by_cases hnamed : part.type = "named_imports"
  · simp only [hnamed, if_true]
    rw [List.map_findSome?, List.map_findSome?, hspecifier]
  · rw [if_neg hnamed]
    split
    · next hpart => exact absurd hpart hidentifier
    · next hpart => exact absurd hpart hnamed
    · rfl

theorem map_value?_importLink? (f : SourceFile) (name : String) (statement : ParseTree) :
    (f.importLink? name statement).map value? =
      (f.importBinding? name statement).map fun b => some (.taken b.1 b.2) := by
  unfold importLink? importBinding?
  by_cases htype : statement.type == "import_statement"
  · rw [if_pos htype, if_pos htype]
    cases statement.child? .source with
    | none => rfl
    | some source =>
      cases importClause? statement with
      | none => rfl
      | some clause =>
        have hbehind : value? ∘ behind .importStatement statement = value? := by
          funext l
          exact value?_behind _ _ _
        have hparts : Option.map value? ∘ f.clauseLink? source name =
            Option.map (fun imported => some (.taken (f.exportName source) imported)) ∘
              f.importedName? name := funext (f.map_value?_clauseLink? source name)
        simp only [Option.map_map]
        rw [hbehind, List.map_findSome?, hparts, ← List.map_findSome?]
        rfl
  · rw [if_neg htype, if_neg htype]
    rfl

/-- What a local name stands for does not depend on marks, and no mark of an import leaves an export
out. -/
theorem value?_localLink (f : SourceFile) (name : String) :
    (f.localLink name).value? = some (f.meaningOf name) := by
  unfold localLink meaningOf
  cases f.localEntries name with
  | cons e es => rfl
  | nil =>
    dsimp only
    have hfound : (f.root.namedChildren.findSome? (f.importLink? name)).map value? =
        (f.root.namedChildren.findSome? (f.importBinding? name)).map
          fun b => some (.taken b.1 b.2) := by
      have himports : Option.map value? ∘ f.importLink? name =
          Option.map (fun b => some (.taken b.1 b.2)) ∘ f.importBinding? name :=
        funext (f.map_value?_importLink? name)
      rw [List.map_findSome?, himports, ← List.map_findSome?]
    cases hlink : f.root.namedChildren.findSome? (f.importLink? name) with
    | none =>
      rw [hlink] at hfound
      rw [Option.map_eq_none_iff.1 hfound.symm]
      rfl
    | some l =>
      rw [hlink, Option.map_some] at hfound
      obtain ⟨b, hb, hvalue⟩ := Option.map_eq_some_iff.1 hfound.symm
      rw [hb]
      exact hvalue.symm

theorem value?_specifierLink? (f : SourceFile) (source : Option ParseTree) (name : String)
    (t : ParseTree) : (f.specifierLink? source name t).bind value? =
      if t.isTypeOnly then none else f.specifierMeaning? source name t := by
  unfold specifierLink? specifierMeaning? specifierNames
  dsimp only
  split
  · rw [Option.bind_some, value?_behind]
    cases ht : t.isTypeOnly with
    | true => rfl
    | false =>
      cases source with
      | none => exact f.value?_localLink _
      | some source => rfl
  · split <;> rfl

theorem lastValue?_defaultLinks (f : SourceFile) (name : String) (value : ParseTree) :
    lastValue? (f.defaultLinks name value) = f.defaultMeaning? name value := by
  unfold defaultLinks defaultMeaning?
  split
  · split
    · rw [lastValue?_singleton, value?_localLink]
    · rfl
  · rfl

/-- Of the specifiers in braces those for types are left out. -/
theorem lastValue?_specifierLinks (f : SourceFile) (source : Option ParseTree) (name : String)
    (specifiers : List ParseTree) :
    lastValue? ((specifiers.filter fun c => c.type == "export_specifier").filterMap
        (f.specifierLink? source name)) =
      (specifiers.filter fun c => c.type == "export_specifier" && !c.isTypeOnly).reverse.findSome?
        (f.specifierMeaning? source name) := by
  induction specifiers with
  | nil => rfl
  | cons t ts ih =>
    by_cases hspecifier : t.type == "export_specifier"
    · have hlast : lastValue? ((t :: ts.filter fun c => c.type == "export_specifier").filterMap
            (f.specifierLink? source name)) =
          (lastValue? ((ts.filter fun c => c.type == "export_specifier").filterMap
            (f.specifierLink? source name))).or ((f.specifierLink? source name t).bind value?) := by
        rw [List.filterMap_cons]
        cases f.specifierLink? source name t with
        | none => simp
        | some l => exact lastValue?_cons l _
      have hkept : (t :: ts).filter (fun c => c.type == "export_specifier") =
          t :: ts.filter fun c => c.type == "export_specifier" := List.filter_cons_of_pos hspecifier
      rw [hkept, hlast, ih, value?_specifierLink?]
      cases ht : t.isTypeOnly with
      | true => simp [ht]
      | false =>
        rw [List.filter_cons_of_pos (by simpa [ht] using hspecifier), List.reverse_cons,
          List.findSome?_append, List.findSome?_singleton]
        rfl
    · have hdropped : (t :: ts).filter (fun c => c.type == "export_specifier") =
          ts.filter fun c => c.type == "export_specifier" := List.filter_cons_of_neg hspecifier
      rw [hdropped, List.filter_cons_of_neg (by simp_all)]
      exact ih

theorem lastValue?_listedLinks (f : SourceFile) (name : String) (statement : ParseTree) :
    lastValue? (f.listedLinks name statement) = f.listedMeaning? name statement := by
  unfold listedLinks listedMeaning? valueSpecifiers
  cases statement.namedOfType? "export_clause" with
  | some clause => exact f.lastValue?_specifierLinks _ name _
  | none =>
    cases statement.child? .source with
    | none => rfl
    | some source =>
      cases statement.namedOfType? "namespace_export" with
      | none => rfl
      | some t =>
        dsimp only
        split <;> rfl

/-- What a statement says of a name is the last of what it says, types left out. -/
theorem lastValue?_statementLinks (f : SourceFile) (name : String) (statement : ParseTree) :
    lastValue? (f.statementLinks name statement) = f.statementMeaning? name statement := by
  have hbehind : ∀ ls : List Link, lastValue? (ls.map (behind .exportStatement statement)) =
      if statement.isTypeOnly then none else lastValue? ls := by
    intro ls
    induction ls with
    | nil => cases statement.isTypeOnly <;> rfl
    | cons l ls ih =>
      rw [List.map_cons, lastValue?_cons, lastValue?_cons, ih, value?_behind]
      cases statement.isTypeOnly <;> rfl
  unfold statementLinks statementMeaning?
  by_cases htype : statement.type != "export_statement"
  · rw [if_pos htype, if_pos (by simp [htype])]
    rfl
  rw [if_neg htype, hbehind]
  by_cases hmark : statement.isTypeOnly
  · rw [if_pos hmark, if_pos (by simp [hmark])]
  rw [if_neg hmark, if_neg (by simp_all)]
  cases statement.child? .declaration with
  | some declaration =>
    cases statement.hasToken "default" with
    | true =>
      dsimp only
      split <;> rfl
    | false =>
      dsimp only
      split <;> rfl
  | none =>
    cases statement.child? .value with
    | none => cases statement.hasToken "default" <;> exact f.lastValue?_listedLinks name statement
    | some value =>
      cases statement.hasToken "default" with
      | false => exact f.lastValue?_listedLinks name statement
      | true => exact f.lastValue?_defaultLinks name value

/-- What a name stands for in a file is the last of all its exports that is not for types. -/
theorem lastValue?_links (f : SourceFile) (name : String) :
    lastValue? (f.links name) = f.explicit? name := by
  unfold links explicit?
  generalize f.root.namedChildren = statements
  induction statements with
  | nil => rfl
  | cons statement statements ih =>
    rw [List.flatMap_cons, lastValue?_append, ih, lastValue?_statementLinks, List.reverse_cons,
      List.findSome?_append, List.findSome?_singleton]

theorem IsLast.mem {l : Link} (h : f.IsLast name l) : l ∈ f.links name := by
  obtain ⟨earlier, later, hlinks, -⟩ := h
  simp [hlinks]

/-- A last export that is not for types says what the name stands for. -/
theorem IsLast.explicit? {l : Link} (h : f.IsLast name l) (hl : l.isErased = false) :
    f.explicit? name = some l.meaning := by
  obtain ⟨earlier, later, hlinks, hlater⟩ := h
  have hnone : lastValue? later = none := by
    rw [lastValue?, List.findSome?_eq_none_iff]
    intro other hother
    rw [value?, if_pos (hlater other (List.mem_reverse.1 hother))]
  rw [← f.lastValue?_links, hlinks, lastValue?_append, lastValue?_cons, hnone, value?, hl]
  rfl

/-- What a name stands for is said by one of its exports that is not for types. -/
theorem exists_isLast_of_explicit? {meaning : Meaning} (h : f.explicit? name = some meaning) :
    ∃ l, f.IsLast name l ∧ l.isErased = false ∧ l.meaning = meaning := by
  rw [← f.lastValue?_links, lastValue?, List.findSome?_eq_some_iff] at h
  obtain ⟨later, l, earlier, hlinks, hl, hlater⟩ := h
  have herased : ∀ other ∈ later, other.isErased := by
    intro other hother
    have hnone := hlater other hother
    unfold value? at hnone
    split at hnone
    · assumption
    · cases hnone
  unfold value? at hl
  split at hl
  · cases hl
  · next hvalue =>
    refine ⟨l, ⟨earlier.reverse, later.reverse, ?_, ?_⟩, by simpa using hvalue, by simpa using hl⟩
    · rw [← List.reverse_reverse (f.links name), hlinks]
      simp
    · simpa using herased

theorem starSpecifier?_eq (f : SourceFile) (statement : ParseTree) :
    f.starSpecifier? statement =
      if statement.isTypeOnly then none else (starSource? statement).map f.exportName := by
  unfold starSpecifier? starSource?
  by_cases htype : statement.type != "export_statement"
  · simp [htype]
  rw [if_neg htype]
  by_cases hmark : statement.isTypeOnly
  · simp [hmark]
  rw [if_neg hmark, if_neg (by simp_all)]
  have hwhole : ∀ clause namespaceExport : Option ParseTree,
      (match clause, namespaceExport with
        | none, none => (statement.child? .source).map f.exportName
        | _, _ => none) =
      (match clause, namespaceExport with
        | none, none => statement.child? .source
        | _, _ => none).map f.exportName := by
    intro clause namespaceExport
    cases clause <;> cases namespaceExport <;> rfl
  cases statement.child? .declaration with
  | some declaration => rfl
  | none =>
    cases statement.child? .value with
    | none => exact hwhole _ _
    | some value =>
      cases statement.hasToken "default" with
      | true => rfl
      | false => exact hwhole _ _

/-- All that a statement for types exports is for types only. -/
theorem isErased_of_mem_statementLinks {statement : ParseTree} (h : statement.isTypeOnly) {l : Link}
    (hl : l ∈ f.statementLinks name statement) : l.isErased := by
  unfold statementLinks at hl
  split at hl
  · cases hl
  · obtain ⟨other, -, rfl⟩ := List.mem_map.1 hl
    simp [behind, h, isErased, TypeMark.isOnExport]

/-- The stars that are followed are those without a mark. -/
theorem mem_starLinks_of_mem {specifier : String} (h : specifier ∈ f.starSpecifiers) :
    ([], specifier) ∈ f.starLinks := by
  obtain ⟨statement, hmem, hstar⟩ := List.mem_filterMap.1 h
  refine List.mem_filterMap.2 ⟨statement, hmem, ?_⟩
  rw [starSpecifier?_eq] at hstar
  unfold starLink?
  split at hstar
  · cases hstar
  · next hmark =>
    obtain ⟨source, hsource, rfl⟩ := Option.map_eq_some_iff.1 hstar
    simp [hsource, hmark]

/-- The marks on a star are those of an export. -/
theorem isOnExport_of_mem_starLinks {marks : List TypeMark} {specifier : String}
    (h : (marks, specifier) ∈ f.starLinks) : ∀ mark ∈ marks, mark.isOnExport := by
  obtain ⟨statement, -, hstar⟩ := List.mem_filterMap.1 h
  obtain ⟨source, -, hmarks⟩ := Option.map_eq_some_iff.1 hstar
  obtain ⟨rfl, -⟩ := Prod.mk.inj hmarks
  intro mark hmark
  split at hmark
  · rw [List.mem_singleton.1 hmark]
    rfl
  · cases hmark

end SourceFile

end DeferredImports
