import DeferredImports.Proofs.QueryHistory
import Mathlib.Data.List.Basic

/-! Reading what a file says of one exported name. Main statement: the exports that are collected
item by item have, under each name, what its last explicit export says, and else what the first star
that has the name says. -/

namespace DeferredImports

/-- What an exported name stands for: declarations of the file, or an export of another module. -/
inductive Meaning where
  | own (entries : List Entry)
  | taken (specifier name : String)

namespace SourceFile

/-- What a local name stands for: its value declarations, or else the import that binds it. -/
def meaningOf (f : SourceFile) (name : String) : Meaning :=
  match f.localEntries name with
  | [] =>
    match f.root.namedChildren.findSome? (f.importBinding? name) with
    | some (specifier, imported) => .taken specifier imported
    | none => .own []
  | entries => .own entries

/-- What a specifier in braces says of the name: it exports another module's name, or a local one.
-/
def specifierMeaning? (f : SourceFile) (source : Option ParseTree) (name : String)
    (t : ParseTree) : Option Meaning :=
  let original := f.exportNameOf (t.child? .name)
  if ((t.child? .newName).map f.exportName).getD original = name then
    match source with
    | some source => some (.taken (f.exportName source) original)
    | none => some (f.meaningOf original)
  else none

/-- The specifiers in braces that are not for types, the last one first. -/
def valueSpecifiers (clause : ParseTree) : List ParseTree :=
  (clause.namedChildren.filter fun c => c.type == "export_specifier" && !c.isTypeOnly).reverse

/-- What a declaration or a value that is exported by default says of the name. -/
def defaultMeaning? (f : SourceFile) (name : String) (value : ParseTree) : Option Meaning :=
  if name = "default" then
    if value.type == "identifier" then some (f.meaningOf (f.text value))
    else some (.own [⟨f.exportValue value, ⟨f.path, value, []⟩⟩])
  else none

/-- What a statement without a declaration and a default value says of the name: names in braces, or
a whole module under one name. -/
def listedMeaning? (f : SourceFile) (name : String) (statement : ParseTree) : Option Meaning :=
  match statement.namedOfType? "export_clause" with
  | some clause =>
    (valueSpecifiers clause).findSome? (f.specifierMeaning? (statement.child? .source) name)
  | none =>
    match statement.child? .source, statement.namedOfType? "namespace_export" with
    | some _, some t =>
      if f.textOf t.firstMeaningful? = name then
        some (.own [⟨.otherDeclaration "namespace_export" (some name), ⟨f.path, t, []⟩⟩])
      else none
    | _, _ => none

/-- What a statement says of the exported name. Statements for types say nothing, and a star says
nothing of a single name. -/
def statementMeaning? (f : SourceFile) (name : String) (statement : ParseTree) : Option Meaning :=
  if statement.type != "export_statement" || statement.isTypeOnly then none
  else
    match statement.child? .declaration, statement.child? .value, statement.hasToken "default" with
    | some declaration, _, true =>
      if name = "default" then some (.own [f.ownEntry declaration]) else none
    | some declaration, _, false =>
      if name ∈ f.declaredNames declaration ∧ f.localEntries name ≠ [] then
        some (.own (f.localEntries name))
      else none
    | none, some value, true => f.defaultMeaning? name value
    | none, _, _ => f.listedMeaning? name statement

/-- What the last statement that exports the name explicitly says of it. -/
def explicit? (f : SourceFile) (name : String) : Option Meaning :=
  f.root.namedChildren.reverse.findSome? (f.statementMeaning? name)

/-- The module whose names a star statement exports. -/
def starSpecifier? (f : SourceFile) (statement : ParseTree) : Option String :=
  if statement.type != "export_statement" || statement.isTypeOnly then none
  else
    match statement.child? .declaration, statement.child? .value, statement.hasToken "default" with
    | some _, _, _ => none
    | none, some _, true => none
    | none, _, _ =>
      match statement.namedOfType? "export_clause", statement.namedOfType? "namespace_export" with
      | none, none => (statement.child? .source).map f.exportName
      | _, _ => none

/-- The modules whose names are exported by stars, in the order of the statements. -/
def starSpecifiers (f : SourceFile) : List String :=
  f.root.namedChildren.filterMap f.starSpecifier?

end SourceFile

namespace ExportItem

/-- What an item says of the name. -/
def meaning? (name : String) : ExportItem → Option Meaning
  | own exported entries => if exported = name then some (.own entries) else none
  | link exported specifier original =>
    if exported = name then some (.taken specifier original) else none
  | star _ => none

def star? : ExportItem → Option String
  | star specifier => some specifier
  | _ => none

/-- What the last item that says something of the name says of it. -/
def explicitIn? (items : List ExportItem) (name : String) : Option Meaning :=
  items.reverse.findSome? (meaning? name)

end ExportItem

namespace SourceFile

open ExportItem

variable {f : SourceFile}

theorem meaning?_bindingItem (f : SourceFile) (exported original name : String) :
    (f.bindingItem exported original).meaning? name =
      if exported = name then some (f.meaningOf original) else none := by
  unfold bindingItem meaningOf
  cases f.localEntries original with
  | nil => cases f.root.namedChildren.findSome? (f.importBinding? original) <;> rfl
  | cons entry entries => rfl

theorem meaning?_specifierItem (f : SourceFile) (source : Option ParseTree) (name : String)
    (t : ParseTree) :
    (f.specifierItem source t).meaning? name = f.specifierMeaning? source name t := by
  unfold specifierItem specifierMeaning?
  cases source with
  | none =>
    dsimp only
    rw [meaning?_bindingItem]
    cases t.child? .newName <;> rfl
  | some source => cases t.child? .newName <;> rfl

/-- Among the items of a declaration those for the name say the same of it. -/
theorem findSome?_declarationItems (f : SourceFile) (names : List String) (name : String) :
    (names.filterMap fun name => match f.localEntries name with
      | [] => none
      | entries => some (.own name entries)).findSome? (meaning? name) =
      if name ∈ names ∧ f.localEntries name ≠ [] then some (.own (f.localEntries name))
      else none := by
  induction names with
  | nil => simp
  | cons other names ih =>
    rw [List.filterMap_cons]
    cases hother : f.localEntries other with
    | nil =>
      dsimp only
      rw [ih]
      by_cases hname : name = other
      · subst hname
        simp [hother]
      · simp [hname]
    | cons entry entries =>
      dsimp only
      rw [List.findSome?_cons]
      by_cases hname : name = other
      · subst hname
        simp [meaning?, hother]
      · simp only [meaning?, if_neg (Ne.symm hname), ih, List.mem_cons, hname, false_or]

theorem explicitIn?_singleton (item : ExportItem) (name : String) :
    explicitIn? [item] name = item.meaning? name := by
  unfold explicitIn?
  rw [List.reverse_singleton, List.findSome?_singleton]

theorem meaning?_valueItem (f : SourceFile) (name : String) (value : ParseTree) :
    (f.valueItem value).meaning? name = f.defaultMeaning? name value := by
  unfold valueItem defaultMeaning?
  by_cases hv : value.type == "identifier"
  · rw [if_pos hv, if_pos hv, meaning?_bindingItem]
    simp only [eq_comm]
  · rw [if_neg hv, if_neg hv, meaning?]
    simp only [eq_comm]

theorem explicitIn?_declarationItems (f : SourceFile) (isDefault : Bool) (name : String)
    (declaration : ParseTree) :
    explicitIn? (f.declarationItems isDefault declaration) name =
      match isDefault with
      | true => if name = "default" then some (.own [f.ownEntry declaration]) else none
      | false =>
        if name ∈ f.declaredNames declaration ∧ f.localEntries name ≠ [] then
          some (.own (f.localEntries name))
        else none := by
  unfold declarationItems
  cases isDefault with
  | true =>
    rw [if_pos rfl, explicitIn?_singleton, meaning?]
    simp only [eq_comm]
  | false =>
    rw [if_neg Bool.false_ne_true, explicitIn?, ← List.filterMap_reverse]
    refine (f.findSome?_declarationItems _ name).trans ?_
    simp only [List.mem_reverse]

/-- The items for what a statement exports without a declaration or a value. -/
theorem explicitIn?_specifierItems (f : SourceFile) (source : Option ParseTree) (name : String)
    (clause : ParseTree) :
    explicitIn? ((clause.namedChildren.filter fun c =>
        c.type == "export_specifier" && !c.isTypeOnly).map (f.specifierItem source)) name =
      (valueSpecifiers clause).findSome? (f.specifierMeaning? source name) := by
  unfold explicitIn? valueSpecifiers
  rw [← List.map_reverse, List.findSome?_map]
  congr 1
  funext t
  exact f.meaning?_specifierItem source name t

theorem meaning?_wholeModuleItem (f : SourceFile) (source statement : ParseTree) (name : String) :
    (f.wholeModuleItem source statement).meaning? name =
      match statement.namedOfType? "namespace_export" with
      | some t =>
        if f.textOf t.firstMeaningful? = name then
          some (.own [⟨.otherDeclaration "namespace_export" (some name), ⟨f.path, t, []⟩⟩])
        else none
      | none => none := by
  unfold wholeModuleItem
  cases statement.namedOfType? "namespace_export" with
  | none => rfl
  | some t =>
    dsimp only [meaning?]
    by_cases hname : f.textOf t.firstMeaningful? = name
    · rw [if_pos hname, if_pos hname, hname]
    · rw [if_neg hname, if_neg hname]

/-- The items of a statement say of a name what the statement says of it. -/
theorem explicitIn?_statementItems (f : SourceFile) (name : String) (statement : ParseTree) :
    explicitIn? (f.statementItems statement) name = f.statementMeaning? name statement := by
  unfold statementItems statementMeaning?
  split
  · rfl
  dsimp only
  cases statement.child? .declaration with
  | some declaration =>
    dsimp only
    rw [explicitIn?_declarationItems]
    cases statement.hasToken "default" <;> rfl
  | none =>
    have hlisted : explicitIn? (match statement.namedOfType? "export_clause" with
        | some clause => (clause.namedChildren.filter fun c =>
            c.type == "export_specifier" && !c.isTypeOnly).map
              (f.specifierItem (statement.child? .source))
        | none => ((statement.child? .source).map fun s => f.wholeModuleItem s statement).toList)
          name = f.listedMeaning? name statement := by
      unfold listedMeaning?
      cases statement.namedOfType? "export_clause" with
      | some clause => exact f.explicitIn?_specifierItems _ name clause
      | none =>
        cases statement.child? .source with
        | none => rfl
        | some source =>
          refine (explicitIn?_singleton _ name).trans ?_
          rw [meaning?_wholeModuleItem]
          cases statement.namedOfType? "namespace_export" <;> rfl
    cases statement.child? .value with
    | none => cases statement.hasToken "default" <;> exact hlisted
    | some value =>
      cases statement.hasToken "default" with
      | false => exact hlisted
      | true => exact (explicitIn?_singleton _ name).trans (f.meaning?_valueItem name value)

theorem star?_bindingItem (f : SourceFile) (exported original : String) :
    (f.bindingItem exported original).star? = none := by
  unfold bindingItem
  cases f.localEntries original with
  | nil => cases f.root.namedChildren.findSome? (f.importBinding? original) <;> rfl
  | cons entry entries => rfl

theorem star?_declarationItems (f : SourceFile) (isDefault : Bool) (declaration : ParseTree) :
    (f.declarationItems isDefault declaration).filterMap star? = [] := by
  unfold declarationItems
  cases isDefault with
  | true => rfl
  | false =>
    rw [if_neg Bool.false_ne_true, List.filterMap_filterMap, List.filterMap_eq_nil_iff]
    intro name _
    cases f.localEntries name <;> rfl

theorem star?_specifierItem (f : SourceFile) (source : Option ParseTree) (t : ParseTree) :
    (f.specifierItem source t).star? = none := by
  unfold specifierItem
  cases source with
  | none => exact f.star?_bindingItem _ _
  | some source => rfl

theorem star?_valueItem (f : SourceFile) (value : ParseTree) :
    (f.valueItem value).star? = none := by
  unfold valueItem
  split
  · exact f.star?_bindingItem _ _
  · rfl

/-- Of the items of a statement only that of a star is one. -/
theorem star?_statementItems (f : SourceFile) (statement : ParseTree) :
    (f.statementItems statement).filterMap star? = (f.starSpecifier? statement).toList := by
  unfold statementItems starSpecifier?
  split
  · rfl
  dsimp only
  cases statement.child? .declaration with
  | some declaration => exact f.star?_declarationItems _ declaration
  | none =>
    have hlisted : List.filterMap star? (match statement.namedOfType? "export_clause" with
        | some clause => (clause.namedChildren.filter fun c =>
            c.type == "export_specifier" && !c.isTypeOnly).map
              (f.specifierItem (statement.child? .source))
        | none =>
          ((statement.child? .source).map fun s => f.wholeModuleItem s statement).toList) =
        (match statement.namedOfType? "export_clause",
            statement.namedOfType? "namespace_export" with
          | none, none => (statement.child? .source).map f.exportName
          | _, _ => none).toList := by
      cases statement.namedOfType? "export_clause" with
      | some clause =>
        refine List.filterMap_eq_nil_iff.2 fun item hitem => ?_
        obtain ⟨t, -, rfl⟩ := List.mem_map.1 hitem
        exact f.star?_specifierItem _ t
      | none =>
        unfold wholeModuleItem
        cases statement.child? .source <;> cases statement.namedOfType? "namespace_export" <;> rfl
    cases statement.child? .value with
    | none => cases statement.hasToken "default" <;> exact hlisted
    | some value =>
      cases statement.hasToken "default" with
      | false => exact hlisted
      | true =>
        refine List.filterMap_eq_nil_iff.2 fun item hitem => ?_
        rw [List.mem_singleton.1 hitem]
        exact f.star?_valueItem value

/-- The items of a file say of a name what its last explicit export says. -/
theorem explicitIn?_exportItems (f : SourceFile) (name : String) :
    explicitIn? f.exportItems name = f.explicit? name := by
  unfold exportItems explicit?
  generalize f.root.namedChildren = statements
  induction statements with
  | nil => rfl
  | cons statement statements ih =>
    rw [List.flatMap_cons, List.reverse_cons, List.findSome?_append, ← ih, explicitIn?,
      List.reverse_append, List.findSome?_append, ← explicitIn?, ← explicitIn?,
      explicitIn?_statementItems, List.findSome?_singleton]

theorem star?_exportItems (f : SourceFile) :
    f.exportItems.filterMap star? = f.starSpecifiers := by
  unfold exportItems starSpecifiers
  rw [List.filterMap_flatMap, List.filterMap_eq_flatMap_toList]
  simp only [star?_statementItems]

end SourceFile

/-- The declarations that a meaning stands for, where other modules have these exports. What another
module lacks has none. -/
def Meaning.entries (resolve : String → Option String) (exports : String → Exports) :
    Meaning → List Entry
  | own entries => entries
  | taken specifier name =>
    match resolve specifier with
    | none => []
    | some target => ((exports target).get? name).getD []

/-- What the first star that has the name says of it; the default export never comes by a star. -/
def starEntries? (resolve : String → Option String) (exports : String → Exports)
    (stars : List String) (name : String) : Option (List Entry) :=
  if name = "default" then none
  else stars.findSome? fun specifier =>
    (resolve specifier).bind fun target => (exports target).get? name

namespace Project

open ExportItem

variable {resolve : String → Option String} {visiting : List String}
  {found : String → Except Failure Exports} {exports : String → Exports}

theorem starEntries?_append (stars others : List String) (name : String) :
    starEntries? resolve exports (stars ++ others) name =
      (starEntries? resolve exports stars name).or (starEntries? resolve exports others name) := by
  unfold starEntries?
  split
  · rfl
  · rw [List.findSome?_append]

theorem nodup_addStar {table : Exports} (h : table.names.Nodup) (star : Exports) :
    (addStar table star).names.Nodup := by
  unfold addStar
  refine List.foldlRecOn (motive := fun t => (Table.names t).Nodup) _ _ h ?_
  intro t ht e _
  split
  · exact ht
  · exact Table.nodup_insert ht e.1 e.2

/-- An item that exports one name puts its declarations under the name. -/
theorem get?_insert_meaning (table : Exports) (exported name : String) (meaning : Meaning) :
    (table.insert exported (meaning.entries resolve exports)).get? name =
      ((if exported = name then some meaning else none).map (Meaning.entries resolve exports)).or
        ((table.get? name).or (starEntries? resolve exports [] name)) := by
  rw [Table.get?_insert]
  by_cases hname : exported = name
  · simp [hname]
  · simp [hname, Ne.symm hname, starEntries?]

/-- One more item says what it says of the name, and a star adds it if it is missing. -/
theorem extended_ok {item : ExportItem}
    (h : ∀ target, target? resolve item = some target →
      target ∉ visiting ∧ found target = .ok (exports target)) (table : Exports) :
    ∃ result, extended resolve visiting found table item = .ok result ∧
      (table.names.Nodup → result.names.Nodup) ∧ ∀ name, result.get? name =
        ((item.meaning? name).map (Meaning.entries resolve exports)).or
          ((table.get? name).or (starEntries? resolve exports item.star?.toList name)) := by
  cases item with
  | own exported entries =>
    exact ⟨_, rfl, fun hn => Table.nodup_insert hn exported entries,
      fun name => get?_insert_meaning table exported name (.own entries)⟩
  | link exported specifier original =>
    refine ⟨table.insert exported (Meaning.entries resolve exports (.taken specifier original)), ?_,
      fun hn => Table.nodup_insert hn exported _,
      fun name => get?_insert_meaning table exported name (.taken specifier original)⟩
    simp only [extended, Meaning.entries]
    cases hr : resolve specifier with
    | none => rfl
    | some target => simp only [(h target hr).2, bind, Except.bind, pure, Except.pure]
  | star specifier =>
    have hstar : ∀ name, starEntries? resolve exports [specifier] name =
        if name = "default" then none
        else (resolve specifier).bind fun target => (exports target).get? name := fun name => by
      rw [starEntries?, List.findSome?_singleton]
    cases hr : resolve specifier with
    | none =>
      refine ⟨table, by simp only [extended, hr], id, fun name => ?_⟩
      simp [meaning?, star?, hstar, hr]
    | some target =>
      obtain ⟨hnew, hfound⟩ := h target hr
      refine ⟨addStar table (exports target), ?_, fun hn => nodup_addStar hn _, fun name => ?_⟩
      · simp only [extended, hr, if_neg hnew, hfound, bind, Except.bind, pure, Except.pure]
      · simp [meaning?, star?, hstar, hr, get?_addStar]

/-- The exports that are collected item by item have, under each name, what the last item for it
says, and else what the first star that has it says. -/
theorem extendedAll_ok {items : List ExportItem}
    (h : ∀ item ∈ items, ∀ target, target? resolve item = some target →
      target ∉ visiting ∧ found target = .ok (exports target)) (table : Exports) :
    ∃ result, extendedAll resolve visiting found table items = .ok result ∧
      (table.names.Nodup → result.names.Nodup) ∧ ∀ name, result.get? name =
        ((explicitIn? items name).map (Meaning.entries resolve exports)).or
          ((table.get? name).or (starEntries? resolve exports (items.filterMap star?) name)) := by
  induction items generalizing table with
  | nil =>
    refine ⟨table, rfl, id, fun name => ?_⟩
    simp [explicitIn?, starEntries?]
  | cons item items ih =>
    obtain ⟨next, hnext, hnodup, hget⟩ := extended_ok (h item List.mem_cons_self) table
    obtain ⟨result, hresult, hnodup', hget'⟩ :=
      ih (fun other hother => h other (List.mem_cons_of_mem item hother)) next
    refine ⟨result, ?_, fun hn => hnodup' (hnodup hn), fun name => ?_⟩
    · rw [extendedAll, hnext]
      exact hresult
    · have hlast : explicitIn? (item :: items) name =
          (explicitIn? items name).or (item.meaning? name) := by
        rw [explicitIn?, List.reverse_cons, List.findSome?_append, List.findSome?_singleton,
          explicitIn?]
      have hstars : (item :: items).filterMap star? =
          item.star?.toList ++ items.filterMap star? := by
        rw [List.filterMap_cons]
        cases item.star? <;> rfl
      rw [hget', hget, hlast, hstars, starEntries?_append, Option.map_or]
      simp only [Option.or_assoc]

end Project

end DeferredImports
