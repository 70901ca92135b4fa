import DeferredImports.Proofs.CircularExports
import DeferredImports.Proofs.Contract

/-! Programs as oracles. What is read from a file describes declarations and types in full, and so
does what is cached of it. Main statement: a program whose files can be read keeps the contract of
an oracle in every state that its answers lead to. -/

namespace DeferredImports

namespace SourceFile

variable {f : SourceFile}

theorem expression_hasParameters (f : SourceFile) (t : ParseTree) :
    (f.expression t).HasParameters := by
  unfold expression otherExpression
  split
  · trivial
  · split
    · split <;> trivial
    · split
      · rfl
      · split
        · rfl
        · split
          · split <;> trivial
          · trivial

/-- Every type in a clause is an expression with type arguments. -/
def AreTypes (types : List Node) : Prop :=
  ∀ t ∈ types, ∃ e arguments, t = .expressionWithTypeArguments e arguments

theorem areTypes_addExtended {types : List Node} (h : AreTypes types) (t : ParseTree) :
    AreTypes (f.addExtended types t) := by
  unfold addExtended
  split
  · split
    · intro u hu
      rcases List.mem_append.1 hu with hu | hu
      · exact h u (List.dropLast_subset types hu)
      · exact ⟨_, _, List.mem_singleton.1 hu⟩
    · exact h
  · intro u hu
    rcases List.mem_append.1 hu with hu | hu
    · exact h u hu
    · exact ⟨_, _, List.mem_singleton.1 hu⟩

theorem heritageClause?_isHeritageClause {t : ParseTree} {n : Node}
    (h : f.heritageClause? t = some n) : n.IsHeritageClause := by
  unfold heritageClause? at h
  split at h
  · cases h
    refine ⟨_, _, rfl, ?_⟩
    exact List.foldlRecOn (motive := AreTypes) _ _ (fun _ ht => nomatch ht)
      fun _ htypes t _ => areTypes_addExtended htypes t
  · cases h
    refine ⟨_, _, rfl, ?_⟩
    intro u hu
    obtain ⟨c, -, rfl⟩ := List.mem_map.1 hu
    exact ⟨_, _, rfl⟩
  · cases h

theorem classDeclaration_isDeclaration (f : SourceFile) (t : ParseTree) :
    (f.classDeclaration t).IsDeclaration := by
  refine ⟨_, rfl, ?_⟩
  intro c hc
  obtain ⟨heritage, -, hc⟩ := List.mem_flatMap.1 hc
  obtain ⟨u, -, hu⟩ := List.mem_filterMap.1 hc
  exact heritageClause?_isHeritageClause hu

theorem declaration_isDeclaration (f : SourceFile) (t : ParseTree) :
    (f.declaration t).IsDeclaration := by
  unfold declaration
  split
  · exact f.classDeclaration_isDeclaration t
  · split
    · rfl
    · split
      · cases t.child? .value with
        | none => trivial
        | some value => exact f.expression_hasParameters value
      · trivial

theorem exportValue_isDeclaration (f : SourceFile) (t : ParseTree) :
    (f.exportValue t).IsDeclaration := by
  unfold exportValue
  split
  · exact f.classDeclaration_isDeclaration t
  · exact f.expression_hasParameters t

/-- The entry is a declaration in this very file, described in full. -/
def Describes (f : SourceFile) (e : Entry) : Prop :=
  e.declaration.IsDeclaration ∧ e.origin.file = f.path

theorem describes_entry (f : SourceFile) (t : ParseTree) (signatures : List ParseTree) :
    f.Describes (f.entry t signatures) :=
  ⟨f.declaration_isDeclaration t, rfl⟩

theorem describes_ownEntry (f : SourceFile) (t : ParseTree) : f.Describes (f.ownEntry t) :=
  f.describes_entry _ _

theorem describes_of_mem_variableEntries {t : ParseTree} {e : String × Entry}
    (h : e ∈ f.variableEntries t) : f.Describes e.2 := by
  obtain ⟨d, -, hd⟩ := List.mem_filterMap.1 h
  obtain ⟨first, -, rfl⟩ := Option.map_eq_some_iff.1 hd
  exact f.describes_entry first []

theorem describes_of_mem_entriesAfter {functions : List String} {ts : List ParseTree}
    {e : String × Entry} (h : e ∈ f.entriesAfter functions ts) : f.Describes e.2 := by
  induction ts generalizing functions with
  | nil => cases h
  | cons t ts ih =>
    unfold entriesAfter at h
    split at h
    · dsimp only at h
      split at h
      · exact ih h
      · rcases List.mem_cons.1 h with rfl | h
        · exact f.describes_entry _ _
        · exact ih h
    · split at h
      · rcases List.mem_append.1 h with h | h
        · exact describes_of_mem_variableEntries h
        · exact ih h
      · rcases List.mem_append.1 h with h | h
        · obtain ⟨n, -, rfl⟩ := Option.map_eq_some_iff.1 (Option.mem_toList.1 h)
          exact f.describes_entry t []
        · exact ih h

theorem describes_of_mem_localEntries {name : String} {e : Entry}
    (h : e ∈ f.localEntries name) : f.Describes e := by
  obtain ⟨named, hnamed, rfl⟩ := List.mem_map.1 h
  exact describes_of_mem_entriesAfter (List.mem_filter.1 hnamed).1

/-- The entries that an item has of its own are all described. -/
def OwnDescribed (f : SourceFile) (item : ExportItem) : Prop :=
  ∀ exported entries, item = .own exported entries → ∀ e ∈ entries, f.Describes e

theorem bindingItem_ownDescribed (f : SourceFile) (exported name : String) :
    f.OwnDescribed (f.bindingItem exported name) := by
  unfold bindingItem
  split
  · split
    · intro _ _ h
      cases h
    · intro _ _ h e he
      cases h
      cases he
  · intro _ _ h e he
    cases h
    exact describes_of_mem_localEntries he

theorem ownDescribed_singleton {exported : String} {e : Entry} (h : f.Describes e) :
    f.OwnDescribed (.own exported [e]) := by
  intro _ _ heq d hd
  cases heq
  cases List.mem_singleton.1 hd
  exact h

theorem declarationItems_ownDescribed {isDefault : Bool} {t : ParseTree} {item : ExportItem}
    (h : item ∈ f.declarationItems isDefault t) : f.OwnDescribed item := by
  unfold declarationItems at h
  split at h
  · cases List.mem_singleton.1 h
    exact ownDescribed_singleton (f.describes_ownEntry t)
  · obtain ⟨name, -, hitem⟩ := List.mem_filterMap.1 h
    split at hitem
    · cases hitem
    · cases hitem
      intro _ _ heq e he
      cases heq
      exact describes_of_mem_localEntries he

theorem valueItem_ownDescribed (f : SourceFile) (value : ParseTree) :
    f.OwnDescribed (f.valueItem value) := by
  unfold valueItem
  split
  · exact f.bindingItem_ownDescribed "default" (f.text value)
  · exact ownDescribed_singleton ⟨f.exportValue_isDeclaration value, rfl⟩

theorem specifierItem_ownDescribed (f : SourceFile) (source : Option ParseTree) (t : ParseTree) :
    f.OwnDescribed (f.specifierItem source t) := by
  unfold specifierItem
  cases source with
  | none => exact f.bindingItem_ownDescribed _ _
  | some source =>
    intro _ _ heq
    cases heq

theorem wholeModuleItem_ownDescribed (f : SourceFile) (source statement : ParseTree) :
    f.OwnDescribed (f.wholeModuleItem source statement) := by
  unfold wholeModuleItem
  split
  · exact ownDescribed_singleton ⟨trivial, rfl⟩
  · intro _ _ heq
    cases heq

theorem statementItems_ownDescribed {statement : ParseTree} {item : ExportItem}
    (h : item ∈ f.statementItems statement) : f.OwnDescribed item := by
  unfold statementItems at h
  split at h
  · cases h
  · dsimp only at h
    split at h
    · exact declarationItems_ownDescribed h
    · split at h
      · cases List.mem_singleton.1 h
        exact f.valueItem_ownDescribed _
      · split at h
        · obtain ⟨t, -, rfl⟩ := List.mem_map.1 h
          exact f.specifierItem_ownDescribed _ t
        · obtain ⟨source, -, rfl⟩ := Option.map_eq_some_iff.1 (Option.mem_toList.1 h)
          exact f.wholeModuleItem_ownDescribed source statement

/-- Everything that a file exports of its own is described in full. -/
theorem exportItems_ownDescribed {item : ExportItem} (h : item ∈ f.exportItems) :
    f.OwnDescribed item := by
  obtain ⟨statement, -, hitem⟩ := List.mem_flatMap.1 h
  exact statementItems_ownDescribed hitem

end SourceFile

theorem TypeSymbol.toNode_isTypeSymbol (t : TypeSymbol) : t.toNode.IsTypeSymbol := by
  obtain ⟨name, namespaces⟩ := t
  cases namespaces with
  | nil => exact ⟨name, none, rfl, fun p hp => nomatch hp⟩
  | cons n ns =>
    refine ⟨name, some (describe n ns), rfl, ?_⟩
    intro p hp
    cases hp
    cases ns <;> exact ⟨n, _, rfl⟩

theorem TypeHandle.toNode_isTypeHandle (t : TypeHandle) : t.toNode.IsTypeHandle := by
  refine ⟨_, _, rfl, ?_⟩
  intro s hs
  obtain ⟨signature, -, rfl⟩ := List.mem_map.1 hs
  refine ⟨signature.parameterCount, _, rfl, ?_⟩
  intro returned hreturned
  obtain ⟨type, -, rfl⟩ := Option.map_eq_some_iff.1 hreturned
  exact type.toNode_isTypeSymbol

namespace Project

variable {p : Project}

/-- The file behind the origin can be read. -/
def Locates (p : Project) (origin : Origin) : Prop := ∃ f, p.read origin.file = .ok f

def Describes (p : Project) (e : Entry) : Prop := e.declaration.IsDeclaration ∧ p.Locates e.origin

def DescribesAll (p : Project) (exports : Exports) : Prop :=
  ∀ named ∈ exports.entries, ∀ e ∈ named.2, p.Describes e

/-- All cached exports are described. -/
def IsSound (p : Project) (s : ProjectState) : Prop :=
  ∀ m exports, s.cache.get? m = some exports → p.DescribesAll exports

/-- Every origin of the symbol is in a file that can be read. -/
def Knows (p : Project) (symbol : ExportedSymbol (List Origin)) : Prop :=
  ∀ origin ∈ symbol.origin, p.Locates origin

theorem DescribesAll.insert {exports : Exports} (h : p.DescribesAll exports) (name : String)
    {entries : List Entry} (he : ∀ e ∈ entries, p.Describes e) :
    p.DescribesAll (exports.insert name entries) := by
  intro named hnamed
  rcases Table.mem_assign hnamed with rfl | hold
  · exact he
  · exact h named hold

theorem DescribesAll.of_get? {exports : Exports} (h : p.DescribesAll exports) {name : String}
    {entries : List Entry} (hget : exports.get? name = some entries) :
    ∀ e ∈ entries, p.Describes e := by
  exact h (name, entries) (Table.mem_of_get? hget)

theorem DescribesAll.addStar {exports found : Exports} (h : p.DescribesAll exports)
    (hfound : p.DescribesAll found) : p.DescribesAll (addStar exports found) := by
  unfold Project.addStar
  refine List.foldlRecOn _ _ h fun exports hexports named hnamed => ?_
  split
  · exact hexports
  · exact hexports.insert named.1 (hfound named hnamed)

section items

variable {resolve : String → Option String} {visiting : List String}
  {found : String → Except Failure Exports} {exports : Exports}

/-- One more item keeps everything described if its own entries and the exports that are asked for
are. -/
theorem extended_answers {item : ExportItem} (h : p.DescribesAll exports)
    (hown : ∀ exported entries, item = .own exported entries → ∀ e ∈ entries, p.Describes e)
    (hfound : ∀ target, asked? resolve visiting item = some target →
      Answers p.DescribesAll (found target)) :
    Answers p.DescribesAll (extended resolve visiting found exports item) := by
  cases item with
  | own exported entries => exact h.insert exported (hown exported entries rfl)
  | link exported specifier name =>
    unfold extended
    dsimp only
    cases hresolve : resolve specifier with
    | none => exact h.insert exported fun e he => nomatch he
    | some target =>
      have htarget := hfound target hresolve
      dsimp only
      cases hf : found target with
      | error e =>
        rw [hf] at htarget
        exact htarget
      | ok other =>
        rw [hf] at htarget
        refine h.insert exported ?_
        cases hget : other.get? name with
        | none => exact fun e he => nomatch he
        | some entries => exact DescribesAll.of_get? htarget hget
  | star specifier =>
    unfold extended
    dsimp only
    cases hresolve : resolve specifier with
    | none => exact h
    | some target =>
      dsimp only
      by_cases hv : target ∈ visiting
      · rw [if_pos hv]
        exact h
      · have hasked : asked? resolve visiting (.star specifier) = some target :=
          Option.filter_eq_some_iff.2 ⟨hresolve, by simpa using hv⟩
        have htarget := hfound target hasked
        rw [if_neg hv]
        cases hf : found target with
        | error e =>
          rw [hf] at htarget
          exact htarget
        | ok other =>
          rw [hf] at htarget
          exact h.addStar htarget

theorem extendedAll_answers {items : List ExportItem} (h : p.DescribesAll exports)
    (hown : ∀ exported entries, .own exported entries ∈ items → ∀ e ∈ entries, p.Describes e)
    (hfound : ∀ item ∈ items, ∀ target, asked? resolve visiting item = some target →
      Answers p.DescribesAll (found target)) :
    Answers p.DescribesAll (extendedAll resolve visiting found exports items) := by
  induction items generalizing exports with
  | nil => exact h
  | cons item items ih =>
    have hfirst : Answers p.DescribesAll (extended resolve visiting found exports item) := by
      apply extended_answers h
      · rintro exported entries rfl
        exact hown exported entries List.mem_cons_self
      · exact hfound item List.mem_cons_self
    rw [extendedAll]
    cases hextended : extended resolve visiting found exports item with
    | error e =>
      rw [hextended] at hfirst
      exact hfirst
    | ok exports' =>
      rw [hextended] at hfirst
      apply ih hfirst
      · exact fun exported entries hmem => hown exported entries (List.mem_cons_of_mem item hmem)
      · exact fun other hother => hfound other (List.mem_cons_of_mem item hother)

end items

/-- A file that was read under a normal path describes its own exports. -/
theorem describes_of_read (hn : p.IsNormal) {file : String} (hc : p.files.contains file)
    {f : SourceFile} (hf : p.read file = .ok f) {exported : String} {entries : List Entry}
    (hitem : .own exported entries ∈ f.exportItems) : ∀ e ∈ entries, p.Describes e := by
  intro e he
  obtain ⟨hdeclaration, hfile⟩ :=
    SourceFile.exportItems_ownDescribed hitem exported entries rfl e he
  refine ⟨hdeclaration, f, ?_⟩
  rw [hfile, path_of_read hf, hn file hc]
  exact hf

/-- With described exports in the cache a search finds described exports, or fails as circular. -/
theorem lookup_answers (hr : p.IsReadable) (hn : p.IsNormal) {cache : Table Exports}
    (hcache : ∀ m exports, cache.get? m = some exports → p.DescribesAll exports)
    {visiting : List String} {file : String} (hc : p.files.contains file) (hs : isSource file) :
    Answers p.DescribesAll (p.lookup cache visiting file) := by
  induction hlength : (p.unvisited visiting).length using Nat.strongRecOn
    generalizing visiting file with
  | ind n ih =>
    subst hlength
    cases hget : cache.get? file with
    | some exports =>
      rw [lookup_of_cached hget]
      exact hcache file exports hget
    | none =>
      by_cases hv : file ∈ visiting
      · rw [lookup_of_visiting hget hv]
        trivial
      · have hfile := mem_fileNames_of_contains hc
        obtain ⟨f, hread⟩ := hr file hc hs
        rw [lookup_of_unvisited hget hv hfile, hread]
        apply extendedAll_answers
        · exact fun named hnamed => nomatch hnamed
        · exact fun exported entries hitem => describes_of_read hn hc hread hitem
        · intro item hitem target hasked
          obtain ⟨hcontains, hsource⟩ := (reexports_of_asked? hread hitem hasked).1.contains
          exact ih _ (length_unvisited_cons_lt hfile hv) hcontains hsource rfl

/-- A program answers as an oracle should as long as what it has cached is described. -/
theorem exportsOf_answers (hr : p.IsReadable) (hn : p.IsNormal) {s : ProjectState}
    (hs : p.IsSound s) (specifier file : String) :
    p.IsSound (p.exportsOf specifier file s).state ∧
      Answers (fun found => ∀ symbols, found = some symbols →
          ∀ symbol ∈ symbols, p.Knows symbol ∧ ∀ d ∈ symbol.declarations, d.IsDeclaration)
        (p.exportsOf specifier file s).outcome := by
  unfold IsSound
  rw [outcome_exportsOf, cache_exportsOf]
  cases hresolve : p.resolve? specifier file with
  | none => exact ⟨hs, fun symbols h => nomatch h⟩
  | some target =>
    obtain ⟨hcontains, hsource⟩ := contains_of_resolve? hresolve
    have hfound : Answers p.DescribesAll (p.lookup s.cache [] target) :=
      lookup_answers hr hn hs hcontains hsource
    dsimp only
    cases hl : p.lookup s.cache [] target with
    | error e =>
      rw [hl] at hfound
      exact ⟨hs, hfound⟩
    | ok exports =>
      rw [hl] at hfound
      constructor
      · intro m cached hm
        rw [Table.get?_insert] at hm
        split at hm
        · cases hm
          exact hfound
        · exact hs m cached hm
      · intro symbols hsymbols symbol hsymbol
        cases hsymbols
        obtain ⟨named, hnamed, rfl⟩ := List.mem_map.1 hsymbol
        constructor
        · intro origin horigin
          obtain ⟨e, he, rfl⟩ := List.mem_map.1 horigin
          exact (hfound named hnamed e he).2
        · intro d hd
          obtain ⟨e, he, rfl⟩ := List.mem_map.1 hd
          exact (hfound named hnamed e he).1

/-- The type of a symbol whose file can be read is told without a failure. -/
theorem typeOf_answers {symbol : ExportedSymbol (List Origin)} (hk : p.Knows symbol)
    (s : ProjectState) : ∃ t, (p.typeOf symbol s).outcome = .ok t := by
  rw [outcome_typeOf]
  split
  · next origin horigin =>
    obtain ⟨f, hf⟩ := hk origin (by rw [horigin]; exact List.mem_singleton.2 rfl)
    rw [hf]
    exact ⟨_, rfl⟩
  · exact ⟨none, rfl⟩

/-- A program with readable files is an oracle that keeps the contract. -/
theorem oracle_keepsContract (hr : p.IsReadable) (hn : p.IsNormal) :
    p.oracle.KeepsContract p.IsSound p.Knows where
  exports specifier file _ hs := exportsOf_answers hr hn hs specifier file
  types symbol hk s hs := by
    obtain ⟨t, ht⟩ := typeOf_answers hk s
    constructor
    · intro m exports hm
      have hcached : (p.typeOf symbol s).state.cache.get? m = some exports := hm
      rw [cache_typeOf] at hcached
      exact hs m exports hcached
    · show Answers _ ((p.typeOf symbol s).outcome.map (Option.map TypeHandle.toNode))
      rw [ht]
      intro node hnode
      obtain ⟨handle, -, rfl⟩ := Option.map_eq_some_iff.1 hnode
      exact handle.toNode_isTypeHandle

theorem isSound_initial (p : Project) : p.IsSound {} := by
  intro m exports h
  cases h

/-- A program whose files in known languages come with their trees keeps the contract. -/
theorem ofFiles_keepsContract {files : List (String × FileContent)}
    (h : ∀ f ∈ files, isSource (Path.normalize f.1) → f.2.tree.isSome) :
    (ofFiles files).oracle.KeepsContract (ofFiles files).IsSound (ofFiles files).Knows :=
  oracle_keepsContract (isReadable_ofFiles h) (isNormal_ofFiles files)

end Project

end DeferredImports
