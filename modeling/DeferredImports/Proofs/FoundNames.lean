import DeferredImports.Proofs.NameResolution

/-! What a search that succeeds has found under a name, also in programs whose re-exports lead in
circles. Main statement: it comes from the declarations of some module along links and stars, and a
name that a module exports by itself stands for its own declarations whenever the module is found at
all. -/

namespace DeferredImports

namespace Project

open ExportItem

section items

variable {resolve : String → Option String} {visiting : List String}
  {found : String → Except Failure Exports}

/-- The exports that were found; those of a module whose search failed are none. -/
def foundExports (found : String → Except Failure Exports) (m : String) : Exports :=
  (found m).toOption.getD .empty

/-- What an item that is taken over says of the name is there afterwards, and a star to a module
that is not visited adds it if it is missing. -/
theorem extended_get? {item : ExportItem} {table result : Exports}
    (h : extended resolve visiting found table item = .ok result) (name : String) :
    result.get? name =
      ((item.meaning? name).map (Meaning.entries resolve (foundExports found))).or
        ((table.get? name).or (starEntries? (fun s => (resolve s).filter (· ∉ visiting))
          (foundExports found) item.star?.toList name)) := by
  have hnil : ∀ resolve : String → Option String,
      starEntries? resolve (foundExports found) [] name = none := by simp [starEntries?]
  have hinsert : ∀ exported (meaning : Meaning),
      (table.insert exported (meaning.entries resolve (foundExports found))).get? name =
        ((if exported = name then some meaning else none).map
          (Meaning.entries resolve (foundExports found))).or ((table.get? name).or none) := by
    intro exported meaning
    rw [get?_insert_meaning, hnil]
  cases item with
  | own exported entries =>
    cases h
    simp only [star?, Option.toList_none, hnil]
    exact hinsert exported (.own entries)
  | link exported specifier original =>
    have hresult : result = table.insert exported
        (Meaning.entries resolve (foundExports found) (.taken specifier original)) := by
      unfold extended at h
      unfold Meaning.entries
      cases hr : resolve specifier with
      | none => simpa [hr, eq_comm] using h
      | some target =>
        simp only [hr] at h ⊢
        obtain ⟨exports, hexports, hinserted⟩ := exists_of_bind_eq_ok h
        cases hinserted
        simp only [foundExports, hexports, Except.toOption, Option.getD_some]
    simp only [star?, Option.toList_none, hnil, hresult]
    exact hinsert exported (.taken specifier original)
  | star specifier =>
    have hstar : ∀ target, resolve specifier = some target → target ∉ visiting →
        starEntries? (fun s => (resolve s).filter (· ∉ visiting)) (foundExports found) [specifier]
          name = if name = "default" then none else (foundExports found target).get? name := by
      intro target hr hnew
      simp [starEntries?, hr, hnew, Option.filter]
    unfold extended at h
    cases hr : resolve specifier with
    | none =>
      obtain rfl : table = result := by simpa [hr] using h
      simp [meaning?, star?, starEntries?, hr]
    | some target =>
      simp only [hr] at h
      by_cases hv : target ∈ visiting
      · obtain rfl : table = result := by simpa [hv] using h
        simp [meaning?, star?, starEntries?, hr, hv]
      · rw [if_neg hv] at h
        obtain ⟨exports, hexports, hadd⟩ := exists_of_bind_eq_ok h
        cases hadd
        have hfound : foundExports found target = exports := by
          simp only [foundExports, hexports, Except.toOption, Option.getD_some]
        rw [star?, Option.toList_some, hstar target hr hv, hfound, get?_addStar]
        rfl

/-- The same for all items: the last one that says something of the name decides, and else the first
star that has it. -/
theorem extendedAll_get? {items : List ExportItem} {table result : Exports}
    (h : extendedAll resolve visiting found table items = .ok result) (name : String) :
    result.get? name =
      ((explicitIn? items name).map (Meaning.entries resolve (foundExports found))).or
        ((table.get? name).or (starEntries? (fun s => (resolve s).filter (· ∉ visiting))
          (foundExports found) (items.filterMap star?) name)) := by
  induction items generalizing table with
  | nil =>
    cases h
    simp [explicitIn?, starEntries?]
  | cons item items ih =>
    rw [extendedAll] at h
    obtain ⟨next, hnext, hrest⟩ := exists_of_bind_eq_ok h
    have hlast : explicitIn? (item :: items) name =
        (explicitIn? items name).or (item.meaning? name) := by
      rw [explicitIn?, List.reverse_cons, List.findSome?_append, List.findSome?_singleton,
        explicitIn?]
    have hstars : (item :: items).filterMap star? =
        item.star?.toList ++ items.filterMap star? := by
      rw [List.filterMap_cons]
      cases item.star? <;> rfl
    rw [ih hrest, extended_get? hnext, hlast, hstars, starEntries?_append, Option.map_or]
    simp only [Option.or_assoc]

end items

/-- Where the declarations under an exported name come from: from the module itself, or from another
one along an explicit export or a star. A name that the other module does not export by itself may
be missing there. -/
inductive Comes (p : Project) : String → String → List Entry → Prop
  | own {m name : String} {f : SourceFile} {entries : List Entry} (hf : p.read m = .ok f)
      (h : f.explicit? name = some (.own entries)) : Comes p m name entries
  | missing {m name specifier original : String} {f : SourceFile} (hf : p.read m = .ok f)
      (h : f.explicit? name = some (.taken specifier original))
      (hnone : ∀ target g, p.resolve? specifier m = some target → p.read target = .ok g →
        g.explicit? original = none) : Comes p m name []
  | taken {m name specifier original target : String} {f : SourceFile} {entries : List Entry}
      (hf : p.read m = .ok f) (h : f.explicit? name = some (.taken specifier original))
      (hr : p.resolve? specifier m = some target) (rest : Comes p target original entries) :
      Comes p m name entries
  | star {m name specifier target : String} {f : SourceFile} {entries : List Entry}
      (hf : p.read m = .ok f) (h : f.explicit? name = none) (hname : name ≠ "default")
      (hs : specifier ∈ f.starSpecifiers) (hr : p.resolve? specifier m = some target)
      (rest : Comes p target name entries) : Comes p m name entries

/-- What is known of the exports that are found for a module, whatever was visited on the way. -/
structure Found (p : Project) (m : String) (exports : Exports) : Prop where
  comes : ∀ name entries, exports.get? name = some entries → p.Comes m name entries
  explicit : ∀ f name, p.read m = .ok f → (f.explicit? name).isSome → (exports.get? name).isSome

variable {p : Project} {m : String}

/-- Where the items of a file were taken over, the module behind an explicit export was found. -/
theorem exists_found_of_explicit? {f : SourceFile} {resolve : String → Option String}
    {visiting : List String} {found : String → Except Failure Exports} {result : Exports}
    (h : extendedAll resolve visiting found .empty f.exportItems = .ok result)
    {name specifier original target : String}
    (hexplicit : f.explicit? name = some (.taken specifier original))
    (hr : resolve specifier = some target) : ∃ exports, found target = .ok exports := by
  obtain ⟨exported, hitem⟩ := exists_link_of_explicit? hexplicit
  cases hl : found target with
  | ok exports => exact ⟨exports, rfl⟩
  | error e =>
    obtain ⟨e', he'⟩ := extendedAll_error hitem hr hl .empty
    rw [h] at he'
    cases he'

/-- What was found for the names that items take over is what is found for those of the module. -/
theorem found_of_exportItems {f : SourceFile} (hf : p.read m = .ok f) {visiting : List String}
    {found : String → Except Failure Exports}
    (hfound : ∀ t, p.Reexports m t → ∀ exports, found t = .ok exports → p.Found t exports)
    {result : Exports}
    (h : extendedAll (p.resolve? · m) visiting found .empty f.exportItems = .ok result) :
    p.Found m result := by
  have hget := extendedAll_get? h
  have hempty : ∀ name, (Table.empty : Exports).get? name = none := fun _ => rfl
  simp only [f.explicitIn?_exportItems, f.star?_exportItems, hempty, Option.none_or] at hget
  have hother : ∀ t, p.Reexports m t → ∀ name entries,
      (foundExports found t).get? name = some entries → p.Comes t name entries := by
    intro t ht name entries hentries
    cases hl : found t with
    | error e => simp [foundExports, hl, Except.toOption, hempty] at hentries
    | ok exports =>
      simp only [foundExports, hl, Except.toOption, Option.getD_some] at hentries
      exact (hfound t ht exports hl).comes name entries hentries
  refine ⟨fun name entries hentries => ?_, fun f' name hf' hsome => ?_⟩
  · rw [hget] at hentries
    cases hexplicit : f.explicit? name with
    | none =>
      rw [hexplicit, Option.map_none, Option.none_or] at hentries
      unfold starEntries? at hentries
      split at hentries
      · cases hentries
      · next hname =>
        obtain ⟨specifier, hspecifier, hbind⟩ := List.exists_of_findSome?_eq_some hentries
        obtain ⟨target, htarget, hthere⟩ := Option.bind_eq_some_iff.1 hbind
        obtain ⟨hr, -⟩ := Option.filter_eq_some_iff.1 htarget
        exact .star hf hexplicit hname hspecifier hr
          (hother target (stars_of_mem hf hspecifier hr) name entries hthere)
    | some meaning =>
      rw [hexplicit, Option.map_some, Option.some_or, Option.some.injEq] at hentries
      subst hentries
      cases meaning with
      | own entries => exact .own hf hexplicit
      | taken specifier original =>
        cases hr : p.resolve? specifier m with
        | none =>
          simp only [Meaning.entries, hr]
          exact .missing hf hexplicit fun target g htarget => by simp [hr] at htarget
        | some target =>
          have hedge := links_of_explicit? hf hexplicit hr
          obtain ⟨exports, hexports⟩ := exists_found_of_explicit? h hexplicit hr
          simp only [Meaning.entries, hr, foundExports, hexports, Except.toOption,
            Option.getD_some]
          cases hthere : exports.get? original with
          | some entries =>
            exact .taken hf hexplicit hr ((hfound target hedge exports hexports).comes _ _ hthere)
          | none =>
            -- the module was found without the name, so it does not export it by itself
            refine .missing hf hexplicit fun target' g htarget hg => ?_
            obtain rfl := Option.some.inj (hr.symm.trans htarget)
            by_contra hsome
            have := (hfound target hedge exports hexports).explicit g original hg
              (Option.isSome_iff_ne_none.2 hsome)
            simp [hthere] at this
  · obtain rfl := Except.ok.inj (hf.symm.trans hf')
    obtain ⟨meaning, hmeaning⟩ := Option.isSome_iff_exists.1 hsome
    rw [hget, hmeaning]
    rfl

/-- Where all that is cached was found, so is what a search finds. -/
theorem lookup_found {cache : Table Exports}
    (hcache : ∀ k exports, cache.get? k = some exports → p.Found k exports)
    {visiting : List String} {exports : Exports} (h : p.lookup cache visiting m = .ok exports) :
    p.Found m exports := by
  induction hn : (p.unvisited visiting).length using Nat.strongRecOn
    generalizing m visiting exports with
  | ind n ih =>
    subst hn
    cases hc : cache.get? m with
    | some cached =>
      rw [lookup_of_cached hc] at h
      cases h
      exact hcache m exports hc
    | none =>
      by_cases hnew : m ∈ visiting
      · rw [lookup_of_visiting hc hnew] at h
        cases h
      by_cases hfile : m ∈ p.fileNames
      · rw [lookup_of_unvisited hc hnew hfile] at h
        obtain ⟨f, hf, hitems⟩ := exists_of_bind_eq_ok h
        refine found_of_exportItems hf (fun t _ exports hexports => ?_) hitems
        exact ih _ (length_unvisited_cons_lt hfile hnew) hexports rfl
      · rw [lookup_of_unknown hc hnew hfile] at h
        cases h

theorem Reached.found {s : ProjectState} (h : p.Reached s) :
    ∀ k exports, s.cache.get? k = some exports → p.Found k exports :=
  Reached.cached (fun _ hcache _ _ _ hexports => lookup_found hcache hexports) h

/-- What a program finds for a module, or why it fails, in every state that it reaches. -/
theorem exportsOf_found (hp : p.IsReadable) {s : ProjectState} (hs : p.Reached s)
    {specifier file : String} (hm : p.resolve? specifier file = some m) :
    (∃ exports, (p.exportsOf specifier file s).outcome = .ok (some (symbols exports)) ∧
      p.Found m exports) ∨
    p.LinksBack m ∧
      ∃ other, (p.exportsOf specifier file s).outcome = .error (.circularReexport other) := by
  obtain ⟨hcontains, hsource⟩ := contains_of_resolve? hm
  rw [outcome_exportsOf, hm]
  dsimp only
  cases hl : p.lookup s.cache [] m with
  | ok exports => exact .inl ⟨exports, rfl, lookup_found hs.found hl⟩
  | error e =>
    rcases linksBack_of_error hcontains hsource .start hl with ⟨⟨other, rfl⟩, hback⟩ | hread
    · exact .inr ⟨hback, other, rfl⟩
    · obtain ⟨b, hb, hsrc, hfailed⟩ := hread
      obtain ⟨f, hf⟩ := hp b hb hsrc
      rw [hf] at hfailed
      cases hfailed

/-- Where the exports of a module are found, a name that stands for declarations of the module has
exactly these. -/
theorem Found.get?_own {exports : Exports} (h : p.Found m exports) {f : SourceFile}
    (hf : p.read m = .ok f) {name : String} {entries : List Entry}
    (hown : f.explicit? name = some (.own entries)) : exports.get? name = some entries := by
  obtain ⟨found, hfound⟩ := Option.isSome_iff_exists.1 (h.explicit f name hf (by simp [hown]))
  have hcomes := h.comes name found hfound
  rw [hfound]
  cases hcomes with
  | own hf' h' =>
    obtain rfl := Except.ok.inj (hf.symm.trans hf')
    cases hown.symm.trans h'
    rfl
  | missing hf' h' | taken hf' h' | star hf' h' =>
    obtain rfl := Except.ok.inj (hf.symm.trans hf')
    cases hown.symm.trans h'

/-- A module whose search is not linked back has, under a name that stands for its own declarations,
the symbol with exactly these. -/
theorem exportsOf_own (hp : p.IsReadable) {s : ProjectState} (hs : p.Reached s)
    {specifier file : String} (hm : p.resolve? specifier file = some m) {f : SourceFile}
    (hf : p.read m = .ok f) {name : String} {entries : List Entry}
    (hown : f.explicit? name = some (.own entries)) :
    (∃ found, (p.exportsOf specifier file s).outcome = .ok (some found) ∧
      found.find? (fun symbol => symbol.name == name) =
        some ⟨name, entries.map Entry.declaration, entries.map Entry.origin⟩) ∨
    p.LinksBack m ∧
      ∃ other, (p.exportsOf specifier file s).outcome = .error (.circularReexport other) := by
  refine (exportsOf_found hp hs hm).imp_left ?_
  rintro ⟨exports, houtcome, hfound⟩
  refine ⟨symbols exports, houtcome, ?_⟩
  rw [find?_symbols, hfound.get?_own hf hown]
  rfl

/-- The type of a symbol with a single declaration is told by the file that declares it. -/
theorem outcome_typeOf_own (hn : p.IsNormal) (hm : p.files.contains m) {f : SourceFile}
    (hf : p.read m = .ok f) (name : String) (d : Node) (t : ParseTree)
    (signatures : List ParseTree) (s : ProjectState) :
    (p.typeOf ⟨name, [d], [⟨f.path, t, signatures⟩]⟩ s).outcome =
      .ok (some (f.declaredType t signatures)) := by
  have hread : p.read f.path = .ok f := by
    rw [path_of_read hf, hn m hm]
    exact hf
  rw [outcome_typeOf]
  dsimp only
  rw [hread]
  rfl

end Project

end DeferredImports
