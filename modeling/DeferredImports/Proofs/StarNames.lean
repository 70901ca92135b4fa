import DeferredImports.Proofs.NameResolution

/-! The names that modules export by stars. Main statement: where modules take over only all names
of each other, the names of a module are its own and those that stars lead to, also around
cycles. -/

namespace DeferredImports

namespace ExportItem

variable {resolve : String → Option String} {visiting : List String}

theorem isSome_explicitIn? {items : List ExportItem} {name : String} :
    (explicitIn? items name).isSome ↔ ∃ item ∈ items, item.exported? = some name := by
  have hitem : ∀ item : ExportItem, (item.meaning? name).isSome ↔ item.exported? = some name := by
    intro item
    cases item <;> simp [meaning?, exported?]
  simp only [explicitIn?, List.findSome?_isSome_iff, List.mem_reverse, hitem]

theorem mem_filterMap_star? {items : List ExportItem} {specifier : String} :
    specifier ∈ items.filterMap star? ↔ .star specifier ∈ items := by
  rw [List.mem_filterMap]
  constructor
  · rintro ⟨item, hitem, hstar⟩
    cases item <;> cases hstar
    exact hitem
  · exact fun h => ⟨_, h, rfl⟩

end ExportItem

theorem isSome_starEntries? {resolve : String → Option String} {exports : String → Exports}
    {stars : List String} {name : String} :
    (starEntries? resolve exports stars name).isSome ↔
      name ≠ "default" ∧ ∃ specifier ∈ stars, ∃ target, resolve specifier = some target ∧
        (exports target).contains name := by
  unfold starEntries?
  by_cases hname : name = "default"
  · simp [hname]
  · rw [if_neg hname, List.findSome?_isSome_iff]
    apply Iff.trans _ (and_iff_right hname).symm
    refine exists_congr fun specifier => and_congr_right fun _ => ?_
    rw [Option.isSome_bind, Option.any_eq_true]
    rfl

namespace Project

open ExportItem

/-- The modules of the program take over no single name from each other, only all names at once. -/
def IsStarOnly (p : Project) : Prop := ∀ a b, p.files.contains a → ¬ p.Links a b

/-- A file of the program exports the name explicitly. -/
def ExportsName (p : Project) (m name : String) : Prop :=
  ∃ f, p.read m = .ok f ∧ f.ExportsName name

/-- A star statement of one module names the other. -/
def StarLeads (p : Project) (a b : String) : Prop :=
  ∃ f, p.read a = .ok f ∧ ∃ specifier ∈ f.starSpecifiers, p.resolve? specifier a = some b

/-- The module exports the name explicitly, or stars lead from it to a module that does; the default
export never comes by a star. -/
def Offers (p : Project) (m name : String) : Prop :=
  p.ExportsName m name ∨
    name ≠ "default" ∧ ∃ k, Relation.ReflTransGen p.StarLeads m k ∧ p.ExportsName k name

/-- As the module is read, it has an item of its own for the name, or stars lead to one that has. -/
def OffersItem (p : Project) (m name : String) : Prop :=
  p.Defines (m, name) ∨
    name ≠ "default" ∧ ∃ k, Relation.ReflTransGen p.Stars m k ∧ p.Defines (k, name)

/-- A star to a module that is not being visited. -/
def StarsPast (p : Project) (visiting : List String) (a b : String) : Prop :=
  p.Stars a b ∧ b ∉ visiting

/-- The exports hold only names that the module offers, and all names to which stars lead past the
visited modules. -/
structure Covers (p : Project) (visiting : List String) (m : String) (exports : Exports) :
    Prop where
  nodup : exports.names.Nodup
  offered : ∀ name, exports.contains name → p.OffersItem m name
  own : ∀ name, p.Defines (m, name) → exports.contains name
  starred : ∀ name, name ≠ "default" → ∀ k, Relation.ReflTransGen (p.StarsPast visiting) m k →
    p.Defines (k, name) → exports.contains name

variable {p : Project} {m name : String} {visiting : List String}

theorem OffersItem.of_star {a b : String} (h : p.OffersItem b name) (hname : name ≠ "default")
    (hstar : p.Stars a b) : p.OffersItem a name := by
  rcases h with h | ⟨-, k, hreach, hk⟩
  · exact .inr ⟨hname, b, .single hstar, h⟩
  · exact .inr ⟨hname, k, .head hstar hreach, hk⟩

/-- With no visited modules to avoid, the names are exactly the offered ones. -/
theorem Covers.contains_iff {exports : Exports} (h : p.Covers [] m exports) :
    exports.contains name ↔ p.OffersItem m name := by
  constructor
  · exact h.offered name
  · rintro (hown | ⟨hname, k, hreach, hk⟩)
    · exact h.own name hown
    · have hpast : p.Stars ≤ p.StarsPast [] := fun a b hab => ⟨hab, List.not_mem_nil⟩
      exact h.starred name hname k (Relation.ReflTransGen.mono hpast m k hreach) hk

/-- What covers all names covers those past visited modules. -/
theorem Covers.past {exports : Exports} (h : p.Covers [] m exports) (visiting : List String) :
    p.Covers visiting m exports where
  nodup := h.nodup
  offered := h.offered
  own := h.own
  starred name hname k hreach hk := by
    have hstars : p.StarsPast visiting ≤ p.Stars := fun a b hab => hab.1
    exact h.contains_iff.2 (.inr ⟨hname, k, Relation.ReflTransGen.mono hstars m k hreach, hk⟩)

/-- A path that leaves a module leaves it for the last time: the rest of it avoids the module. -/
theorem reach_past_last_visit {k : String}
    (h : Relation.ReflTransGen (p.StarsPast visiting) m k) :
    k = m ∨ ∃ b, p.StarsPast (m :: visiting) m b ∧
      Relation.ReflTransGen (p.StarsPast (m :: visiting)) b k := by
  induction h with
  | refl => exact .inl rfl
  | @tail a k _ hstep ih =>
    by_cases hk : k = m
    · exact .inl hk
    have hnew : k ∉ m :: visiting := by simpa [hk] using hstep.2
    have hpast : p.StarsPast (m :: visiting) a k := ⟨hstep.1, hnew⟩
    rcases ih with rfl | ⟨b, hb, hreach⟩
    · exact .inr ⟨k, hpast, .refl⟩
    · exact .inr ⟨b, hb, hreach.tail hpast⟩

section items

variable {resolve : String → Option String} {found : String → Except Failure Exports}

/-- Without links to other modules, items are taken over as if the visited modules were not
there. -/
theorem extendedAll_filter {items : List ExportItem}
    (h : ∀ exported specifier original, .link exported specifier original ∈ items →
      resolve specifier = none) (table : Exports) :
    extendedAll resolve visiting found table items =
      extendedAll (fun specifier => (resolve specifier).filter (· ∉ visiting)) visiting found table
        items := by
  induction items generalizing table with
  | nil => rfl
  | cons item items ih =>
    have hitem : extended resolve visiting found table item =
        extended (fun specifier => (resolve specifier).filter (· ∉ visiting)) visiting found table
          item := by
      cases item with
      | own exported entries => rfl
      | link exported specifier original =>
        simp [extended, h exported specifier original List.mem_cons_self]
      | star specifier =>
        cases hr : resolve specifier with
        | none => simp [extended, hr]
        | some target => by_cases hv : target ∈ visiting <;> simp [extended, hr, Option.filter, hv]
    rw [extendedAll, extendedAll, hitem]
    congr 1
    funext next
    exact ih (fun exported specifier original hmem =>
      h exported specifier original (List.mem_cons_of_mem item hmem)) next

end items

section read

variable {f : SourceFile}

theorem isSome_explicitIn?_exportItems (hf : p.read m = .ok f) :
    (explicitIn? f.exportItems name).isSome ↔ p.Defines (m, name) := by
  rw [isSome_explicitIn?]
  constructor
  · exact fun hitem => ⟨f, hf, hitem⟩
  · rintro ⟨f', hf', hitem⟩
    obtain rfl := Except.ok.inj (hf.symm.trans hf')
    exact hitem

theorem starsPast_iff (hf : p.read m = .ok f) {b : String} :
    p.StarsPast visiting m b ↔ ∃ specifier, .star specifier ∈ f.exportItems ∧
      (p.resolve? specifier m).filter (· ∉ visiting) = some b := by
  constructor
  · rintro ⟨⟨f', hf', specifier, hitem, hr⟩, hnew⟩
    obtain rfl := Except.ok.inj (hf.symm.trans hf')
    exact ⟨specifier, hitem, Option.filter_eq_some_iff.2 ⟨hr, by simpa using hnew⟩⟩
  · rintro ⟨specifier, hitem, hb⟩
    obtain ⟨hr, hnew⟩ := Option.filter_eq_some_iff.1 hb
    exact ⟨⟨f, hf, specifier, hitem, hr⟩, by simpa using hnew⟩

/-- A file whose items are stars, apart from its own, has the names of its own items and those of
the modules that its stars lead to, unless they are visited. -/
theorem extendedAll_names (hf : p.read m = .ok f) (hlinks : ∀ b, ¬ p.Links m b)
    {found : String → Except Failure Exports} {exports : String → Exports}
    (h : ∀ b, p.StarsPast visiting m b → found b = .ok (exports b)) :
    ∃ result, extendedAll (p.resolve? · m) visiting found .empty f.exportItems = .ok result ∧
      result.names.Nodup ∧ ∀ name, result.contains name ↔ p.Defines (m, name) ∨
        name ≠ "default" ∧ ∃ b, p.StarsPast visiting m b ∧ (exports b).contains name := by
  have hnone : ∀ exported specifier original, .link exported specifier original ∈ f.exportItems →
      p.resolve? specifier m = none := by
    intro exported specifier original hitem
    rw [Option.eq_none_iff_forall_ne_some]
    exact fun b hb => hlinks b ⟨f, hf, exported, specifier, original, hitem, hb⟩
  have hitems : ∀ item ∈ f.exportItems, ∀ b,
      target? (fun specifier => (p.resolve? specifier m).filter (· ∉ visiting)) item = some b →
        b ∉ visiting ∧ found b = .ok (exports b) := by
    intro item hitem b hb
    cases item with
    | own exported entries => cases hb
    | link exported specifier original =>
      simp [target?, hnone exported specifier original hitem] at hb
    | star specifier =>
      have hpast : p.StarsPast visiting m b := (starsPast_iff hf).2 ⟨specifier, hitem, hb⟩
      exact ⟨hpast.2, h b hpast⟩
  obtain ⟨result, hresult, hnodup, hget⟩ := extendedAll_ok hitems .empty
  refine ⟨result, (extendedAll_filter hnone .empty).trans hresult, hnodup List.nodup_nil, ?_⟩
  intro name
  have hempty : (Table.empty : Exports).get? name = none := rfl
  have hstarred : (∃ specifier ∈ f.exportItems.filterMap star?, ∃ b,
      (p.resolve? specifier m).filter (· ∉ visiting) = some b ∧ (exports b).contains name) ↔
        ∃ b, p.StarsPast visiting m b ∧ (exports b).contains name := by
    simp only [mem_filterMap_star?, starsPast_iff hf]
    constructor
    · rintro ⟨specifier, hitem, b, hb, hname⟩
      exact ⟨b, ⟨specifier, hitem, hb⟩, hname⟩
    · rintro ⟨b, ⟨specifier, hitem, hb⟩, hname⟩
      exact ⟨specifier, hitem, b, hb, hname⟩
  rw [Table.contains, hget, hempty, Option.none_or, Option.isSome_or, Option.isSome_map,
    Bool.or_eq_true, isSome_explicitIn?_exportItems hf, isSome_starEntries?, hstarred]

end read

/-- Where the cache covers all names, a search covers the names to which stars lead past the visited
modules. -/
theorem lookup_covers (hp : p.IsReadable) (hstars : p.IsStarOnly) {cache : Table Exports}
    (hcache : ∀ k exports, cache.get? k = some exports → p.Covers [] k exports)
    (hm : p.files.contains m ∧ isSource m) (hnew : m ∉ visiting) :
    ∃ exports, p.lookup cache visiting m = .ok exports ∧ p.Covers visiting m exports := by
  induction hn : (p.unvisited visiting).length using Nat.strongRecOn generalizing m visiting with
  | ind n ih =>
    subst hn
    cases hc : cache.get? m with
    | some exports => exact ⟨exports, lookup_of_cached hc, (hcache m exports hc).past visiting⟩
    | none =>
      have hfile := mem_fileNames_of_contains hm.1
      obtain ⟨f, hf⟩ := hp m hm.1 hm.2
      let exports (b : String) : Exports :=
        (p.lookup cache (m :: visiting) b).toOption.getD .empty
      have hbelow : ∀ b, p.StarsPast (m :: visiting) m b →
          p.lookup cache (m :: visiting) b = .ok (exports b) ∧
            p.Covers (m :: visiting) b (exports b) := by
        intro b hb
        have hcontains : p.files.contains b ∧ isSource b := Reexports.contains (.inr hb.1)
        obtain ⟨found, hfound, hcovers⟩ :=
          ih _ (length_unvisited_cons_lt hfile hnew) hcontains hb.2 rfl
        have hexports : exports b = found := by simp [exports, hfound, Except.toOption]
        rw [hexports]
        exact ⟨hfound, hcovers⟩
      obtain ⟨result, hresult, hnodup, hnames⟩ :=
        extendedAll_names hf (fun b => hstars m b hm.1) fun b hb => (hbelow b hb).1
      have hlookup : p.lookup cache visiting m = .ok result := by
        rw [lookup_of_unvisited hc hnew hfile, hf]
        exact hresult
      refine ⟨result, hlookup, hnodup, ?offered, ?own, ?starred⟩
      case offered =>
        intro name hname
        rcases (hnames name).1 hname with hown | ⟨hdefault, b, hb, hcontains⟩
        · exact .inl hown
        · exact ((hbelow b hb).2.offered name hcontains).of_star hdefault hb.1
      case own => exact fun name hown => (hnames name).2 (.inl hown)
      case starred =>
        intro name hdefault k hreach hk
        rcases reach_past_last_visit hreach with rfl | ⟨b, hb, hrest⟩
        · exact (hnames name).2 (.inl hk)
        · have hcontains := (hbelow b hb).2.starred name hdefault k hrest hk
          exact (hnames name).2 (.inr ⟨hdefault, b, hb, hcontains⟩)

/-- In every state that the program reaches the cached exports cover all names. -/
theorem Reached.covers (hp : p.IsReadable) (hstars : p.IsStarOnly) {s : ProjectState}
    (h : p.Reached s) : ∀ k exports, s.cache.get? k = some exports → p.Covers [] k exports := by
  apply Reached.cached (P := p.Covers []) _ h
  intro cache hcache target htarget exports hexports
  obtain ⟨found, hfound, hcovers⟩ := lookup_covers hp hstars hcache htarget List.not_mem_nil
  rw [hfound] at hexports
  cases hexports
  exact hcovers

theorem stars_iff {a b : String} : p.Stars a b ↔ p.StarLeads a b := by
  refine exists_congr fun f => and_congr_right fun _ => exists_congr fun specifier => ?_
  rw [← mem_filterMap_star?, f.star?_exportItems]

/-- Where the name is declared plainly, the module has an item for it if it exports it
explicitly. -/
theorem IsPlainFrom.defines_iff (h : p.IsPlainFrom m name) :
    p.Defines (m, name) ↔ p.ExportsName m name := by
  constructor
  · rintro ⟨f, hf, hitem⟩
    refine ⟨f, hf, not_not.1 fun hnone => ?_⟩
    have hsome := (isSome_explicitIn?_exportItems hf).2 ⟨f, hf, hitem⟩
    rw [f.explicitIn?_exportItems, (h.exportsPlainly hf).explicit?_eq_none_iff.2 hnone] at hsome
    cases hsome
  · rintro ⟨f, hf, hname⟩
    rw [← isSome_explicitIn?_exportItems hf, f.explicitIn?_exportItems]
    exact Option.isSome_iff_ne_none.2 fun hnone =>
      (h.exportsPlainly hf).explicit?_eq_none_iff.1 hnone hname

/-- A star leads the name on from a module that does not export it. -/
theorem IsPlainFrom.star {k : String} (h : p.IsPlainFrom m name) (hname : name ≠ "default")
    (hstar : p.StarLeads m k) (hnone : ¬ p.ExportsName m name) : p.IsPlainFrom k name := by
  obtain ⟨f, hf, specifier, hs, hr⟩ := hstar
  exact h.leadsOn (.star hf (fun hexports => hnone ⟨f, hf, hexports⟩) hname hs hr)

/-- Where stars lead to a module that has the name, the first one on the way that exports it is one
where it is declared plainly. -/
theorem IsPlainFrom.exists_exportsName {k : String} (h : p.IsPlainFrom m name)
    (hname : name ≠ "default") (hreach : Relation.ReflTransGen p.StarLeads m k)
    (hk : p.Defines (k, name) ∨ p.ExportsName k name) :
    ∃ first, Relation.ReflTransGen p.StarLeads m first ∧ p.IsPlainFrom first name ∧
      p.ExportsName first name := by
  induction hreach using Relation.ReflTransGen.head_induction_on with
  | refl =>
    rw [h.defines_iff, or_self] at hk
    exact ⟨k, .refl, h, hk⟩
  | @head a b hab hrest ih =>
    by_cases hexports : p.ExportsName a name
    · exact ⟨a, .refl, h, hexports⟩
    · obtain ⟨first, hfirst, hplain, hown⟩ := ih (h.star hname hab hexports)
      exact ⟨first, .head hab hfirst, hplain, hown⟩

/-- Where the name is declared plainly, the module offers it as it is read if it does offer it. -/
theorem IsPlainFrom.offersItem_iff (h : p.IsPlainFrom m name) :
    p.OffersItem m name ↔ p.Offers m name := by
  have hstars : p.Stars = p.StarLeads := funext fun a => funext fun b => propext stars_iff
  unfold OffersItem Offers
  rw [hstars]
  refine or_congr h.defines_iff (and_congr_right fun hname => ?_)
  constructor
  · rintro ⟨k, hreach, hk⟩
    obtain ⟨first, hfirst, -, hown⟩ := h.exists_exportsName hname hreach (.inl hk)
    exact ⟨first, hfirst, hown⟩
  · rintro ⟨k, hreach, hk⟩
    obtain ⟨first, hfirst, hplain, hown⟩ := h.exists_exportsName hname hreach (.inr hk)
    exact ⟨first, hfirst, hplain.defines_iff.2 hown⟩

/-- Where modules take over all names of each other or none, every look-up of a module finds its
exports, whatever stars lead in a circle and whatever the program was asked before, and no name
comes twice. A name that is declared plainly is among them exactly if the module exports it
explicitly or stars lead to a module that does. -/
theorem exportsOf_offers_names (hp : p.IsReadable) (hstars : p.IsStarOnly) {s : ProjectState}
    (hs : p.Reached s) {specifier file : String} (hm : p.resolve? specifier file = some m) :
    ∃ symbols, (p.exportsOf specifier file s).outcome = .ok (some symbols) ∧
      (symbols.map ExportedSymbol.name).Nodup ∧
      ∀ name, p.IsPlainFrom m name →
        (name ∈ symbols.map ExportedSymbol.name ↔ p.Offers m name) := by
  obtain ⟨exports, hexports, hcovers⟩ := lookup_covers hp hstars (hs.covers hp hstars)
    (contains_of_resolve? hm) List.not_mem_nil
  refine ⟨symbols exports, outcome_exportsOf_of_lookup hm hexports, ?_, fun name hplain => ?_⟩
  · rw [map_name_symbols]
    exact hcovers.nodup
  · rw [map_name_symbols, ← hplain.offersItem_iff, ← hcovers.contains_iff, Table.contains_iff]

/-- A program of which no file takes a single name over. -/
theorem isStarOnly_of_takenOver (h : ∀ a ∈ p.fileNames, ∀ taken ∈ p.takenOver a, taken.2 = none) :
    p.IsStarOnly := by
  rintro a b ha ⟨f, hf, exported, specifier, original, hitem, -⟩
  have htaken : (specifier, some (exported, original)) ∈ p.takenOver a :=
    mem_takenOver.2 ⟨f, hf, _, hitem, rfl⟩
  cases h a (mem_fileNames_of_contains ha) _ htaken

/-- Where modules take no single name over, no search is linked back. -/
theorem IsStarOnly.not_linksBack (h : p.IsStarOnly) (hm : p.files.contains m)
    (hsource : isSource m) : ¬ p.LinksBack m := by
  rintro ⟨a, b, visiting, hvisits, hlink, -⟩
  exact h a b (hvisits.head hm hsource).2.1 hlink

/-- The tree of a star statement and of an exported constant after it. -/
def starAndConstantTree : ParseTree :=
  ⟨"program", true, false, 0, 41,
    [⟨"export_statement", true, false, 0, 20,
      [⟨"string", true, false, 14, 19, [], []⟩], [(.source, 0)]⟩, exportedConstant 21], []⟩

def firstFile : SourceFile :=
  ⟨"a.ts", "typescript", "export * from './b';\nexport const A = 1;\n", false, starAndConstantTree⟩

def secondFile : SourceFile :=
  ⟨"b.ts", "typescript", "export * from './a';\nexport const B = 2;\n", false, starAndConstantTree⟩

/-- Two modules with stars to each other, each with a constant that is exported where it is
declared. -/
def ringProgram : Project :=
  ofFiles [("a.ts", ⟨firstFile.content, some (false, starAndConstantTree)⟩),
    ("b.ts", ⟨secondFile.content, some (false, starAndConstantTree)⟩)]

theorem ringProgram_isStarOnly : ringProgram.IsStarOnly :=
  isStarOnly_of_takenOver (by decide +kernel)

theorem ringProgram_isPlainFrom (name : String) : ringProgram.IsPlainFrom "a.ts" name :=
  isPlainFrom_of_files (by decide) (by decide +kernel)

/-- A constant that is exported where it is declared is an exported name. -/
theorem exportsName_of_exportedConstant {f : SourceFile} {start : Nat} (hf : p.read m = .ok f)
    (hmem : exportedConstant start ∈ f.root.namedChildren)
    (hname : name ∈ f.boundNames (constantDeclaration (start + 7)))
    (hvalue : f.valueEntries name ≠ []) : p.ExportsName m name :=
  ⟨f, hf, exportedConstant start, hmem, .own (f.valueEntries name), rfl, rfl,
    .declaration rfl rfl hname hvalue⟩

theorem ringProgram_exportsName :
    ringProgram.ExportsName "a.ts" "A" ∧ ringProgram.ExportsName "b.ts" "B" := by
  have hmem : exportedConstant 21 ∈ starAndConstantTree.namedChildren :=
    List.mem_cons_of_mem _ List.mem_cons_self
  have ha : "A" ∈ firstFile.boundNames (constantDeclaration 28) ∧
      firstFile.valueEntries "A" ≠ [] := by decide +kernel
  have hb : "B" ∈ secondFile.boundNames (constantDeclaration 28) ∧
      secondFile.valueEntries "B" ≠ [] := by decide +kernel
  exact ⟨exportsName_of_exportedConstant (f := firstFile) rfl hmem ha.1 ha.2,
    exportsName_of_exportedConstant (f := secondFile) rfl hmem hb.1 hb.2⟩

/-- Of two modules with stars to each other the first has its own constant and that of the second,
also when the second was asked before. -/
theorem exportsOf_offers_names_ring :
    ringProgram.IsReadable ∧ ringProgram.IsStarOnly ∧
      ringProgram.Reached (ringProgram.after [("./b", "main.ts")]) ∧
      ringProgram.resolve? "./a" "main.ts" = some "a.ts" ∧
      ringProgram.IsPlainFrom "a.ts" "A" ∧ ringProgram.IsPlainFrom "a.ts" "B" ∧
      ringProgram.StarLeads "a.ts" "b.ts" ∧ ringProgram.StarLeads "b.ts" "a.ts" ∧ ∃ symbols,
        (ringProgram.exportsOf "./a" "main.ts"
          (ringProgram.after [("./b", "main.ts")])).outcome = .ok (some symbols) ∧
        "A" ∈ symbols.map ExportedSymbol.name ∧ "B" ∈ symbols.map ExportedSymbol.name := by
  have hreadable : ringProgram.IsReadable := isReadable_ofFiles (by decide)
  have hreached : ringProgram.Reached (ringProgram.after [("./b", "main.ts")]) :=
    .exportsOf "./b" "main.ts" .fresh
  have ha : ringProgram.resolve? "./a" "main.ts" = some "a.ts" := by decide
  have hab : ringProgram.StarLeads "a.ts" "b.ts" := ⟨firstFile, rfl, "./b", by decide, by decide⟩
  have hba : ringProgram.StarLeads "b.ts" "a.ts" := ⟨secondFile, rfl, "./a", by decide, by decide⟩
  obtain ⟨found, houtcome, -, hnames⟩ :=
    exportsOf_offers_names hreadable ringProgram_isStarOnly hreached ha
  obtain ⟨hownA, hownB⟩ := ringProgram_exportsName
  have hoffered : ringProgram.Offers "a.ts" "B" :=
    .inr ⟨by decide, "b.ts", .single hab, hownB⟩
  have hA := ringProgram_isPlainFrom "A"
  have hB := ringProgram_isPlainFrom "B"
  exact ⟨hreadable, ringProgram_isStarOnly, hreached, ha, hA, hB, hab, hba, found, houtcome,
    (hnames "A" hA).2 (.inl hownA), (hnames "B" hB).2 hoffered⟩

/-- A module with a star to the one whose variables a pattern binds. -/
def patternStarProgram : Project :=
  ofFiles [
    ("a.ts", ⟨"export * from './b';\n", some (false, ⟨"program", true, false, 0, 21,
      [⟨"export_statement", true, false, 0, 20,
        [⟨"string", true, false, 14, 19, [], []⟩], [(.source, 0)]⟩], []⟩)⟩),
    ("b.ts", ⟨patternFile.content, some (false, patternFile.root)⟩)]

theorem patternStarProgram_offers (h : name ∈ ["a", "b"]) :
    patternStarProgram.Offers "a.ts" name := by
  have hstar : patternStarProgram.StarLeads "a.ts" "b.ts" := ⟨_, rfl, "./b", by decide, by decide⟩
  obtain ⟨entry, hsaid⟩ := patternFile_saysOf h
  have hexports : patternStarProgram.ExportsName "b.ts" name :=
    ⟨patternFile, rfl, patternExport, List.mem_cons_self, .own [entry], hsaid⟩
  have hdefault : name ≠ "default" := fun hname => absurd (hname ▸ h) (by decide)
  exact .inr ⟨hdefault, "b.ts", .single hstar, hexports⟩

/-- The two exported variables come as one name, which is the text of the pattern. -/
theorem patternStarProgram_misses_names :
    patternStarProgram.IsReadable ∧ patternStarProgram.IsStarOnly ∧
      patternStarProgram.resolve? "./a" "main.ts" = some "a.ts" ∧
      (∀ name ∈ ["a", "b"], patternStarProgram.Offers "a.ts" name) ∧ ∃ symbols,
        (patternStarProgram.exportsOf "./a" "main.ts" {}).outcome = .ok (some symbols) ∧
        symbols.map ExportedSymbol.name = ["\x7b a, b \x7d"] := by
  have hm : patternStarProgram.resolve? "./a" "main.ts" = some "a.ts" := by decide
  have hlookup : patternStarProgram.lookup .empty [] "a.ts" =
      patternStarProgram.boundedLookup .empty 3 [] "a.ts" := lookup_eq_boundedLookup (by decide)
  have hkeys : (patternStarProgram.lookup .empty [] "a.ts").toOption.map Table.names =
      some ["\x7b a, b \x7d"] := by
    rw [hlookup]
    decide +kernel
  exact ⟨isReadable_ofFiles (by decide), isStarOnly_of_takenOver (by decide +kernel), hm,
    fun _ => patternStarProgram_offers, exists_symbols_of_names (s := {}) hm hkeys⟩

end Project

end DeferredImports
