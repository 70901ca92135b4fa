import DeferredImports.Proofs.ExplicitExports

/-! Resolving the exports of a program one name at a time. Main statement: where re-exports never
lead back to where they started, the exports of a module are found in every state that the program
reaches, and under each name they are what is found for this name alone. -/

namespace DeferredImports

namespace Project

/-- What a module exports under a name, if anything: what its last explicit export says, which may
be an export of another module, and else what the first star says whose module has the name. What
comes from a module that cannot be found, or that lacks it, has no declarations. -/
inductive Resolves (p : Project) : String → String → Option (List Entry) → Prop
  | own {m name : String} {f : SourceFile} {entries : List Entry} (hf : p.read m = .ok f)
      (h : f.Exports name (.own entries)) : Resolves p m name (some entries)
  | unfound {m name specifier original : String} {f : SourceFile} (hf : p.read m = .ok f)
      (h : f.Exports name (.taken specifier original)) (hr : p.resolve? specifier m = none) :
      Resolves p m name (some [])
  | taken {m name specifier original target : String} {f : SourceFile}
      {found : Option (List Entry)} (hf : p.read m = .ok f)
      (h : f.Exports name (.taken specifier original)) (hr : p.resolve? specifier m = some target)
      (ht : Resolves p target original found) : Resolves p m name (some (found.getD []))
  | noDefault {m : String} {f : SourceFile} (hf : p.read m = .ok f)
      (h : ¬ f.ExportsName "default") : Resolves p m "default" none
  | star {m name specifier target : String} {f : SourceFile} {before after : List String}
      {entries : List Entry} (hf : p.read m = .ok f) (h : ¬ f.ExportsName name)
      (hname : name ≠ "default") (hstars : f.starSpecifiers = before ++ specifier :: after)
      (hbefore : ∀ other ∈ before, ∀ t, p.resolve? other m = some t → Resolves p t name none)
      (hr : p.resolve? specifier m = some target) (ht : Resolves p target name (some entries)) :
      Resolves p m name (some entries)
  | lacking {m name : String} {f : SourceFile} (hf : p.read m = .ok f) (h : ¬ f.ExportsName name)
      (hname : name ≠ "default")
      (hstars : ∀ specifier ∈ f.starSpecifiers, ∀ t, p.resolve? specifier m = some t →
        Resolves p t name none) : Resolves p m name none

/-- No module leads back to itself through re-exports. -/
def IsAcyclic (p : Project) : Prop := ∀ m, ¬ Relation.TransGen p.Reexports m m

/-- Following a name of a module leads on to a name of another one: to that which the module exports
under it, or to the same name behind a star if the module does not export it explicitly. -/
inductive LeadsOn (p : Project) : String × String → String × String → Prop
  | taken {m name specifier original target : String} {f : SourceFile} (hf : p.read m = .ok f)
      (h : f.Exports name (.taken specifier original)) (hr : p.resolve? specifier m = some target) :
      LeadsOn p (m, name) (target, original)
  | star {m name specifier target : String} {f : SourceFile} (hf : p.read m = .ok f)
      (h : ¬ f.ExportsName name) (hname : name ≠ "default") (hs : specifier ∈ f.starSpecifiers)
      (hr : p.resolve? specifier m = some target) : LeadsOn p (m, name) (target, name)

/-- Wherever following the name leads, what is exported under it is declared plainly. -/
def IsPlainFrom (p : Project) (m name : String) : Prop :=
  ∀ k original f, Relation.ReflTransGen p.LeadsOn (m, name) (k, original) → p.read k = .ok f →
    f.ExportsPlainly original

/-- The states of a program: a fresh one, and those after it was asked for exports, for the type of
a symbol or for a file. -/
inductive Reached (p : Project) : ProjectState → Prop
  | fresh : Reached p {}
  | exportsOf {s : ProjectState} (specifier file : String) :
      Reached p s → Reached p (p.exportsOf specifier file s).state
  | typeOf {s : ProjectState} (symbol : ExportedSymbol (List Origin)) :
      Reached p s → Reached p (p.typeOf symbol s).state
  | sourceFile {s : ProjectState} (path : String) :
      Reached p s → Reached p (p.sourceFile path s).state

/-- The exports are, name by name, those of the module, as far as names are declared plainly. -/
structure Agrees (p : Project) (m : String) (exports : Exports) : Prop where
  nodup : exports.names.Nodup
  resolves : ∀ name, p.IsPlainFrom m name → ∀ found,
    p.Resolves m name found ↔ exports.get? name = found

variable {p : Project} {m : String} {f : SourceFile}

/-- An export of another module's name is an item of the file. -/
theorem exists_link_of_explicit? {name specifier original : String}
    (h : f.explicit? name = some (.taken specifier original)) :
    ∃ exported, .link exported specifier original ∈ f.exportItems := by
  rw [← f.explicitIn?_exportItems, ExportItem.explicitIn?] at h
  obtain ⟨item, hitem, hmeaning⟩ := List.exists_of_findSome?_eq_some h
  cases item with
  | own exported entries =>
    simp only [ExportItem.meaning?] at hmeaning
    split at hmeaning <;> cases hmeaning
  | star specifier => cases hmeaning
  | link exported specifier' original' =>
    simp only [ExportItem.meaning?] at hmeaning
    split at hmeaning
    · cases hmeaning
      exact ⟨exported, List.mem_reverse.1 hitem⟩
    · cases hmeaning

theorem links_of_explicit? {name specifier original target : String} (hf : p.read m = .ok f)
    (h : f.explicit? name = some (.taken specifier original))
    (hr : p.resolve? specifier m = some target) : p.Reexports m target := by
  obtain ⟨exported, hitem⟩ := exists_link_of_explicit? h
  exact .inl ⟨f, hf, exported, specifier, original, hitem, hr⟩

theorem stars_of_mem {specifier target : String} (hf : p.read m = .ok f)
    (h : specifier ∈ f.starSpecifiers) (hr : p.resolve? specifier m = some target) :
    p.Reexports m target := by
  rw [← f.star?_exportItems] at h
  obtain ⟨item, hitem, hstar⟩ := List.mem_filterMap.1 h
  cases item with
  | own exported entries => cases hstar
  | link exported specifier' original => cases hstar
  | star specifier' =>
    cases hstar
    exact .inr ⟨f, hf, specifier, hitem, hr⟩

theorem IsPlainFrom.exportsPlainly {name : String} (h : p.IsPlainFrom m name)
    (hf : p.read m = .ok f) : f.ExportsPlainly name :=
  h m name f .refl hf

theorem IsPlainFrom.leadsOn {name target original : String} (h : p.IsPlainFrom m name)
    (hstep : p.LeadsOn (m, name) (target, original)) : p.IsPlainFrom target original :=
  fun k n g hreach => h k n g (.head hstep hreach)

section oneModule

variable {exports : String → Exports} {name : String}
  (hf : p.read m = .ok f) (hplain : f.ExportsPlainly name)
  (hexports : ∀ target original, p.Reexports m target → p.LeadsOn (m, name) (target, original) →
    ∀ found, p.Resolves target original found ↔ (exports target).get? original = found)
include hf hplain hexports

/-- What an explicit export resolves to, with the exports of the other modules at hand. -/
theorem resolves_iff_of_explicit? {meaning : Meaning} {found : Option (List Entry)}
    (h : f.explicit? name = some meaning) :
    p.Resolves m name found ↔ some (meaning.entries (p.resolve? · m) exports) = found := by
  constructor
  · intro hres
    cases hres with
    | own hf' h' =>
      obtain rfl := Except.ok.inj (hf.symm.trans hf')
      obtain rfl := Option.some.inj (h.symm.trans (hplain.explicit?_eq_some_iff.2 h'))
      rfl
    | unfound hf' h' hr =>
      obtain rfl := Except.ok.inj (hf.symm.trans hf')
      obtain rfl := Option.some.inj (h.symm.trans (hplain.explicit?_eq_some_iff.2 h'))
      simp only [Meaning.entries, hr]
    | taken hf' h' hr ht =>
      obtain rfl := Except.ok.inj (hf.symm.trans hf')
      obtain rfl := Option.some.inj (h.symm.trans (hplain.explicit?_eq_some_iff.2 h'))
      have hfound := (hexports _ _ (links_of_explicit? hf h hr) (.taken hf h' hr) _).1 ht
      simp only [Meaning.entries, hr, hfound]
    | noDefault hf' h' | star hf' h' | lacking hf' h' =>
      obtain rfl := Except.ok.inj (hf.symm.trans hf')
      cases h.symm.trans (hplain.explicit?_eq_none_iff.2 h')
  · rintro rfl
    have hsaid := hplain.explicit?_eq_some_iff.1 h
    cases meaning with
    | own entries => exact .own hf hsaid
    | taken specifier original =>
      cases hr : p.resolve? specifier m with
      | none =>
        simp only [Meaning.entries, hr]
        exact .unfound hf hsaid hr
      | some target =>
        simp only [Meaning.entries, hr]
        have hlinks := links_of_explicit? hf h hr
        exact .taken hf hsaid hr ((hexports _ _ hlinks (.taken hf hsaid hr) _).2 rfl)

/-- What a name without an explicit export resolves to. -/
theorem resolves_iff_of_explicit?_none {found : Option (List Entry)}
    (h : f.explicit? name = none) :
    p.Resolves m name found ↔
      starEntries? (p.resolve? · m) exports f.starSpecifiers name = found := by
  have hsilent := hplain.explicit?_eq_none_iff.1 h
  have hstar : name ≠ "default" → ∀ specifier ∈ f.starSpecifiers, ∀ t,
      p.resolve? specifier m = some t → ∀ found,
        p.Resolves t name found ↔ (exports t).get? name = found :=
    fun hname specifier hmem t hr =>
      hexports t name (stars_of_mem hf hmem hr) (.star hf hsilent hname hmem hr)
  have hnone : name ≠ "default" → ∀ specifier ∈ f.starSpecifiers,
      (∀ t, p.resolve? specifier m = some t → p.Resolves t name none) ↔
        ((p.resolve? specifier m).bind fun t => (exports t).get? name) = none := by
    intro hname specifier hmem
    cases hr : p.resolve? specifier m with
    | none => simp
    | some t =>
      simp only [Option.some.injEq, forall_eq', Option.bind_some]
      exact hstar hname specifier hmem t hr none
  constructor
  · intro hres
    cases hres with
    | own hf' h' | unfound hf' h' | taken hf' h' =>
      obtain rfl := Except.ok.inj (hf.symm.trans hf')
      cases h.symm.trans (hplain.explicit?_eq_some_iff.2 h')
    | noDefault => rfl
    | @star _ _ specifier target f' before after entries hf' _ hname hstars hbefore hr ht =>
      obtain rfl := Except.ok.inj (hf.symm.trans hf')
      rw [starEntries?, if_neg hname, List.findSome?_eq_some_iff]
      have hmem : specifier ∈ f.starSpecifiers := by simp [hstars]
      refine ⟨before, specifier, after, hstars, ?_, fun other hother => ?_⟩
      · rw [hr]
        exact (hstar hname specifier hmem target hr _).1 ht
      · exact (hnone hname other (by simp [hstars, hother])).1 (hbefore other hother)
    | lacking hf' _ hname hstars =>
      obtain rfl := Except.ok.inj (hf.symm.trans hf')
      rw [starEntries?, if_neg hname, List.findSome?_eq_none_iff]
      exact fun specifier hmem => (hnone hname specifier hmem).1 (hstars specifier hmem)
  · rintro rfl
    by_cases hname : name = "default"
    · subst hname
      exact .noDefault hf hsilent
    rw [starEntries?, if_neg hname]
    cases hstars : f.starSpecifiers.findSome? fun specifier =>
        (p.resolve? specifier m).bind fun t => (exports t).get? name with
    | none =>
      rw [List.findSome?_eq_none_iff] at hstars
      exact .lacking hf hsilent hname fun specifier hmem =>
        (hnone hname specifier hmem).2 (hstars specifier hmem)
    | some entries =>
      obtain ⟨before, specifier, after, hsplit, hhere, hbefore⟩ :=
        List.findSome?_eq_some_iff.1 hstars
      obtain ⟨target, hr, hget⟩ := Option.bind_eq_some_iff.1 hhere
      have hmem : specifier ∈ f.starSpecifiers := by simp [hsplit]
      refine .star hf hsilent hname hsplit (fun other hother => ?_) hr
        ((hstar hname specifier hmem target hr _).2 hget)
      exact (hnone hname other (by simp [hsplit, hother])).2 (hbefore other hother)

end oneModule

/-- A module that is read item by item, with the exports of the other modules, agrees. -/
theorem agrees_of_exportItems (hf : p.read m = .ok f) {exports : String → Exports}
    (hexports : ∀ t, p.Reexports m t → p.Agrees t (exports t)) {result : Exports}
    (hnodup : result.names.Nodup)
    (hget : ∀ name, result.get? name =
      ((f.explicit? name).map (Meaning.entries (p.resolve? · m) exports)).or
        (starEntries? (p.resolve? · m) exports f.starSpecifiers name)) : p.Agrees m result := by
  refine ⟨hnodup, fun name hall found => ?_⟩
  have hplain := hall.exportsPlainly hf
  have hnames : ∀ target original, p.Reexports m target →
      p.LeadsOn (m, name) (target, original) → ∀ found,
        p.Resolves target original found ↔ (exports target).get? original = found :=
    fun target original ht hstep => (hexports target ht).resolves original (hall.leadsOn hstep)
  rw [hget]
  cases h : f.explicit? name with
  | none => exact resolves_iff_of_explicit?_none hf hplain hnames h
  | some meaning => exact resolves_iff_of_explicit? hf hplain hnames h

/-- Where the cache agrees, a search finds exports that agree. Re-exports led from the visited
modules here, so that none of them is met again. -/
theorem lookup_agrees (hp : p.IsReadable) (hacyclic : p.IsAcyclic) {cache : Table Exports}
    (hcache : ∀ k exports, cache.get? k = some exports → p.Agrees k exports)
    {visiting : List String} (hm : p.files.contains m ∧ isSource m)
    (hv : ∀ k ∈ visiting, Relation.TransGen p.Reexports k m) :
    ∃ exports, p.lookup cache visiting m = .ok exports ∧ p.Agrees m exports := by
  induction hn : (p.unvisited visiting).length using Nat.strongRecOn generalizing m visiting with
  | ind n ih =>
    subst hn
    cases hc : cache.get? m with
    | some exports => exact ⟨exports, lookup_of_cached hc, hcache m exports hc⟩
    | none =>
      have hnew : m ∉ visiting := fun hmem => hacyclic m (hv m hmem)
      have hfile := mem_fileNames_of_contains hm.1
      obtain ⟨f, hf⟩ := hp m hm.1 hm.2
      have hvisit : ∀ t, p.Reexports m t →
          ∀ k ∈ m :: visiting, Relation.TransGen p.Reexports k t := by
        intro t ht k hk
        rcases List.mem_cons.1 hk with rfl | hk
        · exact .single ht
        · exact (hv k hk).tail ht
      have hbelow : ∀ t, p.Reexports m t →
          ∃ exports, p.lookup cache (m :: visiting) t = .ok exports ∧ p.Agrees t exports :=
        fun t ht => ih _ (length_unvisited_cons_lt hfile hnew) ht.contains (hvisit t ht) rfl
      let exports (t : String) : Exports :=
        (p.lookup cache (m :: visiting) t).toOption.getD .empty
      have hfound : ∀ t, p.Reexports m t →
          p.lookup cache (m :: visiting) t = .ok (exports t) ∧ p.Agrees t (exports t) := by
        intro t ht
        obtain ⟨found, hlookup, hagrees⟩ := hbelow t ht
        have hexports : exports t = found := by simp [exports, hlookup, Except.toOption]
        rw [hexports]
        exact ⟨hlookup, hagrees⟩
      have hitems : ∀ item ∈ f.exportItems, ∀ t, target? (p.resolve? · m) item = some t →
          t ∉ m :: visiting ∧ p.lookup cache (m :: visiting) t = .ok (exports t) := by
        intro item hitem t ht
        have hedge := reexports_of_target? hf hitem ht
        exact ⟨fun hmem => hacyclic t (hvisit t hedge t hmem), (hfound t hedge).1⟩
      obtain ⟨result, hresult, hnodup, hget⟩ := extendedAll_ok hitems .empty
      refine ⟨result, ?_, agrees_of_exportItems hf (fun t ht => (hfound t ht).2)
        (hnodup List.nodup_nil) fun name => ?_⟩
      · rw [lookup_of_unvisited hc hnew hfile, hf]
        exact hresult
      · have hempty : (Table.empty : Exports).get? name = none := rfl
        rw [hget, f.explicitIn?_exportItems, f.star?_exportItems, hempty, Option.none_or]

/-- What holds of all exports that are found, if it holds of the cached ones, holds of what is
cached in every state that the program reaches. -/
theorem Reached.cached {P : String → Exports → Prop}
    (hfound : ∀ cache : Table Exports, (∀ k exports, cache.get? k = some exports → P k exports) →
      ∀ target, p.files.contains target ∧ isSource target → ∀ exports,
        p.lookup cache [] target = .ok exports → P target exports)
    {s : ProjectState} (h : p.Reached s) :
    ∀ k exports, s.cache.get? k = some exports → P k exports := by
  induction h with
  | fresh =>
    intro k exports hk
    cases hk
  | @exportsOf s specifier file _ ih =>
    intro k exports hk
    rw [cache_exportsOf] at hk
    cases hr : p.resolve? specifier file with
    | none =>
      rw [hr] at hk
      exact ih k exports hk
    | some target =>
      rw [hr] at hk
      dsimp only at hk
      cases hl : p.lookup s.cache [] target with
      | error e =>
        rw [hl] at hk
        exact ih k exports hk
      | ok found =>
        simp only [hl, Table.get?_insert] at hk
        by_cases hkt : k = target
        · simp only [hkt, if_pos, Option.some.injEq] at hk
          rw [hkt, ← hk]
          exact hfound s.cache ih target (contains_of_resolve? hr) found hl
        · rw [if_neg hkt] at hk
          exact ih k exports hk
  | @typeOf s symbol _ ih =>
    rw [cache_typeOf]
    exact ih
  | sourceFile path _ ih => exact ih

/-- In every state that the program reaches the cached exports agree. -/
theorem Reached.agrees (hp : p.IsReadable) (hacyclic : p.IsAcyclic) {s : ProjectState}
    (h : p.Reached s) : ∀ k exports, s.cache.get? k = some exports → p.Agrees k exports := by
  apply Reached.cached (P := p.Agrees) _ h
  intro cache hcache target htarget exports hexports
  obtain ⟨found, hfound, hagrees⟩ := lookup_agrees hp hacyclic hcache htarget
    (List.forall_mem_nil _)
  rw [hfound] at hexports
  cases hexports
  exact hagrees

theorem symbol_inj {name : String} {a b : Option (List Entry)}
    (h : a.map (fun entries => (⟨name, entries.map Entry.declaration,
      entries.map Entry.origin⟩ : ExportedSymbol (List Origin))) =
        b.map fun entries => ⟨name, entries.map Entry.declaration, entries.map Entry.origin⟩) :
    a = b := by
  cases a <;> cases b
  · rfl
  · cases h
  · cases h
  · simp only [Option.map_some, Option.some.injEq, ExportedSymbol.mk.injEq, true_and] at h
    rw [entries_eq_of_map h.1 h.2]

/-- Where no module leads back to itself through re-exports, every look-up of a module finds its
exports, whatever the program was asked before, and no name comes twice. A name has the declarations
that are found by following this one name, if what it leads to is declared plainly. -/
theorem exportsOf_resolves_names (hp : p.IsReadable) (hacyclic : p.IsAcyclic) {s : ProjectState}
    (hs : p.Reached s) {specifier file : String} (hm : p.resolve? specifier file = some m) :
    ∃ symbols, (p.exportsOf specifier file s).outcome = .ok (some symbols) ∧
      (symbols.map ExportedSymbol.name).Nodup ∧
      ∀ name, p.IsPlainFrom m name → ∀ found, p.Resolves m name found ↔
        symbols.find? (fun s => s.name == name) = found.map fun entries =>
          ⟨name, entries.map Entry.declaration, entries.map Entry.origin⟩ := by
  obtain ⟨exports, hexports, hagrees⟩ := lookup_agrees hp hacyclic (hs.agrees hp hacyclic)
    (contains_of_resolve? hm) (List.forall_mem_nil _)
  refine ⟨symbols exports, outcome_exportsOf_of_lookup hm hexports, ?_, fun name hplain found => ?_⟩
  · rw [map_name_symbols]
    exact hagrees.nodup
  · rw [hagrees.resolves name hplain, find?_symbols]
    exact ⟨fun h => by rw [h], symbol_inj⟩

/-- Where all that is taken over comes from modules of a lower rank, re-exports never lead back. -/
theorem isAcyclic_of_rank (rank : String → Nat)
    (h : ∀ a ∈ p.fileNames, ∀ taken ∈ p.takenOver a, ∀ b ∈ p.resolve? taken.1 a,
      rank b < rank a) : p.IsAcyclic := by
  have hstep : ∀ a b, p.files.contains a → p.Reexports a b → rank b < rank a := by
    intro a b ha hab
    have htaken : ∃ taken ∈ p.takenOver a, p.resolve? taken.1 a = some b := by
      rcases hab with ⟨f, hf, exported, specifier, name, hitem, hr⟩ | ⟨f, hf, specifier, hitem, hr⟩
      · exact ⟨_, mem_takenOver.2 ⟨f, hf, _, hitem, rfl⟩, hr⟩
      · exact ⟨_, mem_takenOver.2 ⟨f, hf, _, hitem, rfl⟩, hr⟩
    obtain ⟨taken, hmem, hr⟩ := htaken
    exact h a (mem_fileNames_of_contains ha) taken hmem b hr
  have hless : ∀ a b, p.files.contains a → Relation.TransGen p.Reexports a b →
      rank b < rank a := by
    intro a b ha hab
    induction hab with
    | single hedge => exact hstep _ _ ha hedge
    | tail hbefore hedge ih =>
      obtain ⟨_, _, hlast⟩ := Relation.TransGen.tail'_iff.1 hbefore
      exact Nat.lt_trans (hstep _ _ hlast.contains.1 hedge) ih
  intro m hm
  obtain ⟨_, _, hlast⟩ := Relation.TransGen.tail'_iff.1 hm
  exact absurd (hless m m hlast.contains.1 hm) (Nat.lt_irrefl _)

/-- Where no module leads back to itself, no search is linked back. -/
theorem IsAcyclic.not_linksBack (h : p.IsAcyclic) : ¬ p.LinksBack m := by
  have hreach : ∀ visiting, p.Visits m visiting → ∀ a ∈ visiting.head?, ∀ k ∈ visiting,
      Relation.ReflTransGen p.Reexports k a := by
    intro visiting hvisits
    induction hvisits with
    | start => simp [Relation.ReflTransGen.refl]
    | @next a b visiting _ hedge _ ih =>
      intro c hc k hk
      obtain rfl := Option.some.inj hc
      rcases List.mem_cons.1 hk with rfl | hk
      · exact .refl
      · exact (ih a rfl k hk).tail hedge
  rintro ⟨a, b, visiting, hvisits, hlink, hmem⟩
  exact h b (Relation.TransGen.tail' (hreach _ hvisits a rfl b hmem) (.inl hlink))

theorem LeadsOn.contains {a b : String × String} (h : p.LeadsOn a b) : p.files.contains b.1 := by
  cases h with
  | taken _ _ hr | star _ _ _ _ hr => exact (contains_of_resolve? hr).1

/-- Where files export nothing but what is declared plainly, this holds wherever a name leads. -/
theorem isPlainFrom_of_files {name : String} (hm : p.files.contains m)
    (h : ∀ k ∈ p.fileNames, ∀ f ∈ (p.read k).toOption, f.HasPlainExports) :
    p.IsPlainFrom m name := by
  intro k original f hreach hf
  have hk : p.files.contains k := by
    rcases Relation.ReflTransGen.cases_tail hreach with hsame | ⟨_, _, hstep⟩
    · cases hsame
      exact hm
    · exact hstep.contains
  have hplain := h k (mem_fileNames_of_contains hk) f (by simp [hf, Except.toOption])
  exact hplain.exportsPlainly original

/-- A symbol with its declarations, told by the files that declare it. -/
theorem exists_symbol_of_declaringFiles {s : ProjectState} {specifier file name : String}
    {files : List String} (hm : p.resolve? specifier file = some m)
    (h : declaringFiles (p.lookup s.cache [] m) name = some files) :
    ∃ symbols, ∃ entries : List Entry,
      (p.exportsOf specifier file s).outcome = .ok (some symbols) ∧
      symbols.find? (fun s => s.name == name) =
        some ⟨name, entries.map Entry.declaration, entries.map Entry.origin⟩ ∧
      entries.map (fun e => e.origin.file) = files := by
  cases hl : p.lookup s.cache [] m with
  | error e => simp [hl, declaringFiles, Except.toOption] at h
  | ok exports =>
    rw [hl] at h
    obtain ⟨entries, hentries, hfiles⟩ := Option.map_eq_some_iff.1 h
    refine ⟨symbols exports, entries, outcome_exportsOf_of_lookup hm hl, ?_, hfiles⟩
    exact (find?_symbols exports name).trans (congrArg (Option.map _) hentries)

/-- The tree of `const x = 1;` from an offset on. -/
def constantDeclaration (start : Nat) : ParseTree :=
  let leaf (type : String) (start : Nat) : ParseTree :=
    ⟨type, true, false, start, start + 1, [], []⟩
  ⟨"lexical_declaration", true, false, start, start + 12,
    [⟨"variable_declarator", true, false, start + 6, start + 11,
      [leaf "identifier" (start + 6), leaf "number" (start + 10)], [(.name, 0), (.value, 1)]⟩], []⟩

/-- The tree of `export const x = 1;` from an offset on. -/
def exportedConstant (start : Nat) : ParseTree :=
  ⟨"export_statement", true, false, start, start + 19, [constantDeclaration (start + 7)],
    [(.declaration, 0)]⟩

/-- The tree of `import { x as z } from './c';` and `export { z as x };`. -/
def importedTree : ParseTree :=
  let renamed (type : String) (start : Nat) : ParseTree :=
    ⟨type, true, false, start, start + 6, [⟨"identifier", true, false, start, start + 1, [], []⟩,
      ⟨"identifier", true, false, start + 5, start + 6, [], []⟩], [(.name, 0), (.newName, 1)]⟩
  ⟨"program", true, false, 0, 49,
    [⟨"import_statement", true, false, 0, 29,
      [⟨"import_clause", true, false, 7, 17,
        [⟨"named_imports", true, false, 7, 17, [renamed "import_specifier" 9], []⟩], []⟩,
        ⟨"string", true, false, 23, 28, [], []⟩], [(.source, 1)]⟩,
      ⟨"export_statement", true, false, 30, 48,
        [⟨"export_clause", true, false, 37, 47, [renamed "export_specifier" 39], []⟩], []⟩], []⟩

/-- A module with two stars, of which the first leads to a module that exports what it imports from
another one under another name. -/
def layeredProgram : Project :=
  ofFiles [
    ("a.ts", ⟨"export * from './b';\nexport * from './d';\n", some (false, starTree)⟩),
    ("b.ts", ⟨"import \x7b x as z \x7d from './c';\nexport \x7b z as x \x7d;\n",
      some (false, importedTree)⟩),
    ("c.ts", ⟨"export const x = 1;\n",
      some (false, ⟨"program", true, false, 0, 20, [exportedConstant 0], []⟩)⟩),
    ("d.ts", ⟨"export const x = 2;\n",
      some (false, ⟨"program", true, false, 0, 20, [exportedConstant 0], []⟩)⟩)]

theorem layeredProgram_isReadable : layeredProgram.IsReadable :=
  isReadable_ofFiles (by decide)

theorem layeredProgram_isAcyclic : layeredProgram.IsAcyclic :=
  isAcyclic_of_rank (fun path => ["d.ts", "c.ts", "b.ts", "a.ts"].idxOf path) (by decide +kernel)

theorem layeredProgram_isPlainFrom (name : String) : layeredProgram.IsPlainFrom "a.ts" name :=
  isPlainFrom_of_files (by decide) (by decide +kernel)

theorem layeredProgram_lookup (cache : Table Exports) (file : String) :
    layeredProgram.lookup cache [] file = layeredProgram.boundedLookup cache 5 [] file :=
  lookup_eq_boundedLookup (by decide)

theorem layeredProgram_declaringFiles :
    declaringFiles (layeredProgram.lookup (layeredProgram.after [("./d", "main.ts")]).cache []
      "a.ts") "x" = some ["c.ts"] := by
  have hd : layeredProgram.resolve? "./d" "main.ts" = some "d.ts" := by decide
  rw [after, List.foldl_cons, List.foldl_nil, cache_exportsOf, hd]
  dsimp only
  rw [layeredProgram_lookup, layeredProgram_lookup]
  decide +kernel

/-- The name comes by the first star, through an import under another name, though another module
with the name was asked for before. -/
theorem exportsOf_resolves_names_layered :
    layeredProgram.IsReadable ∧ layeredProgram.IsAcyclic ∧
      layeredProgram.Reached (layeredProgram.after [("./d", "main.ts")]) ∧
      layeredProgram.resolve? "./a" "main.ts" = some "a.ts" ∧
      layeredProgram.IsPlainFrom "a.ts" "x" ∧ ∃ symbols entries,
        (layeredProgram.exportsOf "./a" "main.ts"
          (layeredProgram.after [("./d", "main.ts")])).outcome = .ok (some symbols) ∧
        layeredProgram.Resolves "a.ts" "x" (some entries) ∧
        entries.map (fun e => e.origin.file) = ["c.ts"] := by
  have ha : layeredProgram.resolve? "./a" "main.ts" = some "a.ts" := by decide
  have hreached : layeredProgram.Reached (layeredProgram.after [("./d", "main.ts")]) :=
    .exportsOf "./d" "main.ts" .fresh
  obtain ⟨found, houtcome, -, hnames⟩ := exportsOf_resolves_names layeredProgram_isReadable
    layeredProgram_isAcyclic hreached ha
  obtain ⟨symbols, entries, hsymbols, hfind, hfiles⟩ :=
    exists_symbol_of_declaringFiles ha layeredProgram_declaringFiles
  obtain rfl : found = symbols := Option.some.inj (Except.ok.inj (houtcome.symm.trans hsymbols))
  exact ⟨layeredProgram_isReadable, layeredProgram_isAcyclic, hreached, ha,
    layeredProgram_isPlainFrom "x", found, entries, houtcome,
    (hnames "x" (layeredProgram_isPlainFrom "x") (some entries)).2 hfind, hfiles⟩

/-- The tree of `const { a, b } = o;` after `export `. -/
def patternDeclaration : ParseTree :=
  let leaf (type : String) (start : Nat) : ParseTree :=
    ⟨type, true, false, start, start + 1, [], []⟩
  ⟨"lexical_declaration", true, false, 7, 26, [⟨"variable_declarator", true, false, 13, 25,
    [⟨"object_pattern", true, false, 13, 21, [leaf "shorthand_property_identifier_pattern" 15,
      leaf "shorthand_property_identifier_pattern" 18], []⟩, leaf "identifier" 24],
    [(.name, 0), (.value, 1)]⟩], []⟩

def patternExport : ParseTree :=
  ⟨"export_statement", true, false, 0, 26, [patternDeclaration], [(.declaration, 0)]⟩

/-- A file that exports two variables which a pattern binds. -/
def patternFile : SourceFile :=
  ⟨"b.ts", "typescript", "export const \x7b a, b \x7d = o;\n", false,
    ⟨"program", true, false, 0, 27, [patternExport], []⟩⟩

def patternProgram : Project :=
  ofFiles [("b.ts", ⟨patternFile.content, some (false, patternFile.root)⟩)]

/-- Each of the two names has one declaration, and the export statement binds it. -/
theorem patternFile_saysOf {name : String} (h : name ∈ ["a", "b"]) :
    ∃ entry, patternFile.Says patternExport name (.own [entry]) := by
  have hnames : ∀ name ∈ ["a", "b"], name ∈ patternFile.boundNames patternDeclaration ∧
      (patternFile.valueEntries name).length = 1 := by decide +kernel
  obtain ⟨hname, hlength⟩ := hnames name h
  obtain ⟨entry, hentry⟩ := List.length_eq_one_iff.1 hlength
  have hform : patternFile.ExportForm patternExport name (.own (patternFile.valueEntries name)) :=
    .declaration rfl rfl hname (by simp [hentry])
  rw [hentry] at hform
  exact ⟨entry, rfl, rfl, hform⟩

/-- The names of a module's symbols, told by its exports. -/
theorem exists_symbols_of_names {s : ProjectState} {specifier file : String} {names : List String}
    (hm : p.resolve? specifier file = some m)
    (h : (p.lookup s.cache [] m).toOption.map Table.names = some names) :
    ∃ symbols, (p.exportsOf specifier file s).outcome = .ok (some symbols) ∧
      symbols.map ExportedSymbol.name = names := by
  cases hl : p.lookup s.cache [] m with
  | error e => simp [hl, Except.toOption] at h
  | ok exports =>
    have hnames : exports.names = names := by simpa [hl, Except.toOption] using h
    exact ⟨symbols exports, outcome_exportsOf_of_lookup hm hl,
      (map_name_symbols exports).trans hnames⟩

/-- A name that the pattern binds has a declaration, but there is no symbol of it: the pattern
itself counts as the name. -/
theorem patternProgram_lacks_name :
    patternProgram.IsReadable ∧ patternProgram.IsAcyclic ∧
      patternProgram.resolve? "./b" "main.ts" = some "b.ts" ∧ ∃ symbols entry,
        (patternProgram.exportsOf "./b" "main.ts" {}).outcome = .ok (some symbols) ∧
        patternProgram.Resolves "b.ts" "a" (some [entry]) ∧
        symbols.find? (fun s => s.name == "a") = none ∧
        symbols.map ExportedSymbol.name = ["\x7b a, b \x7d"] := by
  have hm : patternProgram.resolve? "./b" "main.ts" = some "b.ts" := by decide
  have hlookup : patternProgram.lookup .empty [] "b.ts" =
      patternProgram.boundedLookup .empty 2 [] "b.ts" := lookup_eq_boundedLookup (by decide)
  have hkeys : (patternProgram.lookup .empty [] "b.ts").toOption.map Table.names =
      some ["\x7b a, b \x7d"] := by
    rw [hlookup]
    decide +kernel
  obtain ⟨symbols, hsymbols, hnames⟩ := exists_symbols_of_names (s := {}) hm hkeys
  have hnone : ∀ symbol ∈ symbols, symbol.name ≠ "a" := by
    intro symbol hmem hname
    have hmem := List.mem_map_of_mem (f := ExportedSymbol.name) hmem
    rw [hnames, hname] at hmem
    exact absurd hmem (by decide)
  obtain ⟨entry, hsaid⟩ := patternFile_saysOf (List.mem_cons_self : "a" ∈ ["a", "b"])
  have hexports : patternFile.Exports "a" (.own [entry]) :=
    ⟨[], patternExport, [], rfl, hsaid, List.forall_mem_nil _⟩
  exact ⟨isReadable_ofFiles (by decide), isAcyclic_of_rank (fun _ => 0) (by decide +kernel), hm,
    symbols, entry, hsymbols, .own rfl hexports, by simpa using hnone, hnames⟩

end Project

end DeferredImports
