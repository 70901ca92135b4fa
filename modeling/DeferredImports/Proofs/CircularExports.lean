import DeferredImports.Proofs.ExportLookup
import DeferredImports.Proofs.ProgramFiles
import Mathlib.Logic.Basic
import Mathlib.Logic.Relation

/-! When a look-up of exports fails as circular: exactly when the search can follow re-exports, with
no module twice, to a module that links back to one on the way. -/

namespace DeferredImports

namespace ExportItem

/-- The name that the item exports; a star names none. -/
def exported? : ExportItem → Option String
  | own exported _ | link exported _ _ => some exported
  | star _ => none

end ExportItem

namespace Project

/-- One module takes a name over from the other, by a re-export or by an import that it exports. -/
def Links (p : Project) (a b : String) : Prop :=
  ∃ f, p.read a = .ok f ∧ ∃ exported specifier name,
    .link exported specifier name ∈ f.exportItems ∧ p.resolve? specifier a = some b

/-- One module takes all names over from the other. -/
def Stars (p : Project) (a b : String) : Prop :=
  ∃ f, p.read a = .ok f ∧ ∃ specifier,
    .star specifier ∈ f.exportItems ∧ p.resolve? specifier a = some b

def Reexports (p : Project) (a b : String) : Prop := p.Links a b ∨ p.Stars a b

/-- The modules that a search from a module may be visiting at one time, the latest first. -/
inductive Visits (p : Project) (start : String) : List String → Prop
  | start : Visits p start [start]
  | next {a b : String} {visiting : List String} : Visits p start (a :: visiting) →
      p.Reexports a b → b ∉ a :: visiting → Visits p start (b :: a :: visiting)

/-- The search comes to a module that takes a name over from a module that is being visited. -/
def LinksBack (p : Project) (start : String) : Prop :=
  ∃ a b visiting, p.Visits start (a :: visiting) ∧ p.Links a b ∧ b ∈ a :: visiting

variable {p : Project} {start : String}

theorem Reexports.contains {a b : String} (h : p.Reexports a b) :
    p.files.contains b ∧ isSource b := by
  rcases h with ⟨_, _, _, _, _, _, hresolve⟩ | ⟨_, _, _, _, hresolve⟩
  · exact contains_of_resolve? hresolve
  · exact contains_of_resolve? hresolve

theorem Reexports.read {a b : String} (h : p.Reexports a b) : ∃ f, p.read a = .ok f := by
  rcases h with ⟨f, hf, _⟩ | ⟨f, hf, _⟩
  · exact ⟨f, hf⟩
  · exact ⟨f, hf⟩

/-- No module is visited twice, and each is a source file of the program. -/
theorem Visits.head {a : String} {visiting : List String} (hstart : p.files.contains start)
    (hsource : isSource start) (h : p.Visits start (a :: visiting)) :
    a ∉ visiting ∧ p.files.contains a ∧ isSource a := by
  cases h with
  | start => exact ⟨List.not_mem_nil, hstart, hsource⟩
  | next _ hedge hnew => exact ⟨hnew, hedge.contains⟩

/-- The module that is asked for an item, unless it is one that a star stops at. -/
def asked? (resolve : String → Option String) (visiting : List String) :
    ExportItem → Option String
  | .own _ _ => none
  | .link _ specifier _ => resolve specifier
  | .star specifier => (resolve specifier).filter (· ∉ visiting)

section items

variable {resolve : String → Option String} {visiting : List String}
  {found : String → Except Failure Exports}

theorem extended_error_iff {exports : Exports} {item : ExportItem} {e : Failure} :
    extended resolve visiting found exports item = .error e ↔
      ∃ target, asked? resolve visiting item = some target ∧ found target = .error e := by
  cases item with
  | own exported entries => simp [extended, asked?]
  | link exported specifier name =>
    unfold extended asked?
    dsimp only
    cases resolve specifier with
    | none => simp
    | some target =>
      cases h : found target <;> simp [h, bind, Except.bind, pure, Except.pure]
  | star specifier =>
    unfold extended asked?
    dsimp only
    cases resolve specifier with
    | none => simp
    | some target =>
      by_cases hv : target ∈ visiting
      · simp [hv]
      · have hfilter : (some target).filter (· ∉ visiting) = some target := by simp [hv]
        dsimp only
        rw [hfilter, if_neg hv]
        cases h : found target <;> simp [h, bind, Except.bind, pure, Except.pure]

/-- Taking over items fails with the failure of a module that is asked for one of them. -/
theorem error_of_extendedAll {exports : Exports} {items : List ExportItem} {e : Failure}
    (h : extendedAll resolve visiting found exports items = .error e) :
    ∃ item ∈ items, ∃ target, asked? resolve visiting item = some target ∧
      found target = .error e := by
  induction items generalizing exports with
  | nil => cases h
  | cons item items ih =>
    rw [extendedAll] at h
    cases hitem : extended resolve visiting found exports item with
    | error e' =>
      rw [hitem] at h
      cases h
      exact ⟨item, List.mem_cons_self, extended_error_iff.1 hitem⟩
    | ok exports' =>
      rw [hitem] at h
      obtain ⟨other, hother, hfailed⟩ := ih h
      exact ⟨other, List.mem_cons_of_mem item hother, hfailed⟩

/-- A failure of a module that is asked for an item is a failure of the whole. -/
theorem extendedAll_error {items : List ExportItem} {item : ExportItem} {target : String}
    {e : Failure} (hmem : item ∈ items) (hasked : asked? resolve visiting item = some target)
    (he : found target = .error e) (exports : Exports) :
    ∃ e', extendedAll resolve visiting found exports items = .error e' := by
  induction items generalizing exports with
  | nil => cases hmem
  | cons first items ih =>
    rw [extendedAll]
    cases hfirst : extended resolve visiting found exports first with
    | error e' => exact ⟨e', rfl⟩
    | ok exports' =>
      rcases List.mem_cons.1 hmem with rfl | hmem
      · rw [extended_error_iff.2 ⟨target, hasked, he⟩] at hfirst
        cases hfirst
      · exact ih hmem exports'

end items

theorem get?_empty (path : String) : (Table.empty : Table Exports).get? path = none := rfl

/-- Of the modules that are asked, one that is being visited is linked to. -/
theorem reexports_of_asked? {a b : String} {f : SourceFile} {visiting : List String}
    {item : ExportItem} (hf : p.read a = .ok f) (hitem : item ∈ f.exportItems)
    (hasked : asked? (p.resolve? · a) visiting item = some b) :
    p.Reexports a b ∧ (b ∈ visiting → p.Links a b) := by
  cases item with
  | own exported entries => cases hasked
  | link exported specifier name =>
    have hlinks : p.Links a b := ⟨f, hf, exported, specifier, name, hitem, hasked⟩
    exact ⟨.inl hlinks, fun _ => hlinks⟩
  | star specifier =>
    obtain ⟨hresolve, hnew⟩ := Option.filter_eq_some_iff.1 hasked
    refine ⟨.inr ⟨f, hf, specifier, hitem, hresolve⟩, fun hmem => ?_⟩
    exact absurd hmem (by simpa using hnew)

theorem asked?_of_reexports {a b : String} {visiting : List String} (h : p.Reexports a b)
    (hv : b ∈ visiting → p.Links a b) :
    ∃ f, p.read a = .ok f ∧ ∃ item ∈ f.exportItems,
      asked? (p.resolve? · a) visiting item = some b := by
  have hlink : p.Links a b → ∃ f, p.read a = .ok f ∧ ∃ item ∈ f.exportItems,
      asked? (p.resolve? · a) visiting item = some b := by
    rintro ⟨f, hf, exported, specifier, name, hitem, hresolve⟩
    exact ⟨f, hf, _, hitem, hresolve⟩
  rcases h with h | ⟨f, hf, specifier, hitem, hresolve⟩
  · exact hlink h
  · by_cases hmem : b ∈ visiting
    · exact hlink (hv hmem)
    · refine ⟨f, hf, _, hitem, ?_⟩
      exact Option.filter_eq_some_iff.2 ⟨hresolve, by simpa using hmem⟩

/-- A search that fails has come to a module that cannot be read, or to one that links back. -/
theorem linksBack_of_error {cache : Table Exports} (hstart : p.files.contains start)
    (hsource : isSource start) {a : String} {visiting : List String}
    (hvisits : p.Visits start (a :: visiting)) {e : Failure}
    (h : p.lookup cache visiting a = .error e) :
    (∃ file, e = .circularReexport file) ∧ p.LinksBack start ∨
      ∃ b, p.files.contains b ∧ isSource b ∧ p.read b = .error e := by
  induction hn : (p.unvisited visiting).length using Nat.strongRecOn generalizing a visiting with
  | ind n ih =>
    subst hn
    have hnone : ∀ {b visiting}, p.lookup cache visiting b = .error e → cache.get? b = none := by
      intro b visiting hb
      cases hc : cache.get? b with
      | none => rfl
      | some exports => simp [lookup_of_cached hc] at hb
    obtain ⟨hnew, hcontains, hsrc⟩ := hvisits.head hstart hsource
    have hfile := mem_fileNames_of_contains hcontains
    rw [lookup_of_unvisited (hnone h) hnew hfile] at h
    cases hread : p.read a with
    | error e' =>
      rw [hread] at h
      cases h
      exact .inr ⟨a, hcontains, hsrc, hread⟩
    | ok f =>
      rw [hread] at h
      obtain ⟨item, hitem, b, hasked, hb⟩ := error_of_extendedAll h
      obtain ⟨hedge, hlink⟩ := reexports_of_asked? hread hitem hasked
      by_cases hmem : b ∈ a :: visiting
      · rw [lookup_of_visiting (hnone hb) hmem] at hb
        cases hb
        exact .inl ⟨⟨b, rfl⟩, a, b, visiting, hvisits, hlink hmem, hmem⟩
      · exact ih _ (length_unvisited_cons_lt hfile hnew) (hvisits.next hedge hmem) hb rfl

/-- A failure anywhere in a search is a failure of the search. -/
theorem Visits.error (hstart : p.files.contains start) (hsource : isSource start)
    {a : String} {visiting : List String} (hvisits : p.Visits start (a :: visiting))
    (h : ∃ e, p.lookup .empty visiting a = .error e) :
    ∃ e, p.lookup .empty [] start = .error e := by
  induction visiting generalizing a with
  | nil =>
    cases hvisits
    exact h
  | cons b visiting ih =>
    cases hvisits with
    | next hbefore hedge hnew =>
      obtain ⟨e, he⟩ := h
      obtain ⟨hb, hcontains, -⟩ := hbefore.head hstart hsource
      obtain ⟨f, hread, item, hitem, hasked⟩ :=
        asked?_of_reexports hedge fun hmem => absurd hmem hnew
      apply ih hbefore
      rw [lookup_of_unvisited (get?_empty b) hb (mem_fileNames_of_contains hcontains), hread]
      exact extendedAll_error hitem hasked he .empty

theorem error_of_linksBack (hstart : p.files.contains start) (hsource : isSource start)
    (h : p.LinksBack start) : ∃ e, p.lookup .empty [] start = .error e := by
  obtain ⟨a, b, visiting, hvisits, hlink, hmem⟩ := h
  obtain ⟨ha, hcontains, -⟩ := hvisits.head hstart hsource
  obtain ⟨f, hread, item, hitem, hasked⟩ := asked?_of_reexports (.inl hlink) fun _ => hlink
  apply hvisits.error hstart hsource
  rw [lookup_of_unvisited (get?_empty a) ha (mem_fileNames_of_contains hcontains), hread]
  exact extendedAll_error hitem hasked (lookup_of_visiting (get?_empty b) hmem) .empty

theorem read_ne_circularReexport (path file : String) :
    p.read path ≠ .error (.circularReexport file) := by
  unfold read SourceFile.parse
  intro h
  cases hget : p.files.get? (Path.normalize path) with
  | none => simp [hget, Failure.circularReexport] at h
  | some content =>
    simp only [hget] at h
    split at h
    · cases h
    · split at h
      · split at h <;> cases h
      · cases h

/-- A look-up in a fresh program fails as circular. -/
def RaisesCircular (p : Project) (specifier file : String) : Prop :=
  ∃ target, (p.exportsOf specifier file {}).outcome = .error (.circularReexport target)

/-- A fresh look-up fails as circular exactly when its search is linked back to a module that is
being visited. -/
theorem raisesCircular_iff_linksBack (hp : p.IsReadable) {specifier file : String}
    (hm : p.resolve? specifier file = some start) :
    p.RaisesCircular specifier file ↔ p.LinksBack start := by
  obtain ⟨hcontains, hsource⟩ := contains_of_resolve? hm
  have houtcome : (p.exportsOf specifier file {}).outcome =
      (p.lookup .empty [] start).map fun exports => some (symbols exports) := by
    rw [outcome_exportsOf, hm]
  unfold RaisesCircular
  rw [houtcome]
  constructor
  · rintro ⟨target, h⟩
    cases hl : p.lookup .empty [] start with
    | ok exports =>
      rw [hl] at h
      cases h
    | error e =>
      rw [hl] at h
      cases h
      rcases linksBack_of_error hcontains hsource .start hl with ⟨-, hback⟩ | ⟨b, -, -, hread⟩
      · exact hback
      · exact absurd hread (read_ne_circularReexport b target)
  · intro h
    obtain ⟨e, he⟩ := error_of_linksBack hcontains hsource h
    rcases linksBack_of_error hcontains hsource .start he with
      ⟨⟨target, rfl⟩, -⟩ | ⟨b, hb, hsrc, hread⟩
    · exact ⟨target, by rw [he]; rfl⟩
    · obtain ⟨f, hf⟩ := hp b hb hsrc
      rw [hf] at hread
      cases hread

/-- A fresh look-up of a module finds its exports exactly when its search is not linked back. -/
theorem exists_symbols_iff_not_linksBack (hp : p.IsReadable) {specifier file : String}
    (hm : p.resolve? specifier file = some start) :
    (∃ symbols, (p.exportsOf specifier file {}).outcome = .ok (some symbols)) ↔
      ¬ p.LinksBack start := by
  obtain ⟨hcontains, hsource⟩ := contains_of_resolve? hm
  have hcircular := raisesCircular_iff_linksBack hp hm
  constructor
  · rintro ⟨symbols, hfound⟩ hback
    obtain ⟨target, hfailed⟩ := hcircular.2 hback
    rw [hfound] at hfailed
    cases hfailed
  · intro hback
    cases hl : p.lookup .empty [] start with
    | ok exports => exact ⟨symbols exports, outcome_exportsOf_of_lookup hm hl⟩
    | error e =>
      rcases linksBack_of_error hcontains hsource .start hl with
        ⟨-, hlinks⟩ | ⟨b, hb, hsrc, hread⟩
      · exact absurd hlinks hback
      · obtain ⟨f, hf⟩ := hp b hb hsrc
        rw [hf] at hread
        cases hread

/-- The module has an item of its own for the name, a declaration or a link. -/
def Defines (p : Project) (u : String × String) : Prop :=
  ∃ f, p.read u.1 = .ok f ∧ ∃ item ∈ f.exportItems, item.exported? = some u.2

/-- A name of a module is a name of another module: linked to it, or, if the module has no item for
it, found by a star. -/
def NameStep (p : Project) (u v : String × String) : Prop :=
  ∃ f, p.read u.1 = .ok f ∧
    ((∃ specifier, .link u.2 specifier v.2 ∈ f.exportItems ∧
        p.resolve? specifier u.1 = some v.1) ∨
      (¬ p.Defines u ∧ u.2 ≠ "default" ∧ v.2 = u.2 ∧ ∃ specifier,
        .star specifier ∈ f.exportItems ∧ p.resolve? specifier u.1 = some v.1))

/-- Some exported name of the module leads to a name of a module that leads back to itself. -/
def HasNameCycle (p : Project) (start : String) : Prop :=
  ∃ name u v, Relation.ReflTransGen p.NameStep (start, name) u ∧ p.Defines u ∧
    Relation.ReflTransGen p.NameStep (start, name) v ∧ Relation.TransGen p.NameStep v v

/-- What an item takes over from other modules: the specifier, and for a link the exported name with
the name that it stands for. -/
def takenOver? : ExportItem → Option (String × Option (String × String))
  | .own _ _ => none
  | .link exported specifier name => some (specifier, some (exported, name))
  | .star specifier => some (specifier, none)

/-- What a module takes over from other modules, item by item. -/
def takenOver (p : Project) (path : String) : List (String × Option (String × String)) :=
  match p.read path with
  | .ok f => f.exportItems.filterMap takenOver?
  | .error _ => []

theorem mem_takenOver {path : String} {taken : String × Option (String × String)} :
    taken ∈ p.takenOver path ↔
      ∃ f, p.read path = .ok f ∧ ∃ item ∈ f.exportItems, takenOver? item = some taken := by
  unfold takenOver
  cases p.read path <;> simp

theorem links_of_mem {a b exported specifier name : String}
    (h : (specifier, some (exported, name)) ∈ p.takenOver a)
    (hb : p.resolve? specifier a = some b) : p.Links a b := by
  obtain ⟨f, hf, item, hitem, htaken⟩ := mem_takenOver.1 h
  cases item <;> cases htaken
  exact ⟨f, hf, exported, specifier, name, hitem, hb⟩

theorem Reexports.takesOver {a b : String} (h : p.Reexports a b) : p.takenOver a ≠ [] := by
  rcases h with ⟨f, hf, exported, specifier, name, hitem, -⟩ | ⟨f, hf, specifier, hitem, -⟩
  · exact List.ne_nil_of_mem (mem_takenOver.2 ⟨f, hf, _, hitem, rfl⟩)
  · exact List.ne_nil_of_mem (mem_takenOver.2 ⟨f, hf, _, hitem, rfl⟩)

theorem NameStep.takesOver {u v : String × String} (h : p.NameStep u v) :
    ∃ specifier names, (specifier, names) ∈ p.takenOver u.1 ∧
      p.resolve? specifier u.1 = some v.1 ∧ ∀ named ∈ names, named = (u.2, v.2) := by
  obtain ⟨f, hf, ⟨specifier, hitem, hresolve⟩ | ⟨-, -, -, specifier, hitem, hresolve⟩⟩ := h
  · refine ⟨specifier, some (u.2, v.2), mem_takenOver.2 ⟨f, hf, _, hitem, rfl⟩, hresolve, ?_⟩
    exact fun named hnamed => (Option.mem_some.1 hnamed).symm
  · refine ⟨specifier, none, mem_takenOver.2 ⟨f, hf, _, hitem, rfl⟩, hresolve, ?_⟩
    exact fun named hnamed => nomatch hnamed

/-- Fresh look-ups of a module fail as circular exactly if a search from it is linked back, and fail
in no other way. So the exports of a module whose names do not lead back to themselves are found
exactly if searches are linked back only where some name does lead back. -/
theorem raisesCircular_only_for_name_cycles_iff (hp : p.IsReadable) {specifier file : String}
    (hm : p.resolve? specifier file = some start) :
    (p.RaisesCircular specifier file ↔ p.LinksBack start) ∧
      ((¬ p.HasNameCycle start →
          ∃ symbols, (p.exportsOf specifier file {}).outcome = .ok (some symbols)) ↔
        (p.LinksBack start → p.HasNameCycle start)) := by
  refine ⟨raisesCircular_iff_linksBack hp hm, ?_⟩
  rw [exists_symbols_iff_not_linksBack hp hm]
  exact not_imp_not

/-- The tree of a link, of a constant and of its export, as in `export { x } from './b';`,
`const y = 1;` and `export { y };`. -/
def mutualTree : ParseTree :=
  let leaf (type : String) (start stop : Nat) : ParseTree :=
    ⟨type, true, false, start, stop, [], []⟩
  let clause (start : Nat) : ParseTree :=
    ⟨"export_clause", true, false, start, start + 5, [⟨"export_specifier", true, false, start + 2,
      start + 3, [leaf "identifier" (start + 2) (start + 3)], [(.name, 0)]⟩], []⟩
  let constant : ParseTree :=
    ⟨"variable_declarator", true, false, 31, 36,
      [leaf "identifier" 31 32, leaf "number" 35 36], [(.name, 0), (.value, 1)]⟩
  ⟨"program", true, false, 0, 52,
    [⟨"export_statement", true, false, 0, 24, [clause 7, leaf "string" 18 23], [(.source, 1)]⟩,
      ⟨"lexical_declaration", true, false, 25, 37, [constant], []⟩,
      ⟨"export_statement", true, false, 38, 51, [clause 45], []⟩], []⟩

/-- Two modules that take different names over from each other. -/
def mutualProgram : Project :=
  ofFiles [
    ("a.ts", ⟨"export \x7b x \x7d from './b';\nconst y = 1;\nexport \x7b y \x7d;\n",
      some (false, mutualTree)⟩),
    ("b.ts", ⟨"export \x7b y \x7d from './a';\nconst x = 1;\nexport \x7b x \x7d;\n",
      some (false, mutualTree)⟩)]

theorem mutualProgram_isReadable : mutualProgram.IsReadable :=
  isReadable_ofFiles (by decide)

theorem mutualProgram_resolve : mutualProgram.resolve? "./a" "main.ts" = some "a.ts" := by
  decide

theorem mutualProgram_takenOver :
    mutualProgram.takenOver "a.ts" = [("./b", some ("x", "x"))] ∧
      mutualProgram.takenOver "b.ts" = [("./a", some ("y", "y"))] := by
  decide

theorem mutualProgram_linksBack : mutualProgram.LinksBack "a.ts" := by
  obtain ⟨ha, hb⟩ := mutualProgram_takenOver
  have hab : mutualProgram.Links "a.ts" "b.ts" :=
    links_of_mem (by rw [ha]; exact List.mem_cons_self) (by decide)
  have hba : mutualProgram.Links "b.ts" "a.ts" :=
    links_of_mem (by rw [hb]; exact List.mem_cons_self) (by decide)
  exact ⟨"b.ts", "a.ts", ["a.ts"], .next .start (.inl hab) (by decide), hba, by decide⟩

/-- From the names of the first module there is one step, to a name that leads nowhere. -/
theorem mutualProgram_nameStep {u v : String × String} (hu : u.1 = "a.ts" ∨ u = ("b.ts", "x"))
    (h : mutualProgram.NameStep u v) : u.1 = "a.ts" ∧ v = ("b.ts", "x") := by
  obtain ⟨ha, hb⟩ := mutualProgram_takenOver
  obtain ⟨specifier, names, hmem, hresolve, hnames⟩ := h.takesOver
  rcases hu with hu | rfl
  · rw [hu] at hmem hresolve
    rw [ha, List.mem_singleton] at hmem
    cases hmem
    have htarget : mutualProgram.resolve? "./b" "a.ts" = some "b.ts" := by decide
    rw [htarget] at hresolve
    have hname := hnames ("x", "x") rfl
    refine ⟨hu, Prod.ext (Option.some.inj hresolve).symm ?_⟩
    exact (Prod.mk.inj hname).2.symm
  · rw [hb, List.mem_singleton] at hmem
    cases hmem
    have hname := hnames ("y", "y") rfl
    exact absurd (Prod.mk.inj hname).1 (by decide)

theorem mutualProgram_not_hasNameCycle : ¬ mutualProgram.HasNameCycle "a.ts" := by
  rintro ⟨name, _, v, -, -, hv, hcycle⟩
  have hreach : v.1 = "a.ts" ∨ v = ("b.ts", "x") := by
    clear hcycle
    induction hv with
    | refl => exact .inl rfl
    | tail _ hstep ih => exact .inr (mutualProgram_nameStep ih hstep).2
  -- the first step of a cycle ends at a name without steps
  obtain ⟨w, hstep, hrest⟩ := Relation.TransGen.head'_iff.1 hcycle
  obtain ⟨hv, rfl⟩ := mutualProgram_nameStep hreach hstep
  rcases Relation.ReflTransGen.cases_head hrest with hw | ⟨x, hnext, -⟩
  · rw [← hw] at hv
    exact absurd hv (by decide)
  · exact absurd (mutualProgram_nameStep (.inr rfl) hnext).1 (by decide)

/-- The search from the first module is linked back, so that its exports are not found although no
name of it leads back to itself. -/
theorem raisesCircular_only_for_name_cycles_iff_mutual :
    mutualProgram.IsReadable ∧ mutualProgram.resolve? "./a" "main.ts" = some "a.ts" ∧
      mutualProgram.LinksBack "a.ts" ∧ ¬ mutualProgram.HasNameCycle "a.ts" ∧
      mutualProgram.RaisesCircular "./a" "main.ts" ∧
      ¬ ∃ symbols, (mutualProgram.exportsOf "./a" "main.ts" {}).outcome = .ok (some symbols) := by
  obtain ⟨hcircular, hfound⟩ :=
    raisesCircular_only_for_name_cycles_iff mutualProgram_isReadable mutualProgram_resolve
  refine ⟨mutualProgram_isReadable, mutualProgram_resolve, mutualProgram_linksBack,
    mutualProgram_not_hasNameCycle, hcircular.2 mutualProgram_linksBack, fun h => ?_⟩
  exact mutualProgram_not_hasNameCycle (hfound.1 (fun _ => h) mutualProgram_linksBack)

/-- A look-up fails as circular although no name leads back to itself. -/
theorem mutualProgram_raisesCircular :
    mutualProgram.resolve? "./a" "main.ts" = some "a.ts" ∧
      mutualProgram.RaisesCircular "./a" "main.ts" ∧ ¬ mutualProgram.HasNameCycle "a.ts" :=
  ⟨mutualProgram_resolve,
    (raisesCircular_iff_linksBack mutualProgram_isReadable mutualProgram_resolve).2
      mutualProgram_linksBack,
    mutualProgram_not_hasNameCycle⟩

end Project

end DeferredImports
