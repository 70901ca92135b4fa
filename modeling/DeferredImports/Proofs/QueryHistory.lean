import DeferredImports.Proofs.CircularExports
import Mathlib.Data.List.Induction

/-! Whether the exports of a module depend on what was asked before. Main statement: they do not
exactly when no answer changes while fresh answers for other modules are cached; and what was asked
before matters only where modules re-export each other in a circle. -/

namespace DeferredImports

/-- The same names with the same declarations, in whatever order. -/
def SameExports (a b : Exports) : Prop := ∀ name, a.get? name = b.get? name

/-- The same exports, or a failure in both, of the resolution in both or in neither. -/
def SameOutcome : Except Failure Exports → Except Failure Exports → Prop
  | .ok a, .ok b => SameExports a b
  | .error a, .error b => a.IsResolution ↔ b.IsResolution
  | _, _ => False

theorem SameOutcome.refl (outcome : Except Failure Exports) : SameOutcome outcome outcome := by
  cases outcome with
  | error e => exact Iff.rfl
  | ok exports => exact fun _ => rfl

theorem SameOutcome.symm {a b : Except Failure Exports} (h : SameOutcome a b) :
    SameOutcome b a := by
  cases a <;> cases b
  · exact Iff.symm h
  · exact h
  · exact h
  · exact fun name => (h name).symm

theorem SameOutcome.trans {a b c : Except Failure Exports} (h : SameOutcome a b)
    (h' : SameOutcome b c) : SameOutcome a c := by
  cases a <;> cases b <;> cases c
  · exact Iff.trans h h'
  · exact h'
  · exact h.elim
  · exact h.elim
  · exact h.elim
  · exact h.elim
  · exact h'
  · exact fun name => (h name).trans (h' name)

theorem SameExports.insert {a b : Exports} (h : SameExports a b) (name : String)
    (entries : List Entry) : SameExports (a.insert name entries) (b.insert name entries) := by
  intro other
  rw [Table.get?_insert, Table.get?_insert, h other]

namespace Project

/-- A star adds the names that are missing, but never the default one. -/
theorem get?_addStar (exports found : Exports) (name : String) :
    (addStar exports found).get? name =
      (exports.get? name).or (if name = "default" then none else found.get? name) := by
  obtain ⟨entries⟩ := found
  unfold addStar
  induction entries generalizing exports with
  | nil =>
    have hnone : (⟨[]⟩ : Exports).get? name = none := rfl
    simp [hnone]
  | cons e es ih =>
    have hcons : (⟨e :: es⟩ : Exports).get? name =
        if e.1 = name then some e.2 else (⟨es⟩ : Exports).get? name := by
      by_cases he : e.1 = name <;> simp [Table.get?, he]
    rw [List.foldl_cons, ih, hcons]
    by_cases hskip : e.1 = "default" ∨ exports.contains e.1
    · rw [if_pos hskip]
      by_cases he : e.1 = name
      · subst he
        rcases hskip with hdefault | hthere
        · simp [hdefault]
        · obtain ⟨entries, hentries⟩ := Option.isSome_iff_exists.1 hthere
          simp [hentries]
      · rw [if_neg he]
    · rw [if_neg hskip, Table.get?_insert]
      rw [not_or] at hskip
      by_cases he : e.1 = name
      · subst he
        have hnone : exports.get? e.1 = none := by simpa [Table.contains] using hskip.2
        simp [hnone, hskip.1]
      · rw [if_neg he, if_neg (Ne.symm he)]

theorem sameExports_addStar {a b found found' : Exports} (h : SameExports a b)
    (hfound : SameExports found found') : SameExports (addStar a found) (addStar b found') := by
  intro name
  rw [get?_addStar, get?_addStar, h name, hfound name]

/-- The module that an item refers to. -/
def target? (resolve : String → Option String) : ExportItem → Option String
  | .own _ _ => none
  | .link _ specifier _ | .star specifier => resolve specifier

section items

variable {resolve : String → Option String} {visiting visited : List String}
  {found found' : String → Except Failure Exports}

/-- One more item has the same outcome where the module that it refers to has the same one and is
visited in both or in neither. -/
theorem extended_same {a b : Exports} (h : SameExports a b) (item : ExportItem)
    (hitem : ∀ m, target? resolve item = some m →
      (m ∈ visiting ↔ m ∈ visited) ∧ SameOutcome (found m) (found' m)) :
    SameOutcome (extended resolve visiting found a item)
      (extended resolve visited found' b item) := by
  cases item with
  | own exported entries => exact h.insert exported entries
  | link exported specifier name =>
    unfold extended
    dsimp only
    cases hresolve : resolve specifier with
    | none => exact h.insert exported []
    | some m =>
      obtain ⟨-, hsame⟩ := hitem m hresolve
      dsimp only
      cases hf : found m <;> cases hf' : found' m <;> rw [hf, hf'] at hsame
      · exact hsame
      · exact hsame.elim
      · exact hsame.elim
      · have hname := hsame name
        simp only [bind, Except.bind, pure, Except.pure]
        rw [hname]
        exact h.insert exported _
  | star specifier =>
    unfold extended
    dsimp only
    cases hresolve : resolve specifier with
    | none => exact h
    | some m =>
      obtain ⟨hvisit, hsame⟩ := hitem m hresolve
      dsimp only
      by_cases hm : m ∈ visiting
      · rw [if_pos hm, if_pos (hvisit.1 hm)]
        exact h
      · rw [if_neg hm, if_neg fun hm' => hm (hvisit.2 hm')]
        cases hf : found m <;> cases hf' : found' m <;> rw [hf, hf'] at hsame
        · exact hsame
        · exact hsame.elim
        · exact hsame.elim
        · exact sameExports_addStar h hsame

theorem extendedAll_same {a b : Exports} (h : SameExports a b) (items : List ExportItem)
    (hitems : ∀ item ∈ items, ∀ m, target? resolve item = some m →
      (m ∈ visiting ↔ m ∈ visited) ∧ SameOutcome (found m) (found' m)) :
    SameOutcome (extendedAll resolve visiting found a items)
      (extendedAll resolve visited found' b items) := by
  induction items generalizing a b with
  | nil => exact h
  | cons item items ih =>
    have hfirst := extended_same h item (hitems item List.mem_cons_self)
    rw [extendedAll, extendedAll]
    cases ha : extended resolve visiting found a item <;>
      cases hb : extended resolve visited found' b item <;> rw [ha, hb] at hfirst
    · exact hfirst
    · exact hfirst.elim
    · exact hfirst.elim
    · exact ih hfirst fun other hother => hitems other (List.mem_cons_of_mem item hother)

end items

variable {p : Project} {cache cache' : Table Exports} {visiting visited : List String}
  {file : String}

theorem reexports_of_target? {f : SourceFile} {item : ExportItem} {m : String}
    (hf : p.read file = .ok f) (hitem : item ∈ f.exportItems)
    (h : target? (p.resolve? · file) item = some m) : p.Reexports file m := by
  cases item with
  | own exported entries => cases h
  | link exported specifier name => exact .inl ⟨f, hf, exported, specifier, name, hitem, h⟩
  | star specifier => exact .inr ⟨f, hf, specifier, hitem, h⟩

/-- Two searches have the same outcome for a module that is cached in neither and visited in both
or in neither, if they do for the modules that it re-exports. -/
theorem lookup_same_of_reexports (hc : cache.get? file = none) (hc' : cache'.get? file = none)
    (hv : file ∈ visiting ↔ file ∈ visited)
    (h : file ∈ p.fileNames → file ∉ visiting → ∀ m, p.Reexports file m →
      (m ∈ file :: visiting ↔ m ∈ file :: visited) ∧
        SameOutcome (p.lookup cache (file :: visiting) m)
          (p.lookup cache' (file :: visited) m)) :
    SameOutcome (p.lookup cache visiting file) (p.lookup cache' visited file) := by
  by_cases hm : file ∈ visiting
  · rw [lookup_of_visiting hc hm, lookup_of_visiting hc' (hv.1 hm)]
    exact .refl _
  have hm' : file ∉ visited := fun hm' => hm (hv.2 hm')
  by_cases hf : file ∈ p.fileNames
  · rw [lookup_of_unvisited hc hm hf, lookup_of_unvisited hc' hm' hf]
    cases hread : p.read file with
    | error e => exact .refl _
    | ok f =>
      refine extendedAll_same (fun _ => rfl) f.exportItems ?_
      intro item hitem m hmtarget
      exact h hf hm m (reexports_of_target? hread hitem hmtarget)
  · rw [lookup_of_unknown hc hm hf, lookup_of_unknown hc' hm' hf]
    exact .refl _

/-- The same modules are cached, with the same exports. -/
def SameCache (cache cache' : Table Exports) : Prop :=
  ∀ m, Option.Rel SameExports (cache.get? m) (cache'.get? m)

/-- Searches with the same cache have the same outcome. -/
theorem lookup_same_of_sameCache (h : SameCache cache cache') (visiting : List String)
    (file : String) :
    SameOutcome (p.lookup cache visiting file) (p.lookup cache' visiting file) := by
  induction hn : (p.unvisited visiting).length using Nat.strongRecOn generalizing visiting file with
  | ind n ih =>
    subst hn
    have hfile := h file
    cases hc : cache.get? file <;> cases hc' : cache'.get? file <;> rw [hc, hc'] at hfile
    · apply lookup_same_of_reexports hc hc' Iff.rfl
      intro hf hv m _
      exact ⟨Iff.rfl, ih _ (length_unvisited_cons_lt hf hv) (file :: visiting) m rfl⟩
    · cases hfile
    · cases hfile
    · rw [lookup_of_cached hc, lookup_of_cached hc']
      cases hfile with
      | some hsame => exact hsame

/-- One module reaches another through re-exports. -/
def Reaches (p : Project) (a b : String) : Prop := Relation.ReflTransGen p.Reexports a b

/-- Without a cache only the visited modules that a module reaches matter for it. -/
theorem lookup_same_of_reaches (h : ∀ m, p.Reaches file m → (m ∈ visiting ↔ m ∈ visited)) :
    SameOutcome (p.lookup .empty visiting file) (p.lookup .empty visited file) := by
  induction hn : (p.unvisited visiting).length using Nat.strongRecOn
    generalizing visiting visited file with
  | ind n ih =>
    subst hn
    apply lookup_same_of_reexports (get?_empty file) (get?_empty file) (h file .refl)
    intro hf hv m hedge
    have hbelow : ∀ k, p.Reaches m k → (k ∈ file :: visiting ↔ k ∈ file :: visited) := by
      intro k hk
      rw [List.mem_cons, List.mem_cons, h k (.head hedge hk)]
    exact ⟨hbelow m .refl, ih _ (length_unvisited_cons_lt hf hv) hbelow rfl⟩

/-- Re-exports lead from the module through another one and back. -/
def OnCycle (p : Project) (m : String) : Prop := ∃ k, k ≠ m ∧ p.Reaches m k ∧ p.Reaches k m

/-- The cache holds what a search without it finds for the module. -/
def CachedFresh (p : Project) (cache : Table Exports) (m : String) : Prop :=
  ∀ exports, cache.get? m = some exports → SameOutcome (.ok exports) (p.lookup .empty [] m)

/-- Fresh answers in the cache change nothing for a module that reaches them, as long as they are
on no cycle. -/
theorem lookup_same_of_not_onCycle
    (hcached : ∀ m, p.Reaches file m → (cache.get? m).isSome →
      p.CachedFresh cache m ∧ ¬ p.OnCycle m)
    (hv : ∀ m ∈ visiting, cache.get? m = none ∧ p.Reaches m file) :
    SameOutcome (p.lookup cache visiting file) (p.lookup .empty visiting file) := by
  induction hn : (p.unvisited visiting).length using Nat.strongRecOn generalizing visiting file with
  | ind n ih =>
    subst hn
    cases hc : cache.get? file with
    | none =>
      apply lookup_same_of_reexports hc (get?_empty file) Iff.rfl
      intro hf hnew m hedge
      refine ⟨Iff.rfl, ih _ (length_unvisited_cons_lt hf hnew) ?_ ?_ rfl⟩
      · intro k hk
        exact hcached k (.head hedge hk)
      · intro k hk
        rcases List.mem_cons.1 hk with rfl | hk
        · exact ⟨hc, .single hedge⟩
        · exact ⟨(hv k hk).1, (hv k hk).2.tail hedge⟩
    | some exports =>
      obtain ⟨hfresh, hcycle⟩ := hcached file .refl (by rw [hc]; rfl)
      rw [lookup_of_cached hc]
      refine (hfresh exports hc).trans (lookup_same_of_reaches ?_)
      -- a visited module that the cached one reaches would close a cycle through it
      intro m hm
      refine ⟨fun h => absurd h List.not_mem_nil, fun hmem => ?_⟩
      obtain ⟨hnone, hback⟩ := hv m hmem
      have hne : m ≠ file := by
        rintro rfl
        rw [hc] at hnone
        cases hnone
      exact absurd ⟨m, hne, hm, hback⟩ hcycle

/-- The state of a program after it was asked for the exports behind some specifiers in files. -/
def after (p : Project) (history : List (String × String)) : ProjectState :=
  history.foldl (fun s q => (p.exportsOf q.1 q.2 s).state) {}

theorem after_append (p : Project) (history : List (String × String)) (q : String × String) :
    p.after (history ++ [q]) = (p.exportsOf q.1 q.2 (p.after history)).state := by
  rw [after, List.foldl_append]
  rfl

/-- The same answers: no module in both, the same symbols by name, or a failure in both. -/
def SameAnswer : Except Failure (Option (List (ExportedSymbol (List Origin)))) →
    Except Failure (Option (List (ExportedSymbol (List Origin)))) → Prop
  | .ok none, .ok none => True
  | .ok (some a), .ok (some b) =>
    ∀ name, a.find? (fun s => s.name == name) = b.find? (fun s => s.name == name)
  | .error a, .error b => a.IsResolution ↔ b.IsResolution
  | _, _ => False

theorem map_name_symbols (exports : Exports) :
    (symbols exports).map ExportedSymbol.name = exports.names := by
  simp [symbols, Table.names]

theorem find?_symbols (exports : Exports) (name : String) :
    (symbols exports).find? (fun s => s.name == name) =
      (exports.get? name).map fun entries =>
        ⟨name, entries.map Entry.declaration, entries.map Entry.origin⟩ := by
  obtain ⟨entries⟩ := exports
  induction entries with
  | nil => rfl
  | cons e es ih =>
    by_cases he : e.1 = name
    · simp [symbols, Table.get?, he]
    · have hsymbols : (symbols ⟨e :: es⟩).find? (fun s => s.name == name) =
          (symbols ⟨es⟩).find? (fun s => s.name == name) := by
        simp [symbols, he]
      have hget : (⟨e :: es⟩ : Exports).get? name = (⟨es⟩ : Exports).get? name := by
        simp [Table.get?, he]
      rw [hsymbols, hget, ih]

theorem entries_eq_of_map {a b : List Entry}
    (hd : a.map Entry.declaration = b.map Entry.declaration)
    (ho : a.map Entry.origin = b.map Entry.origin) : a = b := by
  induction a generalizing b with
  | nil =>
    cases b with
    | nil => rfl
    | cons _ _ => cases hd
  | cons x xs ih =>
    cases b with
    | nil => cases hd
    | cons y ys =>
      rw [List.map_cons, List.map_cons] at hd ho
      obtain ⟨hxd, hds⟩ := List.cons.inj hd
      obtain ⟨hxo, hos⟩ := List.cons.inj ho
      have hxy : x = y := by
        obtain ⟨_, _⟩ := x
        obtain ⟨_, _⟩ := y
        cases hxd
        cases hxo
        rfl
      rw [hxy, ih hds hos]

/-- Symbols are the same by name exactly when the exports are. -/
theorem sameSymbols_iff {a b : Exports} :
    SameAnswer (.ok (some (symbols a))) (.ok (some (symbols b))) ↔ SameExports a b := by
  constructor
  · intro h name
    have hname := h name
    rw [find?_symbols, find?_symbols] at hname
    cases ha : a.get? name <;> cases hb : b.get? name <;> rw [ha, hb] at hname
    · cases hname
    · cases hname
    · simp only [Option.map_some, Option.some.injEq, ExportedSymbol.mk.injEq, true_and] at hname
      rw [entries_eq_of_map hname.1 hname.2]
  · intro h name
    rw [find?_symbols, find?_symbols, h name]

/-- Two states answer alike exactly when searches with their caches do. -/
theorem sameAnswer_iff {specifier : String} {s s' : ProjectState} {m : String}
    (hm : p.resolve? specifier file = some m) :
    SameAnswer (p.exportsOf specifier file s).outcome (p.exportsOf specifier file s').outcome ↔
      SameOutcome (p.lookup s.cache [] m) (p.lookup s'.cache [] m) := by
  rw [outcome_exportsOf, outcome_exportsOf, hm]
  dsimp only
  cases p.lookup s.cache [] m <;> cases p.lookup s'.cache [] m
  · exact Iff.rfl
  · exact Iff.rfl
  · exact Iff.rfl
  · exact sameSymbols_iff

/-- What was asked before has no influence on an answer. -/
def IsHistoryFree (p : Project) : Prop :=
  ∀ history history' specifier file,
    SameAnswer (p.exportsOf specifier file (p.after history)).outcome
      (p.exportsOf specifier file (p.after history')).outcome

/-- The modules that can be asked for. -/
def IsModule (p : Project) (m : String) : Prop :=
  ∃ specifier file, p.resolve? specifier file = some m

/-- The cache with the fresh answers for some modules. -/
def freshCache (p : Project) : List String → Table Exports
  | [] => .empty
  | m :: ms =>
    match p.lookup .empty [] m with
    | .ok exports => (p.freshCache ms).insert m exports
    | .error _ => p.freshCache ms

/-- Fresh answers for some modules, put into the cache, change no answer for any module. -/
def IsCacheTransparent (p : Project) : Prop :=
  ∀ asked : List String, (∀ m ∈ asked, p.IsModule m) → ∀ m, p.IsModule m →
    SameOutcome (p.lookup (p.freshCache asked) [] m) (p.lookup .empty [] m)

theorem SameCache.insert {a b : Exports} (h : SameCache cache cache') (hab : SameExports a b)
    (m : String) : SameCache (cache.insert m a) (cache'.insert m b) := by
  intro k
  rw [Table.get?_insert, Table.get?_insert]
  split
  · exact .some hab
  · exact h k

/-- A question answered as by a fresh program keeps the cache fresh. -/
theorem sameCache_after {s : ProjectState} {asked : List String} {q : String × String}
    {m : String} (hm : p.resolve? q.1 q.2 = some m) (h : SameCache s.cache (p.freshCache asked))
    (hsame : SameOutcome (p.lookup s.cache [] m) (p.lookup .empty [] m)) :
    SameCache (p.exportsOf q.1 q.2 s).state.cache (p.freshCache (m :: asked)) := by
  rw [cache_exportsOf, hm, freshCache]
  dsimp only
  cases hl : p.lookup s.cache [] m <;> cases hf : p.lookup .empty [] m <;> rw [hl, hf] at hsame
  · exact h
  · exact hsame.elim
  · exact hsame.elim
  · exact h.insert hsame m

/-- In a transparent program the cache is always that of fresh answers. -/
theorem IsCacheTransparent.sameCache (hp : p.IsCacheTransparent)
    (history : List (String × String)) :
    ∃ asked, (∀ m ∈ asked, p.IsModule m) ∧
      SameCache (p.after history).cache (p.freshCache asked) := by
  induction history using List.reverseRecOn with
  | nil => exact ⟨[], by simp, fun m => .none⟩
  | append_singleton history q ih =>
    obtain ⟨asked, hasked, hcache⟩ := ih
    rw [after_append]
    cases hm : p.resolve? q.1 q.2 with
    | none =>
      refine ⟨asked, hasked, ?_⟩
      rw [cache_exportsOf, hm]
      exact hcache
    | some m =>
      have hmodule : p.IsModule m := ⟨q.1, q.2, hm⟩
      have hsame := (lookup_same_of_sameCache hcache [] m).trans (hp asked hasked m hmodule)
      refine ⟨m :: asked, ?_, sameCache_after hm hcache hsame⟩
      intro k hk
      rcases List.mem_cons.1 hk with rfl | hk
      · exact hmodule
      · exact hasked k hk

/-- In a program without influence of the history every set of fresh answers can be cached. -/
theorem IsHistoryFree.sameCache (hp : p.IsHistoryFree) {asked : List String}
    (hasked : ∀ m ∈ asked, p.IsModule m) :
    ∃ history, SameCache (p.after history).cache (p.freshCache asked) := by
  induction asked with
  | nil => exact ⟨[], fun m => .none⟩
  | cons m ms ih =>
    obtain ⟨history, hcache⟩ := ih fun k hk => hasked k (List.mem_cons_of_mem m hk)
    obtain ⟨specifier, file, hm⟩ := hasked m List.mem_cons_self
    have hsame := (sameAnswer_iff hm).1 (hp history [] specifier file)
    refine ⟨history ++ [(specifier, file)], ?_⟩
    rw [after_append]
    exact sameCache_after hm hcache hsame

theorem isHistoryFree_iff_isCacheTransparent : p.IsHistoryFree ↔ p.IsCacheTransparent := by
  constructor
  · intro hp asked hasked m hm
    obtain ⟨specifier, file, hm⟩ := hm
    obtain ⟨history, hcache⟩ := hp.sameCache hasked
    have hsame := (sameAnswer_iff hm).1 (hp history [] specifier file)
    exact (lookup_same_of_sameCache hcache [] m).symm.trans hsame
  · intro hp history history' specifier file
    cases hm : p.resolve? specifier file with
    | none =>
      rw [outcome_exportsOf, outcome_exportsOf, hm]
      trivial
    | some m =>
      have hfresh : ∀ history, SameOutcome (p.lookup (p.after history).cache [] m)
          (p.lookup .empty [] m) := by
        intro history
        obtain ⟨asked, hasked, hcache⟩ := hp.sameCache history
        exact (lookup_same_of_sameCache hcache [] m).trans
          (hp asked hasked m ⟨specifier, file, hm⟩)
      exact (sameAnswer_iff hm).2 ((hfresh history).trans (hfresh history').symm)

/-- What is cached was asked for. -/
theorem exists_of_cached (history : List (String × String)) {m : String}
    (h : ((p.after history).cache.get? m).isSome) :
    ∃ q ∈ history, p.resolve? q.1 q.2 = some m := by
  induction history using List.reverseRecOn with
  | nil => cases h
  | append_singleton history q ih =>
    have hold : ((p.after history).cache.get? m).isSome →
        ∃ q' ∈ history ++ [q], p.resolve? q'.1 q'.2 = some m := fun hold => by
      obtain ⟨q', hq', hm⟩ := ih hold
      exact ⟨q', List.mem_append_left [q] hq', hm⟩
    rw [after_append, cache_exportsOf] at h
    cases hk : p.resolve? q.1 q.2 with
    | none =>
      rw [hk] at h
      exact hold h
    | some k =>
      rw [hk] at h
      dsimp only at h
      cases hl : p.lookup (p.after history).cache [] k with
      | error e =>
        rw [hl] at h
        exact hold h
      | ok exports =>
        rw [hl] at h
        dsimp only at h
        rw [Table.get?_insert] at h
        by_cases hmk : m = k
        · exact ⟨q, List.mem_append_right history List.mem_cons_self, by rw [hk, hmk]⟩
        · rw [if_neg hmk] at h
          exact hold h

/-- No module that was asked for and that the module reaches is on a cycle. -/
def AvoidsCycles (p : Project) (history : List (String × String)) (m : String) : Prop :=
  ∀ q ∈ history, ∀ k, p.resolve? q.1 q.2 = some k → p.Reaches m k → ¬ p.OnCycle k

theorem AvoidsCycles.of_reaches {history : List (String × String)} {m k : String}
    (h : p.AvoidsCycles history m) (hk : p.Reaches m k) : p.AvoidsCycles history k :=
  fun q hq j hj hreach => h q hq j hj (hk.trans hreach)

/-- If the cached modules are answered as by a fresh program, so is a module that reaches only
those on no cycle. -/
theorem lookup_same_of_avoidsCycles {history : List (String × String)} {m : String}
    (h : p.AvoidsCycles history m)
    (hfresh : ∀ k, p.AvoidsCycles history k → p.CachedFresh (p.after history).cache k) :
    SameOutcome (p.lookup (p.after history).cache [] m) (p.lookup .empty [] m) := by
  apply lookup_same_of_not_onCycle
  · intro k hk hcached
    obtain ⟨q, hq, hqk⟩ := exists_of_cached history hcached
    exact ⟨hfresh k (h.of_reaches hk), h q hq k hqk hk⟩
  · intro k hk
    cases hk

theorem cachedFresh_after (history : List (String × String)) {m : String}
    (h : p.AvoidsCycles history m) : p.CachedFresh (p.after history).cache m := by
  induction history using List.reverseRecOn generalizing m with
  | nil =>
    intro exports hexports
    cases hexports
  | append_singleton history q ih =>
    have hbefore : ∀ k, p.AvoidsCycles (history ++ [q]) k → p.AvoidsCycles history k :=
      fun k hk q' hq' => hk q' (List.mem_append_left [q] hq')
    have hold := ih (hbefore m h)
    rw [after_append]
    intro exports hexports
    rw [cache_exportsOf] at hexports
    cases hk : p.resolve? q.1 q.2 with
    | none =>
      rw [hk] at hexports
      exact hold exports hexports
    | some k =>
      rw [hk] at hexports
      dsimp only at hexports
      cases hl : p.lookup (p.after history).cache [] k with
      | error e =>
        rw [hl] at hexports
        exact hold exports hexports
      | ok found =>
        rw [hl] at hexports
        dsimp only at hexports
        rw [Table.get?_insert] at hexports
        by_cases hmk : m = k
        · rw [if_pos hmk] at hexports
          cases hexports
          rw [hmk, ← hl]
          exact lookup_same_of_avoidsCycles (hbefore k (hmk ▸ h)) fun j hj => ih hj
        · rw [if_neg hmk] at hexports
          exact hold exports hexports

/-- The answers of a program do not depend on what was asked before exactly when fresh answers in
the cache change none of them; and in every program an answer does not depend on it unless some
module that was asked for, and that the answer needs, is on a cycle of re-exports. -/
theorem exportsOf_historyFree_iff (p : Project) :
    (p.IsHistoryFree ↔ p.IsCacheTransparent) ∧
      ∀ history specifier file m, p.resolve? specifier file = some m → p.AvoidsCycles history m →
        SameAnswer (p.exportsOf specifier file (p.after history)).outcome
          (p.exportsOf specifier file {}).outcome := by
  refine ⟨isHistoryFree_iff_isCacheTransparent, ?_⟩
  intro history specifier file m hm h
  refine (sameAnswer_iff hm).2 (lookup_same_of_avoidsCycles h ?_)
  exact fun k hk => cachedFresh_after history hk

/-- The search with a bound on the modules that are visited at one time. -/
def boundedLookup (p : Project) (cache : Table Exports) :
    Nat → List String → String → Except Failure Exports
  | 0, _, file => .error (.unknownFile file)
  | n + 1, visiting, file =>
    match cache.get? file with
    | some exports => .ok exports
    | none =>
      if file ∈ visiting then .error (.circularReexport file)
      else if file ∈ p.fileNames then do
        let f ← p.read file
        extendedAll (p.resolve? · file) (file :: visiting)
          (p.boundedLookup cache n (file :: visiting)) .empty f.exportItems
      else .error (.unknownFile file)

theorem lookup_eq_boundedLookup {n : Nat} (hn : (p.unvisited visiting).length < n) :
    p.lookup cache visiting file = p.boundedLookup cache n visiting file := by
  induction n generalizing visiting file with
  | zero => omega
  | succ n ih =>
    rw [boundedLookup]
    cases hc : cache.get? file with
    | some exports => exact lookup_of_cached hc
    | none =>
      by_cases hv : file ∈ visiting
      · rw [lookup_of_visiting hc hv, if_pos hv]
      · by_cases hf : file ∈ p.fileNames
        · have hless := length_unvisited_cons_lt hf hv
          have hfound : p.lookup cache (file :: visiting) =
              p.boundedLookup cache n (file :: visiting) := by
            funext m
            exact ih (by omega)
          rw [lookup_of_unvisited hc hv hf, hfound, if_neg hv, if_pos hf]
        · rw [lookup_of_unknown hc hv hf, if_neg hv, if_neg hf]

/-- The trees of two stars, as in `export * from './b';`, and of a constant with its export, as in
`const x = 1;` and `export { x };`. -/
def starTree : ParseTree :=
  let star (start : Nat) : ParseTree :=
    ⟨"export_statement", true, false, start, start + 20,
      [⟨"string", true, false, start + 14, start + 19, [], []⟩], [(.source, 0)]⟩
  ⟨"program", true, false, 0, 42, [star 0, star 21], []⟩

def constantTree : ParseTree :=
  let leaf (type : String) (start stop : Nat) : ParseTree :=
    ⟨type, true, false, start, stop, [], []⟩
  ⟨"program", true, false, 0, 27,
    [⟨"lexical_declaration", true, false, 0, 12, [⟨"variable_declarator", true, false, 6, 11,
        [leaf "identifier" 6 7, leaf "number" 10 11], [(.name, 0), (.value, 1)]⟩], []⟩,
      ⟨"export_statement", true, false, 13, 26, [⟨"export_clause", true, false, 20, 25,
        [⟨"export_specifier", true, false, 22, 23, [leaf "identifier" 22 23], [(.name, 0)]⟩], []⟩],
        []⟩], []⟩

/-- Two modules that take all names over from each other, and each from one more module. -/
def starProgram : Project :=
  ofFiles [
    ("a.ts", ⟨"export * from './b';\nexport * from './d';\n", some (false, starTree)⟩),
    ("b.ts", ⟨"export * from './a';\nexport * from './c';\n", some (false, starTree)⟩),
    ("c.ts", ⟨"const x = 1;\nexport \x7b x \x7d;\n", some (false, constantTree)⟩),
    ("d.ts", ⟨"const x = 2;\nexport \x7b x \x7d;\n", some (false, constantTree)⟩)]

/-- The files that declare an exported name. -/
def declaringFiles (outcome : Except Failure Exports) (name : String) : Option (List String) :=
  (outcome.toOption.bind fun exports => exports.get? name).map fun entries =>
    entries.map fun e => e.origin.file

theorem not_same_of_declaringFiles {a b : Except Failure Exports} (name : String)
    (hne : declaringFiles a name ≠ declaringFiles b name) : ¬ SameOutcome a b := by
  intro h
  cases a <;> cases b
  · exact hne rfl
  · exact h
  · exact h
  · simp only [declaringFiles, Except.toOption, Option.bind_some] at hne
    exact hne (by rw [h name])

theorem starProgram_lookup (cache : Table Exports) (file : String) :
    starProgram.lookup cache [] file = starProgram.boundedLookup cache 5 [] file :=
  lookup_eq_boundedLookup (by decide)

theorem starProgram_not_reexports (b : String) : ¬ starProgram.Reexports "c.ts" b := by
  intro h
  exact h.takesOver (by decide)

/-- The answer for a module on a cycle does not depend on whether one that re-exports nothing was
asked for before. -/
theorem exportsOf_historyFree_iff_star :
    SameAnswer
      (starProgram.exportsOf "./a" "main.ts" (starProgram.after [("./c", "main.ts")])).outcome
      (starProgram.exportsOf "./a" "main.ts" {}).outcome := by
  have ha : starProgram.resolve? "./a" "main.ts" = some "a.ts" := by decide
  have hc : starProgram.resolve? "./c" "main.ts" = some "c.ts" := by decide
  refine (exportsOf_historyFree_iff starProgram).2 [("./c", "main.ts")] "./a" "main.ts" "a.ts" ha ?_
  intro q hq m hm _
  cases List.mem_singleton.1 hq
  rw [hc] at hm
  cases hm
  rintro ⟨k, hne, hreach, -⟩
  rcases Relation.ReflTransGen.cases_head hreach with rfl | ⟨b, hedge, -⟩
  · exact hne rfl
  · exact starProgram_not_reexports b hedge

/-- The answer for one module depends on whether the other one was asked for before. -/
theorem starProgram_depends_on_history :
    ¬ SameAnswer
      (starProgram.exportsOf "./a" "main.ts" (starProgram.after [("./b", "main.ts")])).outcome
      (starProgram.exportsOf "./a" "main.ts" {}).outcome := by
  have ha : starProgram.resolve? "./a" "main.ts" = some "a.ts" := by decide
  have hb : starProgram.resolve? "./b" "main.ts" = some "b.ts" := by decide
  rw [sameAnswer_iff ha, after, List.foldl_cons, List.foldl_nil, cache_exportsOf, hb]
  dsimp only
  rw [starProgram_lookup, starProgram_lookup, starProgram_lookup]
  exact not_same_of_declaringFiles "x" (by decide)

end Project

end DeferredImports
