import DeferredImports.Project.Lookup
import DeferredImports.Proofs.Runs

/-! Looking up the exports of a module, without what is noted about the files that are read. Main
statement: the outcome is a function of the cache, the modules being visited and the module, and
satisfies the equation of the search. -/

namespace DeferredImports

namespace Effect

variable {σ α β : Type}

/-- The effect ends in the same way from every state. -/
def Ends (x : Effect σ α) (outcome : Except Failure α) : Prop := ∀ s, (x.runFrom s).1 = outcome

theorem Ends.pure (a : α) : (Pure.pure a : Effect σ α).Ends (.ok a) := fun _ => rfl

theorem Ends.throw (e : Failure) : (MonadExcept.throw e : Effect σ α).Ends (.error e) :=
  fun _ => rfl

theorem Ends.bind {x : Effect σ α} {f : α → Effect σ β} {outcome : Except Failure α}
    {next : α → Except Failure β} (hx : x.Ends outcome) (hf : ∀ a, (f a).Ends (next a)) :
    (x >>= f).Ends (outcome >>= next) := by
  intro s
  have h := hx s
  rw [runFrom_bind]
  cases hrun : x.runFrom s with
  | mk result t =>
    rw [hrun] at h
    subst h
    cases result with
    | error e => rfl
    | ok a => exact hf a t

end Effect

namespace Project

/-- Reading a file again and again gives the same file. -/
theorem load_ends (p : Project) (path : String) : (p.load path).Ends (p.read path) := by
  intro s
  unfold load
  cases hread : p.read path with
  | error e => rfl
  | ok f =>
    have hget : (get : Effect Reading Reading).runFrom s = (.ok s, s) := rfl
    rw [Effect.runFrom_bind_of_ok (Effect.runFrom_ofExcept _ _), Effect.runFrom_bind_of_ok hget]
    cases s.loaded.contains f.path with
    | true => rfl
    | false => cases f.hasError <;> rfl

variable {resolve : String → Option String} {visiting : List String}

/-- The exports after one more item, where other modules have these outcomes. -/
def extended (resolve : String → Option String) (visiting : List String)
    (found : String → Except Failure Exports) (exports : Exports) :
    ExportItem → Except Failure Exports
  | .own exported entries => .ok (exports.insert exported entries)
  | .link exported specifier name =>
    match resolve specifier with
    | none => .ok (exports.insert exported [])
    | some target => do return exports.insert exported (((← found target).get? name).getD [])
  | .star specifier =>
    match resolve specifier with
    | none => .ok exports
    | some target =>
      if target ∈ visiting then .ok exports else do return addStar exports (← found target)

/-- The exports after some more items. -/
def extendedAll (resolve : String → Option String) (visiting : List String)
    (found : String → Except Failure Exports) (exports : Exports) :
    List ExportItem → Except Failure Exports
  | [] => .ok exports
  | item :: items => do
    extendedAll resolve visiting found (← extended resolve visiting found exports item) items

variable {exportsOf : String → Effect Reading Exports} {found : String → Except Failure Exports}

theorem addItem_ends (h : ∀ target, (exportsOf target).Ends (found target)) (exports : Exports)
    (item : ExportItem) :
    (addItem resolve visiting exportsOf exports item).Ends
      (extended resolve visiting found exports item) := by
  cases item with
  | own exported entries => exact .pure _
  | link exported specifier name =>
    unfold addItem extended
    dsimp only
    cases resolve specifier with
    | none => exact .pure _
    | some target => exact (h target).bind fun _ => .pure _
  | star specifier =>
    unfold addItem extended
    dsimp only
    cases resolve specifier with
    | none => exact .pure _
    | some target =>
      dsimp only
      split
      · exact .pure _
      · exact (h target).bind fun _ => .pure _

theorem addItems_ends (h : ∀ target, (exportsOf target).Ends (found target)) (exports : Exports)
    (items : List ExportItem) :
    (addItems resolve visiting exportsOf exports items).Ends
      (extendedAll resolve visiting found exports items) := by
  induction items generalizing exports with
  | nil => exact .pure _
  | cons item items ih => exact (addItem_ends h exports item).bind fun exports => ih exports

/-- The outcome of a search for the exports of a module. -/
def lookup (p : Project) (cache : Table Exports) (visiting : List String) (file : String) :
    Except Failure Exports :=
  ((p.exportsFrom cache visiting file).runFrom ⟨[], []⟩).1

/-- The equation of the search, for modules that are neither cached nor visited. -/
theorem exportsFrom_ends_of_lookup {p : Project} {cache : Table Exports} {file : String}
    (hcache : cache.get? file = none) (hv : file ∉ visiting) (hf : file ∈ p.fileNames)
    (h : ∀ target, (p.exportsFrom cache (file :: visiting) target).Ends
      (p.lookup cache (file :: visiting) target)) :
    (p.exportsFrom cache visiting file).Ends (do
      let f ← p.read file
      extendedAll (p.resolve? · file) (file :: visiting) (p.lookup cache (file :: visiting)) .empty
        f.exportItems) := by
  rw [exportsFrom, hcache]
  simp only [hv, hf, dif_pos, dif_neg, not_false_eq_true]
  exact (p.load_ends file).bind fun f => addItems_ends h .empty f.exportItems

/-- What has been read does not matter for the exports of a module. -/
theorem exportsFrom_ends (p : Project) (cache : Table Exports) (visiting : List String)
    (file : String) : (p.exportsFrom cache visiting file).Ends (p.lookup cache visiting file) := by
  induction hn : (p.unvisited visiting).length using Nat.strongRecOn generalizing visiting file with
  | ind n ih =>
    subst hn
    have hsteady : ∃ outcome, (p.exportsFrom cache visiting file).Ends outcome := by
      cases hcache : cache.get? file with
      | some exports =>
        refine ⟨.ok exports, ?_⟩
        rw [exportsFrom, hcache]
        exact .pure exports
      | none =>
        by_cases hv : file ∈ visiting
        · refine ⟨.error (.circularReexport file), ?_⟩
          rw [exportsFrom, hcache]
          simp only [hv, dif_pos]
          exact .throw _
        · by_cases hf : file ∈ p.fileNames
          · exact ⟨_, exportsFrom_ends_of_lookup hcache hv hf fun target =>
              ih _ (length_unvisited_cons_lt hf hv) (file :: visiting) target rfl⟩
          · refine ⟨.error (.unknownFile file), ?_⟩
            rw [exportsFrom, hcache]
            simp only [hv, hf, dif_neg, not_false_eq_true]
            exact .throw _
    obtain ⟨outcome, h⟩ := hsteady
    intro s
    rw [h s, lookup, h]

section equations

variable {p : Project} {cache : Table Exports} {file : String}

theorem lookup_of_cached {exports : Exports} (h : cache.get? file = some exports) :
    p.lookup cache visiting file = .ok exports := by
  rw [lookup, exportsFrom, h]
  rfl

theorem lookup_of_visiting (h : cache.get? file = none) (hv : file ∈ visiting) :
    p.lookup cache visiting file = .error (.circularReexport file) := by
  rw [lookup, exportsFrom, h]
  simp only [hv, dif_pos]
  rfl

/-- A module that is neither cached nor visited is read, and its items are taken in their order. -/
theorem lookup_of_unvisited (h : cache.get? file = none) (hv : file ∉ visiting)
    (hf : file ∈ p.fileNames) :
    p.lookup cache visiting file = (do
      let f ← p.read file
      extendedAll (p.resolve? · file) (file :: visiting) (p.lookup cache (file :: visiting)) .empty
        f.exportItems) :=
  exportsFrom_ends_of_lookup h hv hf (fun _ => exportsFrom_ends p cache _ _) ⟨[], []⟩

theorem lookup_of_unknown (h : cache.get? file = none) (hv : file ∉ visiting)
    (hf : file ∉ p.fileNames) : p.lookup cache visiting file = .error (.unknownFile file) := by
  rw [lookup, exportsFrom, h]
  simp only [hv, hf, dif_neg, not_false_eq_true]
  rfl

end equations

/-- What is asked of a program is answered by a search with its cache. -/
theorem outcome_exportsOf (p : Project) (specifier file : String) (s : ProjectState) :
    (p.exportsOf specifier file s).outcome =
      match p.resolve? specifier file with
      | none => .ok none
      | some target => (p.lookup s.cache [] target).map fun exports => some (symbols exports) := by
  unfold exportsOf
  cases p.resolve? specifier file with
  | none => rfl
  | some target =>
    have h := p.exportsFrom_ends s.cache [] target ⟨s.loaded, []⟩
    dsimp only
    rw [← h, answer]
    cases (p.exportsFrom s.cache [] target).runFrom ⟨s.loaded, []⟩ with
    | mk outcome reading => cases outcome <;> rfl

/-- A module whose exports a search finds is answered with their symbols. -/
theorem outcome_exportsOf_of_lookup {p : Project} {specifier file target : String}
    {s : ProjectState} {exports : Exports} (hm : p.resolve? specifier file = some target)
    (h : p.lookup s.cache [] target = .ok exports) :
    (p.exportsOf specifier file s).outcome = .ok (some (symbols exports)) := by
  rw [outcome_exportsOf, hm]
  exact congrArg (Except.map _) h

/-- Only what was found is cached. -/
theorem cache_exportsOf (p : Project) (specifier file : String) (s : ProjectState) :
    (p.exportsOf specifier file s).state.cache =
      match p.resolve? specifier file with
      | none => s.cache
      | some target =>
        match p.lookup s.cache [] target with
        | .error _ => s.cache
        | .ok exports => s.cache.insert target exports := by
  unfold exportsOf
  cases p.resolve? specifier file with
  | none => rfl
  | some target =>
    have h := p.exportsFrom_ends s.cache [] target ⟨s.loaded, []⟩
    dsimp only
    rw [← h, answer]
    cases (p.exportsFrom s.cache [] target).runFrom ⟨s.loaded, []⟩ with
    | mk outcome reading => cases outcome <;> rfl

/-- The type of a symbol is told by the file of its only declaration. -/
theorem outcome_typeOf (p : Project) (symbol : ExportedSymbol (List Origin)) (s : ProjectState) :
    (p.typeOf symbol s).outcome =
      match symbol.origin with
      | [origin] => do
        let f ← p.read origin.file
        return some (f.declaredType origin.node origin.signatures)
      | _ => .ok none := by
  unfold typeOf
  match symbol.origin with
  | [] => rfl
  | [origin] =>
    exact (p.load_ends origin.file).bind (fun f =>
      .pure (some (f.declaredType origin.node origin.signatures))) ⟨s.loaded, []⟩
  | _ :: _ :: _ => rfl

theorem cache_typeOf (p : Project) (symbol : ExportedSymbol (List Origin)) (s : ProjectState) :
    (p.typeOf symbol s).state.cache = s.cache := by
  unfold typeOf
  split <;> rfl

end Project

end DeferredImports
