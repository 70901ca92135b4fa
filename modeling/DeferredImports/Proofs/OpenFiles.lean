import DeferredImports.Proofs.CircularExports
import Mathlib.Data.List.Perm.Subperm
import Mathlib.Logic.Function.Iterate

/-! The search for the exports of a module, one step after the other. Main statement: every search
ends, with an answer or with a failure, and the files that are open in it at any moment are different
files of the program. -/

namespace DeferredImports

/-- A file that waits for the exports of a module: what it has found so far, the item that needs
them, and the items behind it. -/
structure WaitingFile where
  path : String
  exports : Exports
  pending : ExportItem
  items : List ExportItem

/-- A moment of a search, with what was read so far and the files that wait, the innermost first: a
module is asked for, a file goes on with its items, the innermost file gets what it waits for, or
the search has ended. -/
inductive Search where
  | asking (target : String) (waiting : List WaitingFile) (reading : Reading)
  | collecting (path : String) (exports : Exports) (items : List ExportItem)
      (waiting : List WaitingFile) (reading : Reading)
  | handing (found : Exports) (waiting : List WaitingFile) (reading : Reading)
  | ended (outcome : Except Failure (Option Exports)) (reading : Reading)

namespace Search

/-- The files whose exports are being collected, the innermost first. -/
def openFiles : Search → List String
  | asking _ waiting _ | handing _ waiting _ => waiting.map WaitingFile.path
  | collecting path _ _ waiting _ => path :: waiting.map WaitingFile.path
  | ended _ _ => []

/-- What becomes of a search for a module when it is found, or when it fails. -/
def delivered (waiting : List WaitingFile) : Except Failure Exports × Reading → Search
  | (.ok found, reading) => handing found waiting reading
  | (.error e, reading) => ended (.error e) reading

end Search

namespace Project

/-- The exports after one more item, where another module has these exports. -/
def taken (exports found : Exports) : ExportItem → Exports
  | .own exported entries => exports.insert exported entries
  | .link exported _ name => exports.insert exported ((found.get? name).getD [])
  | .star _ => addStar exports found

/-- What follows when a module is asked for: it is known, or it is opened unless it is open, or the
search fails. -/
def enter (p : Project) (cache : Table Exports) (target : String) (waiting : List WaitingFile)
    (reading : Reading) : Search :=
  match cache.get? target with
  | some exports => .handing exports waiting reading
  | none =>
    if target ∈ waiting.map WaitingFile.path then .ended (.error (.circularReexport target)) reading
    else if target ∈ p.fileNames then
      match (p.load target).runFrom reading with
      | (.ok f, reading) => .collecting target .empty f.exportItems waiting reading
      | (.error e, reading) => .ended (.error e) reading
    else .ended (.error (.unknownFile target)) reading

/-- What follows when a file goes on with an item: the module that the item needs is asked for, and
nothing is taken over if it needs none. -/
def advance (p : Project) (path : String) (exports : Exports) (item : ExportItem)
    (items : List ExportItem) (waiting : List WaitingFile) (reading : Reading) : Search :=
  match asked? (p.resolve? · path) (path :: waiting.map WaitingFile.path) item with
  | some target => .asking target (⟨path, exports, item, items⟩ :: waiting) reading
  | none => .collecting path (taken exports .empty item) items waiting reading

/-- The next moment of a search. -/
def step (p : Project) (cache : Table Exports) : Search → Search
  | .asking target waiting reading => p.enter cache target waiting reading
  | .collecting _ exports [] waiting reading => .handing exports waiting reading
  | .collecting path exports (item :: items) waiting reading =>
    p.advance path exports item items waiting reading
  | .handing found (⟨path, exports, item, items⟩ :: waiting) reading =>
    .collecting path (taken exports found item) items waiting reading
  | .handing found [] reading => .ended (.ok (some found)) reading
  | .ended outcome reading => .ended outcome reading

/-- What one step does to the open files: they stay the same, a file of the program that is not open
is opened inside of them, the innermost one is closed, or a failure closes all of them. -/
inductive Turn (p : Project) : List String → List String → Prop
  | stays {now : List String} : Turn p now now
  | opens {now : List String} {file : String} (hf : file ∈ p.fileNames) (hnew : file ∉ now) :
      Turn p now (file :: now)
  | closes {now : List String} {file : String} : Turn p (file :: now) now
  | fails {now : List String} : Turn p now []

variable {p : Project} {cache : Table Exports}

theorem turn_enter (p : Project) (cache : Table Exports) (target : String)
    (waiting : List WaitingFile) (reading : Reading) :
    p.Turn (waiting.map WaitingFile.path) (p.enter cache target waiting reading).openFiles := by
  unfold enter
  cases cache.get? target with
  | some exports => exact .stays
  | none =>
    dsimp only
    split
    · exact .fails
    · next hnew =>
      split
      · next hf =>
        rcases (p.load target).runFrom reading with ⟨e | f, reading'⟩
        · exact .fails
        · exact .opens hf hnew
      · exact .fails

theorem turn_step (p : Project) (cache : Table Exports) (s : Search) :
    p.Turn s.openFiles (p.step cache s).openFiles := by
  match s with
  | .asking target waiting reading => exact p.turn_enter cache target waiting reading
  | .collecting path exports [] waiting reading => exact .closes
  | .collecting path exports (item :: items) waiting reading =>
    rw [step, advance]
    cases asked? (p.resolve? · path) (path :: waiting.map WaitingFile.path) item with
    | some target => exact .stays
    | none => exact .stays
  | .handing found (w :: waiting) reading => exact .stays
  | .handing found [] reading => exact .stays
  | .ended outcome reading => exact .stays

/-- The open files are different files of the program. -/
structure OpensOnce (p : Project) (opened : List String) : Prop where
  nodup : opened.Nodup
  files : opened ⊆ p.fileNames

theorem Turn.opensOnce {now next : List String} (h : p.Turn now next) (hnow : p.OpensOnce now) :
    p.OpensOnce next := by
  obtain ⟨hnodup, hfiles⟩ := hnow
  cases h with
  | stays => exact ⟨hnodup, hfiles⟩
  | opens hf hnew => exact ⟨List.nodup_cons.2 ⟨hnew, hnodup⟩, List.cons_subset.2 ⟨hf, hfiles⟩⟩
  | closes => exact ⟨(List.nodup_cons.1 hnodup).2, (List.cons_subset.1 hfiles).2⟩
  | fails => exact ⟨List.nodup_nil, List.nil_subset _⟩

theorem OpensOnce.length_le {opened : List String} (h : p.OpensOnce opened) :
    opened.length ≤ p.fileNames.length :=
  (h.nodup.subperm h.files).length_le

theorem opensOnce_iterate {s : Search} (h : p.OpensOnce s.openFiles) (n : Nat) :
    p.OpensOnce ((p.step cache)^[n] s).openFiles := by
  induction n with
  | zero => exact h
  | succ n ih =>
    rw [Function.iterate_succ_apply']
    exact (p.turn_step cache _).opensOnce ih

/-- Some number of steps leads from one moment to the other. -/
def Leads (p : Project) (cache : Table Exports) (s t : Search) : Prop :=
  ∃ n, (p.step cache)^[n] s = t

theorem Leads.step {s t : Search} (h : p.Leads cache (p.step cache s) t) : p.Leads cache s t := by
  obtain ⟨n, hn⟩ := h
  exact ⟨n + 1, by rw [Function.iterate_succ_apply, hn]⟩

theorem Leads.trans {s t u : Search} (h : p.Leads cache s t) (h' : p.Leads cache t u) :
    p.Leads cache s u := by
  obtain ⟨n, rfl⟩ := h
  obtain ⟨m, rfl⟩ := h'
  exact ⟨m + n, Function.iterate_add_apply _ m n s⟩

theorem Leads.refl (s : Search) : p.Leads cache s s := ⟨0, rfl⟩

/-- An item asks for at most one module and takes over what that one exports. -/
theorem addItem_eq (resolve : String → Option String) (visiting : List String)
    (exportsOf : String → Effect Reading Exports) (exports : Exports) (item : ExportItem) :
    addItem resolve visiting exportsOf exports item =
      match asked? resolve visiting item with
      | some target => do return taken exports (← exportsOf target) item
      | none => pure (taken exports .empty item) := by
  cases item with
  | own exported entries => rfl
  | link exported specifier name =>
    unfold addItem asked?
    dsimp only
    cases resolve specifier <;> rfl
  | star specifier =>
    unfold addItem asked?
    dsimp only
    cases resolve specifier with
    | none => rfl
    | some target =>
      dsimp only
      by_cases hv : target ∈ visiting
      · simp only [hv, Option.filter_some, if_true]
        rfl
      · simp only [hv, Option.filter_some, if_false]
        rfl

/-- A file comes to the end of its items if every module that it asks for is delivered to it. -/
theorem leads_addItems {path : String} {waiting : List WaitingFile}
    {exportsOf : String → Effect Reading Exports}
    (h : ∀ w target reading, w.path = path → p.Leads cache (.asking target (w :: waiting) reading)
      (.delivered (w :: waiting) ((exportsOf target).runFrom reading)))
    (exports : Exports) (items : List ExportItem) (reading : Reading) :
    p.Leads cache (.collecting path exports items waiting reading)
      (.delivered waiting ((addItems (p.resolve? · path) (path :: waiting.map WaitingFile.path)
        exportsOf exports items).runFrom reading)) := by
  induction items generalizing exports reading with
  | nil => exact .step (.refl _)
  | cons item items ih =>
    apply Leads.step
    rw [addItems, addItem_eq, step, advance]
    cases asked? (p.resolve? · path) (path :: waiting.map WaitingFile.path) item with
    | none => exact ih (taken exports .empty item) reading
    | some target =>
      -- the file waits until the module is handed to it, and goes on unless that failed
      refine (h ⟨path, exports, item, items⟩ target reading rfl).trans ?_
      dsimp only
      rw [bind_assoc, Effect.runFrom_bind]
      rcases (exportsOf target).runFrom reading with ⟨e | found, reading'⟩
      · exact .refl _
      · exact .step (ih (taken exports found item) reading')

/-- Every module that is asked for is delivered to the file that waits for it. -/
theorem leads_exportsFrom (p : Project) (cache : Table Exports) (target : String)
    (waiting : List WaitingFile) (reading : Reading) :
    p.Leads cache (.asking target waiting reading)
      (.delivered waiting ((p.exportsFrom cache (waiting.map WaitingFile.path) target).runFrom
        reading)) := by
  -- an opened file is one more that is visited, so the modules it asks for are delivered before
  induction hn : (p.unvisited (waiting.map WaitingFile.path)).length using Nat.strongRecOn
    generalizing target waiting reading with
  | ind n ih =>
    subst hn
    apply Leads.step
    rw [step, enter, exportsFrom]
    cases cache.get? target with
    | some exports => exact .refl _
    | none =>
      dsimp only
      split
      · exact .refl _
      · next hnew =>
        split
        · next hf =>
          rw [Effect.runFrom_bind]
          rcases (p.load target).runFrom reading with ⟨e | f, reading'⟩
          · exact .refl _
          · refine leads_addItems (fun w asked reading hw => ?_) .empty f.exportItems reading'
            have hless := length_unvisited_cons_lt hf hnew
            rw [← hw] at hless ⊢
            exact ih _ hless asked (w :: waiting) reading rfl
        · exact .refl _

/-- The first moment of the search that answers what a specifier in a file exports. -/
def startSearch (p : Project) (specifier file : String) (s : ProjectState) : Search :=
  match p.resolve? specifier file with
  | none => .ended (.ok none) ⟨s.loaded, []⟩
  | some target => .asking target [] ⟨s.loaded, []⟩

theorem opensOnce_startSearch (specifier file : String) (s : ProjectState) :
    p.OpensOnce (p.startSearch specifier file s).openFiles := by
  have hempty : (p.startSearch specifier file s).openFiles = [] := by
    unfold startSearch
    split <;> rfl
  rw [hempty]
  exact ⟨List.nodup_nil, List.nil_subset _⟩

/-- With no file waiting, what is delivered is the outcome. -/
theorem leads_ended (result : Except Failure Exports × Reading) :
    p.Leads cache (.delivered [] result) (.ended (result.1.map some) result.2) := by
  obtain ⟨e | found, reading⟩ := result
  · exact .refl _
  · exact .step (.refl _)

/-- The search comes to the answer that is given. -/
theorem leads_exportsOf (p : Project) (specifier file : String) (s : ProjectState) :
    ∃ outcome reading, p.Leads s.cache (p.startSearch specifier file s) (.ended outcome reading) ∧
      (p.exportsOf specifier file s).outcome = outcome.map (Option.map symbols) ∧
      (p.exportsOf specifier file s).events = reading.events ∧
      (p.exportsOf specifier file s).state.loaded = reading.loaded := by
  unfold startSearch exportsOf
  cases p.resolve? specifier file with
  | none => exact ⟨_, _, .refl _, rfl, rfl, rfl⟩
  | some target =>
    have h := p.leads_exportsFrom s.cache target [] ⟨s.loaded, []⟩
    rw [List.map_nil] at h
    dsimp only
    rw [answer]
    generalize (p.exportsFrom s.cache [] target).runFrom ⟨s.loaded, []⟩ = result at h ⊢
    obtain ⟨e | found, reading⟩ := result
    · exact ⟨_, _, h.trans (leads_ended _), rfl, rfl, rfl⟩
    · exact ⟨_, _, h.trans (leads_ended _), rfl, rfl, rfl⟩

/-- The search after some steps. -/
def searchAfter (p : Project) (specifier file : String) (s : ProjectState) (n : Nat) : Search :=
  (p.step s.cache)^[n] (p.startSearch specifier file s)

/-- Whatever is cached, the search for an answer ends, with this answer or with its failure. On its
way it opens files of the program only, and none while it is open, so that at no moment more files
are open than the program has; and each module that it asks for is found, or fails, as by a search
that is visiting the files that are open then. -/
theorem search_ends (p : Project) (specifier file : String) (s : ProjectState) :
    (∀ n, p.Turn (p.searchAfter specifier file s n).openFiles
        (p.searchAfter specifier file s (n + 1)).openFiles ∧
      p.OpensOnce (p.searchAfter specifier file s n).openFiles ∧
      (p.searchAfter specifier file s n).openFiles.length ≤ p.fileNames.length ∧
      ∀ target waiting reading, p.searchAfter specifier file s n = .asking target waiting reading →
        p.Leads s.cache (.asking target waiting reading) (.delivered waiting
          ((p.exportsFrom s.cache (p.searchAfter specifier file s n).openFiles target).runFrom
            reading))) ∧
    ∃ n outcome reading, p.searchAfter specifier file s n = .ended outcome reading ∧
      (p.exportsOf specifier file s).outcome = outcome.map (Option.map symbols) ∧
      (p.exportsOf specifier file s).events = reading.events ∧
      (p.exportsOf specifier file s).state.loaded = reading.loaded := by
  constructor
  · intro n
    have honce : p.OpensOnce (p.searchAfter specifier file s n).openFiles :=
      opensOnce_iterate (opensOnce_startSearch specifier file s) n
    refine ⟨?_, honce, honce.length_le, fun target waiting reading hasked => ?_⟩
    · rw [searchAfter, searchAfter, Function.iterate_succ_apply']
      exact p.turn_step s.cache _
    · rw [hasked]
      exact p.leads_exportsFrom s.cache target waiting reading
  · obtain ⟨outcome, reading, ⟨n, hn⟩, hanswer⟩ := p.leads_exportsOf specifier file s
    exact ⟨n, outcome, reading, hn, hanswer⟩

end Project

end DeferredImports
