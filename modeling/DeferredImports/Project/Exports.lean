import DeferredImports.Failure
import DeferredImports.Log.Event
import DeferredImports.Project.Files
import DeferredImports.Project.Interface

/-! The exports of a module, with what it takes over from other modules. Star exports stop at the
modules that are being visited, and links that come back to one of them fail. -/

namespace DeferredImports

/-- Exported names with the declarations merged under each. -/
abbrev Exports : Type := Table (List Entry)

/-- The files read so far, and what was logged about them. -/
structure Reading where
  loaded : List String
  events : List Event

namespace Project

/-- Reads a file. Its syntax errors are logged the first time. -/
def load (p : Project) (path : String) : Effect Reading SourceFile := do
  let f ← Effect.ofExcept (p.read path)
  if !(← get).loaded.contains f.path then
    modify fun r => { r with loaded := f.path :: r.loaded }
    if f.hasError then
      let event := Event.parseErrorsFound f.path f.root.errors.length
      modify fun r => { r with events := r.events ++ [event] }
  return f

/-- All names of another module but the default one; names that are there already stay. -/
def addStar (exports found : Exports) : Exports :=
  found.entries.foldl (fun es e =>
    if e.1 = "default" ∨ es.contains e.1 then es else es.insert e.1 e.2) exports

/-- The exports after one more item. A name that another module lacks has no declarations. -/
def addItem (resolve : String → Option String) (visiting : List String)
    (exportsOf : String → Effect Reading Exports) (exports : Exports) :
    ExportItem → Effect Reading Exports
  | .own exported entries => pure (exports.insert exported entries)
  | .link exported specifier name =>
    match resolve specifier with
    | none => pure (exports.insert exported [])
    | some target => do
      let found ← exportsOf target
      return exports.insert exported ((found.get? name).getD [])
  | .star specifier =>
    match resolve specifier with
    | none => pure exports
    | some target =>
      if target ∈ visiting then pure exports
      else do return addStar exports (← exportsOf target)

/-- The exports after some more items, in their order. -/
def addItems (resolve : String → Option String) (visiting : List String)
    (exportsOf : String → Effect Reading Exports) (exports : Exports) :
    List ExportItem → Effect Reading Exports
  | [] => pure exports
  | item :: items => do
    let exports ← addItem resolve visiting exportsOf exports item
    addItems resolve visiting exportsOf exports items

/-- The files that are not being visited. -/
def unvisited (p : Project) (visiting : List String) : List String :=
  p.fileNames.filter (· ∉ visiting)

theorem length_unvisited_cons_lt {p : Project} {visiting : List String} {file : String}
    (hf : file ∈ p.fileNames) (hv : file ∉ visiting) :
    (p.unvisited (file :: visiting)).length < (p.unvisited visiting).length := by
  have hsub : p.unvisited (file :: visiting) = (p.unvisited visiting).filter (· ≠ file) := by
    simp [unvisited, List.filter_filter, not_or]
  rw [hsub]
  exact List.length_filter_lt_length_iff_exists.2
    ⟨file, List.mem_filter.2 ⟨hf, by simpa using hv⟩, by simp⟩

/-- The exports of a file, while some files are being visited. What is cached is taken as it
is. -/
def exportsFrom (p : Project) (cache : Table Exports) (visiting : List String) (file : String) :
    Effect Reading Exports :=
  match cache.get? file with
  | some exports => pure exports
  | none =>
    if _hv : file ∈ visiting then throw (.circularReexport file)
    else if _hf : file ∈ p.fileNames then do
      let f ← p.load file
      addItems (p.resolve? · file) (file :: visiting)
        (fun target => p.exportsFrom cache (file :: visiting) target) .empty f.exportItems
    else throw (.unknownFile file)
termination_by (p.unvisited visiting).length
decreasing_by exact length_unvisited_cons_lt _hf _hv

end Project

end DeferredImports
