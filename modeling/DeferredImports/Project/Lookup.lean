import DeferredImports.Oracle
import DeferredImports.Project.Exports
import DeferredImports.Source.ReturnTypes
import DeferredImports.Source.Statements

/-! A program as an oracle over its own files. It remembers the files that it has read and the
exports of the modules that it was asked about. -/

namespace DeferredImports

structure ProjectState where
  loaded : List String := []
  cache : Table Exports := .empty

namespace Project

/-- What is found by reading files, as an answer. The cache stays. -/
def answer {α : Type} (x : Effect Reading α) (s : ProjectState) : Reply ProjectState α :=
  let (outcome, reading) := x.runFrom ⟨s.loaded, []⟩
  ⟨outcome, reading.events, { s with loaded := reading.loaded }⟩

def symbols (exports : Exports) : List (ExportedSymbol (List Origin)) :=
  exports.entries.map fun e => ⟨e.1, e.2.map Entry.declaration, e.2.map Entry.origin⟩

/-- The exports of the module that a specifier names; only exports that were found are
remembered. -/
def exportsOf (p : Project) (specifier file : String) (s : ProjectState) :
    Reply ProjectState (Option (List (ExportedSymbol (List Origin)))) :=
  match p.resolve? specifier file with
  | none => ⟨.ok none, [], s⟩
  | some target =>
    match answer (p.exportsFrom s.cache [] target) s with
    | ⟨.error e, events, s⟩ => ⟨.error e, events, s⟩
    | ⟨.ok exports, events, s⟩ =>
      ⟨.ok (some (symbols exports)), events, { s with cache := s.cache.insert target exports }⟩

/-- The type of a symbol with a single declaration. -/
def typeOf (p : Project) (symbol : ExportedSymbol (List Origin)) (s : ProjectState) :
    Reply ProjectState (Option TypeHandle) :=
  match symbol.origin with
  | [origin] =>
    answer (do
      let f ← p.load origin.file
      return some (f.declaredType origin.node origin.signatures)) s
  | _ => ⟨.ok none, [], s⟩

def oracle (p : Project) : Oracle (List Origin) ProjectState :=
  ⟨p.exportsOf, fun symbol s => (p.typeOf symbol s).map (Option.map TypeHandle.toNode)⟩

/-- The file under a path. -/
def sourceFile (p : Project) (path : String) : ProjectState → Reply ProjectState SourceFile :=
  answer (p.load path)

end Project

end DeferredImports
