import DeferredImports.Project.Lookup
import DeferredImports.Syntax.Print
import DeferredImports.Transform

/-! Deferring the component imports of all files of a program. -/

namespace DeferredImports.Project

/-- The new text of a file; declaration files and files in other languages have none. -/
def compileFile (p : Project) (options : Options) (path : String) :
    Session ProjectState (Option String) := do
  if !isSource path then return none
  let f ← Session.require (p.sourceFile path)
  let m := f.toModule
  if ← Effect.ofExcept m.isDeclarationFile then return none
  let changed ← transform p.oracle options m
  return some (← Effect.ofExcept (Node.printModule "\n" (changed.getD m)))

/-- The new texts of the files that have one, in order. -/
def compileFiles (p : Project) (options : Options) :
    List String → Session ProjectState (List (String × String))
  | [] => pure []
  | path :: paths => do
    let text ← p.compileFile options path
    let others ← p.compileFiles options paths
    return (text.map fun t => (path, t)).toList ++ others

/-- Compiles files that are given by path, and counts what went in and came out. -/
def compile (files : List (String × FileContent)) (options : Options) :
    Session ProjectState (List (String × String)) := do
  let p := ofFiles files
  let outputs ← p.compileFiles options p.fileNames
  Session.log (.compileComplete (Table.ofList files).size outputs.length)
  return outputs

end DeferredImports.Project
