import DeferredImports.Source.SourceFile
import DeferredImports.Table

/-! The files of a program, by normalized path, and what module specifiers name in it. -/

namespace DeferredImports

/-- The text of a file, and its parse tree with a mark for syntax errors. -/
structure FileContent where
  text : String
  tree : Option (Bool × ParseTree)

/-- The files of a program. -/
structure Project where
  files : Table FileContent

namespace Project

/-- Of files given by the same path, the first one fixes the place and the last one the content;
then the paths are normalized in the same way. -/
def ofFiles (files : List (String × FileContent)) : Project :=
  ⟨Table.ofList ((Table.ofList files).entries.map fun f => (Path.normalize f.1, f.2))⟩

def fileNames (p : Project) : List String := p.files.names

def isSource (path : String) : Bool := (Language.ofPath? path).isSome

/-- The extensions that a specifier may leave out, in the order in which they are tried. -/
def extensions : List String := [".tsx", ".ts", ".d.ts", ".jsx", ".js"]

/-- The paths that a specifier is looked up under: a relative one in the directory of the file
that it stands in, any other as it is and among the installed packages. -/
def bases (specifier file : String) : List String :=
  if Text.begins "." specifier then
    [Path.normalize (Path.join (Path.directory file) specifier)]
  else
    [specifier, "node_modules/" ++ specifier ++ "/index",
      "node_modules/@types/" ++ specifier ++ "/index"]

/-- The path itself, with an extension, and the index of the directory. -/
def candidates (base : String) : List String :=
  base :: (extensions.map (base ++ ·) ++ extensions.map (base ++ "/index" ++ ·))

def isCandidate (p : Project) (path : String) : Bool := p.files.contains path && isSource path

/-- The file that a specifier names in a file. -/
def resolve? (p : Project) (specifier file : String) : Option String :=
  ((bases specifier file).flatMap candidates).find? p.isCandidate

theorem contains_of_resolve? {p : Project} {specifier file target : String}
    (h : p.resolve? specifier file = some target) : p.files.contains target ∧ isSource target := by
  simpa [isCandidate] using List.find?_some h

/-- A file, read under its normalized path. -/
def read (p : Project) (path : String) : Except Failure SourceFile :=
  let path := Path.normalize path
  match p.files.get? path with
  | none => .error (.unknownFile path)
  | some content => SourceFile.parse path content.text none content.tree

end Project

end DeferredImports
