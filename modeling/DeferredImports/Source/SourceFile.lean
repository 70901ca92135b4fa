import DeferredImports.Failure
import DeferredImports.Path
import DeferredImports.Source.ParseTree

/-! Source files with their parse trees, and the text that a tree covers. -/

namespace DeferredImports

structure SourceFile where
  path : String
  language : String
  content : String
  hasError : Bool
  root : ParseTree
deriving Inhabited

namespace SourceFile

def byteLength (f : SourceFile) : Nat := f.content.utf8ByteSize

/-- The text of some bytes, if they are a text. -/
def slice? (f : SourceFile) (start stop : Nat) : Option String :=
  String.fromUTF8? (f.content.toUTF8.extract start stop)

/-- The text between two nodes, which lie on the bounds of characters. -/
def between (f : SourceFile) (start stop : Nat) : String := (f.slice? start stop).getD ""

def text (f : SourceFile) (t : ParseTree) : String := f.between t.start t.stop

/-- The text of a part that may be absent. -/
def textOf (f : SourceFile) : Option ParseTree → String
  | none => ""
  | some t => f.text t

/-- An absent or empty name is none. -/
def nameOf? (f : SourceFile) (t : Option ParseTree) : Option String :=
  (some (f.textOf t)).filter (· ≠ "")

/-- An offset counted from the start, or backwards from the end if it is negative. -/
def offset (f : SourceFile) (i : Int) : Nat :=
  if i < 0 then (i + f.byteLength).toNat else i.toNat

/-- The text between two offsets; bounds beyond the file are cut to it, and those that are left
out are its ends. -/
def slice (f : SourceFile) (start stop : Option Int) : Except Failure String :=
  match f.slice? (f.offset (start.getD 0)) (f.offset (stop.getD f.byteLength)) with
  | none => .error .undecodable
  | some s => .ok s

def description (f : SourceFile) : String :=
  "AstTree(file=" ++ f.path ++ ", language=" ++ f.language ++ ")"

/-- A file in a language that is given, or told by its path, with the tree of its content. -/
def parse (path content : String) (language : Option String) (tree : Option (Bool × ParseTree)) :
    Except Failure SourceFile :=
  match language.or (Language.ofPath? path) with
  | none => .error (.undetectedLanguage path)
  | some language =>
    if Language.isSupported language then
      match tree with
      | none => .error (.unsupportedLanguage language path)
      | some (hasError, root) => .ok ⟨path, language, content, hasError, root⟩
    else .error (.unsupportedLanguage language path)

end SourceFile

end DeferredImports
