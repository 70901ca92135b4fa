import DeferredImports.Text.Basic

/-! Paths with slashes: normal form, directory, joining; and the languages of source files, told by
the ends of their names. -/

namespace DeferredImports.Path

open Text (pieces glue)

/-- Two leading slashes are kept as they are; any other number of them counts as one. -/
def leadingSlashes (cs : List Char) : Nat :=
  match (cs.takeWhile (· = '/')).length with
  | 0 => 0
  | 2 => 2
  | _ => 1

/-- Adds a part to the parts so far, the last one first. A parent mark takes back a part, and
stays only where there is none to take back in a relative path. -/
def pushPart (absolute : Bool) (parts : List (List Char)) (part : List Char) :
    List (List Char) :=
  if part = [] ∨ part = ['.'] then parts
  else if part ≠ ['.', '.'] then part :: parts
  else match parts with
    | [] => if absolute then [] else [part]
    | last :: others => if last = ['.', '.'] then part :: parts else others

def normalParts (absolute : Bool) (parts : List (List Char)) : List (List Char) :=
  (parts.foldl (pushPart absolute) []).reverse

def normalizeChars (cs : List Char) : List Char :=
  let slashes := leadingSlashes cs
  let path := List.replicate slashes '/' ++ glue '/' (normalParts (slashes ≠ 0) (pieces '/' cs))
  if path = [] then ['.'] else path

/-- The path without empty, current and superfluous parent parts; nothing left is a dot. -/
def normalize (path : String) : String := String.ofList (normalizeChars path.toList)

/-- Everything up to the last slash, without the slashes before it unless there is nothing
else. -/
def directory (path : String) : String :=
  let head := path.toList.reverse.dropWhile (· ≠ '/')
  let trimmed := head.dropWhile (· = '/')
  String.ofList (if trimmed = [] then head.reverse else trimmed.reverse)

/-- A rooted path stands for itself. -/
def join (directory path : String) : String :=
  if Text.begins "/" path then path
  else if directory = "" || Text.ends "/" directory then directory ++ path
  else directory ++ "/" ++ path

/-- The last part that names something; empty and current parts do not. -/
def lastName (path : String) : List Char :=
  (((pieces '/' path.toList).filter fun p => p ≠ [] ∧ p ≠ ['.']).getLast?).getD []

/-- The last dot of the last name and what follows, unless the dot begins or ends the name. -/
def suffix (path : String) : String :=
  let reversed := (lastName path).reverse
  let extension := reversed.takeWhile (· ≠ '.')
  match reversed.dropWhile (· ≠ '.') with
  | '.' :: _ :: _ => if extension = [] then "" else String.ofList ('.' :: extension.reverse)
  | _ => ""

end DeferredImports.Path

namespace DeferredImports.Language

/-- The language of a file; the case of its name does not matter. -/
def ofPath? (path : String) : Option String :=
  let path := Text.lower path
  if Text.ends ".d.ts" path then some "typescript"
  else match Path.suffix path with
    | ".ts" | ".mts" | ".cts" => some "typescript"
    | ".tsx" => some "tsx"
    | ".js" | ".jsx" | ".mjs" => some "javascript"
    | _ => none

/-- Whether a language, or a short name of it, can be parsed. -/
def isSupported (language : String) : Bool :=
  ["typescript", "ts", "tsx", "javascript", "js", "jsx"].contains (Text.lower language)

theorem isSupported_of_ofPath? {path language : String} (h : ofPath? path = some language) :
    isSupported language := by
  simp only [ofPath?] at h
  have : language = "typescript" ∨ language = "tsx" ∨ language = "javascript" := by
    split at h
    · simp_all
    · split at h <;> simp_all
  rcases this with rfl | rfl | rfl <;> decide +kernel

end DeferredImports.Language
