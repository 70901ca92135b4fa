import DeferredImports.Proofs.ExportNameTokens
import DeferredImports.Proofs.WrittenTypes

/-! References to named types: a path and at most one list of type arguments that ends the text.
A symbol is also given to texts that only look like one. -/

namespace DeferredImports

namespace TypeSymbol

open Text

/-- The four kinds of brackets in types. -/
inductive Bracket where
  | angle | round | square | curly
deriving DecidableEq

def Bracket.opening : Bracket → Char
  | angle => '<'
  | round => '('
  | square => '['
  | curly => '{'

def Bracket.closing : Bracket → Char
  | angle => '>'
  | round => ')'
  | square => ']'
  | curly => '}'

/-- Characters that open or close something, or do so before another one. -/
def isMark (c : Char) : Bool :=
  ['<', '>', '(', ')', '[', ']', '{', '}', '"', '\'', '\x60', '=', '/'].contains c

def endsLine (c : Char) : Bool := ['\n', '\r', '\u2028', '\u2029'].contains c

mutual

/-- Every bracket is closed by its partner, apart from those in literals and comments. The head of
an arrow is no bracket. -/
inductive Nested : List Char → Prop
  | nil : Nested []
  | plain {c : Char} {cs : List Char} (hc : ¬ isMark c) (h : Nested cs) : Nested (c :: cs)
  | equals {cs : List Char} (hcs : cs.head? ≠ some '>') (h : Nested cs) : Nested ('=' :: cs)
  | arrow {cs : List Char} (h : Nested cs) : Nested ('=' :: '>' :: cs)
  | group (b : Bracket) {inner cs : List Char} (hinner : Nested inner) (h : Nested cs) :
      Nested (b.opening :: (inner ++ b.closing :: cs))
  | literal (q : Quote) {content cs : List Char} {us : List Nat}
      (hcontent : Literal.units? q.char .plain content = some us) (h : Nested cs) :
      Nested (q.char :: (content ++ q.char :: cs))
  | template {content cs : List Char} (hcontent : Template content) (h : Nested cs) :
      Nested ('\x60' :: (content ++ '\x60' :: cs))
  | lineComment {content cs : List Char} {c : Char} (hcontent : ∀ d ∈ content, ¬ endsLine d)
      (hc : endsLine c) (h : Nested cs) : Nested ('/' :: '/' :: (content ++ c :: cs))
  | blockComment {content cs : List Char} (hcontent : ¬ ['*', '/'] <:+: content ++ ['*'])
      (h : Nested cs) : Nested ('/' :: '*' :: (content ++ '*' :: '/' :: cs))

/-- The text of a template literal, with types in its holes. -/
inductive Template : List Char → Prop
  | nil : Template []
  | plain {c : Char} {cs : List Char} (hc : c ≠ '\x60' ∧ c ≠ '\\' ∧ c ≠ '$') (h : Template cs) :
      Template (c :: cs)
  | dollar {cs : List Char} (hcs : cs.head? ≠ some '{') (h : Template cs) : Template ('$' :: cs)
  | escaped {c : Char} {cs : List Char} (h : Template cs) : Template ('\\' :: c :: cs)
  | hole {inner cs : List Char} (hinner : Nested inner) (h : Template cs) :
      Template ('$' :: '{' :: (inner ++ '}' :: cs))

end

/-- One list of type arguments. -/
def IsArgumentList (cs : List Char) : Prop := ∃ inner, Nested inner ∧ cs = '<' :: (inner ++ ['>'])

theorem IsArgumentList.isEnclosed {cs : List Char} (h : IsArgumentList cs) : IsEnclosed cs := by
  obtain ⟨inner, -, rfl⟩ := h
  refine ⟨rfl, ?_⟩
  rw [← List.cons_append, List.getLast?_concat]

theorem Nested.of_cons {c : Char} {cs : List Char} (hc : ¬ isMark c) (h : Nested (c :: cs)) :
    Nested cs := by
  generalize htext : c :: cs = text at h
  cases h with
  | nil => cases htext
  | plain hd h =>
    cases htext
    exact h
  | group b hinner h =>
    cases htext
    cases b <;> exact absurd (by decide) hc
  | literal q hcontent h =>
    cases htext
    cases q <;> exact absurd (by decide) hc
  | _ =>
    cases htext
    exact absurd (by decide) hc

/-- No closing bracket stands first. -/
theorem not_nested_of_closing (b : Bracket) (cs : List Char) : ¬ Nested (b.closing :: cs) := by
  intro h
  generalize htext : b.closing :: cs = text at h
  cases h with
  | nil => cases htext
  | plain hc h =>
    obtain ⟨rfl, -⟩ := List.cons_eq_cons.1 htext
    cases b <;> exact hc (by decide)
  | group b' hinner h =>
    have hhead := (List.cons_eq_cons.1 htext).1
    cases b <;> cases b' <;> exact absurd hhead (by decide)
  | literal q hcontent h =>
    have hhead := (List.cons_eq_cons.1 htext).1
    cases b <;> cases q <;> exact absurd hhead (by decide)
  | _ =>
    have hhead := (List.cons_eq_cons.1 htext).1
    cases b <;> exact absurd hhead (by decide)

/-- Words that no type is named by. -/
def reservedWords : List String :=
  ["await", "break", "case", "catch", "class", "const", "continue", "debugger", "default", "delete",
    "do", "else", "enum", "export", "extends", "false", "finally", "for", "function", "if",
    "implements", "import", "in", "instanceof", "interface", "let", "new", "null", "package",
    "private", "protected", "public", "return", "static", "super", "switch", "this", "throw",
    "true", "try", "typeof", "var", "void", "while", "with", "yield"]

/-- A dotted path of identifiers that is no type of the language itself, and at most one list of
type arguments. -/
def IsReference (cs : List Char) (path : List (List Char)) : Prop :=
  IsPathThen isIdentifier IsArgumentList cs path ∧
    ∀ n ∈ path.head?, String.ofList n ∉ reservedWords

variable {s : TypeSymbol} {core : List Char} {path : List (List Char)}

/-- What follows the path of a reference is what stands from its first angle bracket on. -/
theorem isReference_iff_of_path (h : IsPathThen isPart IsEnclosed core s.names) :
    IsReference core path ↔ path = s.names ∧ (∀ n ∈ path, isIdentifier n) ∧
      (∀ n ∈ path.head?, String.ofList n ∉ reservedWords) ∧
      (arguments core = [] ∨ IsArgumentList (arguments core)) := by
  constructor
  · rintro ⟨hpath, hwords⟩
    have hunique := hpath.unique unbroken_isIdentifier unbroken_isPart
      (fun _ hlist => hlist.isEnclosed) (fun _ hrest => hrest) h
    have hcases := hpath.arguments_cases unbroken_isIdentifier fun _ hlist => hlist.isEnclosed
    exact ⟨hunique, hpath.2.1, hwords, hcases.imp And.left And.left⟩
  · rintro ⟨rfl, hidentifiers, hwords, hlist⟩
    refine ⟨⟨h.1, hidentifiers, h.2.2.1, ?_⟩, hwords⟩
    rcases h.arguments_cases unbroken_isPart fun _ hrest => hrest with
      ⟨-, hcore⟩ | ⟨henclosed, blanks, hblanks, hcore⟩
    · exact .inl hcore
    · refine .inr ⟨blanks, arguments core, hblanks, hlist.resolve_left fun hnil => ?_, hcore⟩
      cases hnil ▸ henclosed.1

/-- A reference has a symbol exactly if its names have the restricted form. -/
theorem IsReference.isPathThen_iff (h : IsReference core path) :
    IsPathThen isPart IsEnclosed core s.names ↔ s.names = path ∧ ∀ n ∈ path, isPart n := by
  constructor
  · intro hpart
    have hunique := hpart.unique unbroken_isPart unbroken_isIdentifier (fun _ hrest => hrest)
      (fun _ hlist => hlist.isEnclosed) h.1
    exact ⟨hunique, hunique ▸ hpart.2.1⟩
  · rintro ⟨rfl, hpart⟩
    obtain ⟨⟨hne, -, hpredefined, hrest⟩, -⟩ := h
    refine ⟨hne, hpart, hpredefined, hrest.imp_right ?_⟩
    rintro ⟨blanks, rest, hblanks, hlist, hcore⟩
    exact ⟨blanks, rest, hblanks, hlist.isEnclosed, hcore⟩

/-- A text has a symbol exactly if it is a path of restricted names, which the symbol spells, and
after it nothing, or whatever begins with an opening and ends with a closing angle bracket. So a
reference has its symbol if its names are restricted ones; and a text with a symbol is a reference
if its names are identifiers, the first is no reserved word, and what begins with the bracket is
one list of type arguments. -/
theorem ofText?_written (text : String) (core : List Char) (h : WrittenAs text.toList core) :
    (∀ s, ofText? text = some s ↔ IsPathThen isPart IsEnclosed core s.names) ∧
    (∀ path, IsReference core path → ∀ s, ofText? text = some s ↔
      s.names = path ∧ ∀ n ∈ path, isPart n) ∧
    (∀ s, ofText? text = some s → ∀ path, IsReference core path ↔
      path = s.names ∧ (∀ n ∈ path, isIdentifier n) ∧
        (∀ n ∈ path.head?, String.ofList n ∉ reservedWords) ∧
        (arguments core = [] ∨ IsArgumentList (arguments core))) := by
  refine ⟨fun s => ofText?_eq_some_iff h, fun path hpath s => ?_, fun s hs path => ?_⟩
  · rw [ofText?_eq_some_iff h]
    exact hpath.isPathThen_iff
  · exact isReference_iff_of_path ((ofText?_eq_some_iff h).1 hs)

/-- The annotation of an element whose properties are a list. -/
theorem ofText?_written_element :
    WrittenAs " : React.ReactElement<A[]> ".toList "React.ReactElement<A[]>".toList ∧
      IsReference "React.ReactElement<A[]>".toList ["React".toList, "ReactElement".toList] ∧
      ofText? " : React.ReactElement<A[]> " = some ⟨"ReactElement", ["React"]⟩ := by
  have hwritten : WrittenAs " : React.ReactElement<A[]> ".toList
      "React.ReactElement<A[]>".toList := dropColon_eq_iff.1 (by decide +kernel)
  have hlist : IsArgumentList "<A[]>".toList :=
    ⟨['A', '[', ']'], .plain (by decide) (.group .square .nil .nil), rfl⟩
  have hreference : IsReference "React.ReactElement<A[]>".toList
      ["React".toList, "ReactElement".toList] :=
    ⟨⟨by decide, by decide +kernel, by decide +kernel, .inr ⟨[], _, nofun, hlist, rfl⟩⟩,
      by decide +kernel⟩
  refine ⟨hwritten, hreference, ?_⟩
  refine ((ofText?_written _ _ hwritten).2.1 _ hreference _).2 ⟨?_, by decide +kernel⟩
  rw [names_eq_path]
  rfl

/-- A union of two lists has the symbol of the first, and a literal type has one of its own. -/
theorem ofText?_union_true :
    (ofText? "Array<A> | Array<B>" = some ⟨"Array", []⟩ ∧
      WrittenAs "Array<A> | Array<B>".toList "Array<A> | Array<B>".toList ∧
      ∀ path, ¬ IsReference "Array<A> | Array<B>".toList path) ∧
    ofText? "true" = some ⟨"true", []⟩ ∧ WrittenAs "true".toList "true".toList ∧
      ∀ path, ¬ IsReference "true".toList path := by
  have hunion : WrittenAs "Array<A> | Array<B>".toList "Array<A> | Array<B>".toList :=
    dropColon_eq_iff.1 (by decide +kernel)
  have htrue : WrittenAs "true".toList "true".toList := dropColon_eq_iff.1 (by decide +kernel)
  have hfirst : ofText? "Array<A> | Array<B>" = some ⟨"Array", []⟩ := by decide +kernel
  have hliteral : ofText? "true" = some ⟨"true", []⟩ := by decide +kernel
  refine ⟨⟨hfirst, hunion, fun path hpath => ?union⟩, hliteral, htrue, fun path hpath => ?literal⟩
  case union =>
    obtain ⟨-, -, -, hlist⟩ :=
      (isReference_iff_of_path ((ofText?_eq_some_iff hunion).1 hfirst)).1 hpath
    obtain ⟨inner, hinner, harguments⟩ := hlist.resolve_left (by decide +kernel)
    have htext : arguments "Array<A> | Array<B>".toList =
        '<' :: (('A' :: Bracket.angle.closing :: " | Array<B".toList) ++ ['>']) := by decide +kernel
    obtain rfl := List.append_cancel_right (List.cons.inj (htext.symm.trans harguments)).2
    exact not_nested_of_closing .angle _ (hinner.of_cons (by decide))
  case literal =>
    obtain ⟨rfl, -, hwords, -⟩ :=
      (isReference_iff_of_path ((ofText?_eq_some_iff htrue).1 hliteral)).1 hpath
    rw [names_eq_path] at hwords
    exact absurd hwords (by decide +kernel)

end TypeSymbol

end DeferredImports
