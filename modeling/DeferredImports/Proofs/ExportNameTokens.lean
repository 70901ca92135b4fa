import DeferredImports.Proofs.ExpressionReading
import DeferredImports.Proofs.IdentifierNames
import DeferredImports.Source.Statements
import DeferredImports.Syntax.Print

/-! The tokens that name an export: identifiers and string literals, and the name that each of
them denotes. A literal keeps its escapes when it is read, and is spelled anew with a quote, or
with none, when it is printed. -/

namespace DeferredImports

/-- The code units of a code point. -/
def codeUnits (point : Nat) : List Nat :=
  if point < 0x10000 then [point]
  else [0xD800 + (point - 0x10000) / 0x400, 0xDC00 + (point - 0x10000) % 0x400]

def unitsOf (cs : List Char) : List Nat := cs.flatMap fun c => codeUnits c.toNat

def hexDigit? (c : Char) : Option Nat :=
  if c.isDigit then some (c.toNat - '0'.toNat)
  else if 'a' ≤ c ∧ c ≤ 'f' then some (c.toNat - 'a'.toNat + 10)
  else if 'A' ≤ c ∧ c ≤ 'F' then some (c.toNat - 'A'.toNat + 10)
  else none

namespace Literal

/-- What has been read of an escape that gives a character by its number. -/
inductive Numeric where
  | digits (more value : Nat)
  | unicode
  | braced (value : Option Nat)
deriving DecidableEq

/-- What has been read just before a character of a literal. -/
inductive Position where
  | plain
  | backslash
  | numeric (n : Numeric)
  | zero
  | carriageReturn
deriving DecidableEq

open Position

def Numeric.readDigit : Numeric → Nat → Option (List Nat × Position)
  | digits 0 value, d => some (codeUnits (16 * value + d), plain)
  | digits (n + 1) value, d => some ([], numeric (digits n (16 * value + d)))
  | unicode, d => some ([], numeric (digits 2 d))
  | braced value, d =>
    let point := 16 * value.getD 0 + d
    if point ≤ 0x10FFFF then some ([], numeric (braced (some point))) else none

def Numeric.read : Numeric → Char → Option (List Nat × Position)
  | unicode, '{' => some ([], numeric (braced none))
  | braced (some point), '}' => some (codeUnits point, plain)
  | n, c => (hexDigit? c).bind n.readDigit

/-- An escaped line end stands for nothing, and an escaped digit other than a single zero is no
escape. -/
def readEscaped (c : Char) : Option (List Nat × Position) :=
  match c with
  | 'b' => some ([0x08], plain)
  | 't' => some ([0x09], plain)
  | 'n' => some ([0x0A], plain)
  | 'v' => some ([0x0B], plain)
  | 'f' => some ([0x0C], plain)
  | 'r' => some ([0x0D], plain)
  | '0' => some ([0x00], zero)
  | 'x' => some ([], numeric (.digits 1 0))
  | 'u' => some ([], numeric .unicode)
  | '\r' => some ([], carriageReturn)
  | '\n' | '\u2028' | '\u2029' => some ([], plain)
  | c => if c.isDigit then none else some (codeUnits c.toNat, plain)

/-- Neither the quote nor the end of a line stands for itself. -/
def readPlain (quote c : Char) : Option (List Nat × Position) :=
  if c = '\\' then some ([], backslash)
  else if c = quote ∨ c = '\n' ∨ c = '\r' then none
  else some (codeUnits c.toNat, plain)

namespace Position

/-- One more character: the code units that are now known, and the next position. -/
def read (quote : Char) : Position → Char → Option (List Nat × Position)
  | plain, c => readPlain quote c
  | backslash, c => readEscaped c
  | numeric n, c => n.read c
  | zero, c => if c.isDigit then none else readPlain quote c
  | carriageReturn, c => if c = '\n' then some ([], plain) else readPlain quote c

def mayEnd : Position → Bool
  | plain | zero | carriageReturn => true
  | _ => false

end Position

/-- The code units that the content of a literal denotes, from a position on. -/
def units? (quote : Char) : Position → List Char → Option (List Nat)
  | p, [] => if p.mayEnd then some [] else none
  | p, c :: cs => (p.read quote c).bind fun r => (units? quote r.2 cs).map (r.1 ++ ·)

/-- The content has an occurrence of a quote that no backslash escapes. -/
def holdsBare (quote : Char) (escaped : Bool) : List Char → Bool
  | [] => false
  | c :: cs =>
    if escaped then holdsBare quote false cs else c == quote || holdsBare quote (c == '\\') cs

end Literal

/-- The name of an export as a token: an identifier, or a literal between two quotes without a
third one. -/
inductive IsNameToken : List Char → List Nat → Prop
  | identifier {cs : List Char} (h : Text.isIdentifier cs) : IsNameToken cs (unitsOf cs)
  | literal (q : Quote) {cs : List Char} {us : List Nat}
      (h : Literal.units? q.char .plain cs = some us) : IsNameToken (q.char :: (cs ++ [q.char])) us

namespace Quote

variable (q : Quote)

@[simp] theorem char_ne_backslash : q.char ≠ '\\' := by cases q <;> decide

theorem char_ne_newline : q.char ≠ '\n' := by cases q <;> decide

theorem char_ne_closingBrace : q.char ≠ '}' := by cases q <;> decide

theorem char_inj {q q' : Quote} (h : q.char = q'.char) : q = q' := by
  cases q <;> cases q' <;> first | rfl | exact absurd h (by decide)

theorem not_startsName : ¬ Text.startsName q.char := by cases q <;> decide +kernel

theorem not_startsIdentifier : ¬ Text.startsIdentifier q.char := by
  cases q <;> decide +kernel

theorem hexDigit?_char : hexDigit? q.char = none := by cases q <;> decide

end Quote

/-! ### Another quote around the same content -/

namespace Literal

variable {q : Quote} {p p' : Position} {c : Char} {us : List Nat}

open Position

theorem readEscaped_ne_backslash (h : readEscaped c = some (us, p')) : p' ≠ backslash := by
  unfold readEscaped at h
  split at h <;> grind

theorem hexDigit?_ne {d : Nat} (h : hexDigit? c = some d) : c ≠ q.char ∧ c ≠ '\\' := by
  constructor
  · rintro rfl
    rw [q.hexDigit?_char] at h
    cases h
  · rintro rfl
    exact absurd h (by decide +revert)

theorem readPlain_other (q' : Quote) (h : readPlain q.char c = some (us, p')) :
    readPlain q'.char c = (if c = q'.char then none else some (us, p')) ∧
      (p' = backslash ↔ c = '\\') := by
  unfold readPlain at h ⊢
  grind [Quote.char_ne_backslash]

theorem Numeric.read_ne (q : Quote) {n : Numeric} (h : n.read c = some (us, p')) :
    c ≠ q.char ∧ c ≠ '\\' ∧ p' ≠ backslash := by
  unfold Numeric.read at h
  split at h
  · cases h
    exact ⟨q.char_ne_brace.symm, by decide, nofun⟩
  · cases h
    exact ⟨q.char_ne_closingBrace.symm, by decide, nofun⟩
  · obtain ⟨d, hd, hp'⟩ := Option.bind_eq_some_iff.1 h
    obtain ⟨hquote, hbackslash⟩ := hexDigit?_ne hd
    refine ⟨hquote, hbackslash, ?_⟩
    unfold Numeric.readDigit at hp'
    grind

/-- A character has the same reading between other quotes, unless it is the other quote and not
escaped. Just after a backslash, and only there, the next character is escaped. -/
theorem Position.read_other (q' : Quote) (h : p.read q.char c = some (us, p')) :
    p.read q'.char c = (if p ≠ backslash ∧ c = q'.char then none else some (us, p')) ∧
      (p' = backslash ↔ p ≠ backslash ∧ c = '\\') := by
  cases p with
  | plain => simpa [read] using readPlain_other q' h
  | backslash => simpa [read] using ⟨h, readEscaped_ne_backslash h⟩
  | numeric n =>
    obtain ⟨hquote, hbackslash, hp'⟩ := Numeric.read_ne q' h
    simpa [read, hquote, hbackslash, hp'] using h
  | zero =>
    by_cases hc : c.isDigit
    · simp [read, hc] at h
    · simpa [read, hc] using readPlain_other q' (by simpa [read, hc] using h)
  | carriageReturn =>
    by_cases hc : c = '\n'
    · subst hc
      cases h
      simp [read, q'.char_ne_newline.symm]
    · simpa [read, hc] using readPlain_other q' (by simpa [read, hc] using h)

theorem units?_cons_eq_some {quote : Char} {cs : List Char}
    (h : units? quote p (c :: cs) = some us) :
    ∃ vs p' ws, p.read quote c = some (vs, p') ∧ units? quote p' cs = some ws ∧ vs ++ ws = us := by
  obtain ⟨⟨vs, p'⟩, hread, hrest⟩ := Option.bind_eq_some_iff.1 h
  obtain ⟨ws, hws, heq⟩ := Option.map_eq_some_iff.1 hrest
  exact ⟨vs, p', ws, hread, hws, heq⟩

/-- Between other quotes the same content denotes the same, unless it holds the other quote. -/
theorem units?_other (q' : Quote) {cs : List Char} (h : units? q.char p cs = some us) :
    units? q'.char p cs = if holdsBare q'.char (p == backslash) cs then none else some us := by
  induction cs generalizing p us with
  | nil => simpa [units?, holdsBare] using h
  | cons c cs ih =>
    obtain ⟨vs, p', ws, hread, hws, rfl⟩ := units?_cons_eq_some h
    obtain ⟨hother, hescaped⟩ := Position.read_other q' hread
    have hcs := ih hws
    rw [units?, hother, holdsBare]
    by_cases hp : p = backslash
    · have hp' : (p' == backslash) = false := by simpa [hp] using hescaped
      rw [hp'] at hcs
      simp only [hp, ne_eq, not_true_eq_false, false_and, if_false, Option.bind_some, hcs,
        beq_self_eq_true, if_true]
      split <;> rfl
    · have hp' : (p' == backslash) = (c == '\\') := by
        rw [Bool.eq_iff_iff]
        simpa [hp] using hescaped
      rw [hp'] at hcs
      by_cases hc : c = q'.char
      · simp [hp, hc]
      · simp only [hc, and_false, if_false, Option.bind_some, hcs, beq_eq_false_iff_ne.2 hp,
          Bool.false_eq_true, beq_eq_false_iff_ne.2 hc, Bool.false_or]
        split <;> rfl

theorem mem_of_holdsBare {quote : Char} {escaped : Bool} {cs : List Char}
    (h : holdsBare quote escaped cs) : quote ∈ cs := by
  induction cs generalizing escaped with
  | nil => cases h
  | cons c cs ih => grind [holdsBare]

/-- A content without backslashes denotes itself, and has no line end in it. -/
theorem units?_verbatim {quote : Char} {cs : List Char} (h : units? quote .plain cs = some us)
    (hcs : ∀ c ∈ cs, c ≠ '\\') : us = unitsOf cs ∧ '\n' ∉ cs := by
  induction cs generalizing us with
  | nil =>
    cases h
    exact ⟨rfl, List.not_mem_nil⟩
  | cons c cs ih =>
    obtain ⟨hc, hcs⟩ := List.forall_mem_cons.1 hcs
    obtain ⟨vs, p', ws, hread, hws, rfl⟩ := units?_cons_eq_some h
    have hplain : c ≠ '\n' ∧ vs = codeUnits c.toNat ∧ p' = plain := by
      simp only [Position.read, readPlain, if_neg hc] at hread
      grind
    obtain ⟨hnewline, rfl, rfl⟩ := hplain
    obtain ⟨rfl, hrest⟩ := ih hws hcs
    exact ⟨rfl, List.not_mem_cons_of_ne_of_not_mem hnewline.symm hrest⟩

end Literal

/-! ### Spelling a name -/

theorem isNameToken_literal_iff (q : Quote) (cs : List Char) {vs : List Nat} :
    IsNameToken (q.char :: (cs ++ [q.char])) vs ↔ Literal.units? q.char .plain cs = some vs := by
  refine ⟨fun h => ?_, .literal q⟩
  generalize htoken : q.char :: (cs ++ [q.char]) = token at h
  cases h with
  | identifier h =>
    rw [← htoken, Text.isIdentifier, Bool.and_eq_true] at h
    exact absurd h.1 q.not_startsIdentifier
  | literal q' h =>
    obtain ⟨hquote, hcs⟩ := List.cons_eq_cons.1 htoken
    obtain rfl := Quote.char_inj hquote
    rwa [List.append_cancel_right hcs]

theorem isNameToken_bare_iff {c : Char} {cs : List Char} {vs : List Nat}
    (hc : Text.startsName c) :
    IsNameToken (c :: cs) vs ↔ Text.isIdentifier (c :: cs) ∧ vs = unitsOf (c :: cs) := by
  constructor
  · intro h
    generalize htoken : c :: cs = token at h
    cases h with
    | identifier h => exact ⟨h, rfl⟩
    | literal q h =>
      rw [(List.cons_eq_cons.1 htoken).1] at hc
      exact absurd hc q.not_startsName
  · rintro ⟨h, rfl⟩
    exact .identifier h

namespace Node

open Text (isIdentifierName covered otherNumerals keptContinuations)

variable {q : Quote} {n : String} {us vs : List Nat}

theorem startsName_of_isIdentifierName (h : isIdentifierName n) :
    ∃ c cs, n.toList = c :: cs ∧ Text.startsName c := by
  unfold isIdentifierName at h
  split at h
  · cases h
  · next c cs hcs => exact ⟨c, cs, hcs, (Bool.and_eq_true_iff.1 h).1⟩

/-- The name is printed bare: it is the same name unless a numeral of its own or the vertical tilde
keeps it from being an identifier. -/
theorem isNameToken_exportNameText_bare (hus : Literal.units? q.char .plain n.toList = some us)
    (hname : isIdentifierName n) :
    IsNameToken (exportNameText n).toList vs ↔ vs = us ∧
      (∀ c ∈ n.toList.head?, ¬ covered otherNumerals c) ∧
      ∀ c ∈ n.toList, (covered otherNumerals c → covered keptContinuations c) ∧ c ≠ '\u2E2F' := by
  have hbackslash : ∀ c ∈ n.toList, c ≠ '\\' := by
    rintro c hc rfl
    exact absurd (BareName.isNameLike_of_mem ⟨n, hname⟩ '\\' hc) (by decide +kernel)
  obtain ⟨rfl, hnewline⟩ := Literal.units?_verbatim hus hbackslash
  have hcontinues : ∀ c ∈ n.toList, Text.continuesName c := fun c hc => by
    have hlike := BareName.isNameLike_of_mem ⟨n, hname⟩ c hc
    have hne : c ≠ '\n' := fun h => hnewline (h ▸ hc)
    simpa [isNameLike, hne] using hlike
  obtain ⟨c, cs, hcs, hstarts⟩ := startsName_of_isIdentifierName hname
  rw [exportNameText, if_pos hname]
  rw [hcs] at hcontinues ⊢
  rw [isNameToken_bare_iff hstarts, and_comm,
    Text.isIdentifier_iff hstarts fun d hd => hcontinues d (List.mem_cons_of_mem c hd)]
  simp

/-- The name is printed between the quotes that its double quotes leave. -/
theorem isNameToken_exportNameText_quoted (hus : Literal.units? q.char .plain n.toList = some us)
    (hname : ¬ isIdentifierName n) :
    IsNameToken (exportNameText n).toList vs ↔ vs = us ∧
      ¬ (Text.holds '"' n ∧ Literal.holdsBare '\'' false n.toList) := by
  obtain ⟨q', hquote, hother⟩ : ∃ q' : Quote, nameQuote n = q'.text ∧
      (Literal.holdsBare q'.char false n.toList ↔
        Text.holds '"' n ∧ Literal.holdsBare '\'' false n.toList) := by
    by_cases hdouble : Text.holds '"' n
    · exact ⟨.single, by simp [nameQuote, hdouble]; rfl, by simp [hdouble, Quote.char]⟩
    · refine ⟨.double, by simp [nameQuote, hdouble]; rfl, ?_⟩
      have hbare : ¬ Literal.holdsBare '"' false n.toList := fun h =>
        hdouble (List.contains_iff_mem.2 (Literal.mem_of_holdsBare h))
      simp [hdouble, Quote.char, hbare]
  have htoken : (exportNameText n).toList = q'.char :: (n.toList ++ [q'.char]) := by
    simp [exportNameText, hname, quoted, hquote, Quote.text]
  rw [htoken, isNameToken_literal_iff, Literal.units?_other q' hus, ← hother]
  rw [show (Literal.Position.plain == .backslash) = false from rfl]
  by_cases hbare : Literal.holdsBare q'.char false n.toList
  · simp [hbare]
  · simp [hbare, eq_comm]

theorem print_memberNamed (m : Node) (name : String) :
    (m.memberNamed name).print = m.print.map fun text =>
      if isIdentifierName name then text ++ "." ++ exportNameText name
      else text ++ "[" ++ exportNameText name ++ "]" := by
  unfold memberNamed exportNameText
  split
  · show (do return (← m.print) ++ "." ++ name) = _
    cases m.print <;> rfl
  · show (do
      let object ← m.print
      return object ++ "[" ++ (← (nameLiteral name).print) ++ "]") = _
    cases m.print <;> rfl

theorem specifierText_renamed (exported localName : String) (isTypeOnly : Bool) :
    specifierText (.importSpecifier (.identifier localName) (some (.identifier exported))
        (some isTypeOnly)) =
      .ok ((if isTypeOnly then "type " else "") ++
        (exportNameText exported ++ " as " ++ localName)) := by
  cases isTypeOnly
  · show Except.ok (exportNameText exported ++ " as " ++ localName) = _
    simp
  · rfl

end Node

namespace SourceFile

open Text (isIdentifierName covered otherNumerals keptContinuations)

theorem literalParts_quoted (q : Quote) (cs : List Char) :
    literalParts (String.ofList (q.char :: (cs ++ [q.char]))) =
      (String.ofList cs, q.char.toString) := by
  have hquote : q.char = '"' ∨ q.char = '\'' := by cases q <;> simp [Quote.char]
  simp [literalParts, hquote]

/-- The name that is read from a literal keeps its escapes, and where it is printed again it denotes
the same, with two exceptions. A bare name may be no identifier; and a name with a double quote in
it goes between single quotes, where a single quote that was not escaped ends it too early. -/
theorem exportName_printed (f : SourceFile) (t : ParseTree) (q : Quote) (content : List Char)
    (us : List Nat) (htype : t.type = "string")
    (htext : f.text t = String.ofList (q.char :: (content ++ [q.char])))
    (hus : Literal.units? q.char .plain content = some us) :
    f.exportName t = String.ofList content ∧
      (∀ m : Node, (m.memberNamed (f.exportName t)).print = m.print.map fun text =>
        if isIdentifierName (f.exportName t) then
          text ++ "." ++ Node.exportNameText (f.exportName t)
        else text ++ "[" ++ Node.exportNameText (f.exportName t) ++ "]") ∧
      (∀ (localName : String) (isTypeOnly : Bool),
        Node.specifierText (.importSpecifier (.identifier localName)
            (some (.identifier (f.exportName t))) (some isTypeOnly)) =
          .ok ((if isTypeOnly then "type " else "") ++
            (Node.exportNameText (f.exportName t) ++ " as " ++ localName))) ∧
      (isIdentifierName (f.exportName t) → ∀ vs,
        IsNameToken (Node.exportNameText (f.exportName t)).toList vs ↔ vs = us ∧
          (∀ c ∈ content.head?, ¬ covered otherNumerals c) ∧
          ∀ c ∈ content, (covered otherNumerals c → covered keptContinuations c) ∧ c ≠ '\u2E2F') ∧
      (¬ isIdentifierName (f.exportName t) → ∀ vs,
        IsNameToken (Node.exportNameText (f.exportName t)).toList vs ↔ vs = us ∧
          ¬ ('"' ∈ content ∧ Literal.holdsBare '\'' false content)) := by
  have hname : f.exportName t = String.ofList content := by
    rw [exportName, htype, htext, literalParts_quoted]
    rfl
  have hcontent : (f.exportName t).toList = content := by simp [hname]
  rw [← hcontent] at hus
  refine ⟨hname, fun m => Node.print_memberNamed m _,
    fun localName isTypeOnly => Node.specifierText_renamed _ localName isTypeOnly,
    fun hbare vs => ?_, fun hquoted vs => ?_⟩
  · rw [Node.isNameToken_exportNameText_bare hus hbare, hcontent]
  · rw [Node.isNameToken_exportNameText_quoted hus hquoted, hcontent, Text.holds, hcontent,
      List.contains_iff_mem]

/-- Names that an import clause spells as literals. -/
def literalNamesFile : SourceFile :=
  ⟨"app.ts", "typescript",
    "import \x7b 'say \"hi\\x21\"' as Panel, \"it's \\\"x\\\"\" as Title, \"x²\" as Area " ++
      "\x7d from \"./lib\";", false, ⟨"program", true, false, 0, 83, [], []⟩⟩

def literalAt (start stop : Nat) : ParseTree := ⟨"string", true, false, start, stop, [], []⟩

/-- A greeting keeps its double quotes and its escape between single quotes. -/
theorem exportName_printed_greeting :
    literalNamesFile.text (literalAt 9 23) = "'say \"hi\\x21\"'" ∧
      ((Node.identifier "m").memberNamed (literalNamesFile.exportName (literalAt 9 23))).print =
        .ok "m['say \"hi\\x21\"']" ∧
      IsNameToken "'say \"hi\\x21\"'".toList (unitsOf "say \"hi!\"".toList) := by
  have htext : literalNamesFile.text (literalAt 9 23) = "'say \"hi\\x21\"'" := by decide +kernel
  obtain ⟨hname, hmember, -, -, htoken⟩ := exportName_printed literalNamesFile (literalAt 9 23)
    .single "say \"hi\\x21\"".toList (unitsOf "say \"hi!\"".toList) rfl (htext.trans (by decide))
      (by decide +kernel)
  rw [hname] at htoken
  refine ⟨htext, ?_, ?_⟩
  · rw [hmember, hname]
    exact congrArg Except.ok (by decide +kernel)
  · have hspelled := (htoken (by decide +kernel) _).2 ⟨rfl, by decide +kernel⟩
    exact (by decide +kernel : Node.exportNameText (String.ofList "say \"hi\\x21\"".toList) =
      "'say \"hi\\x21\"'") ▸ hspelled

/-- A title with an apostrophe and escaped double quotes is cut off at the apostrophe, and an area
in square metres is no identifier. -/
theorem literalNamesFile_breaks :
    literalNamesFile.text (literalAt 34 46) = "\"it's \\\"x\\\"\"" ∧
      IsNameToken "\"it's \\\"x\\\"\"".toList (unitsOf "it's \"x\"".toList) ∧
      Node.exportNameText (literalNamesFile.exportName (literalAt 34 46)) =
        "'it's \\\"x\\\"'" ∧
      (∀ vs, ¬ IsNameToken "'it's \\\"x\\\"'".toList vs) ∧
      literalNamesFile.text (literalAt 57 62) = "\"x²\"" ∧
      IsNameToken "\"x²\"".toList (unitsOf "x²".toList) ∧
      Node.exportNameText (literalNamesFile.exportName (literalAt 57 62)) = "x²" ∧
      ∀ vs, ¬ IsNameToken "x²".toList vs := by
  refine ⟨by decide +kernel, ?title, by decide +kernel, fun vs h => ?cut, by decide +kernel,
    ?area, by decide +kernel, fun vs h => ?bare⟩
  case title =>
    exact (isNameToken_literal_iff .double "it's \\\"x\\\"".toList).2
      (by decide +kernel)
  case cut =>
    have hunits := (isNameToken_literal_iff .single "it's \\\"x\\\"".toList).1 h
    have hnone : Literal.units? Quote.single.char .plain "it's \\\"x\\\"".toList = none := by
      decide +kernel
    cases hnone.symm.trans hunits
  case area => exact (isNameToken_literal_iff .double "x²".toList).2 (by decide +kernel)
  case bare =>
    have hbare := ((isNameToken_bare_iff (by decide +kernel)).1 h).1
    exact absurd hbare (by decide +kernel)

end SourceFile

end DeferredImports
