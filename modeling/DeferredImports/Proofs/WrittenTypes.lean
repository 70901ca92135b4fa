import DeferredImports.Proofs.IdentifierNames
import DeferredImports.Proofs.NormalPath
import DeferredImports.Source.TypeName
import Mathlib.Data.List.Basic
import Mathlib.Data.List.TakeWhile

/-! Which written types have a symbol. The name is cut off at the first angle bracket of a text
that ends with another one, whether or not the two belong together. -/

namespace DeferredImports

namespace Text

def AllBlank (cs : List Char) : Prop := ∀ c ∈ cs, isBlank c

/-- Neither end is a blank. -/
structure IsTrimmed (cs : List Char) : Prop where
  first : ∀ c ∈ cs.head?, ¬ isBlank c
  last : ∀ c ∈ cs.getLast?, ¬ isBlank c

variable {cs core front back : List Char}

theorem AllBlank.append (hfront : AllBlank front) (hback : AllBlank back) :
    AllBlank (front ++ back) := by
  intro c hc
  exact (List.mem_append.1 hc).elim (hfront c) (hback c)

/-- What is dropped and what is kept, where the first character that is kept is known. -/
theorem dropWhile_append_of_head {p : Char → Bool} (hfront : ∀ c ∈ front, p c)
    (hcs : ∀ c ∈ cs.head?, ¬ p c) : (front ++ cs).dropWhile p = cs := by
  rw [List.dropWhile_append_of_pos hfront]
  cases cs with
  | nil => rfl
  | cons c cs => rw [List.dropWhile_cons_of_neg (hcs c rfl)]

theorem takeWhile_append_of_head {p : Char → Bool} (hfront : ∀ c ∈ front, p c)
    (hcs : ∀ c ∈ cs.head?, ¬ p c) : (front ++ cs).takeWhile p = front := by
  have hall := List.takeWhile_append_dropWhile (p := p) (l := front ++ cs)
  rw [dropWhile_append_of_head hfront hcs] at hall
  exact List.append_cancel_right hall

theorem head?_dropWhile_isBlank (cs : List Char) :
    ∀ c ∈ (cs.dropWhile isBlank).head?, ¬ isBlank c := by
  intro c hc
  have hhead := List.head?_dropWhile_not isBlank cs
  rw [hc] at hhead
  simpa using hhead

theorem exists_blanks (cs : List Char) : ∃ front, AllBlank front ∧
    cs = front ++ cs.dropWhile isBlank :=
  ⟨cs.takeWhile isBlank, fun _ hc => List.mem_takeWhile_imp hc,
    List.takeWhile_append_dropWhile.symm⟩

/-- The blanks at both ends are trimmed, and nothing else. -/
theorem trimBlanks_eq_iff : trimBlanks cs = core ↔ IsTrimmed core ∧
    ∃ front back, AllBlank front ∧ AllBlank back ∧ cs = front ++ (core ++ back) := by
  constructor
  · rintro rfl
    obtain ⟨front, hfront, hcs⟩ := exists_blanks cs
    obtain ⟨back, hback, hrest⟩ := exists_blanks (cs.dropWhile isBlank).reverse
    have hcore : cs.dropWhile isBlank = trimBlanks cs ++ back.reverse := by
      rw [List.reverse_eq_iff, List.reverse_append] at hrest
      exact hrest
    refine ⟨⟨fun c hc => ?_, fun c hc => ?_⟩, front, back.reverse, hfront,
      fun c hc => hback c (List.mem_reverse.1 hc), by rw [← hcore, ← hcs]⟩
    · refine head?_dropWhile_isBlank cs c ?_
      rw [hcore, List.head?_append]
      simp [Option.mem_def.1 hc]
    · refine head?_dropWhile_isBlank (cs.dropWhile isBlank).reverse c ?_
      rwa [trimBlanks, List.getLast?_reverse] at hc
  · rintro ⟨htrimmed, front, back, hfront, hback, rfl⟩
    have hreverse : AllBlank back.reverse := fun c hc => hback c (List.mem_reverse.1 hc)
    have hlast : ((core ++ back).reverse.dropWhile isBlank).reverse = core := by
      rw [List.reverse_append, dropWhile_append_of_head hreverse (by simpa using htrimmed.last),
        List.reverse_reverse]
    cases core with
    | nil =>
      have hnil : (front ++ ([] ++ back)).dropWhile isBlank = [] :=
        List.dropWhile_eq_nil_iff.2 (hfront.append hback)
      rw [trimBlanks, hnil]
      rfl
    | cons c core =>
      have hfirst : (front ++ (c :: core ++ back)).dropWhile isBlank = c :: core ++ back :=
        dropWhile_append_of_head hfront fun d hd => htrimmed.first d hd
      rw [trimBlanks, hfirst, hlast]

end Text

namespace TypeSymbol

open Text

variable {cs core : List Char}

/-- A type and what may stand around it: blanks, and a colon before it. -/
def WrittenAs (cs core : List Char) : Prop :=
  IsTrimmed core ∧ ∃ front middle back, AllBlank front ∧ AllBlank middle ∧ AllBlank back ∧
    (cs = front ++ (core ++ back) ∧ core.head? ≠ some ':' ∨
      cs = front ++ ':' :: (middle ++ (core ++ back)))

/-- Every text is written around exactly one type. -/
theorem dropColon_eq_iff : dropColon cs = core ↔ WrittenAs cs core := by
  constructor
  · intro h
    obtain ⟨htrimmed, front, back, hfront, hback, hcs⟩ :=
      trimBlanks_eq_iff.1 (Eq.refl (trimBlanks cs))
    unfold dropColon at h
    split at h
    · next rest hcolon =>
      obtain ⟨hcore, middle, back', hmiddle, hback', rfl⟩ := trimBlanks_eq_iff.1 h
      refine ⟨hcore, front, middle, back' ++ back, hfront, hmiddle, hback'.append hback, .inr ?_⟩
      rw [hcs, hcolon]
      simp
    · next hcolon =>
      subst h
      refine ⟨htrimmed, front, [], back, hfront, nofun, hback, .inl ⟨hcs, fun hhead => ?_⟩⟩
      obtain ⟨rest, hrest⟩ := List.head?_eq_some_iff.1 hhead
      exact hcolon rest hrest
  · rintro ⟨htrimmed, front, middle, back, hfront, hmiddle, hback, ⟨hcs, hcolon⟩ | hcs⟩
    · have htrim := trimBlanks_eq_iff.2 ⟨htrimmed, front, back, hfront, hback, hcs⟩
      unfold dropColon
      split
      · next rest hrest =>
        rw [← htrim, hrest] at hcolon
        exact absurd rfl hcolon
      · exact htrim
    · obtain ⟨rest, hrest, hcore⟩ :
          ∃ rest, trimBlanks cs = ':' :: rest ∧ trimBlanks rest = core := by
        subst hcs
        cases core with
        | nil =>
          refine ⟨[], trimBlanks_eq_iff.2 ⟨⟨?_, ?_⟩, front, middle ++ back, hfront,
            hmiddle.append hback, by simp⟩, rfl⟩ <;> simp <;> decide
        | cons c core =>
          refine ⟨middle ++ c :: core, trimBlanks_eq_iff.2 ⟨⟨?_, ?_⟩, front, back, hfront, hback,
            by simp⟩, trimBlanks_eq_iff.2 ⟨htrimmed, middle, [], hmiddle, nofun, by simp⟩⟩
          · simp
            decide
          · rw [← List.cons_append, List.getLast?_append_cons]
            exact htrimmed.last
      rw [dropColon, hrest]
      exact hcore

/-! ### A path and what follows it -/

/-- Names with dots between them, and then nothing, or a text of some form after blanks. -/
def IsPathThen (isName : List Char → Bool) (IsRest : List Char → Prop) (cs : List Char)
    (path : List (List Char)) : Prop :=
  path ≠ [] ∧ (∀ n ∈ path, isName n) ∧ String.ofList (glue '.' path) ∉ predefined ∧
    (cs = glue '.' path ∨
      ∃ blanks rest, AllBlank blanks ∧ IsRest rest ∧ cs = glue '.' path ++ (blanks ++ rest))

/-- Between the first angle bracket and the last character anything may stand. -/
def IsEnclosed (rest : List Char) : Prop := rest.head? = some '<' ∧ rest.getLast? = some '>'

/-- Characters that end a name. -/
def isBreak (c : Char) : Bool := isBlank c || c == '.' || c == '<'

/-- The names have no breaks in them. -/
def Unbroken (isName : List Char → Bool) : Prop := ∀ n, isName n → ∀ c ∈ n, ¬ isBreak c

variable {isName : List Char → Bool} {IsRest : List Char → Prop} {path : List (List Char)}

theorem mem_glue {c : Char} (hc : c ∈ glue '.' path) : c = '.' ∨ ∃ n ∈ path, c ∈ n := by
  induction path with
  | nil => cases hc
  | cons n path ih =>
    cases path with
    | nil => exact .inr ⟨n, List.mem_cons_self, hc⟩
    | cons m path =>
      rw [glue, List.mem_append, List.mem_cons] at hc
      · rcases hc with hc | rfl | hc
        · exact .inr ⟨n, List.mem_cons_self, hc⟩
        · exact .inl rfl
        · obtain rfl | ⟨k, hk, hck⟩ := ih hc
          · exact .inl rfl
          · exact .inr ⟨k, List.mem_cons_of_mem n hk, hck⟩
      · exact List.cons_ne_nil m path

/-- The names of a path are not broken by blanks or brackets either when they are put together. -/
theorem not_isBlank_of_mem_glue (hname : Unbroken isName) (hpath : ∀ n ∈ path, isName n) :
    ∀ c ∈ glue '.' path, ¬ isBlank c ∧ c ≠ '<' := by
  intro c hc
  obtain rfl | ⟨n, hn, hcn⟩ := mem_glue hc
  · exact ⟨by decide, by decide⟩
  · have hbreak := hname n (hpath n hn) c hcn
    simp_all [isBreak]

theorem bracket_not_mem {blanks : List Char} (hname : Unbroken isName)
    (hpath : ∀ n ∈ path, isName n) (hblanks : AllBlank blanks) : '<' ∉ glue '.' path ++ blanks := by
  rw [List.mem_append]
  rintro (hmem | hmem)
  · exact (not_isBlank_of_mem_glue hname hpath '<' hmem).2 rfl
  · exact absurd (hblanks '<' hmem) (by decide)

/-- What stands from the first angle bracket on. -/
def arguments (cs : List Char) : List Char := cs.dropWhile (· ≠ '<')

/-- A text is cut just before its first angle bracket. -/
theorem cut_append {before rest : List Char} (hbefore : '<' ∉ before)
    (hrest : rest.head? = some '<') :
    (before ++ rest).takeWhile (· ≠ '<') = before ∧ arguments (before ++ rest) = rest := by
  have hall : ∀ c ∈ before, decide (c ≠ '<') = true := by
    intro c hc
    rw [decide_eq_true_eq]
    rintro rfl
    exact hbefore hc
  have hhead : ∀ c ∈ rest.head?, ¬ decide (c ≠ '<') = true := by
    intro c hc
    rw [hrest, Option.mem_some_iff] at hc
    simp [← hc]
  exact ⟨takeWhile_append_of_head hall hhead, dropWhile_append_of_head hall hhead⟩

/-- The name that is cut off is the path. -/
theorem IsPathThen.dropArguments_eq (hname : Unbroken isName)
    (hrest : ∀ rest, IsRest rest → IsEnclosed rest) (h : IsPathThen isName IsRest cs path) :
    dropArguments cs = glue '.' path := by
  obtain ⟨-, hpath, -, rfl | ⟨blanks, rest, hblanks, hlist, rfl⟩⟩ := h
  · have hno : ¬ (glue '.' path).contains '<' := by
      rw [List.contains_iff_mem]
      exact fun hmem => (not_isBlank_of_mem_glue hname hpath '<' hmem).2 rfl
    rw [dropArguments, Bool.eq_false_iff.2 hno]
    rfl
  · obtain ⟨hhead, hlast⟩ := hrest rest hlist
    obtain ⟨rest, rfl⟩ := List.head?_eq_some_iff.1 hhead
    have hcontains : (glue '.' path ++ (blanks ++ '<' :: rest)).contains '<' := by
      simp
    have hgetLast : (glue '.' path ++ (blanks ++ '<' :: rest)).getLast? = some '>' := by
      rw [← List.append_assoc, List.getLast?_append_cons]
      exact hlast
    have hbefore := (cut_append (bracket_not_mem hname hpath hblanks) hhead).1
    rw [List.append_assoc] at hbefore
    rw [dropArguments, hcontains, hgetLast, hbefore]
    refine trimBlanks_eq_iff.2 ⟨⟨fun c hc => ?_, fun c hc => ?_⟩, [], blanks, nofun, hblanks, rfl⟩
    · exact (not_isBlank_of_mem_glue hname hpath c (List.mem_of_mem_head? hc)).1
    · exact (not_isBlank_of_mem_glue hname hpath c (List.mem_of_mem_getLast? hc)).1

/-- What stands from the first angle bracket on is what follows the path. -/
theorem IsPathThen.arguments_cases (hname : Unbroken isName)
    (hrest : ∀ rest, IsRest rest → IsEnclosed rest) (h : IsPathThen isName IsRest cs path) :
    arguments cs = [] ∧ cs = glue '.' path ∨
      IsRest (arguments cs) ∧
        ∃ blanks, AllBlank blanks ∧ cs = glue '.' path ++ (blanks ++ arguments cs) := by
  obtain ⟨-, hpath, -, rfl | ⟨blanks, rest, hblanks, hlist, rfl⟩⟩ := h
  · refine .inl ⟨List.dropWhile_eq_nil_iff.2 fun c hc => ?_, rfl⟩
    simpa using (not_isBlank_of_mem_glue hname hpath c hc).2
  · have harguments := (cut_append (bracket_not_mem hname hpath hblanks) (hrest rest hlist).1).2
    rw [List.append_assoc] at harguments
    rw [harguments]
    exact .inr ⟨hlist, blanks, hblanks, rfl⟩

theorem IsPathThen.pieces_eq (hname : Unbroken isName) (h : IsPathThen isName IsRest cs path) :
    pieces '.' (glue '.' path) = path := by
  obtain ⟨hne, hpath, -, -⟩ := h
  refine pieces_glue hne fun n hn hdot => ?_
  exact absurd (hname n (hpath n hn) '.' hdot) (by decide)

/-- A text has only one path in front. -/
theorem IsPathThen.unique {isName' : List Char → Bool} {IsRest' : List Char → Prop}
    {path' : List (List Char)} (hname : Unbroken isName) (hname' : Unbroken isName')
    (hrest : ∀ rest, IsRest rest → IsEnclosed rest)
    (hrest' : ∀ rest, IsRest' rest → IsEnclosed rest) (h : IsPathThen isName IsRest cs path)
    (h' : IsPathThen isName' IsRest' cs path') : path = path' := by
  rw [← h.pieces_eq hname, ← h'.pieces_eq hname', ← h.dropArguments_eq hname hrest,
    ← h'.dropArguments_eq hname' hrest']

theorem isEnclosed_arguments (hmem : '<' ∈ cs) (hlast : cs.getLast? = some '>') :
    IsEnclosed (arguments cs) := by
  obtain ⟨before, rest, rfl, hbefore⟩ := List.eq_append_cons_of_mem hmem
  rw [(cut_append hbefore rfl).2]
  rw [List.getLast?_append_cons] at hlast
  exact ⟨rfl, hlast⟩

/-- Before the brackets that are cut off nothing but blanks is lost. -/
theorem dropArguments_cases (hcs : IsTrimmed cs) :
    cs = dropArguments cs ∨ ∃ blanks rest, AllBlank blanks ∧ IsEnclosed rest ∧
      cs = dropArguments cs ++ (blanks ++ rest) := by
  unfold dropArguments
  split
  · next hcut =>
    rw [Bool.and_eq_true, List.contains_iff_mem, beq_iff_eq] at hcut
    obtain ⟨-, front, back, hfront, hback, hbefore⟩ :=
      trimBlanks_eq_iff.1 (Eq.refl (trimBlanks (cs.takeWhile (· ≠ '<'))))
    have hall : cs = front ++ (trimBlanks (cs.takeWhile (· ≠ '<')) ++ (back ++ arguments cs)) := by
      rw [← List.append_assoc _ back, ← List.append_assoc front, ← hbefore]
      exact List.takeWhile_append_dropWhile.symm
    cases front with
    | nil => exact .inr ⟨back, arguments cs, hback, isEnclosed_arguments hcut.1 hcut.2, hall⟩
    | cons c front =>
      have hfirst : ¬ isBlank c := hcs.first c (by rw [hall]; rfl)
      exact absurd (hfront c List.mem_cons_self) hfirst
  · exact .inl rfl

/-! ### The symbol of a text -/

variable {s : TypeSymbol}

theorem namespaces_lt_of_parent? {parent : TypeSymbol} (h : s.parent? = some parent) :
    parent.namespaces.length < s.namespaces.length := by
  unfold parent? at h
  split at h
  · cases h
  · next n ns hns =>
    cases h
    simp [hns]

/-- The names along the parents, the outermost first. -/
def names (s : TypeSymbol) : List (List Char) :=
  match _h : s.parent? with
  | none => [s.name.toList]
  | some parent => parent.names ++ [s.name.toList]
termination_by s.namespaces.length
decreasing_by exact namespaces_lt_of_parent? ‹_›

theorem names_eq_path (s : TypeSymbol) : s.names = s.path.map String.toList := by
  obtain ⟨name, namespaces⟩ := s
  induction namespaces generalizing name with
  | nil =>
    rw [names]
    rfl
  | cons n ns ih =>
    rw [names]
    show names ⟨n, ns⟩ ++ [name.toList] = _
    simp [ih, path]

theorem ofPath?_eq_some_iff {parts : List String} : ofPath? parts = some s ↔ s.path = parts := by
  constructor
  · intro h
    unfold ofPath? at h
    split at h
    · cases h
    · next n ns hparts =>
      cases h
      rw [path, ← List.reverse_reverse parts, hparts, List.reverse_cons]
  · rintro rfl
    exact ofPath?_path s

theorem ofPath?_names {parts : List (List Char)} :
    ofPath? (parts.map String.ofList) = some s ↔ s.names = parts := by
  rw [ofPath?_eq_some_iff, names_eq_path]
  constructor
  · intro h
    simp [h, Function.comp_def]
  · rintro rfl
    simp [Function.comp_def]

/-- Everything that names are made of. -/
def nameSpans : List Span :=
  ⟨0x24, 0x24, 1⟩ :: (connectors ++ alphanumericSpans ++ decimalDigitSpans ++ keptStarts ++
    combiningMarks ++ keptContinuations)

theorem not_isBreak_of_covered {c : Char} (hc : covered nameSpans c) : ¬ isBreak c := by
  have hblank : ¬ isBlank c := not_covered_of_beside (by decide +kernel) hc
  have hdot : c ≠ '.' := fun h => absurd (h ▸ hc) (by decide +kernel)
  have hbracket : c ≠ '<' := fun h => absurd (h ▸ hc) (by decide +kernel)
  simp [isBreak, hblank, hdot, hbracket]

theorem covered_nameSpans {spans : List Span} {c : Char} (hc : covered spans c)
    (hspans : ∀ span ∈ spans, span ∈ nameSpans) : covered nameSpans c := by
  obtain ⟨span, hspan, hholds⟩ := covered_iff.1 hc
  exact covered_iff.2 ⟨span, hspans span hspan, hholds⟩

theorem covered_of_isWordCharacter {c : Char} (hc : isWordCharacter c) : covered nameSpans c := by
  rw [isWordCharacter, Bool.or_eq_true, beq_iff_eq] at hc
  rcases hc with hc | rfl
  · exact covered_nameSpans hc fun span hspan => by simp [nameSpans, hspan]
  · decide +kernel

theorem covered_of_continuesName {c : Char} (hc : continuesName c) : covered nameSpans c := by
  rw [continuesName, Bool.or_eq_true, beq_iff_eq] at hc
  rcases hc with hc | rfl
  · exact covered_of_isWordCharacter hc
  · decide +kernel

theorem covered_of_continuesIdentifier {c : Char} (hc : continuesIdentifier c) :
    covered nameSpans c := by
  simp only [continuesIdentifier, startsIdentifier, Bool.or_eq_true, beq_iff_eq] at hc
  rcases hc with ((((((rfl | rfl) | hletter) | hkept) | hdigit) | hmark) | hconnector) | hkept
  · decide +kernel
  · decide +kernel
  · refine covered_of_isWordCharacter ?_
    simp only [isLetter, Bool.and_eq_true] at hletter
    exact hletter.1.1.1.1
  · exact covered_nameSpans hkept fun span hspan => by simp [nameSpans, hspan]
  · exact covered_nameSpans hdigit fun span hspan => by simp [nameSpans, hspan]
  · exact covered_nameSpans hmark fun span hspan => by simp [nameSpans, hspan]
  · exact covered_nameSpans hconnector fun span hspan => by simp [nameSpans, hspan]
  · exact covered_nameSpans hkept fun span hspan => by simp [nameSpans, hspan]

theorem continuesName_of_startsPart {c : Char} (hc : startsPart c) : continuesName c := by
  have hword : c.isAlpha → isAlphanumeric c := by
    intro hletter
    rcases Bool.or_eq_true_iff.1 (show (c.isUpper || c.isLower) = true from hletter) with h | h
    · have hbounds : c.val ≥ 'A'.val ∧ c.val ≤ 'Z'.val := of_decide_eq_true h
      exact covered_iff.2 ⟨⟨0x41, 0x5A, 1⟩, by decide +kernel, hbounds.1, hbounds.2, Nat.mod_one _⟩
    · obtain ⟨hfirst, hlast⟩ := Bool.and_eq_true_iff.1
        (show (decide (c.val ≥ 'a'.val) && decide (c.val ≤ 'z'.val)) = true from h)
      exact covered_iff.2 ⟨⟨0x61, 0x7A, 1⟩, by decide +kernel, of_decide_eq_true hfirst,
        of_decide_eq_true hlast, Nat.mod_one _⟩
  simp only [startsPart, Bool.or_eq_true, beq_iff_eq] at hc
  rcases hc with (hc | rfl) | rfl
  · simp [continuesName, isWordCharacter, hword hc]
  · decide +kernel
  · decide +kernel

theorem unbroken_isPart : Unbroken isPart := by
  intro n hn c hc
  cases n with
  | nil => cases hn
  | cons d ds =>
    obtain ⟨hstarts, hcontinues⟩ := Bool.and_eq_true_iff.1 hn
    refine not_isBreak_of_covered (covered_of_continuesName ?_)
    rcases List.mem_cons.1 hc with rfl | hc
    · exact continuesName_of_startsPart hstarts
    · exact List.all_eq_true.1 hcontinues c hc

theorem unbroken_isIdentifier : Unbroken isIdentifier := by
  intro n hn c hc
  cases n with
  | nil => cases hn
  | cons d ds =>
    obtain ⟨hstarts, hcontinues⟩ := Bool.and_eq_true_iff.1 hn
    refine not_isBreak_of_covered (covered_of_continuesIdentifier ?_)
    rcases List.mem_cons.1 hc with rfl | hc
    · simp [continuesIdentifier, hstarts]
    · exact List.all_eq_true.1 hcontinues c hc

/-- A text has a symbol exactly if it is a path of names that the symbol spells, and after it
nothing, or something between angle brackets. -/
theorem ofText?_eq_some_iff {text : String} (h : WrittenAs text.toList core) :
    ofText? text = some s ↔ IsPathThen isPart IsEnclosed core s.names := by
  have hcore := dropColon_eq_iff.2 h
  constructor
  · intro hs
    unfold ofText? at hs
    simp only [hcore] at hs
    split at hs
    · next hparts =>
      obtain ⟨hall, hpredefined⟩ : (∀ n ∈ pieces '.' (dropArguments core), isPart n) ∧
          String.ofList (dropArguments core) ∉ predefined := by
        simpa using hparts
      have hnames := ofPath?_names.1 hs
      have hglue : glue '.' s.names = dropArguments core := by rw [hnames, glue_pieces]
      refine ⟨?_, ?_, ?_, ?_⟩
      · rw [hnames]
        exact pieces_ne_nil '.' _
      · rwa [hnames]
      · rwa [hglue]
      · rw [hglue]
        exact dropArguments_cases h.1
    · cases hs
  · intro hpath
    have hdrop := hpath.dropArguments_eq unbroken_isPart fun _ hrest => hrest
    have hpieces := hpath.pieces_eq unbroken_isPart
    obtain ⟨-, hall, hpredefined, -⟩ := hpath
    have hparts : (s.names.all isPart && !predefined.contains (String.ofList (glue '.' s.names))) =
        true := by
      simpa using ⟨hall, hpredefined⟩
    unfold ofText?
    simp only [hcore, hdrop, hpieces, hparts, if_true]
    exact ofPath?_names.2 rfl

end TypeSymbol

end DeferredImports
