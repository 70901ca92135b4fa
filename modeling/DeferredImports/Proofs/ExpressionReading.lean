import DeferredImports.Text.WordCharacter

/-! How the text of an expression is read: a start with everything that follows it, or an arrow
function whose body goes on as far as it can. No two readings have the same text. -/

namespace DeferredImports

/-- A name that may stand bare. -/
structure BareName where
  text : String
  isName : Text.isIdentifierName text
deriving DecidableEq

/-- The content of a literal, without quotes. -/
structure LiteralText where
  text : String
  noQuotes : ∀ c ∈ text.toList, c ≠ '"' ∧ c ≠ '\''
deriving DecidableEq

inductive Quote where
  | double | single
deriving DecidableEq

namespace Quote

def char : Quote → Char
  | double => '"'
  | single => '\''

def text (q : Quote) : String := String.ofList [q.char]

@[simp] theorem char_ne_parenthesis (q : Quote) : q.char ≠ '(' := by cases q <;> decide

@[simp] theorem char_ne_brace (q : Quote) : q.char ≠ '{' := by cases q <;> decide

end Quote

mutual

/-- An expression as its text is read from the left. -/
inductive Parse where
  | chain (start : Start) (followers : List Follower)
  | arrow (parameters : List BareName) (body : Parse)

inductive Start where
  | name (name : BareName)
  | literal (text : LiteralText) (quote : Quote)
  | parenthesized (inner : Parse)
  | object (properties : List (BareName × Parse))

/-- What may follow an expression: a member, an element or a call. -/
inductive Follower where
  | member (name : BareName)
  | element (key : Parse)
  | call (arguments : List Parse)

end

/-- What stands between the items of a list. -/
def comma : List Char := [',', ' ']

/-- Names up to the closing parenthesis, with a mark before the first one and commas before the
others. -/
def namesText (mark : List Char) : List BareName → List Char
  | [] => [')']
  | n :: ns => mark ++ (n.text.toList ++ namesText comma ns)

/-- A single parameter stands without parentheses. -/
def parametersText : List BareName → List Char
  | [n] => n.text.toList
  | ns => '(' :: namesText [] ns

mutual

def Parse.text : Parse → List Char
  | .chain s fs => s.text ++ followersText fs
  | .arrow ns b => parametersText ns ++ ' ' :: '=' :: '>' :: ' ' :: b.text

def Start.text : Start → List Char
  | .name n => n.text.toList
  | .literal t q => q.char :: (t.text.toList ++ [q.char])
  | .parenthesized r => '(' :: (r.text ++ [')'])
  | .object [] => ['{', '}']
  | .object (p :: ps) => propertiesText ['{', ' '] (p :: ps)

def followersText : List Follower → List Char
  | [] => []
  | .member n :: fs => '.' :: (n.text.toList ++ followersText fs)
  | .element k :: fs => '[' :: (k.text ++ ']' :: followersText fs)
  | .call rs :: fs => '(' :: (argumentsText [] rs ++ followersText fs)

def argumentsText (mark : List Char) : List Parse → List Char
  | [] => [')']
  | r :: rs => mark ++ (r.text ++ argumentsText comma rs)

def propertiesText (mark : List Char) : List (BareName × Parse) → List Char
  | [] => [' ', '}']
  | (n, r) :: ps => mark ++ (n.text.toList ++ ':' :: ' ' :: (r.text ++ propertiesText comma ps))

end

/-! ### Names -/

/-- Characters of names; a name may end with a line feed. -/
def isNameLike (c : Char) : Bool := Text.continuesName c || c == '\n'

/-- The text does not go on with a name. -/
def Breaks (rest : List Char) : Prop := ∀ c ∈ rest.head?, ¬ isNameLike c

theorem breaks_cons {c : Char} {rest : List Char} (h : ¬ isNameLike c) : Breaks (c :: rest) := by
  intro d hd
  rw [List.head?_cons, Option.mem_some_iff] at hd
  exact hd ▸ h

theorem not_isNameLike_of_mem {c : Char}
    (h : c ∈ ['.', '[', ']', '(', ')', '{', '}', ',', ':', ' ', '"', '\'']) :
    ¬ isNameLike c := by
  have hall : ['.', '[', ']', '(', ')', '{', '}', ',', ':', ' ', '"', '\''].all
      fun d => !isNameLike d := by decide +kernel
  simpa using List.all_eq_true.1 hall c h

/-- Two texts of the same characters, each before another character, are the same. -/
theorem append_inj_of_all {good : Char → Prop} {front front' rest rest' : List Char}
    (hfront : ∀ c ∈ front, good c) (hfront' : ∀ c ∈ front', good c)
    (hrest : ∀ c ∈ rest.head?, ¬ good c) (hrest' : ∀ c ∈ rest'.head?, ¬ good c)
    (h : front ++ rest = front' ++ rest') : front = front' ∧ rest = rest' := by
  induction front generalizing front' with
  | nil =>
    cases front' with
    | nil => exact ⟨rfl, h⟩
    | cons c front' =>
      rw [List.nil_append] at h
      exact absurd (hfront' c List.mem_cons_self) (hrest c (by simp [h]))
  | cons c front ih =>
    cases front' with
    | nil =>
      rw [List.nil_append] at h
      exact absurd (hfront c List.mem_cons_self) (hrest' c (by simp [← h]))
    | cons d front' =>
      rw [List.cons_append, List.cons_append] at h
      obtain ⟨rfl, htail⟩ := List.cons.inj h
      obtain ⟨rfl, rfl⟩ := ih (fun d hd => hfront d (List.mem_cons_of_mem c hd))
        (fun d hd => hfront' d (List.mem_cons_of_mem c hd)) htail
      exact ⟨rfl, rfl⟩

namespace BareName

variable {n m : BareName} {rest rest' : List Char}

theorem ne_nil (n : BareName) : n.text.toList ≠ [] := by
  intro hnil
  have h := n.isName
  simp [Text.isIdentifierName, hnil] at h

theorem isNameLike_of_mem (n : BareName) : ∀ c ∈ n.text.toList, isNameLike c := by
  intro c hc
  have hname := n.isName
  unfold Text.isIdentifierName at hname
  split at hname
  · next hnil => simp [hnil] at hc
  next first others htext =>
  obtain ⟨hfirst, hothers⟩ := Bool.and_eq_true_iff.1 hname
  have hcontinues : ∀ d ∈ Text.dropFinalNewline others, isNameLike d := fun d hd => by
    simp [isNameLike, List.all_eq_true.1 hothers d hd]
  rw [htext] at hc
  rcases List.mem_cons.1 hc with rfl | hc
  · simp only [Text.startsName, Bool.or_eq_true, Bool.and_eq_true] at hfirst
    rcases hfirst with ⟨hword, -⟩ | hdollar
    · simp [isNameLike, Text.continuesName, hword]
    · simp [isNameLike, Text.continuesName, hdollar]
  · unfold Text.dropFinalNewline at hcontinues
    split at hcontinues
    · next hlast =>
      have hne : others ≠ [] := List.ne_nil_of_mem hc
      rw [List.getLast?_eq_some_getLast hne, Option.some.injEq] at hlast
      rw [← List.dropLast_concat_getLast hne, List.mem_append, List.mem_singleton] at hc
      rcases hc with hc | rfl
      · exact hcontinues c hc
      · simp [isNameLike, hlast]
    · exact hcontinues c hc

theorem append_inj (hrest : Breaks rest) (hrest' : Breaks rest')
    (h : n.text.toList ++ rest = m.text.toList ++ rest') : n = m ∧ rest = rest' := by
  obtain ⟨htext, rfl⟩ :=
    append_inj_of_all n.isNameLike_of_mem m.isNameLike_of_mem hrest hrest' h
  refine ⟨?_, rfl⟩
  cases n
  cases m
  simpa [String.toList_inj] using htext

/-- A name does not begin with another character. -/
theorem append_ne_cons (n : BareName) {c : Char} (hc : ¬ isNameLike c) (rest rest' : List Char) :
    n.text.toList ++ rest ≠ c :: rest' := by
  intro h
  match htext : n.text.toList with
  | [] => exact n.ne_nil htext
  | d :: ds =>
    rw [htext, List.cons_append] at h
    obtain ⟨rfl, -⟩ := List.cons.inj h
    exact hc (n.isNameLike_of_mem d (by simp [htext]))

end BareName

/-! ### One reading for each text -/

/-- Texts that an expression may be followed by when it is complete. -/
inductive Ends : List Char → Prop
  | nil : Ends []
  | comma (rest : List Char) : Ends (',' :: rest)
  | parenthesis (rest : List Char) : Ends (')' :: rest)
  | bracket (rest : List Char) : Ends (']' :: rest)
  | brace (rest : List Char) : Ends (' ' :: '}' :: rest)

variable {n : BareName} {rest rest' : List Char}

theorem Ends.breaks (h : Ends rest) : Breaks rest := by
  cases h with
  | nil => exact fun c hc => nomatch hc
  | comma | parenthesis | bracket | brace => exact breaks_cons (not_isNameLike_of_mem (by simp))

/-- The first character of what follows an expression. -/
theorem followersText_cons (f : Follower) (fs : List Follower) :
    ∃ c rest, c ∈ ['.', '[', '('] ∧ followersText (f :: fs) = c :: rest := by
  cases f <;> exact ⟨_, _, by simp, rfl⟩

theorem breaks_followersText (fs : List Follower) (h : Ends rest) :
    Breaks (followersText fs ++ rest) := by
  cases fs with
  | nil => exact h.breaks
  | cons f fs =>
    obtain ⟨c, others, hc, htext⟩ := followersText_cons f fs
    rw [htext]
    refine breaks_cons (not_isNameLike_of_mem ?_)
    simp only [List.mem_cons, List.not_mem_nil, or_false] at hc
    rcases hc with rfl | rfl | rfl <;> simp

/-- Nothing that follows an expression begins with a blank, a comma, a bracket or a colon. -/
theorem followersText_eq_cons {fs : List Follower} {c : Char}
    (h : followersText fs ++ rest = c :: rest') (hc : c ∉ ['.', '[', '(']) :
    fs = [] ∧ rest = c :: rest' := by
  cases fs with
  | nil => exact ⟨rfl, h⟩
  | cons f fs =>
    obtain ⟨d, others, hd, htext⟩ := followersText_cons f fs
    rw [htext, List.cons_append] at h
    obtain ⟨rfl, -⟩ := List.cons.inj h
    exact absurd hd hc

/-- The character that a start which is no name begins with. -/
def Start.mark? : Start → Option Char
  | .name _ => none
  | .literal _ q => some q.char
  | .parenthesized _ => some '('
  | .object _ => some '{'

theorem Start.name_or_mark (s : Start) : (∃ n, s = .name n) ∨
    ∃ c others, c ∈ ['"', '\'', '(', '{'] ∧ s.mark? = some c ∧ s.text = c :: others := by
  cases s with
  | name n => exact .inl ⟨n, rfl⟩
  | literal t q => exact .inr ⟨q.char, _, by cases q <;> simp [Quote.char], rfl, rfl⟩
  | parenthesized r => exact .inr ⟨_, _, by simp, rfl, rfl⟩
  | object ps => cases ps <;> exact .inr ⟨_, _, by simp, rfl, rfl⟩

theorem not_isNameLike_of_mark {c : Char} (h : c ∈ ['"', '\'', '(', '{']) : ¬ isNameLike c := by
  refine not_isNameLike_of_mem ?_
  simp only [List.mem_cons, List.not_mem_nil, or_false] at h ⊢
  rcases h with rfl | rfl | rfl | rfl <;> simp

/-- Parameters are one name, or stand in parentheses. -/
theorem parametersText_cases (ns : List BareName) :
    (∃ n, ns = [n]) ∨ parametersText ns = '(' :: namesText [] ns := by
  match ns with
  | [] => exact .inr rfl
  | [n] => exact .inl ⟨n, rfl⟩
  | _ :: _ :: _ => exact .inr rfl

/-- A name at the beginning is the start of a chain, or a single parameter. -/
theorem Parse.text_eq_name {r : Parse} {c : Char} (hrest : Ends rest) (hc : ¬ isNameLike c)
    (h : r.text ++ rest = n.text.toList ++ c :: rest') :
    (∃ fs, r = .chain (.name n) fs ∧ followersText fs ++ rest = c :: rest') ∨
      ∃ b, r = .arrow [n] b ∧ c = ' ' := by
  cases r with
  | chain s fs =>
    rw [Parse.text, List.append_assoc] at h
    rcases s.name_or_mark with ⟨m, rfl⟩ | ⟨d, others, hd, -, htext⟩
    · rw [Start.text] at h
      obtain ⟨rfl, htext⟩ :=
        BareName.append_inj (breaks_followersText fs hrest) (breaks_cons hc) h
      exact .inl ⟨fs, rfl, htext⟩
    · rw [htext, List.cons_append] at h
      exact absurd h.symm (n.append_ne_cons (not_isNameLike_of_mark hd) _ _)
  | arrow ns b =>
    have hblank : ¬ isNameLike ' ' := not_isNameLike_of_mem (by simp)
    rw [Parse.text, List.append_assoc] at h
    rcases parametersText_cases ns with ⟨m, rfl⟩ | hns
    · obtain ⟨rfl, htext⟩ := BareName.append_inj (breaks_cons hblank) (breaks_cons hc) h
      exact .inr ⟨b, rfl, (List.cons.inj htext).1.symm⟩
    · rw [hns, List.cons_append] at h
      exact absurd h.symm (n.append_ne_cons (not_isNameLike_of_mem (by simp)) _ _)

/-- No expression begins with what closes one. -/
theorem Parse.text_ne_close (r : Parse) {c : Char} (hc : c ∈ [')', ' ', '}']) :
    r.text ++ rest ≠ c :: rest' := by
  have hname : ¬ isNameLike c := by
    refine not_isNameLike_of_mem ?_
    simp only [List.mem_cons, List.not_mem_nil, or_false] at hc ⊢
    rcases hc with rfl | rfl | rfl <;> simp
  intro h
  cases r with
  | chain s fs =>
    rw [Parse.text, List.append_assoc] at h
    rcases s.name_or_mark with ⟨m, rfl⟩ | ⟨d, others, hd, -, htext⟩
    · exact m.append_ne_cons hname _ _ h
    · rw [htext, List.cons_append] at h
      obtain ⟨rfl, -⟩ := List.cons.inj h
      simp only [List.mem_cons, List.not_mem_nil, or_false] at hc hd
      rcases hd with rfl | rfl | rfl | rfl <;> simp at hc
  | arrow ns b =>
    rw [Parse.text, List.append_assoc] at h
    rcases parametersText_cases ns with ⟨m, rfl⟩ | hns
    · exact m.append_ne_cons hname _ _ h
    · rw [hns, List.cons_append] at h
      obtain ⟨rfl, -⟩ := List.cons.inj h
      simp at hc

theorem Start.mark?_of_text_eq {s : Start} {c : Char} (hc : ¬ isNameLike c)
    (h : s.text ++ rest = c :: rest') : s.mark? = some c := by
  rcases s.name_or_mark with ⟨n, rfl⟩ | ⟨d, others, -, hmark, htext⟩
  · exact absurd h (n.append_ne_cons hc _ _)
  · rw [htext, List.cons_append] at h
    rw [hmark, (List.cons.inj h).1]

/-- Starts with the same text begin with the same character. -/
theorem Start.mark?_eq {s s' : Start} (h : s.text ++ rest = s'.text ++ rest') :
    s.mark? = s'.mark? := by
  rcases s.name_or_mark with ⟨n, rfl⟩ | ⟨c, others, hc, hmark, htext⟩
  · rcases s'.name_or_mark with ⟨m, rfl⟩ | ⟨d, others, hd, -, htext⟩
    · rfl
    · rw [htext, List.cons_append] at h
      exact absurd h (n.append_ne_cons (not_isNameLike_of_mark hd) _ _)
  · rw [htext, List.cons_append] at h
    rw [hmark, Start.mark?_of_text_eq (not_isNameLike_of_mark hc) h.symm]

/-- A chain whose text begins with a parenthesis starts with one. -/
theorem chain_text_eq_parenthesis {s : Start} {fs : List Follower}
    (h : (Parse.chain s fs).text ++ rest = '(' :: rest') :
    ∃ r, s = .parenthesized r ∧ r.text ++ ')' :: (followersText fs ++ rest) = rest' := by
  rw [Parse.text, List.append_assoc] at h
  have hmark := Start.mark?_of_text_eq (not_isNameLike_of_mem (by simp)) h
  cases s with
  | parenthesized r => exact ⟨r, rfl, by simpa [Start.text] using h⟩
  | literal t q => cases q <;> simp [Start.mark?, Quote.char] at hmark
  | name n | object ps => simp [Start.mark?] at hmark

/-- The text of a chain is not the text of an arrow function. -/
theorem chain_text_ne_arrow {s : Start} {fs : List Follower} {ns : List BareName} {b : Parse}
    (hrest : Ends rest) : (Parse.chain s fs).text ++ rest ≠ (Parse.arrow ns b).text ++ rest' := by
  intro h
  rw [Parse.text.eq_2, List.append_assoc] at h
  match ns with
  | [n] =>
    rcases Parse.text_eq_name hrest (not_isNameLike_of_mem (by simp)) h with
      ⟨gs, -, hgs⟩ | ⟨b', hchain, -⟩
    · obtain ⟨-, rfl⟩ := followersText_eq_cons hgs (by simp)
      cases hrest
    · cases hchain
  | [] =>
    obtain ⟨r, -, hinner⟩ := chain_text_eq_parenthesis h
    exact r.text_ne_close (by simp) hinner
  | n :: m :: ns =>
    have htext : parametersText (n :: m :: ns) =
        '(' :: (n.text.toList ++ ',' :: ' ' :: (m.text.toList ++ namesText comma ns)) := rfl
    rw [htext, List.cons_append, List.append_assoc] at h
    obtain ⟨r, -, hinner⟩ := chain_text_eq_parenthesis h
    rcases Parse.text_eq_name (.parenthesis _) (not_isNameLike_of_mem (by simp)) hinner with
      ⟨gs, -, hgs⟩ | ⟨-, -, hcomma⟩
    · exact absurd (followersText_eq_cons hgs (by simp)).2 (by simp)
    · exact absurd hcomma (by decide)

/-- Before the first item of a list stands nothing, and before every other one a comma. -/
def IsMark (mark : List Char) : Prop := mark = [] ∨ mark = comma

theorem breaks_namesText (ns : List BareName) : Breaks (namesText comma ns ++ rest) := by
  cases ns <;> exact breaks_cons (not_isNameLike_of_mem (by simp))

theorem namesText_ne_close {mark : List Char} (hmark : IsMark mark) (n : BareName)
    (ns : List BareName) : namesText mark (n :: ns) ++ rest ≠ ')' :: rest' := by
  rw [namesText, List.append_assoc, List.append_assoc]
  rcases hmark with rfl | rfl
  · exact n.append_ne_cons (not_isNameLike_of_mem (by simp)) _ _
  · simp [comma]

theorem namesText_inj {mark : List Char} (hmark : IsMark mark) {ns ms : List BareName}
    (h : namesText mark ns ++ rest = namesText mark ms ++ rest') : ns = ms ∧ rest = rest' := by
  induction ns generalizing mark ms with
  | nil =>
    cases ms with
    | nil => exact ⟨rfl, by simpa [namesText] using h⟩
    | cons m ms => exact absurd h.symm (namesText_ne_close hmark m ms)
  | cons n ns ih =>
    cases ms with
    | nil => exact absurd h (namesText_ne_close hmark n ns)
    | cons m ms =>
      simp only [namesText, List.append_assoc, List.append_cancel_left_eq] at h
      obtain ⟨rfl, htail⟩ := BareName.append_inj (breaks_namesText ns) (breaks_namesText ms) h
      obtain ⟨rfl, rfl⟩ := ih (.inr rfl) htail
      exact ⟨rfl, rfl⟩

theorem parametersText_inj {ns ms : List BareName}
    (h : parametersText ns ++ ' ' :: rest = parametersText ms ++ ' ' :: rest') :
    ns = ms ∧ rest = rest' := by
  have hblank : ∀ cs, Breaks (' ' :: cs) := fun _ => breaks_cons (not_isNameLike_of_mem (by simp))
  have hopen : ¬ isNameLike '(' := not_isNameLike_of_mem (by simp)
  rcases parametersText_cases ns with ⟨n, rfl⟩ | hns <;>
    rcases parametersText_cases ms with ⟨m, rfl⟩ | hms
  · obtain ⟨rfl, htail⟩ := BareName.append_inj (hblank _) (hblank _) h
    exact ⟨rfl, (List.cons.inj htail).2⟩
  · rw [hms] at h
    exact absurd h (n.append_ne_cons hopen _ _)
  · rw [hns] at h
    exact absurd h.symm (m.append_ne_cons hopen _ _)
  · rw [hns, hms] at h
    obtain ⟨rfl, htail⟩ := namesText_inj (.inl rfl) (List.cons.inj h).2
    exact ⟨rfl, (List.cons.inj htail).2⟩

theorem LiteralText.append_inj {t u : LiteralText} {q : Quote}
    (h : t.text.toList ++ q.char :: rest = u.text.toList ++ q.char :: rest') :
    t = u ∧ rest = rest' := by
  have hother : ∀ v : LiteralText, ∀ c ∈ v.text.toList, c ≠ q.char := by
    intro v c hc
    cases q with
    | double => exact (v.noQuotes c hc).1
    | single => exact (v.noQuotes c hc).2
  obtain ⟨htext, htail⟩ := append_inj_of_all (hother t) (hother u) (by simp) (by simp) h
  refine ⟨?_, (List.cons.inj htail).2⟩
  cases t
  cases u
  simpa [String.toList_inj] using htext

theorem ends_argumentsText (rs : List Parse) : Ends (argumentsText comma rs ++ rest) := by
  cases rs with
  | nil => exact .parenthesis _
  | cons r rs => exact .comma _

theorem argumentsText_ne_close {mark : List Char} (hmark : IsMark mark) (r : Parse)
    (rs : List Parse) : argumentsText mark (r :: rs) ++ rest ≠ ')' :: rest' := by
  rw [argumentsText, List.append_assoc, List.append_assoc]
  rcases hmark with rfl | rfl
  · exact r.text_ne_close (by simp)
  · simp [comma]

theorem ends_propertiesText (ps : List (BareName × Parse)) :
    Ends (propertiesText comma ps ++ rest) := by
  cases ps with
  | nil => exact .brace _
  | cons p ps => exact .comma _

theorem Ends.ne_followersText (hrest : Ends rest) (f : Follower) (fs : List Follower) :
    followersText (f :: fs) ++ rest' ≠ rest := by
  obtain ⟨c, others, hc, htext⟩ := followersText_cons f fs
  intro h
  rw [htext, List.cons_append] at h
  cases hrest <;> simp_all

-- One induction for all parts of a reading; each part is followed by what shows where it ends.
mutual

/-- Readings with the same text are the same, whatever follows them. -/
theorem Parse.text_inj (r r' : Parse) {rest rest' : List Char} (hrest : Ends rest)
    (hrest' : Ends rest') (h : r.text ++ rest = r'.text ++ rest') : r = r' ∧ rest = rest' := by
  match r, r' with
  | .chain s fs, .chain s' fs' =>
    rw [Parse.text, Parse.text, List.append_assoc, List.append_assoc] at h
    obtain ⟨rfl, htail⟩ := Start.text_inj s s' (breaks_followersText fs hrest)
      (breaks_followersText fs' hrest') h
    obtain ⟨rfl, rfl⟩ := followersText_inj fs fs' hrest hrest' htail
    exact ⟨rfl, rfl⟩
  | .chain s fs, .arrow ns b => exact absurd h (chain_text_ne_arrow hrest)
  | .arrow ns b, .chain s fs => exact absurd h.symm (chain_text_ne_arrow hrest')
  | .arrow ns b, .arrow ms c =>
    rw [Parse.text, Parse.text, List.append_assoc, List.append_assoc] at h
    obtain ⟨rfl, htail⟩ := parametersText_inj h
    obtain ⟨rfl, rfl⟩ := Parse.text_inj b c hrest hrest' (by simpa using htail)
    exact ⟨rfl, rfl⟩

theorem Start.text_inj (s s' : Start) {rest rest' : List Char} (hrest : Breaks rest)
    (hrest' : Breaks rest') (h : s.text ++ rest = s'.text ++ rest') : s = s' ∧ rest = rest' := by
  match s, s' with
  | .name n, .name m =>
    obtain ⟨rfl, rfl⟩ := BareName.append_inj hrest hrest' h
    exact ⟨rfl, rfl⟩
  | .literal t q, .literal u q' =>
    have hquote : q = q' := by
      have hmark := Start.mark?_eq h
      cases q <;> cases q' <;> first | rfl | simp [Start.mark?, Quote.char] at hmark
    subst hquote
    obtain ⟨rfl, rfl⟩ := LiteralText.append_inj (by simpa [Start.text] using h)
    exact ⟨rfl, rfl⟩
  | .parenthesized r, .parenthesized r' =>
    obtain ⟨rfl, htail⟩ := Parse.text_inj r r' (.parenthesis _) (.parenthesis _)
      (by simpa [Start.text] using h)
    exact ⟨rfl, (List.cons.inj htail).2⟩
  | .object [], .object [] => exact ⟨rfl, by simpa [Start.text] using h⟩
  | .object (p :: ps), .object (p' :: ps') =>
    obtain ⟨hps, rfl⟩ := propertiesText_inj (.inl rfl) (p :: ps) (p' :: ps') h
    exact ⟨by rw [hps], rfl⟩
  | .object [], .object (_ :: _) | .object (_ :: _), .object [] =>
    simp [Start.text, propertiesText] at h
  | .name _, .literal .. | .name _, .parenthesized _ | .name _, .object _
  | .literal .., .name _ | .literal .., .parenthesized _ | .literal .., .object _
  | .parenthesized _, .name _ | .parenthesized _, .object _
  | .object _, .name _ | .object _, .parenthesized _ =>
    exact absurd (Start.mark?_eq h) (by simp [Start.mark?])
  | .parenthesized _, .literal .. | .object _, .literal .. =>
    exact absurd (Start.mark?_eq h).symm (by simp [Start.mark?])

theorem followersText_inj (fs fs' : List Follower) {rest rest' : List Char} (hrest : Ends rest)
    (hrest' : Ends rest') (h : followersText fs ++ rest = followersText fs' ++ rest') :
    fs = fs' ∧ rest = rest' := by
  match fs, fs' with
  | [], [] => exact ⟨rfl, h⟩
  | [], f :: fs => exact absurd h.symm (hrest.ne_followersText f fs)
  | f :: fs, [] => exact absurd h (hrest'.ne_followersText f fs)
  | .member n :: fs, .member m :: fs' =>
    simp only [followersText, List.cons_append, List.append_assoc, List.cons.injEq, true_and] at h
    obtain ⟨rfl, htail⟩ := BareName.append_inj (breaks_followersText fs hrest)
      (breaks_followersText fs' hrest') h
    obtain ⟨rfl, rfl⟩ := followersText_inj fs fs' hrest hrest' htail
    exact ⟨rfl, rfl⟩
  | .element k :: fs, .element k' :: fs' =>
    simp only [followersText, List.cons_append, List.append_assoc, List.cons.injEq, true_and] at h
    obtain ⟨rfl, htail⟩ := Parse.text_inj k k' (.bracket _) (.bracket _) h
    obtain ⟨rfl, rfl⟩ := followersText_inj fs fs' hrest hrest' (List.cons.inj htail).2
    exact ⟨rfl, rfl⟩
  | .call rs :: fs, .call rs' :: fs' =>
    simp only [followersText, List.cons_append, List.append_assoc, List.cons.injEq, true_and] at h
    obtain ⟨rfl, htail⟩ := argumentsText_inj (.inl rfl) rs rs' h
    obtain ⟨rfl, rfl⟩ := followersText_inj fs fs' hrest hrest' htail
    exact ⟨rfl, rfl⟩
  | .member _ :: _, .element _ :: _ | .member _ :: _, .call _ :: _
  | .element _ :: _, .member _ :: _ | .element _ :: _, .call _ :: _
  | .call _ :: _, .member _ :: _ | .call _ :: _, .element _ :: _ => simp [followersText] at h

theorem argumentsText_inj {mark : List Char} (hmark : IsMark mark) (rs rs' : List Parse)
    {rest rest' : List Char} (h : argumentsText mark rs ++ rest = argumentsText mark rs' ++ rest') :
    rs = rs' ∧ rest = rest' := by
  match rs, rs' with
  | [], [] => exact ⟨rfl, by simpa [argumentsText] using h⟩
  | [], r :: rs => exact absurd h.symm (argumentsText_ne_close hmark r rs)
  | r :: rs, [] => exact absurd h (argumentsText_ne_close hmark r rs)
  | r :: rs, r' :: rs' =>
    simp only [argumentsText, List.append_assoc, List.append_cancel_left_eq] at h
    obtain ⟨rfl, htail⟩ := Parse.text_inj r r' (ends_argumentsText rs) (ends_argumentsText rs') h
    obtain ⟨rfl, rfl⟩ := argumentsText_inj (.inr rfl) rs rs' htail
    exact ⟨rfl, rfl⟩

theorem propertiesText_inj {mark : List Char} (hmark : mark = ['{', ' '] ∨ mark = comma)
    (ps ps' : List (BareName × Parse)) {rest rest' : List Char}
    (h : propertiesText mark ps ++ rest = propertiesText mark ps' ++ rest') :
    ps = ps' ∧ rest = rest' := by
  match ps, ps' with
  | [], [] => exact ⟨rfl, by simpa [propertiesText] using h⟩
  | [], (n, r) :: ps => rcases hmark with rfl | rfl <;> simp [propertiesText, comma] at h
  | (n, r) :: ps, [] => rcases hmark with rfl | rfl <;> simp [propertiesText, comma] at h
  | (n, r) :: ps, (n', r') :: ps' =>
    simp only [propertiesText, List.append_assoc, List.append_cancel_left_eq, List.cons_append] at h
    have hcolon : ∀ cs, Breaks (':' :: cs) := fun _ => breaks_cons (not_isNameLike_of_mem (by simp))
    obtain ⟨rfl, htail⟩ := BareName.append_inj (hcolon _) (hcolon _) h
    simp only [List.cons.injEq, true_and] at htail
    obtain ⟨rfl, hmore⟩ :=
      Parse.text_inj r r' (ends_propertiesText ps) (ends_propertiesText ps') htail
    obtain ⟨rfl, rfl⟩ := propertiesText_inj (.inr rfl) ps ps' hmore
    exact ⟨rfl, rfl⟩

end

end DeferredImports
