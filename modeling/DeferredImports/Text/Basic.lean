/-! Texts as lists of characters: how they begin and end, which characters they hold, their pieces
between separators, and letter case. -/

namespace DeferredImports.Text

def begins (start s : String) : Bool := start.toList.isPrefixOf s.toList

def ends (ending s : String) : Bool := ending.toList.isSuffixOf s.toList

def holds (c : Char) (s : String) : Bool := s.toList.contains c

theorem begins_iff {start s : String} : begins start s ↔ ∃ rest, s = start ++ rest := by
  rw [begins, List.isPrefixOf_iff_prefix]
  constructor
  · rintro ⟨rest, h⟩
    exact ⟨String.ofList rest, String.toList_inj.1 (by simp [h])⟩
  · rintro ⟨rest, rfl⟩
    exact ⟨rest.toList, by simp⟩

theorem ends_iff {ending s : String} : ends ending s ↔ ∃ front, s = front ++ ending := by
  rw [ends, List.isSuffixOf_iff_suffix]
  constructor
  · rintro ⟨front, h⟩
    exact ⟨String.ofList front, String.toList_inj.1 (by simp [h])⟩
  · rintro ⟨front, rfl⟩
    exact ⟨front.toList, by simp⟩

/-- What follows the start, if the text begins with it. -/
def after? : List Char → List Char → Option (List Char)
  | [], s => some s
  | _ :: _, [] => none
  | c :: start, d :: s => if c = d then after? start s else none

/-- The text with each character exchanged on its own. -/
def mapChars (f : Char → Char) (s : String) : String := String.ofList (s.toList.map f)

/-- The pieces between separators; there is always one more piece than separators. -/
def pieces (separator : Char) : List Char → List (List Char)
  | [] => [[]]
  | c :: cs =>
    if c = separator then [] :: pieces separator cs
    else match pieces separator cs with
      | [] => [[c]]
      | p :: ps => (c :: p) :: ps

def glue (separator : Char) : List (List Char) → List Char
  | [] => []
  | [p] => p
  | p :: ps => p ++ separator :: glue separator ps

theorem pieces_ne_nil (separator : Char) (cs : List Char) : pieces separator cs ≠ [] := by
  cases cs with
  | nil => simp [pieces]
  | cons c cs =>
    unfold pieces
    split
    · simp
    · split <;> simp

theorem glue_pieces (separator : Char) (cs : List Char) :
    glue separator (pieces separator cs) = cs := by
  induction cs with
  | nil => rfl
  | cons c cs ih =>
    have hne := pieces_ne_nil separator cs
    match hp : pieces separator cs with
    | [] => exact absurd hp hne
    | p :: ps =>
      rw [hp] at ih
      by_cases hc : c = separator
      · simp [pieces, hc, hp, glue, ih]
      · cases ps with
        | nil =>
          simp only [glue] at ih
          simp [pieces, hc, hp, glue, ih]
        | cons q qs =>
          simp only [glue] at ih
          simp only [pieces, if_neg hc, hp, glue, List.cons_append, ih]

theorem not_mem_of_mem_pieces {separator : Char} {cs p : List Char}
    (h : p ∈ pieces separator cs) : separator ∉ p := by
  induction cs generalizing p with
  | nil => simp_all [pieces]
  | cons c cs ih =>
    unfold pieces at h
    split at h
    · rcases List.mem_cons.1 h with rfl | h
      · simp
      · exact ih h
    · rename_i hc
      match hp : pieces separator cs with
      | [] => exact absurd hp (pieces_ne_nil separator cs)
      | q :: qs =>
        rw [hp] at h ih
        rcases List.mem_cons.1 h with rfl | h
        · simp [Ne.symm hc, ih List.mem_cons_self]
        · exact ih (List.mem_cons_of_mem q h)

/-- The Kelvin sign is a capital of an ASCII letter. -/
def lowerAscii (c : Char) : Char := if c = '\u212A' then 'k' else c.toLower

/-- The dotless small I, the long and the sharp small S, and the Latin ligatures have ASCII
capitals. -/
def capitals (c : Char) : List Char :=
  match c with
  | '\u00DF' => ['S', 'S']
  | '\u0131' => ['I']
  | '\u017F' => ['S']
  | '\uFB00' => ['F', 'F']
  | '\uFB01' => ['F', 'I']
  | '\uFB02' => ['F', 'L']
  | '\uFB03' => ['F', 'F', 'I']
  | '\uFB04' => ['F', 'F', 'L']
  | '\uFB05' | '\uFB06' => ['S', 'T']
  | _ => [c.toUpper]

def lower (s : String) : String := mapChars lowerAscii s

def upper (s : String) : String := String.ofList (s.toList.flatMap capitals)

end DeferredImports.Text
