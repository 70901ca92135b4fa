import DeferredImports.Path

/-! Normal paths: the parts of a path in normal form are pushed as they are, so that normalizing
once is enough. -/

namespace DeferredImports

namespace Text

theorem pieces_append {separator : Char} {p : List Char} (h : separator ∉ p) (cs : List Char) :
    pieces separator (p ++ separator :: cs) = p :: pieces separator cs := by
  induction p with
  | nil => simp [pieces]
  | cons c p ih =>
    rw [List.mem_cons, not_or] at h
    have hrest := ih h.2
    rw [List.cons_append, pieces, if_neg (Ne.symm h.1), hrest]

theorem pieces_of_not_mem {separator : Char} {p : List Char} (h : separator ∉ p) :
    pieces separator p = [p] := by
  induction p with
  | nil => rfl
  | cons c p ih =>
    rw [List.mem_cons, not_or] at h
    rw [pieces, if_neg (Ne.symm h.1), ih h.2]

/-- Pieces without separators can be told apart again. -/
theorem pieces_glue {separator : Char} {ps : List (List Char)} (hne : ps ≠ [])
    (h : ∀ p ∈ ps, separator ∉ p) : pieces separator (glue separator ps) = ps := by
  induction ps with
  | nil => exact absurd rfl hne
  | cons p ps ih =>
    have hp := h p List.mem_cons_self
    cases ps with
    | nil => exact pieces_of_not_mem hp
    | cons q qs =>
      have hrest := ih (List.cons_ne_nil q qs) fun r hr => h r (List.mem_cons_of_mem p hr)
      rw [glue, pieces_append hp, hrest]
      exact List.cons_ne_nil q qs

end Text

namespace Path

open Text (pieces glue pieces_glue not_mem_of_mem_pieces)

variable {absolute : Bool} {parts : List (List Char)} {part : List Char}

/-- Parts, the last one first, each of which was added as it is. -/
inductive IsNormalStack (absolute : Bool) : List (List Char) → Prop
  | nil : IsNormalStack absolute []
  | push {parts : List (List Char)} {part : List Char} : IsNormalStack absolute parts →
      '/' ∉ part → pushPart absolute parts part = part :: parts →
      IsNormalStack absolute (part :: parts)

theorem IsNormalStack.pushPart (h : IsNormalStack absolute parts) (hpart : '/' ∉ part) :
    IsNormalStack absolute (pushPart absolute parts part) := by
  by_cases hskip : part = [] ∨ part = ['.']
  · have hkept : Path.pushPart absolute parts part = parts := if_pos hskip
    rw [hkept]
    exact h
  by_cases hup : part = ['.', '.']
  · subst hup
    cases h with
    | nil =>
      cases absolute with
      | true => exact .nil
      | false => exact .push .nil hpart rfl
    | @push others last hothers hlast hkept =>
      by_cases hl : last = ['.', '.']
      · have hadded : Path.pushPart absolute (last :: others) ['.', '.'] =
            ['.', '.'] :: last :: others := by
          simp [Path.pushPart, hl]
        rw [hadded]
        exact .push (.push hothers hlast hkept) hpart hadded
      · have hback : Path.pushPart absolute (last :: others) ['.', '.'] = others := by
          simp [Path.pushPart, hl]
        rw [hback]
        exact hothers
  · have hadded : Path.pushPart absolute parts part = part :: parts :=
      (if_neg hskip).trans (if_pos hup)
    rw [hadded]
    exact .push h hpart hadded

theorem isNormalStack_foldl {ps : List (List Char)} (hps : ∀ p ∈ ps, '/' ∉ p)
    (h : IsNormalStack absolute parts) :
    IsNormalStack absolute (ps.foldl (pushPart absolute) parts) := by
  induction ps generalizing parts with
  | nil => exact h
  | cons p ps ih =>
    exact ih (fun q hq => hps q (List.mem_cons_of_mem p hq)) (h.pushPart (hps p List.mem_cons_self))

/-- Normal parts stay as they are when they are added one after the other. -/
theorem IsNormalStack.foldl_reverse (h : IsNormalStack absolute parts) :
    parts.reverse.foldl (Path.pushPart absolute) [] = parts := by
  induction h with
  | nil => rfl
  | push _ _ hkept ih =>
    rw [List.reverse_cons, List.foldl_append, ih, List.foldl_cons, List.foldl_nil, hkept]

theorem IsNormalStack.isPart (h : IsNormalStack absolute parts) :
    ∀ p ∈ parts, p ≠ [] ∧ '/' ∉ p := by
  induction h with
  | nil => exact fun p hp => nomatch hp
  | @push parts part _ hpart hkept ih =>
    intro p hp
    rcases List.mem_cons.1 hp with rfl | hp
    · refine ⟨?_, hpart⟩
      rintro rfl
      have hlength := congrArg List.length hkept
      simp [Path.pushPart] at hlength
    · exact ih p hp

theorem isNormalStack_normalParts (absolute : Bool) {ps : List (List Char)}
    (hps : ∀ p ∈ ps, '/' ∉ p) : IsNormalStack absolute (normalParts absolute ps).reverse := by
  unfold normalParts
  rw [List.reverse_reverse]
  exact isNormalStack_foldl hps .nil

theorem normalParts_normalParts (absolute : Bool) {ps : List (List Char)}
    (hps : ∀ p ∈ ps, '/' ∉ p) :
    normalParts absolute (normalParts absolute ps) = normalParts absolute ps := by
  have h := (isNormalStack_normalParts absolute hps).foldl_reverse
  rw [List.reverse_reverse] at h
  rw [normalParts, h, List.reverse_reverse]

/-- Slashes before a path add nothing to its parts. -/
theorem normalParts_slashes (absolute : Bool) (slashes : Nat) (cs : List Char) :
    normalParts absolute (pieces '/' (List.replicate slashes '/' ++ cs)) =
      normalParts absolute (pieces '/' cs) := by
  induction slashes with
  | zero => rfl
  | succ n ih =>
    have hpieces : pieces '/' (List.replicate (n + 1) '/' ++ cs) =
        [] :: pieces '/' (List.replicate n '/' ++ cs) := by
      simp [List.replicate_succ, pieces]
    rw [hpieces, ← ih]
    rfl

theorem takeWhile_glue {ps : List (List Char)} (h : ∀ p ∈ ps, p ≠ [] ∧ '/' ∉ p) :
    (glue '/' ps).takeWhile (· = '/') = [] := by
  cases ps with
  | nil => rfl
  | cons p ps =>
    obtain ⟨hne, hmem⟩ := h p List.mem_cons_self
    cases p with
    | nil => exact absurd rfl hne
    | cons c p =>
      have hc : c ≠ '/' := fun hc => hmem (by rw [hc]; exact List.mem_cons_self)
      cases ps with
      | nil => simp [glue, hc]
      | cons q qs => simp [glue, hc]

theorem leadingSlashes_append (cs : List Char) {rest : List Char}
    (h : rest.takeWhile (· = '/') = []) :
    leadingSlashes (List.replicate (leadingSlashes cs) '/' ++ rest) = leadingSlashes cs := by
  have hlength : ∀ n, ((List.replicate n '/' ++ rest).takeWhile (· = '/')).length = n := by
    intro n
    induction n with
    | zero => simp [h]
    | succ n ih => simpa [List.replicate_succ] using ih
  have hsmall : leadingSlashes cs = 0 ∨ leadingSlashes cs = 1 ∨ leadingSlashes cs = 2 := by
    unfold leadingSlashes
    split
    · exact .inl rfl
    · exact .inr (.inr rfl)
    · exact .inr (.inl rfl)
  rw [leadingSlashes, hlength]
  rcases hsmall with hs | hs | hs <;> rw [hs] <;> rfl

theorem normalizeChars_normalizeChars (cs : List Char) :
    normalizeChars (normalizeChars cs) = normalizeChars cs := by
  have hpieces : ∀ p ∈ pieces '/' cs, '/' ∉ p := fun p hp => not_mem_of_mem_pieces hp
  have hstack := isNormalStack_normalParts (leadingSlashes cs ≠ 0) hpieces
  have hparts : ∀ p ∈ normalParts (leadingSlashes cs ≠ 0) (pieces '/' cs), p ≠ [] ∧ '/' ∉ p :=
    fun p hp => hstack.isPart p (List.mem_reverse.2 hp)
  have hagain : normalParts (leadingSlashes cs ≠ 0)
      (pieces '/' (glue '/' (normalParts (leadingSlashes cs ≠ 0) (pieces '/' cs)))) =
        normalParts (leadingSlashes cs ≠ 0) (pieces '/' cs) := by
    by_cases hnil : normalParts (leadingSlashes cs ≠ 0) (pieces '/' cs) = []
    · rw [hnil]
      rfl
    · rw [pieces_glue hnil fun p hp => (hparts p hp).2]
      exact normalParts_normalParts _ hpieces
  have hslashes := leadingSlashes_append cs (takeWhile_glue hparts)
  rw [normalizeChars.eq_def cs]
  dsimp only
  split
  · rfl
  · next hne =>
    rw [normalizeChars, hslashes, normalParts_slashes, hagain, if_neg hne]

/-- Normalizing a path twice is normalizing it once. -/
theorem normalize_normalize (path : String) : normalize (normalize path) = normalize path := by
  unfold normalize
  rw [String.toList_ofList, normalizeChars_normalizeChars]

end Path

end DeferredImports
