import DeferredImports.Proofs.ProgramFiles
import Mathlib.Data.List.TakeWhile

/-! Relative specifiers: the paths that one stands for, and the directories in which it names the
first of them that is a file. The index of a root directory is looked up under a path that is not
in normal form, and is not found there. -/

namespace DeferredImports

namespace Text

/-- A text is cut at a separator in the middle into the pieces of both sides. -/
theorem pieces_append_separator (separator : Char) (front rest : List Char) :
    pieces separator (front ++ separator :: rest) =
      pieces separator front ++ pieces separator rest := by
  induction front with
  | nil => simp [pieces]
  | cons c front ih =>
    by_cases hc : c = separator
    · simp [pieces, hc, ih]
    · cases hp : pieces separator front with
      | nil => exact absurd hp (pieces_ne_nil separator front)
      | cons p ps =>
        rw [hp] at ih
        simp [pieces, hc, hp, ih]

theorem glue_cons (separator : Char) (p : List Char) {ps : List (List Char)} (hne : ps ≠ []) :
    glue separator (p :: ps) = p ++ separator :: glue separator ps := by
  cases ps with
  | nil => exact absurd rfl hne
  | cons q qs => rfl

theorem glue_append_singleton (separator : Char) {ps : List (List Char)} (hne : ps ≠ [])
    (p : List Char) : glue separator (ps ++ [p]) = glue separator ps ++ separator :: p := by
  induction ps with
  | nil => exact absurd rfl hne
  | cons q ps ih =>
    by_cases hps : ps = []
    · subst hps
      rfl
    · rw [List.cons_append, glue_cons separator q (by simp), ih hps, glue_cons separator q hps,
        List.append_assoc, List.cons_append]

end Text

namespace Path

open Text (pieces glue begins ends)

/-- The directories that have no name. -/
def roots : List String := [".", "/", "//"]

/-- A name that stands for something of its own below a directory. -/
structure IsPlainName (name : List Char) : Prop where
  ne_nil : name ≠ []
  ne_current : name ≠ ['.']
  ne_parent : name ≠ ['.', '.']
  no_slash : '/' ∉ name

variable {name cs : List Char}

theorem normalParts_append_name (hname : IsPlainName name) (absolute : Bool)
    (ps : List (List Char)) :
    normalParts absolute (ps ++ [name]) = normalParts absolute ps ++ [name] := by
  have hpush : ∀ parts, pushPart absolute parts name = name :: parts := by
    intro parts
    have hkept : ¬ (name = [] ∨ name = ['.']) := not_or.2 ⟨hname.ne_nil, hname.ne_current⟩
    exact (if_neg hkept).trans (if_pos hname.ne_parent)
  simp only [normalParts, List.foldl_append, List.foldl_cons, List.foldl_nil, hpush,
    List.reverse_cons]

/-- The parts that the normal form of a path is put together from. -/
def partsOf (cs : List Char) : List (List Char) :=
  normalParts (leadingSlashes cs ≠ 0) (pieces '/' cs)

theorem isPart_of_mem_partsOf {p : List Char} (h : p ∈ partsOf cs) : p ≠ [] ∧ '/' ∉ p := by
  have hpieces : ∀ q ∈ pieces '/' cs, '/' ∉ q := fun _ hq => Text.not_mem_of_mem_pieces hq
  exact (isNormalStack_normalParts _ hpieces).isPart p (List.mem_reverse.2 h)

/-- The last part of a path with parts. -/
theorem exists_last_part (h : partsOf cs ≠ []) :
    ∃ front last, last ≠ [] ∧ '/' ∉ last ∧ glue '/' (partsOf cs) = front ++ last := by
  obtain ⟨parts, last, hparts⟩ := (List.eq_nil_or_concat (partsOf cs)).resolve_left h
  have hlast : last ∈ partsOf cs := by simp [hparts]
  obtain ⟨hne, hslash⟩ := isPart_of_mem_partsOf hlast
  rw [hparts]
  by_cases hnil : parts = []
  · subst hnil
    exact ⟨[], last, hne, hslash, rfl⟩
  · refine ⟨glue '/' parts ++ ['/'], last, hne, hslash, ?_⟩
    rw [List.concat_eq_append, Text.glue_append_singleton '/' hnil, List.append_assoc]
    rfl

theorem normalizeChars_of_partsOf (h : partsOf cs ≠ []) :
    normalizeChars cs = List.replicate (leadingSlashes cs) '/' ++ glue '/' (partsOf cs) := by
  obtain ⟨front, last, hne, -, hglue⟩ := exists_last_part h
  rw [normalizeChars, ← partsOf, if_neg (by simp [hglue, hne])]

/-- Only a root has no parts. -/
theorem partsOf_ne_nil (hcs : normalizeChars cs = cs) (hroot : String.ofList cs ∉ roots) :
    partsOf cs ≠ [] := by
  intro hnil
  apply hroot
  have hsmall : leadingSlashes cs = 0 ∨ leadingSlashes cs = 1 ∨ leadingSlashes cs = 2 := by
    unfold leadingSlashes
    split <;> simp
  rw [normalizeChars, ← partsOf, hnil] at hcs
  rw [← hcs]
  rcases hsmall with hs | hs | hs <;> rw [hs] <;> decide

theorem takeWhile_slash_ne (h : partsOf cs ≠ []) :
    (cs.takeWhile (· = '/')).length ≠ cs.length := by
  intro hlength
  apply h
  have hself := (List.takeWhile_prefix (· = '/')).eq_of_length hlength
  have hall : cs = List.replicate cs.length '/' ++ [] := by
    rw [List.append_nil, List.eq_replicate_iff]
    exact ⟨rfl, fun c hc => by simpa using List.takeWhile_eq_self_iff.1 hself c hc⟩
  unfold partsOf
  rw [hall, normalParts_slashes]
  rfl

theorem leadingSlashes_append_of_partsOf (h : partsOf cs ≠ []) (rest : List Char) :
    leadingSlashes (cs ++ rest) = leadingSlashes cs := by
  unfold leadingSlashes
  rw [List.takeWhile_append, if_neg (takeWhile_slash_ne h)]

/-- A name below a directory that is no root stays as it is in the normal form. -/
theorem normalizeChars_append_name (hname : IsPlainName name) (h : partsOf cs ≠ []) :
    normalizeChars (cs ++ '/' :: name) = normalizeChars cs ++ '/' :: name := by
  have hparts : partsOf (cs ++ '/' :: name) = partsOf cs ++ [name] := by
    rw [partsOf, leadingSlashes_append_of_partsOf h, Text.pieces_append_separator,
      Text.pieces_of_not_mem hname.no_slash, normalParts_append_name hname, partsOf]
  have hne : partsOf (cs ++ '/' :: name) ≠ [] := by simp [hparts]
  rw [normalizeChars_of_partsOf hne, normalizeChars_of_partsOf h,
    leadingSlashes_append_of_partsOf h, hparts, Text.glue_append_singleton '/' h,
    List.append_assoc]

theorem not_ends_slash (hcs : normalizeChars cs = cs) (h : partsOf cs ≠ []) :
    ¬ ends "/" (String.ofList cs) := by
  obtain ⟨front, last, hne, hslash, hglue⟩ := exists_last_part h
  intro hends
  obtain ⟨rest, hrest⟩ := Text.ends_iff.1 hends
  have hend : cs.getLast? = some '/' := by
    have := congrArg String.toList hrest
    rw [String.toList_ofList, String.toList_append] at this
    simp [this]
  rw [← hcs, normalizeChars_of_partsOf h, hglue, ← List.append_assoc, List.getLast?_append,
    List.getLast?_eq_some_getLast hne, Option.some_or, Option.some.injEq] at hend
  exact hslash (hend ▸ List.getLast_mem hne)

/-- In a directory that is no root a plain name follows the path of the directory, and the path
is in normal form. -/
theorem normalize_join_name {directory plain : String} (hname : IsPlainName plain.toList)
    (hdirectory : normalize directory = directory) (hroot : directory ∉ roots) :
    normalize (join directory plain) = directory ++ "/" ++ plain := by
  have hcs : normalizeChars directory.toList = directory.toList := by
    have := congrArg String.toList hdirectory
    rwa [normalize, String.toList_ofList] at this
  have hparts : partsOf directory.toList ≠ [] :=
    partsOf_ne_nil hcs (by rwa [String.ofList_toList])
  have hbegins : ¬ begins "/" plain := by
    intro hbegins
    obtain ⟨rest, rfl⟩ := Text.begins_iff.1 hbegins
    exact hname.no_slash (by simp)
  have hends : ¬ ends "/" directory := by
    have := not_ends_slash hcs hparts
    rwa [String.ofList_toList] at this
  have hempty : directory ≠ "" := by
    rintro rfl
    exact hparts rfl
  have hjoin : join directory plain = directory ++ "/" ++ plain := by
    rw [join, if_neg hbegins, if_neg (by simp [hempty, hends])]
  rw [hjoin, normalize, ← String.toList_inj, String.toList_ofList, String.toList_append,
    String.toList_append, List.append_assoc]
  show normalizeChars (directory.toList ++ '/' :: plain.toList) = _
  rw [normalizeChars_append_name hname hparts, hcs]
  rfl

end Path

namespace Project

variable {p : Project} {specifier file directory path : String}

/-- The path that a relative specifier in a file leads to. -/
def destination (specifier file : String) : String :=
  Path.normalize (Path.join (Path.directory file) specifier)

/-- The path itself, and with each extension. -/
def directPaths (path : String) : List String := path :: extensions.map (path ++ ·)

/-- The index files of a directory, by their paths in normal form. -/
def indexFiles (directory : String) : List String :=
  extensions.map fun e => Path.normalize (Path.join directory ("index" ++ e))

/-- The paths under which the index files of a directory are looked up. -/
def indexPaths (directory : String) : List String :=
  extensions.map (directory ++ "/index" ++ ·)

theorem candidates_eq (path : String) : candidates path = directPaths path ++ indexPaths path :=
  rfl

theorem resolve?_of_begins (h : Text.begins "." specifier) :
    p.resolve? specifier file =
      (directPaths (destination specifier file) ++
        indexPaths (destination specifier file)).find? p.isCandidate := by
  rw [resolve?, bases, if_pos h, List.flatMap_singleton, candidates_eq]
  rfl

theorem indexName_isPlainName : ∀ e ∈ extensions, Path.IsPlainName ("index" ++ e).toList := by
  have hplain : ∀ e ∈ extensions, ("index" ++ e).toList ≠ [] ∧ ("index" ++ e).toList ≠ ['.'] ∧
      ("index" ++ e).toList ≠ ['.', '.'] ∧ '/' ∉ ("index" ++ e).toList := by decide
  intro e he
  obtain ⟨hnil, hcurrent, hparent, hslash⟩ := hplain e he
  exact ⟨hnil, hcurrent, hparent, hslash⟩

/-- The index of a directory that is no root is looked up under its normal path. -/
theorem indexPaths_eq_indexFiles (hdirectory : Path.normalize directory = directory)
    (hroot : directory ∉ Path.roots) : indexPaths directory = indexFiles directory := by
  refine List.map_congr_left fun e he => ?_
  have hindex : ("/index" : String) = "/" ++ "index" := rfl
  rw [Path.normalize_join_name (indexName_isPlainName e he) hdirectory hroot, hindex,
    ← String.append_assoc, ← String.append_assoc]

/-- At a root no path is looked up under which an index file can stand. -/
theorem not_mem_indexPaths_of_root (hroot : directory ∈ Path.roots)
    (hpath : path ∈ indexFiles directory) : path ∉ indexPaths directory := by
  have hdisjoint : ∀ d ∈ Path.roots, ∀ q ∈ indexFiles d, q ∉ indexPaths d := by decide +kernel
  exact hdisjoint directory hroot path hpath

/-- Two lists of paths without a common one give the same file only if neither gives any. -/
theorem find?_eq_find?_iff {paths others : List String} {good : String → Bool}
    (hdisjoint : ∀ path ∈ paths, path ∉ others) :
    others.find? good = paths.find? good ↔ ∀ path ∈ paths ++ others, ¬ good path := by
  constructor
  · intro heq
    have hnone : paths.find? good = none := by
      by_contra hsome
      obtain ⟨path, hpath⟩ := Option.ne_none_iff_exists'.1 hsome
      exact hdisjoint path (List.mem_of_find?_eq_some hpath)
        (List.mem_of_find?_eq_some (heq.trans hpath))
    intro path hpath
    rcases List.mem_append.1 hpath with hpath | hpath
    · exact List.find?_eq_none.1 hnone path hpath
    · exact List.find?_eq_none.1 (heq.trans hnone) path hpath
  · intro hnone
    rw [List.find?_eq_none.2 fun path hpath => hnone path (List.mem_append_left _ hpath),
      List.find?_eq_none.2 fun path hpath => hnone path (List.mem_append_right _ hpath)]

/-- No file of a program stands under the paths that are looked up for the index of the current
directory, or of one that two slashes lead to. -/
theorem not_isCandidate_indexPaths (hp : p.IsNormal) (hroot : directory ∈ [".", "//"])
    (hpath : path ∈ indexPaths directory) : ¬ p.isCandidate path := by
  have hother : ∀ d ∈ [".", "//"], ∀ q ∈ indexPaths d, Path.normalize q ≠ q := by decide +kernel
  intro hcandidate
  have hcontains : p.files.contains path := by
    rw [isCandidate, Bool.and_eq_true] at hcandidate
    exact hcandidate.1
  exact hother directory hroot path hpath (hp path hcontains)

/-- In every directory but a root a relative specifier names the first file among the path that
it leads to, that path with each extension, and the index files of that directory. In a root it
does so only if one of the first paths is a file or no index can be found at all, for there the
index files are looked up under other paths; the current directory has none of these. -/
theorem resolve?_relative (files : List (String × FileContent)) (specifier file : String)
    (h : Text.begins "." specifier) :
    (destination specifier file ∉ Path.roots →
      (ofFiles files).resolve? specifier file =
        (directPaths (destination specifier file) ++
          indexFiles (destination specifier file)).find? (ofFiles files).isCandidate) ∧
    (destination specifier file ∈ Path.roots →
      ((ofFiles files).resolve? specifier file =
          (directPaths (destination specifier file) ++
            indexFiles (destination specifier file)).find? (ofFiles files).isCandidate ↔
        (∃ path ∈ directPaths (destination specifier file), (ofFiles files).isCandidate path) ∨
          ∀ path ∈ indexFiles (destination specifier file) ++
            indexPaths (destination specifier file), ¬ (ofFiles files).isCandidate path)) ∧
    (destination specifier file ∈ [".", "//"] →
      (ofFiles files).resolve? specifier file =
        (directPaths (destination specifier file)).find? (ofFiles files).isCandidate) := by
  rw [resolve?_of_begins h]
  have hnormal : Path.normalize (destination specifier file) = destination specifier file :=
    Path.normalize_normalize _
  generalize destination specifier file = directory at hnormal
  refine ⟨fun hroot => ?named, fun hroot => ?root, fun hroot => ?current⟩
  case named => rw [indexPaths_eq_indexFiles hnormal hroot]
  case root =>
    rw [List.find?_append, List.find?_append]
    by_cases hdirect : ∃ path ∈ directPaths directory, (ofFiles files).isCandidate path
    · obtain ⟨path, hpath⟩ := Option.isSome_iff_exists.1 (List.find?_isSome.2 hdirect)
      simp [hpath, hdirect]
    · have hnone : (directPaths directory).find? (ofFiles files).isCandidate = none :=
        List.find?_eq_none.2 fun path hpath hfile => hdirect ⟨path, hpath, hfile⟩
      rw [hnone, Option.none_or, Option.none_or, or_iff_right hdirect]
      exact find?_eq_find?_iff fun path hpath => not_mem_indexPaths_of_root hroot hpath
  case current =>
    have hnone : (indexPaths directory).find? (ofFiles files).isCandidate = none :=
      List.find?_eq_none.2 fun path hpath =>
        not_isCandidate_indexPaths (isNormal_ofFiles files) hroot hpath
    rw [List.find?_append, hnone, Option.or_none]

/-- An empty file at a path. -/
def emptyFile (path : String) : String × FileContent :=
  (path, ⟨"", some (false, ⟨"program", true, false, 0, 0, [], []⟩)⟩)

def widgetsProgram : Project :=
  ofFiles [emptyFile "src/pages/home.tsx", emptyFile "./src/widgets/index.ts"]

/-- From a page the directory beside its own is reached, and its index is found. -/
theorem resolve?_relative_widgets :
    Text.begins "." "./../widgets" ∧
      destination "./../widgets" "src/pages/home.tsx" = "src/widgets" ∧
      widgetsProgram.resolve? "./../widgets" "src/pages/home.tsx" =
        some "src/widgets/index.ts" := by
  refine ⟨by decide, by decide +kernel, ?_⟩
  have hfound := (resolve?_relative [emptyFile "src/pages/home.tsx",
    emptyFile "./src/widgets/index.ts"] "./../widgets" "src/pages/home.tsx" (by decide)).1
      (by decide +kernel)
  exact hfound.trans (by decide +kernel)

def indexProgram : Project := ofFiles [emptyFile "app.tsx", emptyFile "index.tsx"]

/-- The current directory has an index file, and a file in it cannot name it. -/
theorem indexProgram_resolves_nothing :
    destination "." "app.tsx" = "." ∧
      (directPaths "." ++ indexFiles ".").find? indexProgram.isCandidate = some "index.tsx" ∧
      indexProgram.resolve? "." "app.tsx" = none := by
  decide +kernel

end Project

end DeferredImports
