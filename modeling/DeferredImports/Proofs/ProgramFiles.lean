import DeferredImports.Project.Files
import DeferredImports.Proofs.NormalPath

/-! The files of a program: under which paths they stand, and which of them can be read. -/

namespace DeferredImports

namespace Table

variable {α : Type}

theorem mem_assign {es : List (String × α)} {name : String} {value : α} {e : String × α}
    (h : e ∈ assign name value es) : e = (name, value) ∨ e ∈ es := by
  induction es with
  | nil => exact .inl (List.mem_singleton.1 h)
  | cons first es ih =>
    unfold assign at h
    split at h
    · rcases List.mem_cons.1 h with h | h
      · exact .inl h
      · exact .inr (List.mem_cons_of_mem first h)
    · rcases List.mem_cons.1 h with rfl | h
      · exact .inr List.mem_cons_self
      · exact (ih h).imp_right (List.mem_cons_of_mem first)

theorem mem_of_get? {t : Table α} {name : String} {value : α} (h : t.get? name = some value) :
    (name, value) ∈ t.entries := by
  obtain ⟨e, he, rfl⟩ := Option.map_eq_some_iff.1 h
  have hname : e.1 = name := by simpa using List.find?_some he
  rw [← hname]
  exact List.mem_of_find?_eq_some he

theorem contains_iff {t : Table α} {name : String} : t.contains name ↔ name ∈ t.names := by
  simp [contains, get?, names]

theorem mem_of_mem_ofList {es : List (String × α)} {e : String × α}
    (h : e ∈ (ofList es).entries) : e ∈ es := by
  have hall : ∀ d ∈ (ofList es).entries, d ∈ es := by
    unfold ofList
    refine List.foldlRecOn (motive := fun t => ∀ d ∈ Table.entries t, d ∈ es) _ _
      (fun d hd => nomatch hd) ?_
    intro t ht named hnamed d hd
    rcases mem_assign hd with rfl | hd
    · exact hnamed
    · exact ht d hd
  exact hall e h

theorem nodup_insert {t : Table α} (h : t.names.Nodup) (name : String) (value : α) :
    (t.insert name value).names.Nodup := by
  rw [names_insert]
  split
  · exact h
  · next hnew =>
    refine List.nodup_append.2 ⟨h, by simp, ?_⟩
    rintro other hother _ hname rfl
    exact hnew (List.mem_singleton.1 hname ▸ hother)

theorem nodup_ofList (es : List (String × α)) : (ofList es).names.Nodup := by
  unfold ofList
  exact List.foldlRecOn (motive := fun t => (names t).Nodup) _ _ List.nodup_nil
    fun t ht e _ => nodup_insert ht e.1 e.2

theorem mem_names_ofList {es : List (String × α)} {name : String} :
    name ∈ (ofList es).names ↔ name ∈ es.map Prod.fst := by
  have hall : ∀ t : Table α, name ∈ (es.foldl (fun t e => t.insert e.1 e.2) t).names ↔
      name ∈ t.names ∨ name ∈ es.map Prod.fst := by
    induction es with
    | nil => simp
    | cons e es ih =>
      intro t
      have hinsert : name ∈ (t.insert e.1 e.2).names ↔ name ∈ t.names ∨ name = e.1 := by
        rw [names_insert]
        by_cases hold : e.1 ∈ t.names
        · rw [if_pos hold]
          exact ⟨.inl, fun h => h.elim id fun h => h ▸ hold⟩
        · simp [hold]
      rw [List.foldl_cons, ih, hinsert, List.map_cons, List.mem_cons, or_assoc]
  exact (hall empty).trans (by simp [names, empty])

end Table

namespace Project

variable {p : Project}

/-- The paths of the program are in normal form. -/
def IsNormal (p : Project) : Prop := ∀ path, p.files.contains path → Path.normalize path = path

/-- Every source file of the program can be read. -/
def IsReadable (p : Project) : Prop :=
  ∀ path, p.files.contains path → isSource path → ∃ f, p.read path = .ok f

theorem mem_fileNames_of_contains {path : String} (h : p.files.contains path) :
    path ∈ p.fileNames :=
  Table.contains_iff.1 h

theorem path_of_read {path : String} {f : SourceFile} (h : p.read path = .ok f) :
    f.path = Path.normalize path := by
  unfold read at h
  dsimp only at h
  split at h
  · cases h
  · unfold SourceFile.parse at h
    split at h
    · cases h
    · split at h
      · split at h
        · cases h
        · cases h
          rfl
      · cases h

theorem contains_of_read {path : String} {f : SourceFile} (h : p.read path = .ok f) :
    p.files.contains (Path.normalize path) := by
  unfold read at h
  unfold Table.contains
  dsimp only at h
  split at h
  · cases h
  · next hcontent => simp [hcontent]

/-- The files of a program are some of the given ones, under their normal paths. -/
theorem exists_of_get?_ofFiles {files : List (String × FileContent)} {path : String}
    {content : FileContent} (h : (ofFiles files).files.get? path = some content) :
    ∃ given, (given, content) ∈ files ∧ path = Path.normalize given := by
  obtain ⟨f, hf, heq⟩ := List.mem_map.1 (Table.mem_of_mem_ofList (Table.mem_of_get? h))
  cases heq
  exact ⟨f.1, Table.mem_of_mem_ofList hf, rfl⟩

theorem isNormal_ofFiles (files : List (String × FileContent)) : (ofFiles files).IsNormal := by
  intro path hpath
  obtain ⟨content, hcontent⟩ := Option.isSome_iff_exists.1 hpath
  obtain ⟨given, -, rfl⟩ := exists_of_get?_ofFiles hcontent
  exact Path.normalize_normalize given

theorem mem_fileNames_ofFiles {files : List (String × FileContent)} {path : String} :
    path ∈ (ofFiles files).fileNames ↔ ∃ f ∈ files, Path.normalize f.1 = path := by
  have hnormal :
      ((Table.ofList files).entries.map fun f => (Path.normalize f.1, f.2)).map Prod.fst =
        (Table.ofList files).names.map Path.normalize := by
    simp [Table.names]
  have hmem : path ∈ (ofFiles files).fileNames ↔
      path ∈ (Table.ofList files).names.map Path.normalize := by
    rw [← hnormal]
    exact Table.mem_names_ofList
  rw [hmem, List.mem_map]
  constructor
  · rintro ⟨given, hgiven, rfl⟩
    obtain ⟨f, hf, rfl⟩ := List.mem_map.1 (Table.mem_names_ofList.1 hgiven)
    exact ⟨f, hf, rfl⟩
  · rintro ⟨f, hf, rfl⟩
    exact ⟨f.1, Table.mem_names_ofList.2 (List.mem_map_of_mem hf), rfl⟩

/-- A program can be read if every file in a known language comes with its tree. -/
theorem isReadable_ofFiles {files : List (String × FileContent)}
    (h : ∀ f ∈ files, isSource (Path.normalize f.1) → f.2.tree.isSome) :
    (ofFiles files).IsReadable := by
  intro path hpath hsource
  obtain ⟨content, hcontent⟩ := Option.isSome_iff_exists.1 hpath
  obtain ⟨given, hgiven, rfl⟩ := exists_of_get?_ofFiles hcontent
  obtain ⟨⟨hasError, root⟩, htree⟩ := Option.isSome_iff_exists.1 (h _ hgiven hsource)
  obtain ⟨language, hlanguage⟩ := Option.isSome_iff_exists.1 hsource
  refine ⟨⟨Path.normalize given, language, content.text, hasError, root⟩, ?_⟩
  have hsupported := Language.isSupported_of_ofPath? hlanguage
  unfold read SourceFile.parse
  dsimp only
  rw [Path.normalize_normalize, hcontent]
  dsimp only
  rw [Option.none_or, hlanguage]
  dsimp only
  rw [if_pos hsupported, htree]

end Project

end DeferredImports
