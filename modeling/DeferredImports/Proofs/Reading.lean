import DeferredImports.Proofs.PlainImport
import DeferredImports.Source.Statements

/-! Reading a file whose top-level nodes stand in order: texts are the bytes that they cover, and
every statement is a plain import or raw text. -/

namespace DeferredImports.SourceFile

variable {f : SourceFile}

/-- The offset lies inside the file, and between two characters or at an end. -/
def IsBound (f : SourceFile) (i : Nat) : Prop := (⟨i⟩ : String.Pos.Raw).IsValid f.content

instance (f : SourceFile) (i : Nat) : Decidable (f.IsBound i) :=
  inferInstanceAs (Decidable (String.Pos.Raw.IsValid _ _))

/-- The nodes follow one another from an offset on, and each begins and ends between characters. -/
structure InOrder (f : SourceFile) (start : Nat) (ts : List ParseTree) : Prop where
  start_isBound : f.IsBound start
  start_le : ∀ t ∈ ts, start ≤ t.start
  le_stop : ∀ t ∈ ts, t.start ≤ t.stop
  isBound : ∀ t ∈ ts, f.IsBound t.start ∧ f.IsBound t.stop
  pairwise : ts.Pairwise fun t u => t.stop ≤ u.start

/-- The top-level nodes of the file are in order and do not overlap. -/
abbrev IsOrdered (f : SourceFile) : Prop := f.InOrder 0 f.root.children

theorem InOrder.skip {start : Nat} {t : ParseTree} {ts : List ParseTree}
    (h : f.InOrder start (t :: ts)) : f.InOrder start ts where
  start_isBound := h.start_isBound
  start_le u hu := h.start_le u (List.mem_cons_of_mem t hu)
  le_stop u hu := h.le_stop u (List.mem_cons_of_mem t hu)
  isBound u hu := h.isBound u (List.mem_cons_of_mem t hu)
  pairwise := (List.pairwise_cons.1 h.pairwise).2

theorem InOrder.after {start : Nat} {t : ParseTree} {ts : List ParseTree}
    (h : f.InOrder start (t :: ts)) : f.InOrder t.stop ts :=
  { h.skip with
    start_isBound := (h.isBound t List.mem_cons_self).2
    start_le := fun u hu => (List.pairwise_cons.1 h.pairwise).1 u hu }

theorem IsBound.le_byteLength {i : Nat} (h : f.IsBound i) : i ≤ f.byteLength := by
  have hle := h.le_rawEndPos
  rw [String.Pos.Raw.le_iff] at hle
  exact hle

theorem isBound_byteLength (f : SourceFile) : f.IsBound f.byteLength := by
  have h : (⟨f.byteLength⟩ : String.Pos.Raw) = f.content.rawEndPos := rfl
  unfold IsBound
  rw [h]
  exact String.Pos.Raw.isValid_rawEndPos

/-- The text between two bounds of characters has the bytes between them. -/
theorem toUTF8_between {i j : Nat} (hij : i ≤ j) (hi : f.IsBound i) (hj : f.IsBound j) :
    (f.between i j).toUTF8 = f.content.toUTF8.extract i j := by
  have hvalid : (f.content.toUTF8.extract i j).IsValidUTF8 := by
    have hle : (⟨i⟩ : String.Pos.Raw) ≤ ⟨j⟩ := hij
    exact (String.Pos.Raw.isValidUTF8_extract_iff _ _ hle hj.le_rawEndPos).2 (.inr ⟨hi, hj⟩)
  unfold between slice?
  rw [String.fromUTF8?, dif_pos hvalid]
  rfl

theorem extract_append {i j k : Nat} (hij : i ≤ j) (hjk : j ≤ k) (bytes : ByteArray) :
    bytes.extract i j ++ bytes.extract j k = bytes.extract i k :=
  (ByteArray.extract_eq_extract_append_extract j hij hjk).symm

/-- The binding that an import specifier stands for. -/
def plainBinding (f : SourceFile) (t : ParseTree) : PlainBinding :=
  let exported := f.exportNameOf (t.child? .name)
  match t.child? .newName with
  | none => ⟨exported, none, t.isTypeOnly⟩
  | some new => ⟨f.text new, some exported, t.isTypeOnly⟩

theorem importSpecifier_eq (f : SourceFile) (t : ParseTree) :
    f.importSpecifier t = (f.plainBinding t).toNode := by
  unfold importSpecifier plainBinding
  cases t.child? .newName <;> rfl

/-- Bindings as a plain import has them. -/
def IsPlain (bindings : Option Node × Option Node) : Prop :=
  ∃ (default : Option String) (clause : Option PlainClause),
    bindings = (default.map .identifier, clause.map PlainClause.toNode)

theorem isPlain_addBinding {bindings : Option Node × Option Node} (h : IsPlain bindings)
    (part : ParseTree) : IsPlain (f.addBinding bindings part) := by
  obtain ⟨default, clause, rfl⟩ := h
  unfold addBinding
  split
  · exact ⟨some (f.text part), clause, rfl⟩
  · exact ⟨default, some (.namespaceAs (f.textOf (part.namedOfType? "identifier"))), rfl⟩
  · refine ⟨default, some (.named ((specifiersIn part).map f.plainBinding)), ?_⟩
    have hmap : (specifiersIn part).map f.importSpecifier =
        ((specifiersIn part).map f.plainBinding).map PlainBinding.toNode := by
      rw [List.map_map]
      exact List.map_congr_left fun t _ => f.importSpecifier_eq t
    rw [hmap]
    rfl
  · exact ⟨default, clause, rfl⟩

theorem isPlain_bindings (f : SourceFile) (t : ParseTree) : IsPlain (f.bindings t) := by
  have hnone : IsPlain (none, none) := ⟨none, none, rfl⟩
  unfold bindings
  cases importClause? t with
  | none => exact hnone
  | some clause => exact List.foldlRecOn _ _ hnone fun _ h part _ => isPlain_addBinding h part

/-- A statement is an import with its text and trivia, or raw text with its trivia. -/
theorem statement_cases (f : SourceFile) (t : ParseTree) (trivia : String) :
    (t.type = "import_statement" ∧ ∃ i : PlainImport,
      f.statement t trivia = i.toStatement.toNode ∧ i.leadingTrivia = some trivia ∧
        i.sourceText = some (f.text t)) ∨
    f.statement t trivia = .rawStatement (f.text t) (some t.type) (some trivia) := by
  unfold statement
  split
  · next himport =>
    cases t.child? .source with
    | none => exact .inr rfl
    | some source =>
      dsimp only
      split
      · left
        obtain ⟨default, clause, hbindings⟩ := f.isPlain_bindings t
        obtain ⟨specifier, quote, hliteral⟩ : ∃ specifier quote,
            f.stringLiteral source = .stringLiteral specifier quote := ⟨_, _, rfl⟩
        refine ⟨by simpa using himport, ⟨specifier, quote, default, clause, t.isTypeOnly,
          some trivia, some (f.text t)⟩, ?_, rfl, rfl⟩
        rw [hbindings, hliteral]
        rfl
      · exact .inr rfl
  · exact .inr rfl

end DeferredImports.SourceFile
