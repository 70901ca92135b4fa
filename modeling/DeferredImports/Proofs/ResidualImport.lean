import DeferredImports.Plan
import DeferredImports.Proofs.Runs
import Mathlib.Data.Option.Basic

/-! What stays of an import, whatever its parts are. Main statement: the import of the other names
has the bindings whose local names are not deferred, and there is none if nothing is left. -/

namespace DeferredImports

namespace ImportStatement

def HasSpecifier (d : ImportStatement) (s : Node) : Prop := ∃ ss, d.specifiers = .ok ss ∧ s ∈ ss

/-- The import has the bindings of another one, without those under some local names. -/
structure IsRest (d : ImportStatement) (names : List String) (r : ImportStatement) : Prop where
  moduleSpecifier : r.moduleSpecifier = d.moduleSpecifier
  isForTypes : r.isForTypes = false
  defaultName : ∀ n, r.defaultName = some n → d.defaultName = some n ∧
    ∃ name, n.text = .ok name ∧ name ∉ names
  defaultBinding? : ∀ name, r.defaultBinding? = .ok (some name) ↔
    d.defaultBinding? = .ok (some name) ∧ name ∉ names
  namespaceName? : ∀ name, r.namespaceName? = .ok (some name) ↔ d.namespaceName? = .ok (some name)
  specifiers : ∃ ss, r.specifiers = .ok ss ∧ ∀ s, s ∈ ss ↔
    d.HasSpecifier s ∧ ∃ name, s.localName = .ok name ∧ name ∉ names

theorem IsRest.specifier_eq {d r : ImportStatement} {names : List String}
    (h : d.IsRest names r) : r.specifier = d.specifier := by
  rw [specifier, h.moduleSpecifier, specifier]

end ImportStatement

namespace Plan

variable {d r : ImportStatement} {names : List String}

theorem mem_keptBindings {ss kept : List Node} (h : keptBindings names ss = .ok kept) {s : Node} :
    s ∈ kept ↔ s ∈ ss ∧ ∃ name, s.localName = .ok name ∧ name ∉ names := by
  induction ss generalizing kept with
  | nil =>
    cases h
    simp
  | cons t ss ih =>
    obtain ⟨here, ht, h⟩ := exists_of_bind_eq_ok h
    obtain ⟨others, hss, h⟩ := exists_of_bind_eq_ok h
    cases h
    have hhere : (s = t ∧ ∃ name, s.localName = .ok name ∧ name ∉ names) ↔
        s = t ∧ here ∉ names := by
      refine and_congr_right ?_
      rintro rfl
      simp [ht]
    rw [List.mem_cons, or_and_right, ← ih hss, hhere]
    by_cases hmem : here ∈ names <;> simp [hmem]

/-- The default binding stays as it is, or goes with its name. -/
theorem keptDefault_cases {found : Option Node} (h : keptDefault d names = .ok found) :
    ∃ default, d.defaultBinding? = .ok default ∧
      (found = d.defaultName ∧ (∀ name, default = some name → name ∉ names) ∨
        found = none ∧ ∃ name ∈ names, default = some name) := by
  obtain ⟨default, hd, h⟩ := exists_of_bind_eq_ok h
  refine ⟨default, hd, ?_⟩
  cases default with
  | none =>
    cases h
    exact .inl ⟨rfl, fun name hname => nomatch hname⟩
  | some name =>
    have hfound : found = if name ∈ names then none else d.defaultName := by
      simpa [pure, Except.pure, eq_comm] using h
    by_cases hname : name ∈ names
    · exact .inr ⟨by rw [hfound, if_pos hname], name, hname, rfl⟩
    · refine .inl ⟨by rw [hfound, if_neg hname], ?_⟩
      intro other hother
      rwa [← Option.some.inj hother]

theorem defaultName_of_keptDefault (h : keptDefault d names = .ok r.defaultName) {n : Node}
    (hn : r.defaultName = some n) :
    d.defaultName = some n ∧ ∃ name, n.text = .ok name ∧ name ∉ names := by
  obtain ⟨default, hd, ⟨hsame, hkept⟩ | ⟨hnone, -⟩⟩ := keptDefault_cases h
  · have hdn : d.defaultName = some n := by rw [← hsame, hn]
    simp only [ImportStatement.defaultBinding?, hdn] at hd
    obtain ⟨name, htext, hd⟩ := exists_of_bind_eq_ok hd
    cases hd
    exact ⟨hdn, name, htext, hkept name rfl⟩
  · rw [hnone] at hn
    cases hn

theorem defaultBinding?_of_keptDefault (h : keptDefault d names = .ok r.defaultName)
    (name : String) :
    r.defaultBinding? = .ok (some name) ↔ d.defaultBinding? = .ok (some name) ∧ name ∉ names := by
  obtain ⟨default, hd, ⟨hsame, hkept⟩ | ⟨hnone, other, hother, rfl⟩⟩ := keptDefault_cases h
  · have hbinding : r.defaultBinding? = d.defaultBinding? := by
      rw [ImportStatement.defaultBinding?, hsame, ImportStatement.defaultBinding?]
    rw [hbinding, hd]
    exact ⟨fun hname => ⟨hname, hkept name (Except.ok.inj hname)⟩, And.left⟩
  · have hbinding : r.defaultBinding? = .ok none := by rw [ImportStatement.defaultBinding?, hnone]
    rw [hbinding, hd]
    simp only [Except.ok.injEq, reduceCtorEq, Option.some.injEq, false_iff, not_and, not_not]
    rintro rfl
    exact hother

/-- Besides the default binding the namespace stays, and the named bindings that are not
deferred. -/
theorem keptClause_spec {count : Nat} (h : keptClause d names = .ok (r.namedBindings, count)) :
    (∀ name, r.namespaceName? = .ok (some name) ↔ d.namespaceName? = .ok (some name)) ∧
      (∃ ss, r.specifiers = .ok ss ∧ ∀ s, s ∈ ss ↔
        d.HasSpecifier s ∧ ∃ name, s.localName = .ok name ∧ name ∉ names) ∧
      (count = 0 → r.namedBindings = none) := by
  unfold ImportStatement.HasSpecifier ImportStatement.namespaceName? ImportStatement.specifiers
  unfold keptClause at h
  split at h
  · next n hn =>
    obtain ⟨hclause, rfl⟩ := Prod.mk.inj (Except.ok.inj h)
    rw [← hclause, hn]
    simp
  · next es hes =>
    cases es with
    | none => cases h
    | some ss =>
      obtain ⟨items, hitems, h⟩ := exists_of_bind_eq_ok h
      cases hitems
      obtain ⟨kept, hkept, h⟩ := exists_of_bind_eq_ok h
      obtain ⟨hclause, rfl⟩ := Prod.mk.inj (Except.ok.inj h)
      have hmem := fun s => mem_keptBindings (s := s) hkept
      rw [← hclause, hes]
      cases kept with
      | nil => simpa [Node.items] using hmem
      | cons t ts => simpa [Node.items] using hmem
  · next hnamespace hnamed =>
    obtain ⟨hclause, rfl⟩ := Prod.mk.inj (Except.ok.inj h)
    rw [← hclause]
    dsimp only
    split
    · next n hn => exact absurd hn (hnamespace n)
    · split
      · next es hes => exact absurd hes (hnamed es)
      · simp

/-- The import of the other names has all of them, and it is left out only if it would have no
clause. -/
theorem isRest_of_residualImport {found : Option (ImportStatement × Nat)}
    (h : residualImport d names = .ok found) :
    ∃ r, d.IsRest names r ∧ (found.map Prod.fst = some r ∨ found = none ∧ r.hasClause = false) := by
  obtain ⟨default, hdefault, hrest⟩ := exists_of_bind_eq_ok h
  obtain ⟨⟨clause, count⟩, hclause, hleft⟩ := exists_of_bind_eq_ok hrest
  let r : ImportStatement := ⟨d.moduleSpecifier, default, clause, some false, none, none⟩
  have hkeptDefault : keptDefault d names = .ok r.defaultName := hdefault
  have hkeptClause : keptClause d names = .ok (r.namedBindings, count) := hclause
  obtain ⟨hnamespace, hspecifiers, hnone⟩ := keptClause_spec hkeptClause
  refine ⟨r, ⟨rfl, rfl, fun n => defaultName_of_keptDefault hkeptDefault,
    defaultBinding?_of_keptDefault hkeptDefault, hnamespace, hspecifiers⟩, ?_⟩
  dsimp only at hleft
  split at hleft
  · next hzero =>
    obtain ⟨hlength, hcount⟩ := Nat.add_eq_zero_iff.1 hzero
    obtain rfl : default = none := by simpa using hlength
    obtain rfl : clause = none := hnone hcount
    cases hleft
    exact .inr ⟨rfl, rfl⟩
  · cases hleft
    exact .inl rfl

end Plan

end DeferredImports
