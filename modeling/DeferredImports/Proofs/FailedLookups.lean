import DeferredImports.Proofs.QueryHistory

/-! Questions to a program that cannot be resolved. Main statement: they leave no trace, so that all
other questions are answered without them as with them, and the same exports are cached
afterwards. -/

namespace DeferredImports

namespace Project

/-- What a program is asked: the exports of the module that a specifier names in a file, or the type
of a symbol. -/
inductive Question where
  | exports (specifier file : String)
  | type (symbol : ExportedSymbol (List Origin))

/-- How a question ends. -/
inductive Answer where
  | exports (outcome : Except Failure (Option (List (ExportedSymbol (List Origin)))))
  | type (outcome : Except Failure (Option TypeHandle))

/-- Whether the question failed because something could not be resolved. -/
def Answer.isUnresolved : Answer → Bool
  | exports (.error (.resolution _)) | type (.error (.resolution _)) => true
  | _ => false

/-- The answer to a question, and the state after it. -/
def ask (p : Project) (s : ProjectState) : Question → Answer × ProjectState
  | .exports specifier file =>
    let reply := p.exportsOf specifier file s
    (.exports reply.outcome, reply.state)
  | .type symbol =>
    let reply := p.typeOf symbol s
    (.type reply.outcome, reply.state)

/-- Some questions with their answers, one after the other, and the state after them. -/
def askAll (p : Project) (s : ProjectState) :
    List Question → List (Question × Answer) × ProjectState
  | [] => ([], s)
  | q :: qs =>
    let (answer, t) := p.ask s q
    let (others, u) := p.askAll t qs
    ((q, answer) :: others, u)

variable {p : Project} {s t : ProjectState}

/-- Only the cached exports matter for an answer and for what is cached after it. -/
theorem ask_of_cache_eq (h : s.cache = t.cache) (q : Question) :
    (p.ask s q).1 = (p.ask t q).1 ∧ (p.ask s q).2.cache = (p.ask t q).2.cache := by
  cases q with
  | exports specifier file =>
    have houtcome : (p.exportsOf specifier file s).outcome =
        (p.exportsOf specifier file t).outcome := by
      rw [outcome_exportsOf, outcome_exportsOf, h]
    have hcache : (p.exportsOf specifier file s).state.cache =
        (p.exportsOf specifier file t).state.cache := by
      rw [cache_exportsOf, cache_exportsOf, h]
    exact ⟨congrArg Answer.exports houtcome, hcache⟩
  | type symbol =>
    have houtcome : (p.typeOf symbol s).outcome = (p.typeOf symbol t).outcome := by
      rw [outcome_typeOf, outcome_typeOf]
    have hcache : (p.typeOf symbol s).state.cache = (p.typeOf symbol t).state.cache := by
      rw [cache_typeOf, cache_typeOf, h]
    exact ⟨congrArg Answer.type houtcome, hcache⟩

theorem askAll_of_cache_eq (h : s.cache = t.cache) (qs : List Question) :
    (p.askAll s qs).1 = (p.askAll t qs).1 ∧
      (p.askAll s qs).2.cache = (p.askAll t qs).2.cache := by
  induction qs generalizing s t with
  | nil => exact ⟨rfl, h⟩
  | cons q qs ih =>
    obtain ⟨hanswer, hcache⟩ := ask_of_cache_eq (p := p) h q
    obtain ⟨hothers, hlast⟩ := ih hcache
    simp only [askAll, hanswer, hothers]
    exact ⟨trivial, hlast⟩

/-- A failed search has found the exports of other modules on its way, and none of them is kept. -/
theorem cache_ask_of_isUnresolved {q : Question} (h : (p.ask s q).1.isUnresolved = true) :
    (p.ask s q).2.cache = s.cache := by
  cases q with
  | type symbol => exact cache_typeOf p symbol s
  | exports specifier file =>
    have hcache := cache_exportsOf p specifier file s
    have houtcome := outcome_exportsOf p specifier file s
    simp only [ask] at h ⊢
    rw [houtcome] at h
    rw [hcache]
    cases hm : p.resolve? specifier file with
    | none => rfl
    | some m =>
      cases hl : p.lookup s.cache [] m with
      | error e => simp only [hl]
      | ok exports => simp [hm, hl, Answer.isUnresolved, Except.map] at h

/-- The questions that were not left unresolved, with their answers. -/
def resolved (answers : List (Question × Answer)) : List (Question × Answer) :=
  answers.filter fun a => !a.2.isUnresolved

/-- A question that fails to be resolved leaves the cached exports as they were. So if all questions
that failed are left out of a sequence, every other one is answered as before, and the same exports
are cached in the end. -/
theorem askAll_resolved (p : Project) (s : ProjectState) (qs : List Question) :
    (∀ t q, (p.ask t q).1.isUnresolved = true → (p.ask t q).2.cache = t.cache) ∧
      (p.askAll s ((resolved (p.askAll s qs).1).map Prod.fst)).1 =
        resolved (p.askAll s qs).1 ∧
      (p.askAll s ((resolved (p.askAll s qs).1).map Prod.fst)).2.cache =
        (p.askAll s qs).2.cache := by
  refine ⟨fun t q => cache_ask_of_isUnresolved, ?_⟩
  induction qs generalizing s with
  | nil => exact ⟨rfl, rfl⟩
  | cons q qs ih =>
    obtain ⟨hanswers, hcache⟩ := ih (p.ask s q).2
    cases hq : (p.ask s q).1.isUnresolved with
    | false =>
      have hkept : resolved (p.askAll s (q :: qs)).1 =
          (q, (p.ask s q).1) :: resolved (p.askAll (p.ask s q).2 qs).1 := by
        simp [resolved, askAll, hq]
      rw [hkept]
      simp only [List.map_cons, askAll, hanswers]
      exact ⟨trivial, hcache⟩
    | true =>
      have hkept : resolved (p.askAll s (q :: qs)).1 =
          resolved (p.askAll (p.ask s q).2 qs).1 := by
        simp [resolved, askAll, hq]
      -- the question left the cache as it was, so the others are answered as if it was not asked
      have hsame := cache_ask_of_isUnresolved hq
      obtain ⟨hothers, hlast⟩ := askAll_of_cache_eq (p := p) hsame
        ((resolved (p.askAll (p.ask s q).2 qs).1).map Prod.fst)
      rw [hkept, ← hothers, ← hlast]
      exact ⟨hanswers, hcache⟩

/-- A module with two stars, of which the second leads to a module that takes a name over from
itself. -/
def detourProgram : Project :=
  ofFiles [
    ("a.ts", ⟨"export * from './c';\nexport * from './b';\n", some (false, starTree)⟩),
    ("b.ts", ⟨"export \x7b x \x7d from './b';\nconst y = 1;\nexport \x7b y \x7d;\n",
      some (false, mutualTree)⟩),
    ("c.ts", ⟨"const x = 1;\nexport \x7b x \x7d;\n", some (false, constantTree)⟩)]

theorem detourProgram_lookup (cache : Table Exports) (visiting : List String) (file : String) :
    detourProgram.lookup cache visiting file = detourProgram.boundedLookup cache 4 visiting file :=
  lookup_eq_boundedLookup (Nat.lt_succ_of_le (List.length_filter_le _ _))

theorem detourProgram_isUnresolved :
    (detourProgram.ask {} (.exports "./a" "main.ts")).1.isUnresolved = true := by
  have ha : detourProgram.resolve? "./a" "main.ts" = some "a.ts" := by decide
  simp only [ask, outcome_exportsOf, ha, detourProgram_lookup]
  decide

/-- The first question finds the exports of the third module on its way and then fails. The second
question is answered as if it was the only one. -/
theorem askAll_resolved_detour :
    (detourProgram.ask {} (.exports "./a" "main.ts")).1.isUnresolved = true ∧
      (detourProgram.lookup .empty ["a.ts"] "c.ts").isOk = true ∧
      (detourProgram.ask {} (.exports "./a" "main.ts")).2.cache = .empty ∧
      resolved (detourProgram.askAll {}
          [.exports "./a" "main.ts", .exports "./c" "main.ts"]).1 =
        (detourProgram.askAll {} (((resolved (detourProgram.askAll {}
          [.exports "./a" "main.ts", .exports "./c" "main.ts"]).1).map Prod.fst))).1 := by
  obtain ⟨hcache, hanswers, -⟩ := askAll_resolved detourProgram {}
    [.exports "./a" "main.ts", .exports "./c" "main.ts"]
  have hfound : (detourProgram.lookup .empty ["a.ts"] "c.ts").isOk = true := by
    rw [detourProgram_lookup]
    decide
  exact ⟨detourProgram_isUnresolved, hfound, hcache _ _ detourProgram_isUnresolved, hanswers.symm⟩

end Project

end DeferredImports
