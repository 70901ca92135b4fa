import DeferredImports.Project.Interface
import DeferredImports.Proofs.OwnReturns

/-! What calls of a function may give, read off its tree: blocks run statement by statement, a
conditional runs one of its branches, a return ends the call with a value and a throw without one.
Of every other statement it is only known that it may let the next one run, or return where it holds
a return statement. Main statement: a function that is said to return elements returns elements, and
its calls give nothing else exactly if it is neither asynchronous nor a generator and cannot run off
the end of its body. -/

namespace DeferredImports

/-- What an expression or a call may give. -/
inductive Value where
  | element | undefined | promise | iterator | other
deriving DecidableEq

/-- How statements may end: the next one runs, or the function returns. -/
inductive Outcome where
  | goesOn
  | returns (v : Value)
deriving DecidableEq

namespace ParseTree

/-- The values of an expression. Parentheses have the value inside, and a conditional has that of a
branch; nothing is known of any other expression. -/
inductive Evaluates : ParseTree → Value → Prop
  | element {t : ParseTree} (h : t.isJsx) : Evaluates t .element
  | parenthesized {t inner : ParseTree} {v : Value} (ht : t.type = "parenthesized_expression")
      (hi : t.firstMeaningful? = some inner) (h : Evaluates inner v) : Evaluates t v
  | branch {t b : ParseTree} {v : Value} (ht : t.type = "ternary_expression")
      (hb : t.child? .consequence = some b ∨ t.child? .alternative = some b)
      (h : Evaluates b v) : Evaluates t v
  | unknown {t : ParseTree} (v : Value) (hjsx : ¬ t.isJsx)
      (ht : t.type ≠ "parenthesized_expression" ∧ t.type ≠ "ternary_expression") : Evaluates t v

/-- The values that a return statement gives back. -/
inductive Returned (t : ParseTree) : Value → Prop
  | value {e : ParseTree} {v : Value} (he : t.firstMeaningful? = some e) (h : e.Evaluates v) :
      Returned t v
  | nothing (he : t.firstMeaningful? = none) : Returned t .undefined

/-- What a block or a conditional runs. A conditional may run its branch, or nothing if the other
one is missing. -/
inductive Opens (t : ParseTree) : List ParseTree → Prop
  | block (ht : t.type = "statement_block" ∨ t.type = "else_clause") : Opens t t.namedChildren
  | branch {b : ParseTree} (ht : t.type = "if_statement")
      (hb : t.child? .consequence = some b ∨ t.child? .alternative = some b)
      (hn : b ∈ t.namedChildren) : Opens t [b]
  | skipped (ht : t.type = "if_statement") (ha : t.child? .alternative = none) : Opens t []

/-- Loops, declarations, expressions and all other statements that are not read. -/
def isUnread (t : ParseTree) : Bool :=
  !(["return_statement", "throw_statement", "statement_block", "if_statement",
    "else_clause"].contains t.type)

/-- How statements may end that are run one after the other. A throw statement never ends. -/
inductive Runs : List ParseTree → Outcome → Prop
  | done : Runs [] .goesOn
  | returns {t : ParseTree} {ts : List ParseTree} {v : Value} (ht : t.type = "return_statement")
      (h : t.Returned v) : Runs (t :: ts) (.returns v)
  | opens {t : ParseTree} {inner ts : List ParseTree} {o : Outcome} (hi : t.Opens inner)
      (h : Runs (inner ++ ts) o) : Runs (t :: ts) o
  | passes {t : ParseTree} {ts : List ParseTree} {o : Outcome} (ht : t.isUnread)
      (h : Runs ts o) : Runs (t :: ts) o
  | escapes {t r : ParseTree} {ts : List ParseTree} {v : Value} (ht : t.isUnread)
      (hr : t.HoldsReturn r) (h : r.Returned v) : Runs (t :: ts) (.returns v)

def IsAsync (t : ParseTree) : Prop := t.hasToken "async"

def IsGenerator (t : ParseTree) : Prop := t.hasToken "*"

/-- The body is a block, and its end can be reached. -/
def RunsOff (t : ParseTree) : Prop :=
  ∃ body, t.child? .body = some body ∧ body.type = "statement_block" ∧
    Runs body.namedChildren .goesOn

/-- What the calls of a function that complete may give. -/
inductive Calls (t : ParseTree) : Value → Prop
  | promise (ha : t.IsAsync) (hg : ¬ t.IsGenerator) : Calls t .promise
  | iterator (hg : t.IsGenerator) : Calls t .iterator
  | value {body : ParseTree} {v : Value} (ha : ¬ t.IsAsync) (hg : ¬ t.IsGenerator)
      (hb : t.child? .body = some body) (ht : body.type ≠ "statement_block")
      (h : body.Evaluates v) : Calls t v
  | returned {body : ParseTree} {v : Value} (ha : ¬ t.IsAsync) (hg : ¬ t.IsGenerator)
      (hb : t.child? .body = some body) (ht : body.type = "statement_block")
      (h : Runs body.namedChildren (.returns v)) : Calls t v
  | undefined (ha : ¬ t.IsAsync) (hg : ¬ t.IsGenerator) (h : t.RunsOff) : Calls t .undefined

theorem IsElement.eq_element {t : ParseTree} {v : Value} (ht : t.IsElement) (h : t.Evaluates v) :
    v = .element := by
  induction ht with
  | element hjsx =>
    cases h with
    | element => rfl
    | parenthesized ht => simp [isJsx, ht] at hjsx
    | branch ht => simp [isJsx, ht] at hjsx
    | unknown _ hother => exact absurd hjsx hother
  | parenthesized ht hi _ ih =>
    cases h with
    | element hjsx => simp [isJsx, ht] at hjsx
    | parenthesized _ hi' hv =>
      obtain rfl := Option.some.inj (hi.symm.trans hi')
      exact ih hv
    | branch ht' => simp [ht] at ht'
    | unknown _ _ hother => exact absurd ht hother.1
  | conditional ht ha hb _ _ iha ihb =>
    cases h with
    | element hjsx => simp [isJsx, ht] at hjsx
    | parenthesized ht' => simp [ht] at ht'
    | branch _ hbranch hv =>
      rcases hbranch with h | h
      · obtain rfl := Option.some.inj (ha.symm.trans h)
        exact iha hv
      · obtain rfl := Option.some.inj (hb.symm.trans h)
        exact ihb hv
    | unknown _ _ hother => exact absurd ht hother.2

/-- What a block or a conditional runs stands below it, in the same scope. -/
theorem Opens.holdsReturn {t c r : ParseTree} {inner : List ParseTree} (h : t.Opens inner)
    (hc : c ∈ inner) (hr : c.HoldsReturn r) : t.HoldsReturn r := by
  have hscope : ∀ type ∈ ["statement_block", "else_clause", "if_statement"], t.type = type →
      t.type ≠ "return_statement" ∧ ¬ t.isNestedScope := by
    intro type htype ht
    have hnested : t.isNestedScope = false := by
      simp only [List.mem_cons, List.not_mem_nil, or_false] at htype
      rcases htype with rfl | rfl | rfl <;>
        simp [isNestedScope, isFunctionLike, isFunctionDeclaration, isFunctionExpression, isClass,
          ht]
    constructor
    · rintro hreturn
      simp [hreturn] at ht
      simp [← ht] at htype
    · simp [hnested]
  cases h with
  | block ht =>
    have h := ht.elim (hscope "statement_block" (by simp)) (hscope "else_clause" (by simp))
    exact .inside h.1 h.2 hc hr
  | branch ht _ hn =>
    obtain rfl := List.mem_singleton.1 hc
    have h := hscope "if_statement" (by simp) ht
    exact .inside h.1 h.2 hn hr
  | skipped => cases hc

/-- A value is only ever returned by a return statement of the same scope. -/
theorem exists_holdsReturn_of_runs {ts : List ParseTree} {v : Value} (h : Runs ts (.returns v)) :
    ∃ t ∈ ts, ∃ r, t.HoldsReturn r ∧ r.Returned v := by
  generalize ho : Outcome.returns v = o at h
  induction h with
  | done => cases ho
  | @returns t ts _ ht h =>
    cases ho
    exact ⟨t, List.mem_cons_self, t, .self ht, h⟩
  | @opens t inner ts o hi _ ih =>
    obtain ⟨c, hc, r, hr, hv⟩ := ih ho
    rcases List.mem_append.1 hc with hc | hc
    · exact ⟨t, List.mem_cons_self, r, hi.holdsReturn hc hr, hv⟩
    · exact ⟨c, List.mem_cons_of_mem t hc, r, hr, hv⟩
  | @passes t ts o _ _ ih =>
    obtain ⟨c, hc, r, hr, hv⟩ := ih ho
    exact ⟨c, List.mem_cons_of_mem t hc, r, hr, hv⟩
  | @escapes t r ts _ _ hr h =>
    cases ho
    exact ⟨t, List.mem_cons_self, r, hr, h⟩

/-- Nothing runs after a return or a throw. -/
theorem not_runs_goesOn_of_mem {ts : List ParseTree} {t : ParseTree} (hmem : t ∈ ts)
    (ht : t.type = "return_statement" ∨ t.type = "throw_statement") : ¬ Runs ts .goesOn := by
  intro h
  generalize ho : Outcome.goesOn = o at h
  induction h with
  | done => cases hmem
  | returns => cases ho
  | @opens c inner ts _ hi _ ih =>
    rcases List.mem_cons.1 hmem with rfl | hmem
    · cases hi with
      | block hblock => rcases ht with ht | ht <;> simp [ht] at hblock
      | branch hif => rcases ht with ht | ht <;> simp [ht] at hif
      | skipped hif => rcases ht with ht | ht <;> simp [ht] at hif
    · exact ih (List.mem_append_right inner hmem) ho
  | @passes c ts _ hunread _ ih =>
    rcases List.mem_cons.1 hmem with rfl | hmem
    · rcases ht with ht | ht <;> simp [isUnread, ht] at hunread
    · exact ih hmem ho
  | escapes => cases ho

end ParseTree

namespace SourceFile

open ParseTree

variable {f : SourceFile} {t : ParseTree}

/-- A function without an annotation that is said to return elements returns nothing else: its body
yields elements, or is a block with return statements of which each gives an element. Its calls give
nothing but elements exactly if it is neither asynchronous nor a generator and cannot run off the
end of its body. -/
theorem returnType?_element_sound (ha : t.child? .returnType = none)
    (h : f.returnType? t = some .jsxElement) :
    (∃ body, t.child? .body = some body ∧
      (body.type ≠ "statement_block" → ∀ v, body.Evaluates v → v = .element) ∧
      (body.type = "statement_block" → (∃ r, body.OwnReturn r) ∧
        (∀ r, body.OwnReturn r → ∀ v, r.Returned v → v = .element) ∧
        ∀ v, Runs body.namedChildren (.returns v) → v = .element)) ∧
    ((∀ v, t.Calls v → v = .element) ↔ ¬ t.IsAsync ∧ ¬ t.IsGenerator ∧ ¬ t.RunsOff) := by
  obtain ⟨-, body, hbody, hkind⟩ := (returnType?_eq_some_iff ha).1 h
  have hexpression : body.type ≠ "statement_block" → ∀ v, body.Evaluates v → v = .element := by
    intro ht v hv
    rcases hkind with ⟨-, helement⟩ | ⟨hblock, -⟩
    · exact helement.eq_element hv
    · exact absurd hblock ht
  have hreturned : body.type = "statement_block" →
      ∀ r, body.OwnReturn r → ∀ v, r.Returned v → v = .element := by
    intro ht r hr v hv
    rcases hkind with ⟨hblock, -⟩ | ⟨-, -, hall⟩
    · exact absurd ht hblock
    · obtain ⟨e, he, helement⟩ := hall r hr
      cases hv with
      | value he' hv =>
        obtain rfl := Option.some.inj (he.symm.trans he')
        exact helement.eq_element hv
      | nothing he' => simp [he] at he'
  have hruns : body.type = "statement_block" →
      ∀ v, Runs body.namedChildren (.returns v) → v = .element := by
    intro ht v hv
    obtain ⟨c, hc, r, hr, hreturns⟩ := exists_holdsReturn_of_runs hv
    exact hreturned ht r ⟨c, hc, hr⟩ v hreturns
  have hexists : body.type = "statement_block" → ∃ r, body.OwnReturn r := by
    intro ht
    rcases hkind with ⟨hblock, -⟩ | ⟨-, hex, -⟩
    · exact absurd ht hblock
    · exact hex
  refine ⟨⟨body, hbody, hexpression, fun ht => ⟨hexists ht, hreturned ht, hruns ht⟩⟩, ?_⟩
  -- each of the three ways to give something else is a call of its own
  constructor
  · intro hcalls
    have hgenerator : ¬ t.IsGenerator := by
      intro hg
      have := hcalls _ (.iterator hg)
      simp at this
    have hasync : ¬ t.IsAsync := by
      intro has
      have := hcalls _ (.promise has hgenerator)
      simp at this
    refine ⟨hasync, hgenerator, fun hoff => ?_⟩
    have := hcalls _ (.undefined hasync hgenerator hoff)
    simp at this
  · rintro ⟨hasync, hgenerator, hoff⟩ v hv
    cases hv with
    | promise has => exact absurd has hasync
    | iterator hg => exact absurd hg hgenerator
    | value _ _ hb ht hv =>
      obtain rfl := Option.some.inj (hbody.symm.trans hb)
      exact hexpression ht v hv
    | returned _ _ hb ht hv =>
      obtain rfl := Option.some.inj (hbody.symm.trans hb)
      exact hruns ht v hv
    | undefined _ _ hend => exact absurd hend hoff

/-- A block all of whose own return statements return elements as they are. -/
theorem returnType?_of_ownReturns {body : ParseTree} (ha : t.child? .returnType = none)
    (hb : t.child? .body = some body) (ht : body.type = "statement_block")
    (hr : body.ownReturns.isEmpty = false ∧
      body.ownReturns.all fun r => r.firstMeaningful?.any isJsx) :
    f.returnType? t = some .jsxElement := by
  obtain ⟨r, hmem⟩ := List.exists_mem_of_ne_nil _ (by simpa using hr.1)
  refine (returnType?_eq_some_iff ha).2 ⟨rfl, body, hb, .inr ⟨ht, ⟨r, mem_ownReturns.1 hmem⟩, ?_⟩⟩
  intro r hown
  have hjsx := List.all_eq_true.1 hr.2 r (mem_ownReturns.2 hown)
  obtain ⟨e, he, helement⟩ := (Option.any_eq_true _ _).1 hjsx
  exact ⟨e, he, .element helement⟩

/-- The tree of `{ return <p/>; }` from an offset on. -/
def returningBlock (start : Nat) : ParseTree :=
  ⟨"statement_block", true, false, start, start + 16,
    [⟨"return_statement", true, false, start + 2, start + 14,
      [⟨"jsx_self_closing_element", true, false, start + 9, start + 13, [], []⟩], []⟩], []⟩

/-- The tree of `if (p) { return <p/>; }` from an offset on. -/
def conditionalReturn (start : Nat) : ParseTree :=
  ⟨"if_statement", true, false, start, start + 23, [returningBlock (start + 7)],
    [(.consequence, 0)]⟩

/-- The tree of `function F(p) { .. }` between two offsets. -/
def blockFunction (start stop : Nat) (statements : List ParseTree) : ParseTree :=
  ⟨"function_declaration", true, false, start, stop,
    [⟨"identifier", true, false, start + 9, start + 10, [], []⟩,
      ⟨"statement_block", true, false, start + 14, stop, statements, []⟩], [(.name, 0), (.body, 1)]⟩

/-- The tree of a function that returns an element whether or not a condition holds. -/
def completeFunction : ParseTree :=
  blockFunction 0 54 (conditionalReturn 16 :: (returningBlock 38).children)

theorem returnType?_element_sound_complete :
    completeFunction.child? .returnType = none ∧
      (default : SourceFile).returnType? completeFunction = some .jsxElement ∧
      ∀ v, completeFunction.Calls v → v = .element := by
  have hunwritten : completeFunction.child? .returnType = none := rfl
  have htype : (default : SourceFile).returnType? completeFunction = some .jsxElement :=
    returnType?_of_ownReturns rfl rfl rfl (by decide)
  refine ⟨hunwritten, htype, (returnType?_element_sound hunwritten htype).2.2 ⟨?_, ?_, ?_⟩⟩
  · unfold IsAsync
    decide
  · unfold IsGenerator
    decide
  · rintro ⟨body, hbody, -, hruns⟩
    cases hbody
    exact not_runs_goesOn_of_mem (List.mem_cons_of_mem _ List.mem_cons_self) (.inl rfl) hruns

/-- A file that exports an asynchronous function, a generator and a function that returns an element
in one case only. -/
def functionsFile : SourceFile :=
  let exported (start : Nat) (t : ParseTree) : ParseTree :=
    ⟨"export_statement", true, false, start, t.stop, [t], [(.declaration, 0)]⟩
  let token (text : String) (start : Nat) : ParseTree :=
    ⟨text, false, false, start, start + text.length, [], []⟩
  let name (start : Nat) : ParseTree := ⟨"identifier", true, false, start, start + 1, [], []⟩
  ⟨"lib.tsx", "tsx",
    "export async function A(p) \x7b return <p/>; \x7d\n" ++
      "export function* G(p) \x7b return <p/>; \x7d\n" ++
      "export function F(p) \x7b if (p) \x7b return <p/>; \x7d \x7d\n", false,
    ⟨"program", true, false, 0, 132,
      [exported 0 ⟨"function_declaration", true, false, 7, 43,
          [token "async" 7, name 22, returningBlock 27], [(.name, 1), (.body, 2)]⟩,
        exported 44 ⟨"generator_function_declaration", true, false, 51, 82,
          [token "*" 59, name 61, returningBlock 66], [(.name, 1), (.body, 2)]⟩,
        exported 83 (blockFunction 90 131 [conditionalReturn 106])], []⟩⟩

/-- The function is said to return elements, but a call of it gives something else. -/
def Misleads (f : SourceFile) (t : ParseTree) : Prop :=
  t.isFunctionLike ∧ t.child? .returnType = none ∧ f.returnType? t = some .jsxElement ∧
    ∃ v, t.Calls v ∧ v ≠ .element

/-- Calls of the asynchronous function give a promise, those of the generator an iterator, and the
third function runs off its end. -/
theorem functionsFile_misleads :
    ∃ a g t, functionsFile.declaredValues = [a, g, t] ∧ functionsFile.Misleads a ∧
      functionsFile.Misleads g ∧ functionsFile.Misleads t := by
  refine ⟨_, _, _, rfl, ⟨rfl, rfl, ?_, .promise, .promise rfl ?_, by decide⟩,
    ⟨rfl, rfl, ?_, .iterator, .iterator rfl, by decide⟩,
    ⟨rfl, rfl, ?_, .undefined, .undefined ?_ ?_ ?_, by decide⟩⟩
  · exact returnType?_of_ownReturns rfl rfl rfl (by decide)
  · unfold IsGenerator
    decide
  · exact returnType?_of_ownReturns rfl rfl rfl (by decide)
  · exact returnType?_of_ownReturns rfl rfl rfl (by decide)
  · unfold IsAsync
    decide
  · unfold IsGenerator
    decide
  · exact ⟨_, rfl, rfl, .opens (.skipped rfl rfl) .done⟩

end SourceFile

end DeferredImports
