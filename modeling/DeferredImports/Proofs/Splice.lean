import DeferredImports.Proofs.FrameworkGate
import DeferredImports.Proofs.PlanPrint
import DeferredImports.Proofs.Reading
import DeferredImports.Proofs.Substitution

/-! Splicing: a transformed file is printed as the file itself with the bytes of deferred imports
exchanged for the statements of their plans, and no other byte changed. -/

namespace DeferredImports

/-- A text in the place of some bytes of a file. -/
structure Edit where
  start : Nat
  stop : Nat
  text : String

/-- The bytes from an offset on, with the edits applied one after the other. -/
def applyEdits (bytes : ByteArray) : Nat → List Edit → ByteArray
  | start, [] => bytes.extract start bytes.size
  | start, e :: es => bytes.extract start e.start ++ e.text.toUTF8 ++ applyEdits bytes e.stop es

theorem extract_append_applyEdits {bytes : ByteArray} {i j : Nat} {edits : List Edit} (hij : i ≤ j)
    (hj : j ≤ bytes.size) (he : ∀ e ∈ edits, j ≤ e.start) :
    bytes.extract i j ++ applyEdits bytes j edits = applyEdits bytes i edits := by
  cases edits with
  | nil => exact SourceFile.extract_append hij hj bytes
  | cons e es =>
    have hje : j ≤ e.start := he e List.mem_cons_self
    simp only [applyEdits, ← ByteArray.append_assoc]
    rw [SourceFile.extract_append hij hje]

namespace SourceFile

variable {ω σ : Type}

/-- The edit that a top-level node calls for: a candidate import whose plan defers names gives way
to the statements of the plan, each on a line of its own. -/
def edit? (oracle : Oracle ω σ) (options : Options) (newline : String) (f : SourceFile)
    (trivia : String) (t : ParseTree) : Session σ (Option Edit) := do
  match (f.statement t trivia).import? with
  | none => return none
  | some d =>
    if !(← Effect.ofExcept d.isCandidate) then return none
    let plan ← Plan.ofImport oracle options d f.path
    if !plan.deferred then return none
    let texts ← Effect.ofExcept (plan.statements.mapM Node.print)
    return some ⟨t.start, t.stop, newline.intercalate texts⟩

/-- The edits that some top-level nodes call for, one after the other. -/
def editsFrom (oracle : Oracle ω σ) (options : Options) (newline : String) (f : SourceFile) :
    Nat → List ParseTree → Session σ (List Edit)
  | _, [] => pure []
  | start, t :: ts => do
    if isTrivia t then f.editsFrom oracle options newline start ts
    else
      let here ← f.edit? oracle options newline (f.between start t.start) t
      let others ← f.editsFrom oracle options newline t.stop ts
      return here.toList ++ others

/-- The edits that a file calls for; there are none if it is not eligible. -/
def edits (oracle : Oracle ω σ) (options : Options) (newline : String) (f : SourceFile) :
    Session σ (List Edit) := do
  if ← Effect.ofExcept (f.toModule.isEligible options.framework) then
    f.editsFrom oracle options newline 0 f.root.children
  else
    Session.log (.moduleSkipped f.path)
    return []

/-- The edits take the places of import statements among the nodes, from an offset on and in
order. -/
structure Replaces (start : Nat) (ts : List ParseTree) (edits : List Edit) : Prop where
  start_le : ∀ e ∈ edits, start ≤ e.start
  isImport : ∀ e ∈ edits, ∃ t ∈ ts, t.type = "import_statement" ∧ e.start = t.start ∧
    e.stop = t.stop
  pairwise : edits.Pairwise fun e e' => e.stop ≤ e'.start

theorem replaces_nil (start : Nat) (ts : List ParseTree) : Replaces start ts [] :=
  ⟨by simp, by simp, .nil⟩

variable {oracle : Oracle ω σ} {Sound : σ → Prop} {Known : ExportedSymbol ω → Prop}
  {options : Options} {f : SourceFile}

/-- What is to hold of the statements of a file from an offset on: they are printed as the file
with its edits, which the same questions lead to. -/
structure Spliced (oracle : Oracle ω σ) (options : Options) (newline : String) (f : SourceFile)
    (start : Nat) (ts : List ParseTree) (p p' : Progress σ) (answers : List (Option (List Node)))
    (edits : List Edit) : Prop where
  answersTo_eq : (answersTo oracle options f.path (f.statementsFrom start ts).1).runFrom p =
    (.ok answers, p')
  editsFrom_eq : (f.editsFrom oracle options newline start ts).runFrom p = (.ok edits, p')
  any_isSome : answers.any Option.isSome = !edits.isEmpty
  replaces : Replaces start ts edits
  head_trivia : ∀ s, (Node.spliced (f.statementsFrom start ts).1 answers).head? = some s →
    s.leadingTrivia?.isSome
  printed : ∃ lines, (Node.spliced (f.statementsFrom start ts).1 answers).mapM
      (Node.printStatement newline) = .ok lines ∧
    (String.join lines ++ (f.statementsFrom start ts).2).toUTF8 =
      applyEdits f.content.toUTF8 start edits

/-- What is to hold of one statement: it is printed after its trivia, as it was or as its edit
says. -/
structure SplicedHere (oracle : Oracle ω σ) (options : Options) (newline : String) (f : SourceFile)
    (trivia : String) (t : ParseTree) (p p' : Progress σ) (answer : Option (List Node))
    (edit : Option Edit) : Prop where
  answerTo_eq : (answerTo oracle options f.path (f.statement t trivia)).runFrom p = (.ok answer, p')
  edit_eq : (f.edit? oracle options newline trivia t).runFrom p = (.ok edit, p')
  isSome_eq : answer.isSome = edit.isSome
  replaces : ∀ e, edit = some e → t.type = "import_statement" ∧ e.start = t.start ∧ e.stop = t.stop
  head_trivia : ∃ s ss, answer.getD [f.statement t trivia] = s :: ss ∧ s.leadingTrivia?.isSome
  printed : ∃ lines, (answer.getD [f.statement t trivia]).mapM (Node.printStatement newline) =
      .ok lines ∧
    String.join lines = trivia ++ (edit.map Edit.text).getD (f.text t)

/-- A statement is printed as its text, and it has the trivia that it was read with. -/
theorem print_statement (f : SourceFile) (t : ParseTree) (trivia : String) :
    (f.statement t trivia).print = .ok (f.text t) ∧ (f.statement t trivia).lacksText = false ∧
      (f.statement t trivia).leadingTrivia? = some trivia := by
  rcases f.statement_cases t trivia with ⟨-, i, hs, htrivia, htext⟩ | hs
  · rw [hs]
    refine ⟨?_, rfl, htrivia⟩
    unfold PlainImport.toStatement ImportStatement.toNode
    rw [htext]
    rfl
  · rw [hs]
    exact ⟨rfl, rfl, rfl⟩

theorem splicedHere_of_kept {newline trivia : String} {t : ParseTree} {p p' : Progress σ}
    (hanswer : (answerTo oracle options f.path (f.statement t trivia)).runFrom p = (.ok none, p'))
    (hedit : (f.edit? oracle options newline trivia t).runFrom p = (.ok none, p')) :
    SplicedHere oracle options newline f trivia t p p' none none := by
  obtain ⟨hprint, hlacks, htrivia⟩ := f.print_statement t trivia
  constructor
  case answerTo_eq => exact hanswer
  case edit_eq => exact hedit
  case isSome_eq => rfl
  case replaces => simp
  case head_trivia => exact ⟨f.statement t trivia, [], rfl, by rw [htrivia]; rfl⟩
  case printed =>
    refine ⟨[trivia ++ f.text t], ?_, by simp⟩
    rw [Option.getD_none, List.mapM_cons, Node.printStatement_eq hprint hlacks, htrivia]
    rfl

theorem answerTo_of_plan {d : ImportStatement} {plan : Plan} {p p' : Progress σ}
    (hd : d.isCandidate = .ok true)
    (hplan : (Plan.ofImport oracle options d f.path).runFrom p = (.ok plan, p')) :
    (answerTo oracle options f.path d.toNode).runFrom p = (.ok plan.replacement, p') := by
  have hcandidate : d.toNode.isCandidate = .ok true := hd
  rw [answerTo, Node.import?_eq_some.2 rfl, hcandidate,
    Effect.runFrom_bind_of_ok (Effect.runFrom_ofExcept _ _)]
  dsimp only
  rw [Effect.runFrom_bind_of_ok hplan]
  rfl

theorem edit?_of_plan (newline : String) {trivia : String} {t : ParseTree} {d : ImportStatement}
    {plan : Plan} {p p' : Progress σ} (hs : f.statement t trivia = d.toNode)
    (hd : d.isCandidate = .ok true)
    (hplan : (Plan.ofImport oracle options d f.path).runFrom p = (.ok plan, p'))
    {texts : List String} (htexts : plan.statements.mapM Node.print = .ok texts) :
    (f.edit? oracle options newline trivia t).runFrom p =
      (.ok (if plan.deferred then some ⟨t.start, t.stop, newline.intercalate texts⟩ else none),
        p') := by
  rw [edit?, hs, Node.import?_eq_some.2 rfl]
  dsimp only
  rw [hd, Effect.runFrom_bind_of_ok (Effect.runFrom_ofExcept _ _)]
  simp only [Bool.not_true, Bool.false_eq_true, if_false]
  rw [Effect.runFrom_bind_of_ok hplan]
  cases plan.deferred with
  | false => rfl
  | true =>
    simp only [Bool.not_true, Bool.false_eq_true, if_false, if_true, htexts]
    rfl

/-- A candidate without components is kept. -/
theorem splicedHere_of_unchanged {i : PlainImport} (newline : String) {trivia : String}
    {t : ParseTree} {p p' : Progress σ} (hs : f.statement t trivia = i.toStatement.toNode)
    (hc : i.toStatement.isCandidate = .ok true)
    (hrun : (Plan.ofImport oracle options i.toStatement f.path).runFrom p =
      (.ok (Plan.unchanged i.toStatement), p')) :
    SplicedHere oracle options newline f trivia t p p' none none := by
  have hprint := (f.print_statement t trivia).1
  rw [hs] at hprint
  have htexts : (Plan.unchanged i.toStatement).statements.mapM Node.print = .ok [f.text t] := by
    rw [Plan.unchanged, List.mapM_cons, hprint]
    rfl
  refine splicedHere_of_kept ?_ (edit?_of_plan newline hs hc hrun htexts)
  rw [hs]
  exact answerTo_of_plan hc hrun

/-- A candidate with components gives way to the statements of its plan. -/
theorem exists_splicedHere_of_defers {i : PlainImport} {names : List String} {plan : Plan}
    (newline : String) {trivia : String} {t : ParseTree} {p p' : Progress σ}
    (hprintable : Plan.InjectsPrintable options f.path)
    (hw : options.wrapperExpression.IsPrintable) (himport : t.type = "import_statement")
    (hs : f.statement t trivia = i.toStatement.toNode) (htrivia : i.leadingTrivia = some trivia)
    (hc : i.toStatement.isCandidate = .ok true)
    (hrun : (Plan.ofImport oracle options i.toStatement f.path).runFrom p = (.ok plan, p'))
    (hdefers : Plan.Defers options f.path i names plan) :
    ∃ edit, SplicedHere oracle options newline f trivia t p p' (some plan.statements) edit := by
  obtain ⟨texts, lines, htexts, hlines, hjoin⟩ :=
    hdefers.printed hprintable hw htrivia newline
  obtain ⟨head, others, hstatements, hhead, -, -⟩ := hdefers.statements_printable hprintable hw
  have hanswer := answerTo_of_plan hc hrun
  have hedit := edit?_of_plan newline hs hc hrun htexts
  rw [Plan.replacement, hdefers.deferred] at hanswer
  rw [hdefers.deferred] at hedit
  refine ⟨some ⟨t.start, t.stop, newline.intercalate texts⟩, ?_⟩
  exact {
    answerTo_eq := by rw [hs]; exact hanswer
    edit_eq := hedit
    isSome_eq := rfl
    replaces := by
      intro e he
      cases he
      exact ⟨himport, rfl, rfl⟩
    head_trivia := ⟨head, others, hstatements, by rw [hhead, htrivia]; rfl⟩
    printed := ⟨lines, hlines, hjoin⟩ }

/-- Each statement leads to the same questions in its file and in the edits. -/
theorem exists_splicedHere (h : oracle.KeepsContract Sound Known)
    (hinjected : Plan.InjectsImports options f.path)
    (hprintable : Plan.InjectsPrintable options f.path)
    (hw : options.wrapperExpression.IsPrintable) (newline trivia : String) (t : ParseTree)
    {p : Progress σ} (hp : Sound p.oracle) :
    ∃ p' answer edit, Sound p'.oracle ∧
      SplicedHere oracle options newline f trivia t p p' answer edit := by
  rcases f.statement_cases t trivia with ⟨himport, i, hs, htrivia, -⟩ | hs
  · have hread : i.toStatement.toNode.import? = some i.toStatement := Node.import?_eq_some.2 rfl
    obtain ⟨b, hb⟩ := i.isCandidate_toStatement
    have hcandidate : i.toStatement.toNode.isCandidate = .ok b := hb
    cases b with
    | false =>
      refine ⟨p, none, none, hp, splicedHere_of_kept ?_ ?_⟩
      · rw [hs, answerTo, hread, hcandidate]
        rfl
      · rw [edit?, hs, hread]
        dsimp only
        rw [hb]
        rfl
    | true =>
      obtain ⟨plan, p', hrun, hp', hplan⟩ :=
        Plan.ofImport_yields h options i f.path hinjected p hp
      rcases hplan with rfl | ⟨names, -, -, hdefers⟩
      · exact ⟨p', none, none, hp', splicedHere_of_unchanged newline hs hb hrun⟩
      · obtain ⟨edit, hspliced⟩ := exists_splicedHere_of_defers newline hprintable hw himport hs
          htrivia hb hrun hdefers
        exact ⟨p', some plan.statements, edit, hp', hspliced⟩
  · have hnone : (f.statement t trivia).import? = none := by rw [hs]; rfl
    refine ⟨p, none, none, hp, splicedHere_of_kept ?_ ?_⟩
    · rw [answerTo, Node.isCandidate_of_import?_eq_none hnone, hnone]
      rfl
    · rw [edit?, hnone]
      rfl

theorem statementsFrom_cons_of_not_isTrivia (f : SourceFile) (start : Nat) {t : ParseTree}
    (ts : List ParseTree) (h : isTrivia t = false) :
    f.statementsFrom start (t :: ts) =
      (f.statement t (f.between start t.start) :: (f.statementsFrom t.stop ts).1,
        (f.statementsFrom t.stop ts).2) := by
  rw [statementsFrom, h]
  rfl

theorem statementsFrom_cons_of_isTrivia (f : SourceFile) (start : Nat) {t : ParseTree}
    (ts : List ParseTree) (h : isTrivia t = true) :
    f.statementsFrom start (t :: ts) = f.statementsFrom start ts := by
  rw [statementsFrom, h]
  rfl

theorem Replaces.cons {start : Nat} {t : ParseTree} {ts : List ParseTree} {edit : Option Edit}
    {edits : List Edit} (ho : f.InOrder start (t :: ts))
    (hedit : ∀ e, edit = some e →
      t.type = "import_statement" ∧ e.start = t.start ∧ e.stop = t.stop)
    (h : Replaces t.stop ts edits) : Replaces start (t :: ts) (edit.toList ++ edits) := by
  have hstart := ho.start_le t List.mem_cons_self
  have hstop := ho.le_stop t List.mem_cons_self
  constructor
  · intro e he
    rcases List.mem_append.1 he with he | he
    · obtain ⟨-, hs, -⟩ := hedit e (Option.mem_toList.1 he)
      omega
    · have := h.start_le e he
      omega
  · intro e he
    rcases List.mem_append.1 he with he | he
    · exact ⟨t, List.mem_cons_self, hedit e (Option.mem_toList.1 he)⟩
    · obtain ⟨u, hu, hue⟩ := h.isImport e he
      exact ⟨u, List.mem_cons_of_mem t hu, hue⟩
  · rw [List.pairwise_append]
    refine ⟨by cases edit <;> simp, h.pairwise, ?_⟩
    intro e he e' he'
    obtain ⟨-, -, hs⟩ := hedit e (Option.mem_toList.1 he)
    have := h.start_le e' he'
    omega

theorem Replaces.skip {start : Nat} {t : ParseTree} {ts : List ParseTree} {edits : List Edit}
    (h : Replaces start ts edits) : Replaces start (t :: ts) edits where
  start_le := h.start_le
  isImport e he := by
    obtain ⟨u, hu, hue⟩ := h.isImport e he
    exact ⟨u, List.mem_cons_of_mem t hu, hue⟩
  pairwise := h.pairwise

theorem toUTF8_statementsFrom_nil {start : Nat} (ho : f.InOrder start []) :
    (String.join [] ++ (f.statementsFrom start []).2).toUTF8 =
      applyEdits f.content.toUTF8 start [] := by
  have hrest : (f.statementsFrom start []).2 = f.between start f.byteLength := by
    rw [statementsFrom]
  rw [hrest, String.join_nil, String.empty_append,
    toUTF8_between ho.start_isBound.le_byteLength ho.start_isBound f.isBound_byteLength]
  rfl

theorem spliced_nil (newline : String) {start : Nat} (ho : f.InOrder start []) (p : Progress σ) :
    Spliced oracle options newline f start [] p p [] [] where
  answersTo_eq := rfl
  editsFrom_eq := rfl
  any_isSome := rfl
  replaces := replaces_nil start []
  head_trivia := by
    intro s hs
    cases hs
  printed := ⟨[], rfl, toUTF8_statementsFrom_nil ho⟩

theorem spliced_cons (s : Node) (ss : List Node) (answer : Option (List Node))
    (answers : List (Option (List Node))) :
    Node.spliced (s :: ss) (answer :: answers) = answer.getD [s] ++ Node.spliced ss answers :=
  rfl

/-- The bytes of a statement with its trivia and its edit, followed by edited bytes, are edited
bytes. -/
theorem applyEdits_cons {start : Nat} {t : ParseTree} {ts : List ParseTree} (edit : Option Edit)
    {edits : List Edit} (ho : f.InOrder start (t :: ts))
    (hedit : ∀ e, edit = some e →
      t.type = "import_statement" ∧ e.start = t.start ∧ e.stop = t.stop)
    (h : Replaces t.stop ts edits) :
    (f.between start t.start ++ (edit.map Edit.text).getD (f.text t)).toUTF8 ++
        applyEdits f.content.toUTF8 t.stop edits =
      applyEdits f.content.toUTF8 start (edit.toList ++ edits) := by
  have hstart := ho.start_le t List.mem_cons_self
  have hstop := ho.le_stop t List.mem_cons_self
  obtain ⟨hbegin, hend⟩ := ho.isBound t List.mem_cons_self
  have htrivia : (f.between start t.start).toByteArray =
      f.content.toUTF8.extract start t.start := toUTF8_between hstart ho.start_isBound hbegin
  rw [String.toUTF8_eq_toByteArray, String.toByteArray_append, htrivia]
  cases edit with
  | none =>
    have htext : (f.text t).toByteArray = f.content.toUTF8.extract t.start t.stop :=
      toUTF8_between hstop hbegin hend
    rw [Option.map_none, Option.getD_none, htext, extract_append hstart hstop]
    exact extract_append_applyEdits (Nat.le_trans hstart hstop) hend.le_byteLength h.start_le
  | some e =>
    obtain ⟨-, hes, het⟩ := hedit e rfl
    rw [Option.toList_some, List.singleton_append, applyEdits, hes, het]
    rfl

/-- One more statement in front keeps the bytes in step. -/
theorem Spliced.cons {newline : String} {start : Nat} {t : ParseTree} {ts : List ParseTree}
    {p q p' : Progress σ} {answer : Option (List Node)} {edit : Option Edit}
    {answers : List (Option (List Node))} {edits : List Edit} (ht : isTrivia t = false)
    (ho : f.InOrder start (t :: ts))
    (here : SplicedHere oracle options newline f (f.between start t.start) t p q answer edit)
    (h : Spliced oracle options newline f t.stop ts q p' answers edits) :
    Spliced oracle options newline f start (t :: ts) p p' (answer :: answers)
      (edit.toList ++ edits) := by
  have hs := f.statementsFrom_cons_of_not_isTrivia start ts ht
  constructor
  case answersTo_eq =>
    rw [hs, answersTo, Effect.runFrom_bind_of_ok here.answerTo_eq,
      Effect.runFrom_bind_of_ok h.answersTo_eq]
    rfl
  case editsFrom_eq =>
    rw [editsFrom, ht]
    simp only [Bool.false_eq_true, if_false]
    rw [Effect.runFrom_bind_of_ok here.edit_eq, Effect.runFrom_bind_of_ok h.editsFrom_eq]
    rfl
  case any_isSome =>
    rw [List.any_cons, here.isSome_eq, h.any_isSome]
    cases edit <;> rfl
  case replaces => exact h.replaces.cons ho here.replaces
  case head_trivia =>
    obtain ⟨first, others, hfirst, htrivia⟩ := here.head_trivia
    intro s hhead
    rw [hs, spliced_cons, hfirst] at hhead
    cases hhead
    exact htrivia
  case printed =>
    obtain ⟨firstLines, hfirst, hfirstText⟩ := here.printed
    obtain ⟨lines, hlines, hbytes⟩ := h.printed
    refine ⟨firstLines ++ lines, ?_, ?_⟩
    · rw [hs, spliced_cons, List.mapM_append, hfirst, hlines]
      rfl
    · rw [← applyEdits_cons edit ho here.replaces h.replaces, ← hbytes, String.join_append,
        hfirstText, hs]
      simp only [String.toUTF8_eq_toByteArray, String.toByteArray_append,
        ByteArray.append_assoc]

/-- The statements from an offset on are printed as the bytes from there on with their edits. -/
theorem exists_spliced (h : oracle.KeepsContract Sound Known)
    (hinjected : Plan.InjectsImports options f.path)
    (hprintable : Plan.InjectsPrintable options f.path)
    (hw : options.wrapperExpression.IsPrintable) (newline : String) {start : Nat}
    {ts : List ParseTree} (ho : f.InOrder start ts) {p : Progress σ} (hp : Sound p.oracle) :
    ∃ p' answers edits, Sound p'.oracle ∧
      Spliced oracle options newline f start ts p p' answers edits := by
  induction ts generalizing start p with
  | nil => exact ⟨p, [], [], hp, spliced_nil newline ho p⟩
  | cons t ts ih =>
    cases ht : isTrivia t with
    | true =>
      obtain ⟨p', answers, edits, hp', hrest⟩ := ih ho.skip hp
      have hs := f.statementsFrom_cons_of_isTrivia start ts ht
      exact ⟨p', answers, edits, hp', {
        answersTo_eq := by rw [hs]; exact hrest.answersTo_eq
        editsFrom_eq := by
          rw [editsFrom, ht]
          exact hrest.editsFrom_eq
        any_isSome := hrest.any_isSome
        replaces := hrest.replaces.skip
        head_trivia := by rw [hs]; exact hrest.head_trivia
        printed := by rw [hs]; exact hrest.printed }⟩
    | false =>
      obtain ⟨q, answer, edit, hq, here⟩ := exists_splicedHere h hinjected hprintable hw newline
        (f.between start t.start) t hp
      obtain ⟨p', answers, edits, hp', hrest⟩ := ih ho.after hq
      exact ⟨p', answer :: answers, edit.toList ++ edits, hp', hrest.cons ht ho here⟩

/-- Without edits the statements are printed as the bytes of the file. -/
theorem printed_statementsFrom (newline : String) {start : Nat} {ts : List ParseTree}
    (ho : f.InOrder start ts) :
    ∃ lines, (f.statementsFrom start ts).1.mapM (Node.printStatement newline) = .ok lines ∧
      (String.join lines ++ (f.statementsFrom start ts).2).toUTF8 =
        applyEdits f.content.toUTF8 start [] := by
  induction ts generalizing start with
  | nil => exact ⟨[], rfl, toUTF8_statementsFrom_nil ho⟩
  | cons t ts ih =>
    cases ht : isTrivia t with
    | true =>
      rw [f.statementsFrom_cons_of_isTrivia start ts ht]
      exact ih ho.skip
    | false =>
      obtain ⟨lines, hlines, hbytes⟩ := ih ho.after
      obtain ⟨hprint, hlacks, htrivia⟩ := f.print_statement t (f.between start t.start)
      have hcons := applyEdits_cons none ho (by simp) (replaces_nil t.stop ts)
      rw [Option.toList_none, List.nil_append] at hcons
      refine ⟨(f.between start t.start ++ f.text t) :: lines, ?_, ?_⟩
      · rw [f.statementsFrom_cons_of_not_isTrivia start ts ht, List.mapM_cons,
          Node.printStatement_eq hprint hlacks, htrivia, hlines]
        rfl
      · rw [f.statementsFrom_cons_of_not_isTrivia start ts ht, ← hcons, ← hbytes]
        simp only [String.join_cons, String.toUTF8_eq_toByteArray, String.toByteArray_append,
          ByteArray.append_assoc, Option.map_none, Option.getD_none]

theorem exists_of_mem_statementsFrom {start : Nat} {ts : List ParseTree} {s : Node}
    (hs : s ∈ (f.statementsFrom start ts).1) : ∃ t trivia, s = f.statement t trivia := by
  induction ts generalizing start with
  | nil => cases hs
  | cons t ts ih =>
    cases ht : isTrivia t with
    | true =>
      rw [f.statementsFrom_cons_of_isTrivia start ts ht] at hs
      exact ih hs
    | false =>
      rw [f.statementsFrom_cons_of_not_isTrivia start ts ht] at hs
      rcases List.mem_cons.1 hs with rfl | hs
      · exact ⟨t, _, rfl⟩
      · exact ih hs

/-- Every import that was read is plain. -/
theorem isPlain_of_mem_statementsFrom {start : Nat} {ts : List ParseTree} {s : Node}
    {d : ImportStatement} (hs : s ∈ (f.statementsFrom start ts).1) (hd : s.import? = some d) :
    ∃ i : PlainImport, d = i.toStatement := by
  obtain ⟨t, trivia, rfl⟩ := exists_of_mem_statementsFrom hs
  rcases f.statement_cases t trivia with ⟨-, i, hi, -⟩ | hraw
  · rw [hi, Node.import?_eq_some.2 rfl] at hd
    exact ⟨i, (Option.some.inj hd).symm⟩
  · rw [hraw] at hd
    cases hd

theorem isEligible_toModule (f : SourceFile) (framework : Framework) :
    ∃ b, f.toModule.isEligible framework = .ok b := by
  apply isEligible_ok
  intro d hd
  obtain ⟨i, rfl⟩ := isPlain_of_mem_statementsFrom hd (Node.import?_eq_some.2 rfl)
  exact ⟨_, i.specifier_toStatement⟩

theorem candidatesFrom_statementsFrom (f : SourceFile) (start i : Nat) (ts : List ParseTree) :
    ∃ candidates, Node.candidatesFrom i (f.statementsFrom start ts).1 = .ok candidates := by
  apply Node.candidatesFrom_ok
  intro s hs
  cases hd : s.import? with
  | none => exact ⟨false, Node.isCandidate_of_import?_eq_none hd⟩
  | some d =>
    obtain ⟨j, rfl⟩ := isPlain_of_mem_statementsFrom hs hd
    rw [Node.import?_eq_some.1 hd]
    exact j.isCandidate_toStatement

/-- A module whose first statement has trivia is printed statement by statement. -/
theorem printModule_eq {newline path trailing : String} {ss : List Node} {lines : List String}
    (hhead : ∀ s, ss.head? = some s → s.leadingTrivia?.isSome)
    (hlines : ss.mapM (Node.printStatement newline) = .ok lines) :
    Node.printModule newline (.sourceModule path (some ss) (some trailing)) =
      .ok (String.join lines ++ trailing) := by
  have hstatements : Node.printStatements newline ss = .ok (String.join lines) := by
    cases ss with
    | nil =>
      cases hlines
      rfl
    | cons s ss =>
      obtain ⟨trivia, htrivia⟩ := Option.isSome_iff_exists.1 (hhead s rfl)
      have hfirst : s.printStatement "" = s.printStatement newline := by
        simp only [Node.printStatement, htrivia]
        rfl
      rw [List.mapM_cons] at hlines
      simp only [bind, Except.bind, pure, Except.pure] at hlines
      rw [Node.printStatements, hfirst]
      split at hlines
      · cases hlines
      · next line hline =>
        split at hlines
        · cases hlines
        · next others hothers =>
          cases hlines
          simp [hline, hothers, bind, Except.bind, pure, Except.pure]
  simp only [Node.printModule, Node.statements, Node.items, hstatements, bind, Except.bind]
  rfl

theorem text_eq_content {text : String}
    (h : text.toUTF8 = applyEdits f.content.toUTF8 0 []) : text = f.content := by
  rw [applyEdits, ByteArray.extract_zero_size] at h
  exact String.toByteArray_inj.1 h

/-- A transformed file is printed as the file with the bytes of each deferred import exchanged for
the printed statements of its plan, and as the very file if nothing is deferred. -/
theorem printModule_transform (h : oracle.KeepsContract Sound Known) (options : Options)
    (f : SourceFile) (hinjected : Plan.InjectsImports options f.path)
    (hprintable : Plan.InjectsPrintable options f.path)
    (hw : options.wrapperExpression.IsPrintable) (ho : f.IsOrdered) (newline : String)
    {p : Progress σ} (hp : Sound p.oracle) :
    ∃ edits p' changed text,
      (f.edits oracle options newline).runFrom p = (.ok edits, p') ∧
      (transform oracle options f.toModule).runFrom p = (.ok changed, p') ∧
      Node.printModule newline (changed.getD f.toModule) = .ok text ∧
      Replaces 0 f.root.children edits ∧
      text.toUTF8 = applyEdits f.content.toUTF8 0 edits ∧
      (edits = [] → changed = none ∧ text = f.content) := by
  obtain ⟨eligible, heligible⟩ := f.isEligible_toModule options.framework
  cases eligible with
  | false =>
    -- the module is skipped, and so is the file
    obtain ⟨lines, hlines, hbytes⟩ := printed_statementsFrom newline ho
    refine ⟨[], { p with trace := p.trace ++ [.logged (.moduleSkipped f.path)] }, none, _, ?_, ?_,
      printModule_eq ?_ hlines, replaces_nil 0 _, hbytes,
      fun _ => ⟨rfl, text_eq_content hbytes⟩⟩
    · rw [edits, heligible]
      rfl
    · rw [transform, heligible]
      rfl
    · intro s hs
      obtain ⟨t, trivia, rfl⟩ := exists_of_mem_statementsFrom (List.mem_of_mem_head? hs)
      rw [(f.print_statement t trivia).2.2]
      rfl
  | true =>
    obtain ⟨p', answers, edits, hp', hspliced⟩ :=
      exists_spliced h hinjected hprintable hw newline ho hp
    obtain ⟨candidates, hcandidates⟩ := f.candidatesFrom_statementsFrom 0 0 f.root.children
    obtain ⟨lines, hlines, hbytes⟩ := hspliced.printed
    have hchanged : (transform oracle options f.toModule).runFrom p =
        (.ok (if answers.any Option.isSome then some (substituted f.path
          (f.statementsFrom 0 f.root.children).1 (some (f.statementsFrom 0 f.root.children).2)
          answers) else none), p') := by
      rw [toModule, transform_runFrom heligible hcandidates,
        Effect.runFrom_bind_of_ok hspliced.answersTo_eq]
      rfl
    have hmodule : (if answers.any Option.isSome then some (substituted f.path
          (f.statementsFrom 0 f.root.children).1 (some (f.statementsFrom 0 f.root.children).2)
          answers) else none).getD f.toModule = substituted f.path
          (f.statementsFrom 0 f.root.children).1 (some (f.statementsFrom 0 f.root.children).2)
          answers := by
      cases hany : answers.any Option.isSome with
      | true => rfl
      | false =>
        rw [substituted, spliced_eq_self (length_answersTo hspliced.answersTo_eq) hany]
        rfl
    refine ⟨edits, p', _, _, ?_, hchanged, ?_, hspliced.replaces, hbytes, ?_⟩
    · rw [SourceFile.edits, heligible]
      exact hspliced.editsFrom_eq
    · rw [hmodule]
      exact printModule_eq hspliced.head_trivia hlines
    · rintro rfl
      have hany : answers.any Option.isSome = false := hspliced.any_isSome
      exact ⟨by rw [hany]; rfl, text_eq_content hbytes⟩

/-- A file with a comment, an import of the framework and an import of a component. -/
def panelFile : SourceFile where
  path := "app.tsx"
  language := "tsx"
  content := "// é\nimport 'react';\nimport Panel from './panel';\n"
  hasError := false
  root := ⟨"program", true, false, 0, 51,
    [⟨"comment", true, false, 0, 5, [], []⟩,
      ⟨"import_statement", true, false, 6, 21, [⟨"string", true, false, 13, 20, [], []⟩],
        [(.source, 0)]⟩,
      ⟨"import_statement", true, false, 22, 50,
        [⟨"import_clause", true, false, 29, 34, [⟨"identifier", true, false, 29, 34, [], []⟩], []⟩,
          ⟨"string", true, false, 40, 49, [], []⟩], [(.source, 1)]⟩], []⟩

theorem panelFile_isOrdered : panelFile.IsOrdered where
  start_isBound := by decide +kernel
  start_le := by decide +kernel
  le_stop := by decide +kernel
  isBound := by decide +kernel
  pairwise := by decide +kernel

/-- The last import is exchanged for a constant, and all else stays. -/
theorem printModule_transform_panel :
    ∃ edits p' changed text,
      (panelFile.edits Oracle.panelOracle {} "\n").runFrom ⟨[], ()⟩ = (.ok edits, p') ∧
      (transform Oracle.panelOracle {} panelFile.toModule).runFrom ⟨[], ()⟩ = (.ok changed, p') ∧
      Node.printModule "\n" (changed.getD panelFile.toModule) = .ok text ∧
      text.toUTF8 = applyEdits panelFile.content.toUTF8 0 edits ∧
      edits.map (fun e => (e.start, e.stop, e.text)) =
        [(22, 50, "const Panel = React.lazy(() => import('./panel'));")] := by
  have hw : ({} : Options).wrapperExpression.IsPrintable := ⟨"React.lazy", rfl⟩
  obtain ⟨edits, p', changed, text, hedits, htransform, hprint, -, hbytes, -⟩ :=
    printModule_transform Oracle.panelOracle_keepsContract {} panelFile (fun n hn => by cases hn)
      (fun n hn => by cases hn) hw panelFile_isOrdered "\n" (p := ⟨[], ()⟩) trivial
  refine ⟨edits, p', changed, text, hedits, htransform, hprint, hbytes, ?_⟩
  have hcomputed : ((panelFile.edits Oracle.panelOracle {} "\n").runFrom ⟨[], ()⟩).1.toOption.map
      (·.map fun e => (e.start, e.stop, e.text)) =
        some [(22, 50, "const Panel = React.lazy(() => import('./panel'));")] := by
    decide +kernel
  rw [hedits] at hcomputed
  exact Option.some.inj hcomputed

end SourceFile

end DeferredImports
