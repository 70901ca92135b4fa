import DeferredImports.Proofs.PlanShape
import DeferredImports.Syntax.Print

/-! Printing plans: every statement of a plan can be printed, and together they are printed one on
a line after the trivia of the import. -/

namespace DeferredImports

namespace Node

def IsPrintable (n : Node) : Prop := ∃ text, n.print = .ok text

/-- The statement can be printed as one of several: it has a text. -/
def IsPrintableStatement (n : Node) : Prop := n.IsPrintable ∧ n.lacksText = false

theorem printStatement_eq {s : Node} {text : String} (h : s.print = .ok text)
    (hs : s.lacksText = false) (trivia : String) :
    s.printStatement trivia = .ok (s.leadingTrivia?.getD trivia ++ text) := by
  simp [printStatement, h, hs, bind, Except.bind, pure, Except.pure]

/-- Other trivia do not change the text of a statement. -/
theorem print_withLeadingTrivia {s s' : Node} {trivia : Option String}
    (h : s.withLeadingTrivia trivia = .ok s') :
    s'.print = s.print ∧ s'.lacksText = s.lacksText ∧ s'.leadingTrivia? = trivia := by
  cases s <;> simp only [withLeadingTrivia, Except.ok.injEq, reduceCtorEq] at h <;> subst h
  case importDeclaration s d b o t x =>
    refine ⟨?_, rfl, rfl⟩
    cases x <;> rfl
  case variableStatement ds k t => exact ⟨rfl, rfl, rfl⟩
  case rawStatement text k t => exact ⟨rfl, rfl, rfl⟩

theorem lacksText_of_withLeadingTrivia {s s' : Node} {trivia : Option String}
    (h : s.withLeadingTrivia trivia = .ok s') : s.lacksText = false := by
  cases s <;> first | rfl | cases h

theorem IsPrintableStatement.withLeadingTrivia {s s' : Node} {trivia : Option String}
    (h : s.IsPrintableStatement) (hs : s.withLeadingTrivia trivia = .ok s') :
    s'.IsPrintableStatement := by
  obtain ⟨hprint, hlacks, -⟩ := print_withLeadingTrivia hs
  obtain ⟨⟨text, htext⟩, hl⟩ := h
  exact ⟨⟨text, hprint.trans htext⟩, hlacks.trans hl⟩

section expressions

variable {e l wrapper : Node}

theorem IsPrintable.propertyAccess (h : e.IsPrintable) (name : String) :
    (Node.propertyAccess e name).IsPrintable := by
  obtain ⟨text, htext⟩ := h
  refine ⟨text ++ "." ++ name, ?_⟩
  show (do return (← e.print) ++ "." ++ name) = _
  rw [htext]
  rfl

theorem IsPrintable.memberNamed (h : e.IsPrintable) (name : String) :
    (e.memberNamed name).IsPrintable := by
  unfold Node.memberNamed
  split
  · exact h.propertyAccess name
  · obtain ⟨text, htext⟩ := h
    refine ⟨text ++ "[" ++ quoted name (some (nameQuote name)) ++ "]", ?_⟩
    show (do
      let object ← e.print
      return object ++ "[" ++ (← (nameLiteral name).print) ++ "]") = _
    rw [htext]
    rfl

theorem IsPrintable.parenthesized (h : e.IsPrintable) : (Node.parenthesized e).IsPrintable := by
  obtain ⟨text, htext⟩ := h
  refine ⟨"(" ++ text ++ ")", ?_⟩
  show (do return "(" ++ (← e.print) ++ ")") = _
  rw [htext]
  rfl

theorem IsPrintable.record (h : e.IsPrintable) (name : String) :
    (objectOf [(name, e)]).IsPrintable := by
  obtain ⟨text, htext⟩ := h
  have hproperties : printProperties [.propertyAssignment name e] = .ok [name ++ ": " ++ text] := by
    show (do
      let value ← e.print
      return (name ++ ": " ++ value) :: (← printProperties [])) = _
    rw [htext]
    rfl
  refine ⟨bracedOrEmpty [name ++ ": " ++ text], ?_⟩
  show (do return bracedOrEmpty (← printProperties [.propertyAssignment name e])) = _
  rw [hproperties]
  rfl

/-- Parameters are printed as they stand in an arrow function. -/
theorem parameterText_map (names : List String) :
    parameterText (names.map parameter) = .ok (match names with
      | [n] => n
      | ns => "(" ++ ", ".intercalate ns ++ ")") := by
  have hnames : (names.map parameter).mapM name = .ok (names.map NodeName.word) := by
    induction names with
    | nil => rfl
    | cons n ns ih =>
      rw [List.map_cons, List.mapM_cons, ih]
      rfl
  have hwords : (names.map NodeName.word).mapM NodeName.asWord = .ok names := by
    clear hnames
    induction names with
    | nil => rfl
    | cons n ns ih =>
      rw [List.map_cons, List.mapM_cons, ih]
      rfl
  match names with
  | [] => rfl
  | [n] => rfl
  | n :: m :: ns =>
    show (do
      let names ← ((n :: m :: ns).map parameter).mapM name
      return "(" ++ ", ".intercalate (← names.mapM NodeName.asWord) ++ ")") = _
    rw [hnames]
    show (do return "(" ++ ", ".intercalate (← ((n :: m :: ns).map NodeName.word).mapM
      NodeName.asWord) ++ ")") = _
    rw [hwords]
    rfl

theorem parameterText_ok (names : List String) :
    ∃ text, parameterText (names.map parameter) = .ok text :=
  ⟨_, parameterText_map names⟩

theorem IsPrintable.arrow (h : e.IsPrintable) (names : List String) :
    (arrow names (some e)).IsPrintable := by
  obtain ⟨text, htext⟩ := h
  obtain ⟨parameters, hparameters⟩ := parameterText_ok names
  refine ⟨parameters ++ " => " ++ text, ?_⟩
  show (do
    let parameters ← parameterText (names.map parameter)
    return parameters ++ " => " ++ (← e.print)) = _
  rw [hparameters, htext]
  rfl

/-- A call with a function as its argument can be printed if both can. -/
theorem IsPrintable.callArrow (hw : wrapper.IsPrintable) (h : e.IsPrintable) (names : List String) :
    (call wrapper [Node.arrow names (some e)]).IsPrintable := by
  obtain ⟨text, htext⟩ := hw
  obtain ⟨argument, hargument⟩ := h.arrow names
  have harguments : printAll [Node.arrow names (some e)] = .ok [argument] := by
    show (do
      let first ← (Node.arrow names (some e)).print
      return first :: (← printAll [])) = _
    rw [hargument]
    rfl
  refine ⟨text ++ "(" ++ ", ".intercalate [argument] ++ ")", ?_⟩
  show (do
    let arguments ← printAll [Node.arrow names (some e)]
    if [Node.arrow names (some e)].any lacksText then .error .unfit
    else return (← wrapper.print) ++ "(" ++ ", ".intercalate arguments ++ ")") = _
  rw [harguments, htext]
  rfl

theorem IsPrintable.constantNamed (h : e.IsPrintable) (name : String) (trivia : Option String) :
    (constantNamed name (some e) trivia).IsPrintableStatement := by
  obtain ⟨text, htext⟩ := h
  have hdeclarators : printDeclarators [variableDeclaration name (some e)] =
      .ok [name ++ " = " ++ text] := by
    show (do
      let value ← e.print
      return (name ++ " = " ++ value) :: (← printDeclarators [])) = _
    rw [htext]
    rfl
  refine ⟨⟨"const " ++ ", ".intercalate [name ++ " = " ++ text] ++ ";", ?_⟩, rfl⟩
  show (do
    return "const" ++ " " ++
      ", ".intercalate (← printDeclarators [variableDeclaration name (some e)]) ++ ";") = _
  rw [hdeclarators]
  rfl

theorem importCall_isPrintable (s : String) (quote : Option String) :
    (importCall (.stringLiteral s quote)).IsPrintable :=
  ⟨"import(" ++ quoted s quote ++ ")", rfl⟩

theorem IsPrintable.selectExport (h : e.IsPrintable) (exported : String) :
    (Plan.selectExport e exported).IsPrintable := by
  have hparameter : (identifier Plan.moduleParameter).IsPrintable := ⟨Plan.moduleParameter, rfl⟩
  have hmember := hparameter.memberNamed exported
  exact (h.propertyAccess "then").callArrow (hmember.record Plan.defaultExport).parenthesized
    [Plan.moduleParameter]

end expressions

theorem mapM_specifierText (bs : List PlainBinding) :
    ∃ texts, (bs.map PlainBinding.toNode).mapM specifierText = .ok texts := by
  apply exists_mapM_eq_ok
  intro n hn
  obtain ⟨b, -, rfl⟩ := List.mem_map.1 hn
  rcases b with ⟨_, _ | _, _ | _⟩ <;> exact ⟨_, rfl⟩

theorem bindingsText_ok (clause : Option PlainClause) :
    ∃ texts, bindingsText (clause.map PlainClause.toNode) = .ok texts := by
  rcases clause with _ | n | bs
  · exact ⟨[], rfl⟩
  · exact ⟨["* as " ++ n], rfl⟩
  · obtain ⟨texts, htexts⟩ := mapM_specifierText bs
    refine ⟨[bracedOrEmpty texts], ?_⟩
    simp [PlainClause.toNode, bindingsText, items, htexts, bind, Except.bind, pure, Except.pure]

theorem importText_ok (i : PlainImport) (literal : String) :
    ∃ text, importText i.toStatement literal = .ok text := by
  obtain ⟨texts, htexts⟩ := bindingsText_ok i.clause
  have hbindings : bindingsText i.toStatement.namedBindings = .ok texts := htexts
  simp only [importText, PlainImport.defaultBinding?_toStatement, hbindings, bind, Except.bind]
  split <;> exact ⟨_, rfl⟩

/-- A plain import can be printed, one that was read as well as a new one. -/
theorem isPrintable_toStatement (i : PlainImport) : i.toStatement.toNode.IsPrintableStatement := by
  refine ⟨?_, rfl⟩
  obtain ⟨text, htext⟩ := importText_ok i (quoted i.specifier i.quote)
  unfold PlainImport.toStatement ImportStatement.toNode
  cases i.sourceText with
  | some x => exact ⟨x, rfl⟩
  | none => exact ⟨text, htext⟩

end Node

namespace Plan

variable {options : Options} {file : String} {i : PlainImport} {names : List String} {plan : Plan}

theorem loader_isPrintable {name : String} {l : Node} (h : loader i.toStatement name = .ok l) :
    l.IsPrintable := by
  have hcall := Node.importCall_isPrintable i.specifier i.quote
  rw [loader_toStatement] at h
  split at h
  · cases h
    exact hcall
  · split at h
    · cases h
      exact hcall.selectExport _
    · cases h

theorem IsLazyConstant.isPrintable {wrapper : Node} (hw : wrapper.IsPrintable) {name : String}
    {s : Node} (h : IsLazyConstant wrapper i.toStatement name s) : s.IsPrintableStatement := by
  obtain ⟨l, trivia, hl, rfl⟩ := h
  exact (hw.callArrow (loader_isPrintable hl) []).constantNamed name trivia

/-- An injected import is an import statement that can be printed. -/
def InjectsPrintable (options : Options) (file : String) : Prop :=
  ∀ n, options.injectedImport file = some n → n.IsPrintable

theorem constants_printable {wrapper : Node} (hw : wrapper.IsPrintable) {constants : List Node}
    (h : List.Forall₂ (fun name s => IsLazyConstant wrapper i.toStatement name s ∧
      s.leadingTrivia? = none) names constants) :
    ∀ s ∈ constants, s.leadingTrivia? = none ∧ s.IsPrintableStatement := by
  induction h with
  | nil => simp
  | cons hs _ ih =>
    intro s hmem
    rcases List.mem_cons.1 hmem with rfl | hmem
    · exact ⟨hs.2, hs.1.isPrintable hw⟩
    · exact ih s hmem

theorem rest_printable (i : PlainImport) (names : List String) :
    ∀ s ∈ ((i.rest? names).map fun r => r.toStatement.toNode).toList,
      s.leadingTrivia? = none ∧ s.IsPrintableStatement := by
  intro s hs
  obtain ⟨r, hr, rfl⟩ := Option.map_eq_some_iff.1 (Option.mem_toList.1 hs)
  obtain ⟨rfl, -⟩ := PlainImport.eq_without_of_rest? hr
  exact ⟨rfl, Node.isPrintable_toStatement _⟩

/-- The statements of a plan can be printed, and only the first one has trivia. -/
theorem Defers.statements_printable (h : Defers options file i names plan)
    (hprintable : InjectsPrintable options file) (hw : options.wrapperExpression.IsPrintable) :
    ∃ head others, plan.statements = head :: others ∧ head.leadingTrivia? = i.leadingTrivia ∧
      (∀ s ∈ others, s.leadingTrivia? = none) ∧
      ∀ s ∈ plan.statements, s.IsPrintableStatement := by
  obtain ⟨constants, first, others, head, hconstants, hlist, hhead, hstatements⟩ := h.statements
  have hnew : ∀ s ∈ constants ++ ((i.rest? names).map fun r => r.toStatement.toNode).toList,
      s.leadingTrivia? = none ∧ s.IsPrintableStatement := by
    intro s hs
    rcases List.mem_append.1 hs with hs | hs
    · exact constants_printable hw hconstants s hs
    · exact rest_printable i names s hs
  rw [List.append_assoc] at hlist
  have hall : first.IsPrintableStatement ∧
      ∀ s ∈ others, s.leadingTrivia? = none ∧ s.IsPrintableStatement := by
    cases hi : options.injectedImport file with
    | some n =>
      rw [hi] at hlist
      obtain ⟨hfirst, hothers⟩ := List.cons.inj hlist
      have hn : first.IsPrintableStatement :=
        ⟨hfirst ▸ hprintable n hi, Node.lacksText_of_withLeadingTrivia hhead⟩
      exact ⟨hn, by rw [← hothers]; exact hnew⟩
    | none =>
      rw [hi] at hlist
      rw [show constants ++ _ = first :: others from hlist] at hnew
      exact ⟨(hnew first List.mem_cons_self).2, fun s hs => hnew s (List.mem_cons_of_mem first hs)⟩
  refine ⟨head, others, hstatements, (Node.print_withLeadingTrivia hhead).2.2,
    fun s hs => (hall.2 s hs).1, ?_⟩
  intro s hs
  rw [hstatements] at hs
  rcases List.mem_cons.1 hs with rfl | hs
  · exact hall.1.withLeadingTrivia hhead
  · exact (hall.2 s hs).2

theorem mapM_print {ss : List Node} (h : ∀ s ∈ ss, s.IsPrintableStatement) :
    ∃ texts, ss.mapM Node.print = .ok texts ∧ ∀ newline, (∀ s ∈ ss, s.leadingTrivia? = none) →
      ss.mapM (Node.printStatement newline) = .ok (texts.map (newline ++ ·)) := by
  induction ss with
  | nil => exact ⟨[], rfl, fun _ _ => rfl⟩
  | cons s ss ih =>
    obtain ⟨texts, htexts, hlines⟩ := ih fun t ht => h t (List.mem_cons_of_mem s ht)
    obtain ⟨⟨text, htext⟩, hlacks⟩ := h s List.mem_cons_self
    refine ⟨text :: texts, by rw [List.mapM_cons, htext, htexts]; rfl, ?_⟩
    intro newline htrivia
    rw [List.mapM_cons, Node.printStatement_eq htext hlacks, htrivia s List.mem_cons_self,
      hlines newline fun t ht => htrivia t (List.mem_cons_of_mem s ht)]
    rfl

theorem join_lines (trivia newline text : String) (texts : List String) :
    String.join ((trivia ++ text) :: texts.map (newline ++ ·)) =
      trivia ++ newline.intercalate (text :: texts) := by
  induction texts generalizing trivia text with
  | nil => simp
  | cons other texts ih =>
    have := ih (trivia ++ text ++ newline) other
    rw [String.join_cons] at this
    simp only [List.map_cons, String.join_cons, String.intercalate_cons_cons]
    simp only [String.append_assoc] at this ⊢
    exact this

/-- A plan is printed as the trivia of the import and one statement on each line. -/
theorem Defers.printed (h : Defers options file i names plan)
    (hprintable : InjectsPrintable options file) (hw : options.wrapperExpression.IsPrintable)
    {trivia : String} (ht : i.leadingTrivia = some trivia) (newline : String) :
    ∃ texts lines, plan.statements.mapM Node.print = .ok texts ∧
      plan.statements.mapM (Node.printStatement newline) = .ok lines ∧
      String.join lines = trivia ++ newline.intercalate texts := by
  obtain ⟨head, others, hstatements, htrivia, hothers, hall⟩ :=
    h.statements_printable hprintable hw
  rw [hstatements] at hall ⊢
  obtain ⟨⟨text, htext⟩, hlacks⟩ := hall head List.mem_cons_self
  obtain ⟨texts, htexts, hlines⟩ := mapM_print fun s hs => hall s (List.mem_cons_of_mem head hs)
  refine ⟨text :: texts, (trivia ++ text) :: texts.map (newline ++ ·), ?_, ?_,
    join_lines trivia newline text texts⟩
  · rw [List.mapM_cons, htext, htexts]
    rfl
  · rw [List.mapM_cons, Node.printStatement_eq htext hlacks, htrivia, ht, hlines newline hothers]
    rfl

end Plan

end DeferredImports
