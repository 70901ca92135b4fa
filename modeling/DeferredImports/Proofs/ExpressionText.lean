import DeferredImports.Proofs.ExpressionReading
import DeferredImports.Proofs.PlanPrint

/-! What the text of an expression says about the expression: it is printed without parentheses of
its own, so that whatever follows an arrow function goes into its body. Expressions in which
nothing follows one are told by their text. -/

namespace DeferredImports

/-- Expressions with bare names and contents without quotes. -/
inductive Expression where
  | identifier (name : BareName)
  | stringLiteral (text : LiteralText) (quote : Quote)
  | propertyAccess (object : Expression) (name : BareName)
  | elementAccess (object key : Expression)
  | call (callee : Expression) (arguments : List Expression)
  | importCall (argument : Expression)
  | arrow (parameters : List BareName) (body : Option Expression)
  | parenthesized (inner : Expression)
  | object (properties : List (BareName × Expression))

def importWord : BareName := ⟨"import", by decide +kernel⟩

/-- What follows an arrow function belongs to its body. -/
def Parse.followedBy (f : Follower) : Parse → Parse
  | .chain s fs => .chain s (fs ++ [f])
  | .arrow ns b => .arrow ns (b.followedBy f)

namespace Expression

def parameterNodes (ns : List BareName) : List Node :=
  (ns.map BareName.text).map .parameter

mutual

def toNode : Expression → Node
  | identifier n => .identifier n.text
  | stringLiteral t q => .stringLiteral t.text (some q.text)
  | propertyAccess e n => .propertyAccess e.toNode n.text
  | elementAccess e k => .elementAccess e.toNode k.toNode
  | call e es => .callExpression e.toNode (some (toNodes es))
  | importCall e => .importCall e.toNode
  | arrow ns none => .arrowFunction (some (parameterNodes ns)) none
  | arrow ns (some e) => .arrowFunction (some (parameterNodes ns)) (some e.toNode)
  | parenthesized e => .parenthesized e.toNode
  | object ps => .objectLiteral (some (propertyNodes ps))

def toNodes : List Expression → List Node
  | [] => []
  | e :: es => e.toNode :: toNodes es

def propertyNodes : List (BareName × Expression) → List Node
  | [] => []
  | (n, e) :: ps => .propertyAssignment n.text e.toNode :: propertyNodes ps

end

mutual

/-- How the text of the expression is read. An absent body is an empty object, and a module import
the call of a name. -/
def reading : Expression → Parse
  | identifier n => .chain (.name n) []
  | stringLiteral t q => .chain (.literal t q) []
  | propertyAccess e n => e.reading.followedBy (.member n)
  | elementAccess e k => e.reading.followedBy (.element k.reading)
  | call e es => e.reading.followedBy (.call (readings es))
  | importCall e => .chain (.name importWord) [.call [e.reading]]
  | arrow ns none => .arrow ns (.chain (.object []) [])
  | arrow ns (some e) => .arrow ns e.reading
  | parenthesized e => .chain (.parenthesized e.reading) []
  | object ps => .chain (.object (propertyReadings ps)) []

def readings : List Expression → List Parse
  | [] => []
  | e :: es => e.reading :: readings es

def propertyReadings : List (BareName × Expression) → List (BareName × Parse)
  | [] => []
  | (n, e) :: ps => (n, e.reading) :: propertyReadings ps

end

end Expression

/-! ### Printing -/

theorem followersText_append (fs gs : List Follower) :
    followersText (fs ++ gs) = followersText fs ++ followersText gs := by
  induction fs with
  | nil => rfl
  | cons f fs ih => cases f <;> simp [followersText, ih]

theorem Parse.text_followedBy (f : Follower) (r : Parse) :
    (r.followedBy f).text = r.text ++ followersText [f] := by
  match r with
  | .chain s fs =>
    rw [Parse.followedBy, Parse.text, Parse.text, followersText_append, List.append_assoc]
  | .arrow ns b =>
    rw [Parse.followedBy, Parse.text, Parse.text, b.text_followedBy f, List.append_assoc]
    rfl

/-- Items with commas between them, up to the closing parenthesis. -/
theorem argumentsText_eq (rs : List Parse) :
    argumentsText [] rs =
      (", ".intercalate (rs.map fun r => String.ofList r.text)).toList ++ [')'] := by
  induction rs with
  | nil => rfl
  | cons r rs ih =>
    cases rs with
    | nil => simp [argumentsText]
    | cons r' rs =>
      have hcomma : argumentsText comma (r' :: rs) = comma ++ argumentsText [] (r' :: rs) := rfl
      rw [argumentsText, hcomma, ih]
      simp [comma]

theorem namesText_eq (ns : List BareName) :
    namesText [] ns = (", ".intercalate (ns.map BareName.text)).toList ++ [')'] := by
  induction ns with
  | nil => rfl
  | cons n ns ih =>
    cases ns with
    | nil => simp [namesText]
    | cons m ns =>
      have hcomma : namesText comma (m :: ns) = comma ++ namesText [] (m :: ns) := rfl
      rw [namesText, hcomma, ih]
      simp [comma]

theorem propertiesText_eq {ps : List (BareName × Parse)} (hps : ps ≠ []) (mark : List Char) :
    propertiesText mark ps = mark ++ (", ".intercalate
      (ps.map fun p => p.1.text ++ ": " ++ String.ofList p.2.text)).toList ++ [' ', '}'] := by
  induction ps generalizing mark with
  | nil => exact absurd rfl hps
  | cons p ps ih =>
    cases ps with
    | nil => simp [propertiesText]
    | cons p' ps =>
      rw [propertiesText, ih (List.cons_ne_nil p' ps)]
      simp [comma]

theorem Start.text_object {ps : List (BareName × Parse)} (hps : ps ≠ []) :
    (Start.object ps).text = propertiesText ['{', ' '] ps := by
  cases ps with
  | nil => exact absurd rfl hps
  | cons p ps => rfl

namespace Expression

theorem lacksText_toNode (e : Expression) : e.toNode.lacksText = false := by
  match e with
  | arrow _ none | arrow _ (some _) => rfl
  | identifier _ | stringLiteral _ _ | propertyAccess _ _ | elementAccess _ _ | call _ _
  | importCall _ | parenthesized _ | object _ => rfl

theorem any_lacksText_toNodes (es : List Expression) : (toNodes es).any Node.lacksText = false := by
  induction es with
  | nil => rfl
  | cons e es ih => rw [toNodes, List.any_cons, lacksText_toNode, ih, Bool.or_false]

theorem parameterText_nodes (ns : List BareName) :
    Node.parameterText (parameterNodes ns) = .ok (String.ofList (parametersText ns)) := by
  rw [parameterNodes, Node.parameterText_map]
  match ns with
  | [] => rfl
  | [n] => simp [parametersText]
  | n :: m :: ns =>
    have htext : parametersText (n :: m :: ns) = '(' :: namesText [] (n :: m :: ns) := rfl
    rw [htext, namesText_eq]
    simp [← String.toList_inj]

theorem propertyReadings_ne_nil {ps : List (BareName × Expression)} (h : ps ≠ []) :
    propertyReadings ps ≠ [] := by
  match ps with
  | [] => exact absurd rfl h
  | (n, e) :: ps => exact List.cons_ne_nil _ _

theorem ok_ofList {text : String} {cs : List Char} (h : text.toList = cs) :
    (.ok text : Except Failure String) = .ok (String.ofList cs) := by
  rw [← h, String.ofList_toList]

-- Follows the printer: an expression, the arguments of a call, the properties of an object.
mutual

/-- Every expression is printed, as it is read. -/
theorem print_toNode (e : Expression) : e.toNode.print = .ok (String.ofList e.reading.text) := by
  match e with
  | identifier n => simp [toNode, reading, Node.print, Parse.text, Start.text, followersText]
  | stringLiteral t q =>
    simp [toNode, reading, Node.print, Parse.text, Start.text, followersText, Node.quoted,
      Quote.text, ← String.toList_inj]
  | propertyAccess e n =>
    rw [toNode, Node.print, print_toNode e, reading, Parse.text_followedBy]
    exact ok_ofList (by simp [followersText])
  | elementAccess e k =>
    rw [toNode, Node.print, print_toNode e, print_toNode k, reading, Parse.text_followedBy]
    exact ok_ofList (by simp [followersText])
  | call e es =>
    rw [toNode, Node.print, printAll_toNodes es, any_lacksText_toNodes, print_toNode e, reading,
      Parse.text_followedBy]
    exact ok_ofList (by simp [followersText, argumentsText_eq])
  | importCall e =>
    rw [toNode, Node.print, print_toNode e, reading]
    exact ok_ofList (by simp [Parse.text, Start.text, followersText, argumentsText, importWord])
  | arrow ns none =>
    rw [toNode, Node.print, parameterText_nodes, reading]
    exact ok_ofList (by simp [Parse.text, Start.text, followersText])
  | arrow ns (some b) =>
    rw [toNode, Node.print, parameterText_nodes, print_toNode b, reading]
    exact ok_ofList (by simp [Parse.text])
  | parenthesized e =>
    rw [toNode, Node.print, print_toNode e, reading]
    exact ok_ofList (by simp [Parse.text, Start.text, followersText])
  | object [] => rfl
  | object (p :: ps) =>
    rw [toNode, Node.print, printProperties_nodes (p :: ps), reading]
    refine ok_ofList ?_
    have hps : propertyReadings (p :: ps) ≠ [] := propertyReadings_ne_nil (List.cons_ne_nil p ps)
    simp [Parse.text, Start.text_object hps, followersText, propertiesText_eq hps,
      Node.bracedOrEmpty, hps]

theorem printAll_toNodes (es : List Expression) :
    Node.printAll (toNodes es) = .ok ((readings es).map fun r => String.ofList r.text) := by
  match es with
  | [] => rfl
  | e :: es =>
    rw [toNodes, Node.printAll, print_toNode e, printAll_toNodes es]
    rfl

theorem printProperties_nodes (ps : List (BareName × Expression)) :
    Node.printProperties (propertyNodes ps) =
      .ok ((propertyReadings ps).map fun p => p.1.text ++ ": " ++ String.ofList p.2.text) := by
  match ps with
  | [] => rfl
  | (n, e) :: ps =>
    rw [propertyNodes, Node.printProperties, print_toNode e, printProperties_nodes ps]
    rfl

end

/-- Two expressions have the same text exactly if they are read in the same way. -/
theorem print_eq_iff {a b : Expression} :
    a.toNode.print = b.toNode.print ↔ a.reading = b.reading := by
  rw [print_toNode, print_toNode]
  constructor
  · intro h
    have htext : a.reading.text = b.reading.text := by simpa [← String.toList_inj] using h
    exact (Parse.text_inj a.reading b.reading .nil .nil (by rw [htext])).1
  · intro h
    rw [h]

/-! ### Expressions that are told by their text -/

/-- An arrow function, or what begins with one that something follows. -/
def LeadsWithArrow : Expression → Prop
  | arrow _ _ => True
  | propertyAccess e _ | elementAccess e _ | call e _ => e.LeadsWithArrow
  | identifier _ | stringLiteral _ _ | importCall _ | parenthesized _ | object _ => False

/-- The reading of an expression that does not begin with an arrow function is a chain. -/
theorem exists_reading_eq_chain {e : Expression} (h : ¬ e.LeadsWithArrow) :
    ∃ s fs, e.reading = .chain s fs := by
  match e with
  | identifier _ | stringLiteral _ _ | importCall _ | parenthesized _ | object _ =>
    exact ⟨_, _, rfl⟩
  | propertyAccess e _ | elementAccess e _ | call e _ =>
    obtain ⟨s, fs, he⟩ := exists_reading_eq_chain (e := e) h
    exact ⟨s, _, by rw [reading, he, Parse.followedBy]⟩
  | arrow _ _ => exact absurd trivial h

theorem exists_reading_eq_arrow {e : Expression} (h : e.LeadsWithArrow) :
    ∃ ns b, e.reading = .arrow ns b := by
  match e with
  | arrow _ none | arrow _ (some _) => exact ⟨_, _, rfl⟩
  | propertyAccess e _ | elementAccess e _ | call e _ =>
    obtain ⟨ns, b, he⟩ := exists_reading_eq_arrow (e := e) h
    exact ⟨ns, _, by rw [reading, he, Parse.followedBy]⟩

-- Of two ways to write a module import and an arrow function without a body, one is kept.
mutual

/-- No arrow function is called or accessed, no body is an empty object, and the word that imports
modules is not called like a function. -/
def IsGrouped : Expression → Prop
  | identifier _ | stringLiteral _ _ => True
  | propertyAccess e _ => ¬ e.LeadsWithArrow ∧ e.IsGrouped
  | elementAccess e k => ¬ e.LeadsWithArrow ∧ e.IsGrouped ∧ k.IsGrouped
  | call e es =>
    ¬ e.LeadsWithArrow ∧ (e = identifier importWord → es.length ≠ 1) ∧ e.IsGrouped ∧ AreGrouped es
  | importCall e | parenthesized e => e.IsGrouped
  | arrow _ none => True
  | arrow _ (some b) => b ≠ object [] ∧ b.IsGrouped
  | object ps => PropertiesGrouped ps

def AreGrouped : List Expression → Prop
  | [] => True
  | e :: es => e.IsGrouped ∧ AreGrouped es

def PropertiesGrouped : List (BareName × Expression) → Prop
  | [] => True
  | (_, e) :: ps => e.IsGrouped ∧ PropertiesGrouped ps

end

/-- A call, where the call of the importing word with one argument is a module import. -/
def called : Expression → List Expression → Expression
  | identifier n, [a] => if n = importWord then importCall a else call (identifier n) [a]
  | e, es => call e es

theorem called_eq_call {e : Expression} {es : List Expression}
    (h : e = identifier importWord → es.length ≠ 1) : called e es = call e es := by
  unfold called
  split
  · next n a =>
    split
    · next hn => exact absurd rfl (h (by rw [hn]))
    · rfl
  · rfl

end Expression

-- The way back from a reading.
mutual

def Parse.toExpression : Parse → Expression
  | .chain s fs => followed s.toExpression fs
  | .arrow ns (.chain (.object []) []) => .arrow ns none
  | .arrow ns b => .arrow ns (some b.toExpression)

def Start.toExpression : Start → Expression
  | .name n => .identifier n
  | .literal t q => .stringLiteral t q
  | .parenthesized r => .parenthesized r.toExpression
  | .object ps => .object (toProperties ps)

def followed (e : Expression) : List Follower → Expression
  | [] => e
  | .member n :: fs => followed (.propertyAccess e n) fs
  | .element k :: fs => followed (.elementAccess e k.toExpression) fs
  | .call rs :: fs => followed (e.called (toExpressions rs)) fs

def toExpressions : List Parse → List Expression
  | [] => []
  | r :: rs => r.toExpression :: toExpressions rs

def toProperties : List (BareName × Parse) → List (BareName × Expression)
  | [] => []
  | (n, r) :: ps => (n, r.toExpression) :: toProperties ps

end

theorem followed_append (e : Expression) (fs gs : List Follower) :
    followed e (fs ++ gs) = followed (followed e fs) gs := by
  induction fs generalizing e with
  | nil => rfl
  | cons f fs ih => cases f <;> exact ih _

namespace Expression

/-- One more follower is read back on its own. -/
theorem toExpression_followedBy {e : Expression} (h : ¬ e.LeadsWithArrow) (f : Follower) :
    (e.reading.followedBy f).toExpression = followed e.reading.toExpression [f] := by
  obtain ⟨s, fs, he⟩ := exists_reading_eq_chain h
  rw [he, Parse.followedBy, Parse.toExpression, Parse.toExpression, followed_append]

mutual

/-- Grouped expressions are read back as they are. -/
theorem toExpression_reading {e : Expression} (h : e.IsGrouped) : e.reading.toExpression = e := by
  match e with
  | identifier n => rfl
  | stringLiteral t q => rfl
  | propertyAccess e n =>
    rw [reading, toExpression_followedBy h.1, toExpression_reading h.2]
    rfl
  | elementAccess e k =>
    obtain ⟨harrow, he, hk⟩ := h
    rw [reading, toExpression_followedBy harrow, toExpression_reading he, followed,
      toExpression_reading hk]
    rfl
  | call e es =>
    obtain ⟨harrow, hword, he, hes⟩ := h
    rw [reading, toExpression_followedBy harrow, toExpression_reading he, followed,
      toExpressions_readings hes, called_eq_call hword]
    rfl
  | importCall e =>
    have he : e.reading.toExpression = e := toExpression_reading h
    show called (identifier importWord) [e.reading.toExpression] = importCall e
    rw [he]
    rfl
  | arrow ns none => rfl
  | arrow ns (some b) =>
    obtain ⟨hobject, hb⟩ := h
    have hback : b.reading.toExpression = b := toExpression_reading hb
    have hne : b.reading ≠ .chain (.object []) [] := fun heq => hobject (by rw [← hback, heq]; rfl)
    rw [reading, Parse.toExpression, hback]
    exact fun heq => hne heq
  | parenthesized e =>
    have he : e.reading.toExpression = e := toExpression_reading h
    show parenthesized e.reading.toExpression = parenthesized e
    rw [he]
  | object ps =>
    show object (toProperties (propertyReadings ps)) = object ps
    rw [toProperties_propertyReadings h]

theorem toExpressions_readings {es : List Expression} (h : AreGrouped es) :
    toExpressions (readings es) = es := by
  match es with
  | [] => rfl
  | e :: es => rw [readings, toExpressions, toExpression_reading h.1, toExpressions_readings h.2]

theorem toProperties_propertyReadings {ps : List (BareName × Expression)}
    (h : PropertiesGrouped ps) : toProperties (propertyReadings ps) = ps := by
  match ps with
  | [] => rfl
  | (n, e) :: ps =>
    rw [propertyReadings, toProperties, toExpression_reading h.1, toProperties_propertyReadings h.2]

end

end Expression

/-- The reading is a call of what is read as the callee. -/
def Parse.IsCallOf (r callee : Parse) (arguments : List Parse) : Prop :=
  ∃ s fs, callee = .chain s fs ∧ r = .chain s (fs ++ [.call arguments])

namespace Expression

/-- Every expression is printed, and two of them have the same text exactly if they are read in
the same way. Grouped expressions are told by their text, and the text of a call is that of a call
of the same callee exactly if the callee does not begin with an arrow function. -/
theorem print_determines_reading (a b : Expression) :
    (∃ text, a.toNode.print = .ok text) ∧
      (a.toNode.print = b.toNode.print ↔ a.reading = b.reading) ∧
      (a.IsGrouped → b.IsGrouped → a.toNode.print = b.toNode.print → a = b) ∧
      ∀ arguments, (∀ e : Expression,
          e.toNode.print = (Node.call a.toNode (toNodes arguments)).print →
            e.reading.IsCallOf a.reading (readings arguments)) ↔ ¬ a.LeadsWithArrow := by
  refine ⟨⟨_, print_toNode a⟩, print_eq_iff, fun ha hb h => ?_, fun arguments => ⟨?_, ?_⟩⟩
  · rw [← toExpression_reading ha, ← toExpression_reading hb, print_eq_iff.1 h]
  · intro hcall harrow
    obtain ⟨ns, body, ha⟩ := exists_reading_eq_arrow harrow
    obtain ⟨s, fs, hchain, -⟩ := hcall (call a arguments) rfl
    rw [ha] at hchain
    cases hchain
  · intro harrow e he
    obtain ⟨s, fs, ha⟩ := exists_reading_eq_chain harrow
    have hreading : e.reading = (call a arguments).reading := print_eq_iff.1 he
    refine ⟨s, fs, ha, ?_⟩
    rw [hreading, reading, ha, Parse.followedBy]

def rootWord : BareName := ⟨"React", by decide +kernel⟩

def memberWord : BareName := ⟨"lazy", by decide +kernel⟩

def panelText : LiteralText := ⟨"./panel", fun c hc => by
  have hall : "./panel".toList.all fun c => c != '"' && c != '\'' := by decide +kernel
  simpa using List.all_eq_true.1 hall c hc⟩

/-- A member that is called with a function which imports a module. -/
def lazyPanel : Expression :=
  call (propertyAccess (identifier rootWord) memberWord)
    [arrow [] (some (importCall (stringLiteral panelText .double)))]

theorem lazyPanel_isGrouped : lazyPanel.IsGrouped := by
  have hname : propertyAccess (identifier rootWord) memberWord ≠ identifier importWord := nofun
  have hbody : importCall (stringLiteral panelText .double) ≠ object [] := nofun
  exact ⟨id, fun h => absurd h hname, ⟨id, trivial⟩, ⟨hbody, trivial⟩, trivial⟩

/-- The text of a deferred import tells the grouped expression, and is read as a call of the
wrapper. -/
theorem print_determines_reading_lazyPanel :
    lazyPanel.toNode.print = .ok "React.lazy(() => import(\"./panel\"))" ∧
      (∀ e : Expression, e.IsGrouped → lazyPanel.toNode.print = e.toNode.print → lazyPanel = e) ∧
      ∀ e : Expression, lazyPanel.toNode.print = e.toNode.print →
        e.reading.IsCallOf (propertyAccess (identifier rootWord) memberWord).reading
          (readings [arrow [] (some (importCall (stringLiteral panelText .double)))]) := by
  refine ⟨rfl, fun e he h => ?_, fun e h => ?_⟩
  · exact (print_determines_reading lazyPanel e).2.2.1 lazyPanel_isGrouped he h
  · have hcall := (print_determines_reading (propertyAccess (identifier rootWord) memberWord)
      lazyPanel).2.2.2
    exact (hcall _).2 id e h.symm

def functionWord : BareName := ⟨"f", by decide +kernel⟩

/-- The call of an arrow function has the text of an arrow function whose body is a call, and is
read as one. -/
theorem calledArrow_reads_as_arrow :
    (call (arrow [] (some (identifier functionWord))) []).toNode.print = .ok "() => f()" ∧
      (arrow [] (some (call (identifier functionWord) []))).toNode.print = .ok "() => f()" ∧
      call (arrow [] (some (identifier functionWord))) [] ≠
        arrow [] (some (call (identifier functionWord) [])) ∧
      ¬ (call (arrow [] (some (identifier functionWord))) []).reading.IsCallOf
        (arrow [] (some (identifier functionWord))).reading [] := by
  refine ⟨rfl, rfl, nofun, ?_⟩
  rintro ⟨s, fs, harrow, -⟩
  cases harrow

end Expression

end DeferredImports
