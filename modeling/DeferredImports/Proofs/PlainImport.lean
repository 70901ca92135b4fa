import DeferredImports.Syntax.Import

/-! Plain imports: import statements whose parts are all of the kinds that they should be, so that
their names can be read off. -/

namespace DeferredImports

/-- A named binding, with the exported name where it is spelled. -/
structure PlainBinding where
  localName : String
  exported : Option String
  forTypes : Bool

namespace PlainBinding

def exportedName (b : PlainBinding) : String := b.exported.getD b.localName

def toNode (b : PlainBinding) : Node :=
  .importSpecifier (.identifier b.localName) (b.exported.map .identifier) (some b.forTypes)

@[simp] theorem localName_toNode (b : PlainBinding) : b.toNode.localName = .ok b.localName := rfl

@[simp] theorem isTypeOnly_toNode (b : PlainBinding) : b.toNode.isTypeOnly = .ok b.forTypes := by
  rcases b with ⟨_, _, _ | _⟩ <;> rfl

@[simp] theorem exportedName_toNode (b : PlainBinding) :
    b.toNode.exportedName = .ok b.exportedName := by
  rcases b with ⟨_, _ | _, _⟩ <;> rfl

end PlainBinding

/-- What an import binds besides the default name. -/
inductive PlainClause where
  | namespaceAs (name : String)
  | named (bindings : List PlainBinding)

def PlainClause.toNode : PlainClause → Node
  | namespaceAs n => .namespaceImport (.identifier n)
  | named bs => .namedImports (some (bs.map PlainBinding.toNode))

/-- No clause without bindings is written. -/
def PlainClause.ofBindings? : List PlainBinding → Option PlainClause
  | [] => none
  | b :: bs => some (.named (b :: bs))

structure PlainImport where
  specifier : String
  quote : Option String
  defaultName : Option String
  clause : Option PlainClause
  forTypes : Bool
  leadingTrivia : Option String
  sourceText : Option String

namespace PlainImport

def literal (i : PlainImport) : Node := .stringLiteral i.specifier i.quote

def toStatement (i : PlainImport) : ImportStatement where
  moduleSpecifier := i.literal
  defaultName := i.defaultName.map .identifier
  namedBindings := i.clause.map PlainClause.toNode
  isTypeOnly := some i.forTypes
  leadingTrivia := i.leadingTrivia
  sourceText := i.sourceText

def namespaceName (i : PlainImport) : Option String :=
  match i.clause with
  | some (.namespaceAs n) => some n
  | _ => none

def namedBindings (i : PlainImport) : List PlainBinding :=
  match i.clause with
  | some (.named bs) => bs
  | _ => []

/-- The local names, in the order of the source. -/
def localNames (i : PlainImport) : List String :=
  i.defaultName.toList ++ i.namespaceName.toList ++ i.namedBindings.map PlainBinding.localName

/-- The default and the named bindings as local names, each with the name of the export that it is
bound to. -/
def exportsBound (i : PlainImport) : List (String × String) :=
  (i.defaultName.map fun n => (n, "default")).toList ++
    i.namedBindings.map fun b => (b.localName, b.exportedName)

/-- The local names that may be deferred: those bound to an export, and not for types only. -/
def deferrable (i : PlainImport) : List String :=
  i.defaultName.toList ++
    (i.namedBindings.filter fun b => !b.forTypes).map PlainBinding.localName

/-- The bindings of values, as local names with the exports that they are bound to. -/
def valueBindings (i : PlainImport) : List (String × String) :=
  (i.defaultName.map fun n => (n, "default")).toList ++
    (i.namedBindings.filter fun b => !b.forTypes).map fun b => (b.localName, b.exportedName)

/-- The import of what is not among some local names, as newly written. A namespace, which is bound
to no export, always stays. -/
def without (i : PlainImport) (names : List String) : PlainImport where
  specifier := i.specifier
  quote := i.quote
  defaultName := i.defaultName.filter (· ∉ names)
  clause :=
    match i.clause with
    | some (.namespaceAs n) => some (.namespaceAs n)
    | some (.named bs) => PlainClause.ofBindings? (bs.filter fun b => b.localName ∉ names)
    | none => none
  forTypes := false
  leadingTrivia := none
  sourceText := none

@[simp] theorem specifier_toStatement (i : PlainImport) :
    i.toStatement.specifier = .ok i.specifier := rfl

@[simp] theorem defaultBinding?_toStatement (i : PlainImport) :
    i.toStatement.defaultBinding? = .ok i.defaultName := by
  rcases i with ⟨_, _, _ | _, _, _, _, _⟩ <;> rfl

@[simp] theorem namespaceName?_toStatement (i : PlainImport) :
    i.toStatement.namespaceName? = .ok i.namespaceName := by
  rcases i with ⟨_, _, _, _ | _ | _, _, _, _⟩ <;> rfl

@[simp] theorem specifiers_toStatement (i : PlainImport) :
    i.toStatement.specifiers = .ok (i.namedBindings.map PlainBinding.toNode) := by
  rcases i with ⟨_, _, _, _ | _ | _, _, _, _⟩ <;> rfl

theorem mapM_localName (bs : List PlainBinding) :
    (bs.map PlainBinding.toNode).mapM Node.localName = .ok (bs.map PlainBinding.localName) := by
  induction bs with
  | nil => rfl
  | cons b bs ih =>
    rw [List.map_cons, List.mapM_cons, PlainBinding.localName_toNode, ih]
    rfl

@[simp] theorem boundNames_toStatement (i : PlainImport) :
    i.toStatement.boundNames = .ok i.localNames := by
  simp only [ImportStatement.boundNames, defaultBinding?_toStatement, namespaceName?_toStatement,
    specifiers_toStatement, bind, Except.bind, mapM_localName]
  rfl

theorem boundNames_toNode (i : PlainImport) :
    i.toStatement.toNode.boundNames = .ok i.localNames :=
  i.boundNames_toStatement

theorem defaultName_without (i : PlainImport) (names : List String) :
    (i.without names).defaultName.toList = i.defaultName.toList.filter (· ∉ names) := by
  cases h : i.defaultName with
  | none => simp [without, h]
  | some n => by_cases hn : n ∈ names <;> simp [without, h, hn]

@[simp] theorem namespaceName_without (i : PlainImport) (names : List String) :
    (i.without names).namespaceName = i.namespaceName := by
  rcases i with ⟨_, _, _, _ | n | bs, _, _, _⟩
  · rfl
  · rfl
  · simp only [without, namespaceName]
    cases bs.filter fun b => b.localName ∉ names <;> rfl

@[simp] theorem namedBindings_without (i : PlainImport) (names : List String) :
    (i.without names).namedBindings = i.namedBindings.filter (·.localName ∉ names) := by
  rcases i with ⟨_, _, _, _ | n | bs, _, _, _⟩
  · rfl
  · rfl
  · simp only [without, namedBindings]
    cases bs.filter fun b => b.localName ∉ names <;> rfl

/-- The other local names stay, in their order. -/
theorem localNames_without {i : PlainImport} {names : List String}
    (h : ∀ n, i.namespaceName = some n → n ∉ names) :
    (i.without names).localNames = i.localNames.filter (· ∉ names) := by
  have hn : i.namespaceName.toList.filter (· ∉ names) = i.namespaceName.toList := by
    apply List.filter_eq_self.2
    intro n hn
    simpa using h n (by simpa using hn)
  simp only [localNames, defaultName_without, namespaceName_without, namedBindings_without,
    List.filter_append, List.filter_map, Function.comp_def, hn]

theorem map_fst_exportsBound (i : PlainImport) :
    i.exportsBound.map Prod.fst =
      i.defaultName.toList ++ i.namedBindings.map PlainBinding.localName := by
  cases h : i.defaultName <;> simp [exportsBound, h]

theorem map_fst_valueBindings (i : PlainImport) : i.valueBindings.map Prod.fst = i.deferrable := by
  cases h : i.defaultName <;> simp [valueBindings, deferrable, h, Function.comp_def]

theorem exportsBound_sublist (i : PlainImport) :
    (i.exportsBound.map Prod.fst).Sublist i.localNames := by
  rw [map_fst_exportsBound, localNames, List.append_assoc]
  exact (List.sublist_append_right _ _).append_left _

theorem deferrable_sublist (i : PlainImport) :
    i.deferrable.Sublist (i.exportsBound.map Prod.fst) := by
  rw [map_fst_exportsBound, deferrable]
  exact (List.filter_sublist.map _).append_left _

/-- A namespace is bound to no export. -/
theorem namespaceName_not_mem_exportsBound {i : PlainImport} (h : i.localNames.Nodup) {n : String}
    (hn : i.namespaceName = some n) : n ∉ i.exportsBound.map Prod.fst := by
  have hd : i.localNames = i.defaultName.toList ++ (n :: i.namedBindings.map (·.localName)) := by
    simp [localNames, hn]
  rw [hd, List.nodup_append] at h
  rw [map_fst_exportsBound, List.mem_append, not_or]
  refine ⟨fun hm => h.2.2 n hm n List.mem_cons_self rfl, ?_⟩
  exact (List.nodup_cons.1 h.2.1).1

end PlainImport

end DeferredImports
