import DeferredImports.Syntax.Node

/-! The children of a node, field by field. Main statements: a node is rebuilt by its own slots, a
rebuilt node has the slots that were put into it and all else as it was, and its children are
smaller than it is. -/

namespace DeferredImports

/-- A field that holds one node or a sequence of nodes, if it holds anything. -/
inductive Slot where
  | one (field : Field) (child : Option Node)
  | many (field : Field) (children : Option (List Node))

namespace Slot

def nodes : Slot → List Node
  | one _ c => c.toList
  | many _ cs => cs.getD []

/-- The other slot is of the same field and the same sort, and filled if this one is. -/
def Fits : Slot → Slot → Prop
  | one field c, one other d => field = other ∧ (c.isSome → d.isSome)
  | many field cs, many other ds => field = other ∧ (cs.isSome → ds.isSome)
  | _, _ => False

/-- The slots fit one by one. -/
def FitAll : List Slot → List Slot → Prop
  | [], [] => True
  | s :: ss, t :: ts => s.Fits t ∧ FitAll ss ts
  | _, _ => False

theorem fits_one {field : Field} {c : Option Node} {t : Slot} :
    (one field c).Fits t ↔ ∃ d, t = one field d ∧ (c.isSome → d.isSome) := by
  cases t with
  | one other d =>
    simp only [Fits, one.injEq]
    grind
  | many other ds => simp [Fits]

theorem fits_many {field : Field} {cs : Option (List Node)} {t : Slot} :
    (many field cs).Fits t ↔ ∃ ds, t = many field ds ∧ (cs.isSome → ds.isSome) := by
  cases t with
  | one other d => simp [Fits]
  | many other ds =>
    simp only [Fits, many.injEq]
    grind

theorem fitAll_nil {ts : List Slot} : FitAll [] ts ↔ ts = [] := by
  cases ts <;> simp [FitAll]

theorem fitAll_cons {s : Slot} {ss ts : List Slot} :
    FitAll (s :: ss) ts ↔ ∃ t rest, ts = t :: rest ∧ s.Fits t ∧ FitAll ss rest := by
  cases ts <;> grind [FitAll]

theorem fitAll_map {ss : List Slot} {change : Slot → Slot} (h : ∀ s ∈ ss, s.Fits (change s)) :
    FitAll ss (ss.map change) := by
  induction ss with
  | nil => trivial
  | cons s ss ih =>
    exact ⟨h s List.mem_cons_self, ih fun t ht => h t (List.mem_cons_of_mem s ht)⟩

/-- The content of the slot is smaller than `size`. -/
def Below (size : Nat) : Slot → Prop
  | one _ c => ∀ n, c = some n → sizeOf n < size
  | many _ cs => ∀ ns, cs = some ns → sizeOf ns < size

theorem Below.of_mem {size : Nat} {s : Slot} {c : Node} (h : s.Below size) (hc : c ∈ s.nodes) :
    sizeOf c < size := by
  cases s with
  | one _ d => exact h c (by simpa [nodes] using hc)
  | many _ cs =>
    cases cs with
    | none => simp [nodes] at hc
    | some ns => exact Nat.lt_trans (List.sizeOf_lt_of_mem hc) (h ns rfl)

end Slot

namespace Node

/-- The fields that hold nodes, in the order of the node's fields. -/
def slots : Node → List Slot
  | identifier .. | stringLiteral .. | parameter .. | otherExpression .. | rawStatement ..
  | otherDeclaration .. => []
  | propertyAccess e _ | parenthesized e | expressionWithTypeArguments e _
  | exportAssignment e => [.one .expression (some e)]
  | elementAccess e a => [.one .expression (some e), .one .argument (some a)]
  | callExpression e as => [.one .expression (some e), .many .arguments as]
  | importCall a => [.one .argument (some a)]
  | arrowFunction ps b => [.many .parameters ps, .one .body b]
  | functionExpression _ ps | functionDeclaration _ ps => [.many .parameters ps]
  | propertyAssignment _ i => [.one .initializer (some i)]
  | objectLiteral ps => [.many .properties ps]
  | importSpecifier n p _ => [.one .name (some n), .one .propertyName p]
  | namedImports es => [.many .elements es]
  | namespaceImport n => [.one .name (some n)]
  | importDeclaration s d b _ _ _ =>
    [.one .moduleSpecifier (some s), .one .defaultName d, .one .namedBindings b]
  | variableDeclaration _ i => [.one .initializer i]
  | variableStatement ds _ _ => [.many .declarations (some ds)]
  | heritageClause _ ts => [.many .types ts]
  | classDeclaration _ hs => [.many .heritageClauses hs]
  | sourceModule _ ss _ => [.many .statements ss]
  | typeSymbol _ p => [.one .parent p]
  | callSignature _ r => [.one .returnType r]
  | typeHandle _ cs => [.many .callSignatures cs]

/-- The node with the content of its slots exchanged, slot by slot. -/
def withSlots : Node → List Slot → Node
  | propertyAccess _ n, [.one _ (some e)] => propertyAccess e n
  | parenthesized _, [.one _ (some e)] => parenthesized e
  | expressionWithTypeArguments _ as, [.one _ (some e)] => expressionWithTypeArguments e as
  | exportAssignment _, [.one _ (some e)] => exportAssignment e
  | elementAccess .., [.one _ (some e), .one _ (some a)] => elementAccess e a
  | callExpression .., [.one _ (some e), .many _ as] => callExpression e as
  | importCall _, [.one _ (some a)] => importCall a
  | arrowFunction .., [.many _ ps, .one _ b] => arrowFunction ps b
  | functionExpression n _, [.many _ ps] => functionExpression n ps
  | functionDeclaration n _, [.many _ ps] => functionDeclaration n ps
  | propertyAssignment n _, [.one _ (some i)] => propertyAssignment n i
  | objectLiteral _, [.many _ ps] => objectLiteral ps
  | importSpecifier _ _ o, [.one _ (some n), .one _ p] => importSpecifier n p o
  | namedImports _, [.many _ es] => namedImports es
  | namespaceImport _, [.one _ (some n)] => namespaceImport n
  | importDeclaration _ _ _ o t x, [.one _ (some s), .one _ d, .one _ b] =>
    importDeclaration s d b o t x
  | variableDeclaration n _, [.one _ i] => variableDeclaration n i
  | variableStatement _ k t, [.many _ (some ds)] => variableStatement ds k t
  | heritageClause t _, [.many _ ts] => heritageClause t ts
  | classDeclaration n _, [.many _ hs] => classDeclaration n hs
  | sourceModule f _ t, [.many _ ss] => sourceModule f ss t
  | typeSymbol n _, [.one _ p] => typeSymbol n p
  | callSignature c _, [.one _ r] => callSignature c r
  | typeHandle t _, [.many _ cs] => typeHandle t cs
  | n, _ => n

theorem withSlots_slots (n : Node) : n.withSlots n.slots = n := by
  cases n <;> rfl

/-- A rebuilt node has the slots that were put into it, and nothing else is lost: with its own slots
put back it is the node that it was. -/
theorem slots_withSlots {n : Node} {ss : List Slot} (h : Slot.FitAll n.slots ss) :
    (n.withSlots ss).slots = ss ∧ (n.withSlots ss).withSlots n.slots = n := by
  cases n <;>
    simp only [slots, Slot.fitAll_nil, Slot.fitAll_cons, Slot.fits_one, Slot.fits_many] at h
  case identifier | stringLiteral | parameter | otherExpression | rawStatement
      | otherDeclaration =>
    subst h
    exact ⟨rfl, rfl⟩
  case propertyAccess | parenthesized | expressionWithTypeArguments | exportAssignment | importCall
      | propertyAssignment | namespaceImport | variableStatement =>
    obtain ⟨_, _, rfl, ⟨_ | _, rfl, hfilled⟩, rfl⟩ := h
    · cases hfilled rfl
    · exact ⟨rfl, rfl⟩
  case functionExpression | functionDeclaration | objectLiteral | namedImports
      | variableDeclaration | heritageClause | classDeclaration | sourceModule | typeSymbol
      | callSignature | typeHandle =>
    obtain ⟨_, _, rfl, ⟨_, rfl, -⟩, rfl⟩ := h
    exact ⟨rfl, rfl⟩
  case elementAccess =>
    obtain ⟨_, _, rfl, ⟨_ | _, rfl, hfirst⟩, _, _, rfl, ⟨_ | _, rfl, hsecond⟩, rfl⟩ := h
    · cases hfirst rfl
    · cases hfirst rfl
    · cases hsecond rfl
    · exact ⟨rfl, rfl⟩
  case callExpression | importSpecifier =>
    obtain ⟨_, _, rfl, ⟨_ | _, rfl, hfirst⟩, _, _, rfl, ⟨_, rfl, -⟩, rfl⟩ := h
    · cases hfirst rfl
    · exact ⟨rfl, rfl⟩
  case arrowFunction =>
    obtain ⟨_, _, rfl, ⟨_, rfl, -⟩, _, _, rfl, ⟨_, rfl, -⟩, rfl⟩ := h
    exact ⟨rfl, rfl⟩
  case importDeclaration =>
    obtain ⟨_, _, rfl, ⟨_ | _, rfl, hfirst⟩, _, _, rfl, ⟨_, rfl, -⟩, _, _, rfl, ⟨_, rfl, -⟩,
      rfl⟩ := h
    · cases hfirst rfl
    · exact ⟨rfl, rfl⟩

def children (n : Node) : List Node := n.slots.flatMap Slot.nodes

theorem mem_children_of_mem_slot {n c : Node} {s : Slot} (hs : s ∈ n.slots) (hc : c ∈ s.nodes) :
    c ∈ n.children :=
  List.mem_flatMap.2 ⟨s, hs, hc⟩

theorem slot_below_sizeOf {n : Node} {s : Slot} (hs : s ∈ n.slots) : s.Below (sizeOf n) := by
  cases n <;> simp only [slots, List.mem_cons, List.not_mem_nil, or_false] at hs
  case importDeclaration =>
    rcases hs with rfl | rfl | rfl <;> rintro _ ⟨rfl⟩ <;> simp <;> omega
  case elementAccess | callExpression | arrowFunction | importSpecifier =>
    rcases hs with rfl | rfl <;> rintro _ ⟨rfl⟩ <;> simp <;> omega
  all_goals
    subst hs
    rintro _ ⟨rfl⟩
    simp
    try omega

theorem sizeOf_child_lt {n c : Node} (h : c ∈ n.children) : sizeOf c < sizeOf n := by
  obtain ⟨s, hs, hc⟩ := List.mem_flatMap.1 h
  exact (slot_below_sizeOf hs).of_mem hc

end Node

end DeferredImports
