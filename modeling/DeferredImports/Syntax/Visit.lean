import DeferredImports.Syntax.Import
import DeferredImports.Syntax.Slots

/-! Visiting the children of a node in the order of its fields. A visitor keeps a child or puts
other nodes in its place; a child alone in its field gives way to exactly one node. Descriptions
of types are visited only in a sequence with syntax. With such a visitor the imports at chosen
positions of a tree are replaced. -/

namespace DeferredImports

/-- One step from a node to a child. -/
structure Step where
  field : Field
  index : Option Nat
deriving DecidableEq

/-- A visitor of the nodes with a property. Its answer `none` keeps the very node. -/
abbrev Visitor (σ : Type) (P : Node → Prop) : Type :=
  Step → (c : Node) → P c → Effect σ (Option (List Node))

namespace Node

variable {σ : Type} {P : Node → Prop}

def isSyntax (n : Node) : Bool := n.kind.isSyntax

/-- The answers of a visitor to each node of a sequence, from the given index on. -/
def visitItems (visit : Visitor σ P) (field : Field) :
    Nat → (cs : List Node) → (∀ c ∈ cs, P c) → Effect σ (List (Option (List Node)))
  | _, [], _ => pure []
  | i, c :: cs, h => do
    let answer ← visit ⟨field, some i⟩ c (h c List.mem_cons_self)
    let answers ← visitItems visit field (i + 1) cs fun d hd => h d (List.mem_cons_of_mem c hd)
    return answer :: answers

/-- The sequence with each node kept or replaced as answered. -/
def spliced (cs : List Node) (answers : List (Option (List Node))) : List Node :=
  (List.zipWith (fun c answer => answer.getD [c]) cs answers).flatten

def visitSlot (parent : Kind) (visit : Visitor σ P) :
    (s : Slot) → (∀ c ∈ s.nodes, P c) → Effect σ (Option Slot)
  | .one _ none, _ | .many _ none, _ => return none
  | .one field (some c), h => do
    if !c.isSyntax then return none
    match ← visit ⟨field, none⟩ c (h c (by simp [Slot.nodes])) with
    | none => return none
    | some [n] => return some (.one field (some n))
    | some ns => throw (if parent.isSyntax then .splice ns.length parent field else .absentPart)
  | .many field (some cs), h => do
    if !cs.any isSyntax then return none
    let answers ← visitItems visit field 0 cs h
    return if answers.any Option.isSome then some (.many field (some (spliced cs answers))) else none

def visitSlots (parent : Kind) (visit : Visitor σ P) :
    (ss : List Slot) → (∀ s ∈ ss, ∀ c ∈ s.nodes, P c) → Effect σ (List (Option Slot))
  | [], _ => pure []
  | s :: ss, h => do
    let answer ← visitSlot parent visit s (h s List.mem_cons_self)
    let answers ← visitSlots parent visit ss fun t ht => h t (List.mem_cons_of_mem s ht)
    return answer :: answers

/-- The node with its children visited; `none` if every child was kept. -/
def visitEachChild (n : Node) (visit : Visitor σ (· ∈ n.children)) : Effect σ (Option Node) := do
  let answers ← visitSlots n.kind visit n.slots fun _ hs _ hc => mem_children_of_mem_slot hs hc
  return if answers.any Option.isSome then
      some (n.withSlots (List.zipWith (fun s answer => answer.getD s) n.slots answers))
    else none

end Node

/-- What is done with the import at a position; positions without an entry are walked through. -/
abbrev Replacer (σ : Type) : Type :=
  List Step → Option (ImportStatement → Effect σ (Option (List Node)))

namespace Node

variable {σ : Type}

/-- Replaces the outermost chosen imports below a node, in document order; `none` if all of them
were kept. Replacements are not walked again. -/
def replaceImports (replacer : Replacer σ) (n : Node) : Effect σ (Option Node) :=
  visitEachChild n fun step c _ =>
    match c.import?, replacer [step] with
    | some d, some replace => replace d
    | _, _ => do
      let changed ← replaceImports (fun path => replacer (step :: path)) c
      return changed.map ([·])
termination_by sizeOf n
decreasing_by exact sizeOf_child_lt ‹_›

end Node

end DeferredImports
