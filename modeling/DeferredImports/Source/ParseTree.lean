/-! Parse trees of source files, with byte offsets into the text. -/

namespace DeferredImports

/-- The named children that reading asks for. -/
inductive TreeField where
  | name | newName | source | declaration | value | object | property | parameter | parameters
  | pattern | returnType | body | consequence | alternative | type
deriving DecidableEq

/-- A node of a parse tree: its type, whether it is named rather than a mere token, whether the
parser made it up, the bytes that it covers, and its children, some of them by field. -/
structure ParseTree where
  type : String
  isNamed : Bool
  isMissing : Bool
  start : Nat
  stop : Nat
  children : List ParseTree
  fields : List (TreeField × Nat)
deriving Inhabited

namespace ParseTree

def namedChildren (t : ParseTree) : List ParseTree := t.children.filter isNamed

def child? (t : ParseTree) (field : TreeField) : Option ParseTree :=
  (t.fields.lookup field).bind fun i => t.children[i]?

def namedOfType? (t : ParseTree) (type : String) : Option ParseTree :=
  t.namedChildren.find? fun c => c.type == type

/-- The first named child that is no comment. -/
def firstMeaningful? (t : ParseTree) : Option ParseTree :=
  t.namedChildren.find? fun c => c.type != "comment"

/-- Whether a token of the given type is a child of the node. -/
def hasToken (t : ParseTree) (type : String) : Bool :=
  t.children.any fun c => !c.isNamed && c.type == type

/-- Imports and exports of types carry a keyword. -/
def isTypeOnly (t : ParseTree) : Bool := t.hasToken "type" || t.hasToken "typeof"

theorem sizeOf_lt_of_mem_children {t c : ParseTree} (h : c ∈ t.children) :
    sizeOf c < sizeOf t := by
  have := List.sizeOf_lt_of_mem h
  cases t
  simp_all
  omega

theorem mem_children_of_mem_namedChildren {t c : ParseTree} (h : c ∈ t.namedChildren) :
    c ∈ t.children :=
  (List.mem_filter.1 h).1

theorem sizeOf_lt_of_child? {t c : ParseTree} {field : TreeField} (h : t.child? field = some c) :
    sizeOf c < sizeOf t := by
  obtain ⟨i, -, hi⟩ := Option.bind_eq_some_iff.1 h
  exact sizeOf_lt_of_mem_children (List.mem_of_getElem? hi)

theorem sizeOf_lt_of_firstMeaningful? {t c : ParseTree} (h : t.firstMeaningful? = some c) :
    sizeOf c < sizeOf t :=
  sizeOf_lt_of_mem_children (mem_children_of_mem_namedChildren (List.mem_of_find?_eq_some h))

mutual

/-- The nodes that stand for errors, a node before those below it. -/
def errors : ParseTree → List ParseTree
  | ⟨type, isNamed, isMissing, start, stop, children, fields⟩ =>
    (if type == "ERROR" || isMissing then
        [⟨type, isNamed, isMissing, start, stop, children, fields⟩]
      else []) ++ errorsIn children

def errorsIn : List ParseTree → List ParseTree
  | [] => []
  | c :: cs => errors c ++ errorsIn cs

end

end ParseTree

end DeferredImports
