/-! Tables by name that remember the order in which their names first came. -/

namespace DeferredImports

structure Table (α : Type) where
  entries : List (String × α)
deriving Inhabited

namespace Table

variable {α : Type}

def empty : Table α := ⟨[]⟩

def get? (t : Table α) (name : String) : Option α :=
  (t.entries.find? fun e => e.1 == name).map Prod.snd

def contains (t : Table α) (name : String) : Bool := (t.get? name).isSome

def names (t : Table α) : List String := t.entries.map Prod.fst

def size (t : Table α) : Nat := t.entries.length

def assign (name : String) (value : α) : List (String × α) → List (String × α)
  | [] => [(name, value)]
  | e :: es => if e.1 = name then (name, value) :: es else e :: assign name value es

/-- A known name keeps its place and takes the new value; a new name comes last. -/
def insert (t : Table α) (name : String) (value : α) : Table α :=
  ⟨assign name value t.entries⟩

def ofList (es : List (String × α)) : Table α :=
  es.foldl (fun t e => t.insert e.1 e.2) empty

theorem find?_assign (es : List (String × α)) (name other : String) (value : α) :
    (assign name value es).find? (fun e => e.1 == other) =
      if other = name then some (name, value) else es.find? fun e => e.1 == other := by
  induction es with
  | nil =>
    by_cases h : other = name
    · simp [assign, h]
    · simp [assign, h, Ne.symm h]
  | cons e es ih =>
    by_cases he : e.1 = name
    · by_cases h : other = name
      · simp [assign, he, h]
      · simp [assign, he, h, Ne.symm h]
    · by_cases h : other = name
      · simp [assign, he, h ▸ ih, h]
      · simp [assign, he, List.find?_cons, ih, h]

@[simp] theorem get?_insert (t : Table α) (name other : String) (value : α) :
    (t.insert name value).get? other = if other = name then some value else t.get? other := by
  simp only [get?, insert, find?_assign]
  split <;> rfl

theorem map_fst_assign (es : List (String × α)) (name : String) (value : α) :
    (assign name value es).map Prod.fst =
      if name ∈ es.map Prod.fst then es.map Prod.fst else es.map Prod.fst ++ [name] := by
  induction es with
  | nil => simp [assign]
  | cons e es ih =>
    by_cases he : e.1 = name
    · simp [assign, he]
    · have : ¬ name = e.1 := fun h => he h.symm
      by_cases h : name ∈ es.map Prod.fst <;> simp_all [assign]

@[simp] theorem names_insert (t : Table α) (name : String) (value : α) :
    (t.insert name value).names = if name ∈ t.names then t.names else t.names ++ [name] :=
  map_fst_assign t.entries name value

end Table

end DeferredImports
