import DeferredImports.Syntax.Visit
import Mathlib.Data.List.Nodup

/-! Places in a tree, in the order of the document, and trees with other nodes at some places. Main
statements: no place comes twice, and a tree with other nodes at some places has its own slots with
these nodes in them. -/

namespace DeferredImports

/-- In a list where no key comes twice, each entry is found under its key. -/
theorem lookup_eq_some_of_mem {α β : Type} [BEq α] [LawfulBEq α] {entries : List (α × β)}
    (hnodup : (entries.map Prod.fst).Nodup) {a : α × β} (ha : a ∈ entries) :
    entries.lookup a.1 = some a.2 := by
  obtain ⟨before, after, rfl⟩ := List.append_of_mem ha
  refine List.lookup_eq_some_iff.2 ⟨before, after, rfl, fun b hb => ?_⟩
  rw [List.map_append, List.map_cons, List.nodup_append] at hnodup
  have hne := hnodup.2.2 b.1 (List.mem_map_of_mem hb) a.1 List.mem_cons_self
  simpa using hne.symm

theorem mem_of_lookup_eq_some {α β : Type} [BEq α] [LawfulBEq α] {entries : List (α × β)} {a : α}
    {b : β} (h : entries.lookup a = some b) : (a, b) ∈ entries := by
  obtain ⟨before, after, rfl, -⟩ := List.lookup_eq_some_iff.1 h
  simp

namespace Slot

def field : Slot → Field
  | one field _ | many field _ => field

/-- The nodes of a sequence with the steps to them, from the given index on. -/
def numbered (field : Field) : Nat → List Node → List (Step × Node)
  | _, [] => []
  | i, c :: cs => (⟨field, some i⟩, c) :: numbered field (i + 1) cs

/-- The nodes in a slot with the steps to them. -/
def contents : Slot → List (Step × Node)
  | one _ none | many _ none => []
  | one field (some c) => [(⟨field, none⟩, c)]
  | many field (some cs) => numbered field 0 cs

/-- The contents that are walked: a slot without syntax is passed over. -/
def walked (s : Slot) : List (Step × Node) := if s.nodes.any Node.isSyntax then s.contents else []

theorem mem_numbered {field : Field} {i : Nat} {cs : List Node} {w : Step × Node}
    (h : w ∈ numbered field i cs) :
    w.1.field = field ∧ (∃ j, w.1.index = some j ∧ i ≤ j) ∧ w.2 ∈ cs := by
  induction cs generalizing i with
  | nil => cases h
  | cons c cs ih =>
    rcases List.mem_cons.1 h with rfl | h
    · exact ⟨rfl, ⟨i, rfl, Nat.le_refl i⟩, List.mem_cons_self⟩
    · obtain ⟨hfield, ⟨j, hj, hle⟩, hmem⟩ := ih h
      exact ⟨hfield, ⟨j, hj, by omega⟩, List.mem_cons_of_mem c hmem⟩

theorem nodup_numbered (field : Field) (i : Nat) (cs : List Node) :
    ((numbered field i cs).map Prod.fst).Nodup := by
  induction cs generalizing i with
  | nil => exact List.nodup_nil
  | cons c cs ih =>
    refine List.nodup_cons.2 ⟨fun hmem => ?_, ih (i + 1)⟩
    obtain ⟨w, hw, hstep⟩ := List.mem_map.1 hmem
    obtain ⟨-, ⟨j, hj, hle⟩, -⟩ := mem_numbered hw
    rw [hstep] at hj
    have hij : i = j := Option.some.inj hj
    omega

theorem of_mem_contents {s : Slot} {w : Step × Node} (h : w ∈ s.contents) :
    w.1.field = s.field ∧ w.2 ∈ s.nodes := by
  rcases s with ⟨field, _ | c⟩ | ⟨field, _ | cs⟩
  · cases h
  · obtain rfl := List.mem_singleton.1 h
    exact ⟨rfl, List.mem_singleton.2 rfl⟩
  · cases h
  · obtain ⟨hfield, -, hmem⟩ := mem_numbered h
    exact ⟨hfield, hmem⟩

theorem nodup_contents (s : Slot) : (s.contents.map Prod.fst).Nodup := by
  rcases s with ⟨field, _ | c⟩ | ⟨field, _ | cs⟩
  · exact List.nodup_nil
  · exact List.nodup_singleton _
  · exact List.nodup_nil
  · exact nodup_numbered field 0 cs

theorem walked_sublist (s : Slot) : s.walked.Sublist s.contents := by
  unfold walked
  split
  · exact List.Sublist.refl _
  · exact List.nil_sublist _

/-- The slot with the nodes in place of each of its contents. A node alone in its field stays
unless it is exactly one node that takes its place. -/
def exchange (s : Slot) (put : (w : Step × Node) → w ∈ s.contents → List Node) : Slot :=
  match s with
  | one field none => one field none
  | one field (some c) =>
    match put (⟨field, none⟩, c) (List.mem_singleton.2 rfl) with
    | [d] => one field (some d)
    | _ => one field (some c)
  | many field none => many field none
  | many field (some cs) => many field (some ((numbered field 0 cs).attach.flatMap fun w =>
      put w.1 w.2))

theorem exchange_one (field : Field) (c : Node) (put : Step × Node → List Node) :
    (one field (some c)).exchange (fun w _ => put w) =
      match put (⟨field, none⟩, c) with
      | [d] => one field (some d)
      | _ => one field (some c) := rfl

theorem exchange_many (field : Field) (cs : List Node) (put : Step × Node → List Node) :
    (many field (some cs)).exchange (fun w _ => put w) =
      many field (some ((numbered field 0 cs).flatMap put)) := by
  simp [exchange]

theorem flatMap_numbered_eq_self {field : Field} {i : Nat} {cs : List Node}
    {put : Step × Node → List Node} (h : ∀ w ∈ numbered field i cs, put w = [w.2]) :
    (numbered field i cs).flatMap put = cs := by
  induction cs generalizing i with
  | nil => rfl
  | cons c cs ih =>
    obtain ⟨hc, hcs⟩ := List.forall_mem_cons.1 h
    rw [numbered, List.flatMap_cons, hc, ih hcs]
    rfl

/-- A slot stays if every node in it takes its own place. -/
theorem exchange_eq_self {s : Slot} {put : Step × Node → List Node}
    (h : ∀ w ∈ s.contents, put w = [w.2]) : s.exchange (fun w _ => put w) = s := by
  rcases s with ⟨field, _ | c⟩ | ⟨field, _ | cs⟩
  · rfl
  · rw [exchange_one, h _ (List.mem_singleton.2 rfl)]
  · rfl
  · rw [exchange_many, flatMap_numbered_eq_self h]

theorem fits_exchange (s : Slot) (put : Step × Node → List Node) :
    s.Fits (s.exchange fun w _ => put w) := by
  rcases s with ⟨field, _ | c⟩ | ⟨field, _ | cs⟩
  · exact ⟨rfl, id⟩
  · rw [exchange_one]
    split <;> exact ⟨rfl, fun _ => rfl⟩
  · exact ⟨rfl, id⟩
  · rw [exchange_many]
    exact ⟨rfl, fun _ => rfl⟩

end Slot

/-- What is put at the places of a tree, if anything. -/
abbrev Replacements : Type := List Step → Option (List Node)

/-- The replacements below a step. -/
def Replacements.below (put : Replacements) (step : Step) : Replacements :=
  fun path => put (step :: path)

namespace Node

theorem mem_children_of_mem_contents {n : Node} {s : Slot} {w : Step × Node} (hs : s ∈ n.slots)
    (hw : w ∈ s.contents) : w.2 ∈ n.children :=
  mem_children_of_mem_slot hs (Slot.of_mem_contents hw).2

/-- The tree with the replacements put at their places, and everything else as it was. Nothing is
put below a place that is replaced. -/
def replaced (put : Replacements) (n : Node) : Node :=
  n.withSlots (n.slots.attach.map fun s => s.1.exchange fun w _ =>
    (put [w.1]).getD [w.2.replaced (put.below w.1)])
termination_by sizeOf n
decreasing_by exact sizeOf_child_lt (mem_children_of_mem_contents s.2 ‹_›)

/-- What takes the place of a node after a step. -/
def inPlace (put : Replacements) (w : Step × Node) : List Node :=
  (put [w.1]).getD [w.2.replaced (put.below w.1)]

theorem replaced_eq (put : Replacements) (n : Node) :
    n.replaced put =
      n.withSlots (n.slots.map fun s => s.exchange fun w _ => inPlace put w) := by
  rw [replaced]
  congr 1
  exact List.attach_map_val (f := fun s : Slot => s.exchange fun w _ => inPlace put w)

/-- The slots of the tree with the replacements are the slots of the tree, each with what is put at
its places. -/
theorem slots_replaced (put : Replacements) (n : Node) :
    (n.replaced put).slots = n.slots.map fun s => s.exchange fun w _ => inPlace put w := by
  rw [replaced_eq]
  exact (slots_withSlots (Slot.fitAll_map fun s _ => s.fits_exchange _)).1

/-- Where nothing is put, the tree stays. -/
theorem replaced_none {put : Replacements} (n : Node)
    (h : ∀ step path, put (step :: path) = none) : n.replaced put = n := by
  induction hsize : sizeOf n using Nat.strongRecOn generalizing n put with
  | ind size ih =>
    subst hsize
    have hslots : n.slots.map (fun s => s.exchange fun w _ => inPlace put w) = n.slots := by
      refine (List.map_congr_left fun s hs => ?_).trans (List.map_id _)
      apply Slot.exchange_eq_self
      intro w hw
      have hchild : w.2.replaced (put.below w.1) = w.2 :=
        ih _ (sizeOf_child_lt (mem_children_of_mem_contents hs hw)) w.2
          (fun step path => h w.1 (step :: path)) rfl
      rw [inPlace, h, Option.getD_none, hchild]
    rw [replaced_eq, hslots, withSlots_slots]

/-- Where nothing is put at a child or below it, the child takes its own place. -/
theorem inPlace_eq_self {put : Replacements} {w : Step × Node}
    (h : ∀ path, put (w.1 :: path) = none) : inPlace put w = [w.2] := by
  have hchild : w.2.replaced (put.below w.1) = w.2 :=
    replaced_none w.2 fun step path => h (step :: path)
  rw [inPlace, h, Option.getD_none, hchild]

end Node

/-- A place in a tree: the steps to it, of which the last one leads there from a node of the given
kind, and the node that it holds. -/
structure Place where
  path : List Step
  parent : Kind
  last : Step
  node : Node

namespace Place

def child (parent : Kind) (w : Step × Node) : Place := ⟨[w.1], parent, w.1, w.2⟩

/-- The place as seen from one step above. -/
def under (step : Step) (p : Place) : Place := { p with path := step :: p.path }

end Place

namespace Node

/-- The children with the steps to them, in the order of the fields. -/
def contents (n : Node) : List (Step × Node) := n.slots.flatMap Slot.contents

/-- The node that is reached by some steps. -/
def at? (n : Node) : List Step → Option Node
  | [] => some n
  | step :: path => (n.contents.lookup step).bind fun c => c.at? path

end Node

/-- The steps lead to the node that the place holds, the last one from a node of the given kind. -/
def Place.IsIn (n : Node) (p : Place) : Prop :=
  ∃ above parent, p.path = above ++ [p.last] ∧ n.at? above = some parent ∧
    parent.kind = p.parent ∧ n.at? p.path = some p.node

namespace Node

/-- The children that are walked, with the steps to them. -/
def walked (n : Node) : List (Step × Node) := n.slots.flatMap Slot.walked

theorem mem_children_of_mem_walked {n : Node} {w : Step × Node} (h : w ∈ n.walked) :
    w.2 ∈ n.children := by
  obtain ⟨s, hs, hw⟩ := List.mem_flatMap.1 h
  exact mem_children_of_mem_contents hs (s.walked_sublist.subset hw)

/-- The places below a node in the order of the document: each child comes before what is below it,
and the children come in the order of the fields. -/
def places (n : Node) : List Place :=
  n.walked.attach.flatMap fun w => .child n.kind w.1 :: w.1.2.places.map (.under w.1.1)
termination_by sizeOf n
decreasing_by exact sizeOf_child_lt (mem_children_of_mem_walked w.2)

/-- The places that begin with the step to a child. -/
def placesAt (parent : Kind) (w : Step × Node) : List Place :=
  .child parent w :: w.2.places.map (.under w.1)

theorem places_eq (n : Node) : n.places = n.walked.flatMap (placesAt n.kind) := by
  rw [places, List.flatMap_def, List.flatMap_def]
  congr 1
  exact List.attach_map_val (f := placesAt n.kind)

theorem mem_placesAt {parent : Kind} {w : Step × Node} {p : Place} :
    p ∈ placesAt parent w ↔ p = .child parent w ∨ ∃ q ∈ w.2.places, q.under w.1 = p := by
  rw [placesAt, List.mem_cons, List.mem_map]

theorem path_of_mem_placesAt {parent : Kind} {w : Step × Node} {p : Place}
    (h : p ∈ placesAt parent w) : ∃ path, p.path = w.1 :: path := by
  rcases mem_placesAt.1 h with rfl | ⟨q, -, rfl⟩
  · exact ⟨[], rfl⟩
  · exact ⟨q.path, rfl⟩

theorem nodup_fields (n : Node) : (n.slots.map Slot.field).Nodup := by
  cases n <;> simp [slots, Slot.field]

/-- No two children are reached by the same step. -/
theorem nodup_contents (n : Node) : (n.contents.map Prod.fst).Nodup := by
  rw [contents, List.map_flatMap, List.nodup_flatMap]
  constructor
  · intro s _
    exact s.nodup_contents
  · have hfields := n.nodup_fields
    rw [List.Nodup, List.pairwise_map] at hfields
    apply hfields.imp
    intro s t hne step hs ht
    obtain ⟨v, hv, rfl⟩ := List.mem_map.1 hs
    obtain ⟨w, hw, hstep⟩ := List.mem_map.1 ht
    apply hne
    rw [← (Slot.of_mem_contents hv).1, ← hstep, (Slot.of_mem_contents hw).1]

theorem walked_sublist (n : Node) : n.walked.Sublist n.contents := by
  rw [walked, contents]
  induction n.slots with
  | nil => exact List.Sublist.refl _
  | cons s ss ih => exact s.walked_sublist.append ih

theorem nodup_walked (n : Node) : (n.walked.map Prod.fst).Nodup :=
  (n.walked_sublist.map Prod.fst).nodup n.nodup_contents

theorem eq_of_mem_walked {n : Node} {v w : Step × Node} (hv : v ∈ n.walked) (hw : w ∈ n.walked)
    (h : v.1 = w.1) : v = w :=
  List.inj_on_of_nodup_map n.nodup_walked hv hw h

theorem path_ne_nil {n : Node} {p : Place} (h : p ∈ n.places) : p.path ≠ [] := by
  rw [places_eq] at h
  obtain ⟨w, -, hp⟩ := List.mem_flatMap.1 h
  obtain ⟨path, hpath⟩ := path_of_mem_placesAt hp
  simp [hpath]

/-- A place that begins with the step to a child is the child or below it. -/
theorem mem_placesAt_of_path {n : Node} {p : Place} {w : Step × Node} {path : List Step}
    (hp : p ∈ n.places) (hw : w ∈ n.walked) (hpath : p.path = w.1 :: path) :
    p ∈ placesAt n.kind w := by
  rw [places_eq] at hp
  obtain ⟨v, hv, hmem⟩ := List.mem_flatMap.1 hp
  obtain ⟨path', hpath'⟩ := path_of_mem_placesAt hmem
  rw [hpath'] at hpath
  obtain rfl := eq_of_mem_walked hv hw (List.cons.inj hpath).1
  exact hmem

/-- No place comes twice. -/
theorem nodup_places (n : Node) : (n.places.map Place.path).Nodup := by
  induction hsize : sizeOf n using Nat.strongRecOn generalizing n with
  | ind size ih =>
    subst hsize
    rw [places_eq, List.map_flatMap, List.nodup_flatMap]
    constructor
    · intro w hw
      have hbelow : (w.2.places.map Place.path).Nodup :=
        ih _ (sizeOf_child_lt (mem_children_of_mem_walked hw)) w.2 rfl
      have hunder : (w.2.places.map (Place.under w.1)).map Place.path =
          (w.2.places.map Place.path).map (w.1 :: ·) := by
        simp [Place.under]
      rw [placesAt, List.map_cons, List.nodup_cons, hunder]
      refine ⟨fun hmem => ?_, hbelow.map List.cons_injective⟩
      obtain ⟨path, hpath, hcons⟩ := List.mem_map.1 hmem
      obtain ⟨p, hp, rfl⟩ := List.mem_map.1 hpath
      exact path_ne_nil hp (List.cons.inj hcons).2
    · have hsteps := n.nodup_walked
      rw [List.Nodup, List.pairwise_map] at hsteps
      apply hsteps.imp
      intro v w hne path hv hw
      obtain ⟨p, hp, rfl⟩ := List.mem_map.1 hv
      obtain ⟨q, hq, hpath⟩ := List.mem_map.1 hw
      obtain ⟨path, hp⟩ := path_of_mem_placesAt hp
      obtain ⟨path', hq⟩ := path_of_mem_placesAt hq
      rw [hp, hq] at hpath
      exact hne (List.cons.inj hpath).1.symm

/-- From a child on the steps lead on below it. -/
theorem at?_cons {n : Node} {w : Step × Node} (hw : w ∈ n.walked) (path : List Step) :
    n.at? (w.1 :: path) = w.2.at? path := by
  rw [at?, lookup_eq_some_of_mem n.nodup_contents (n.walked_sublist.subset hw), Option.bind_some]

/-- The places are what they are said to be. -/
theorem isIn_of_mem_places {n : Node} {p : Place} (h : p ∈ n.places) : p.IsIn n := by
  induction hsize : sizeOf n using Nat.strongRecOn generalizing n p with
  | ind size ih =>
    subst hsize
    rw [places_eq] at h
    obtain ⟨w, hw, hp⟩ := List.mem_flatMap.1 h
    rcases mem_placesAt.1 hp with rfl | ⟨q, hq, rfl⟩
    · exact ⟨[], n, rfl, rfl, rfl, at?_cons hw []⟩
    · obtain ⟨above, parent, hpath, habove, hkind, hnode⟩ :=
        ih _ (sizeOf_child_lt (mem_children_of_mem_walked hw)) hq rfl
      refine ⟨w.1 :: above, parent, congrArg (w.1 :: ·) hpath, ?_, hkind, ?_⟩
      · rw [at?_cons hw, habove]
      · exact (at?_cons hw q.path).trans hnode

/-- A child with syntax is walked. -/
theorem mem_walked_of_isSyntax {n : Node} {w : Step × Node} (hw : w ∈ n.contents)
    (hcode : w.2.isSyntax = true) : w ∈ n.walked := by
  obtain ⟨s, hs, hw⟩ := List.mem_flatMap.1 hw
  refine List.mem_flatMap.2 ⟨s, hs, ?_⟩
  have hany : s.nodes.any isSyntax = true :=
    List.any_eq_true.2 ⟨w.2, (Slot.of_mem_contents hw).2, hcode⟩
  rwa [Slot.walked, if_pos hany]

/-- What is reached through syntax is at a place. -/
theorem exists_mem_places {n c : Node} {path : List Step} (hne : path ≠ [])
    (h : n.at? path = some c)
    (hcode : ∀ above d, above <+: path → n.at? above = some d → d.isSyntax = true) :
    ∃ p ∈ n.places, p.path = path := by
  induction path generalizing n with
  | nil => exact absurd rfl hne
  | cons step path ih =>
    obtain ⟨d, hd, hbelow⟩ := Option.bind_eq_some_iff.1 h
    have hfirst : n.at? [step] = some d := by rw [at?, hd]; rfl
    have hw : (step, d) ∈ n.walked :=
      mem_walked_of_isSyntax (mem_of_lookup_eq_some hd) (hcode [step] d ⟨path, rfl⟩ hfirst)
    simp only [places_eq n, List.mem_flatMap]
    by_cases hpath : path = []
    · subst hpath
      exact ⟨_, ⟨_, hw, List.mem_cons_self⟩, rfl⟩
    · obtain ⟨q, hq, rfl⟩ := ih hpath hbelow fun above e habove he => by
        apply hcode (step :: above) e ((List.prefix_cons_inj step).2 habove)
        rw [at?, hd]
        exact he
      exact ⟨q.under step, ⟨_, hw, mem_placesAt.2 (.inr ⟨q, hq, rfl⟩)⟩, rfl⟩

end Node

end DeferredImports
