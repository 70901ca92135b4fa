import DeferredImports.Proofs.Substitution
import DeferredImports.Proofs.TreePlaces

/-! Which imports are replaced, and what comes out. Main statement: exactly the outermost chosen
imports are asked for, each of them once and in the order of the document, until one of them fails
or is answered by another number of nodes than fits; otherwise the answers are put at their places
and all else stays. -/

namespace DeferredImports

variable {σ : Type}

namespace Effect

variable {α β γ δ : Type}

/-- The effect ends like another one: with the same failure, or with a value that is related to the
other value, and in the same state. -/
def EndsLike (x : Effect σ α) (y : Effect σ β) (R : β → α → Prop) : Prop :=
  ∀ s, (∃ b a t, y.runFrom s = (.ok b, t) ∧ x.runFrom s = (.ok a, t) ∧ R b a) ∨
    ∃ e t, y.runFrom s = (.error e, t) ∧ x.runFrom s = (.error e, t)

variable {R : β → α → Prop} {Q : δ → γ → Prop}

theorem EndsLike.pure {a : α} {b : β} (h : R b a) :
    EndsLike (Pure.pure a : Effect σ α) (Pure.pure b) R :=
  fun s => .inl ⟨b, a, s, rfl, rfl, h⟩

theorem EndsLike.throw (e : Failure) :
    EndsLike (MonadExcept.throw e : Effect σ α) (MonadExcept.throw e : Effect σ β) R :=
  fun s => .inr ⟨e, s, rfl, rfl⟩

theorem EndsLike.refl (x : Effect σ α) : x.EndsLike x (· = ·) := by
  intro s
  rcases hrun : x.runFrom s with ⟨e | a, t⟩
  · exact .inr ⟨e, t, rfl, rfl⟩
  · exact .inl ⟨a, a, t, rfl, rfl, rfl⟩

theorem EndsLike.bind {x : Effect σ α} {y : Effect σ β} {f : α → Effect σ γ} {g : β → Effect σ δ}
    (hx : x.EndsLike y R) (hf : ∀ b a, R b a → (f a).EndsLike (g b) Q) :
    (x >>= f).EndsLike (y >>= g) Q := by
  intro s
  rcases hx s with ⟨b, a, t, hy, hx, h⟩ | ⟨e, t, hy, hx⟩
  · rw [runFrom_bind_of_ok hy, runFrom_bind_of_ok hx]
    exact hf b a h t
  · exact .inr ⟨e, t, by rw [runFrom_bind, hy], by rw [runFrom_bind, hx]⟩

theorem EndsLike.map {x : Effect σ α} {y : Effect σ β} {f : α → γ} {Q : β → γ → Prop}
    (hx : x.EndsLike y R) (hf : ∀ b a, R b a → Q b (f a)) :
    EndsLike (do return f (← x)) y Q := by
  intro s
  rcases hx s with ⟨b, a, t, hy, hx, h⟩ | ⟨e, t, hy, hx⟩
  · exact .inl ⟨b, f a, t, hy, by rw [runFrom_bind_of_ok hx]; rfl, hf b a h⟩
  · exact .inr ⟨e, t, hy, by rw [runFrom_bind, hx]⟩

end Effect

/-- The replacer as seen from one step below. -/
def Replacer.below (replacer : Replacer σ) (step : Step) : Replacer σ :=
  fun path => replacer (step :: path)

namespace Place

/-- The place holds an import and is chosen. -/
def isChosen (replacer : Replacer σ) (p : Place) : Bool :=
  p.node.import?.isSome && (replacer p.path).isSome

/-- What is done with the import at a chosen place. -/
def rewrite (replacer : Replacer σ) (p : Place) : Effect σ (Option (List Node)) :=
  match p.node.import?, replacer p.path with
  | some d, some replace => replace d
  | _, _ => return none

/-- The failure if a number of nodes does not fit at the place. -/
def misfit (p : Place) (count : Nat) : Failure :=
  if p.parent.isSyntax then .splice count p.parent p.last.field else .absentPart

/-- A place alone in its field takes exactly one node. -/
def check (p : Place) : Option (List Node) → Except Failure Unit
  | some ns =>
    if p.last.index = none ∧ ns.length ≠ 1 then .error (p.misfit ns.length) else .ok ()
  | none => .ok ()

end Place

/-- The answers that were given at some places. -/
abbrev Told : Type := List (List Step × Option (List Node))

/-- Asks for the imports at some places, one after the other, until an answer does not fit. -/
def askAll (replacer : Replacer σ) : List Place → Effect σ Told
  | [] => pure []
  | p :: ps => do
    let answer ← p.rewrite replacer
    Effect.ofExcept (p.check answer)
    let told ← askAll replacer ps
    return (p.path, answer) :: told

theorem askAll_append (replacer : Replacer σ) (ps qs : List Place) :
    askAll replacer (ps ++ qs) = (do
      let told ← askAll replacer ps
      let others ← askAll replacer qs
      return told ++ others) := by
  induction ps with
  | nil => simp [askAll]
  | cons p ps ih => simp [askAll, ih]

theorem askAll_under (replacer : Replacer σ) (step : Step) (ps : List Place) :
    askAll replacer (ps.map (.under step)) = (do
      let told ← askAll (replacer.below step) ps
      return told.map fun a => (step :: a.1, a.2)) := by
  induction ps with
  | nil => simp [askAll]
  | cons p ps ih =>
    have hrewrite : (p.under step).rewrite replacer = p.rewrite (replacer.below step) := rfl
    have hcheck : (p.under step).check = p.check := rfl
    rw [List.map_cons, askAll, askAll, ih, hrewrite, hcheck]
    simp [Place.under]

/-- A chosen import that is not inside of another one. -/
def Place.IsOutermost (replacer : Replacer σ) (n : Node) (p : Place) : Prop :=
  p.isChosen replacer = true ∧
    ∀ q ∈ n.places, q.isChosen replacer = true → q.path <+: p.path → q.path = p.path

instance (replacer : Replacer σ) (n : Node) (p : Place) : Decidable (p.IsOutermost replacer n) :=
  inferInstanceAs (Decidable (_ ∧ _))

namespace Node

variable {replacer : Replacer σ} {n : Node} {w : Step × Node} {p : Place}

/-- The places of the outermost chosen imports, in the order of the document. -/
def outermost (replacer : Replacer σ) (n : Node) : List Place :=
  n.places.filter fun p => p.IsOutermost replacer n

/-- Those that begin with the step to a child. -/
def outermostAt (replacer : Replacer σ) (parent : Kind) (w : Step × Node) : List Place :=
  if (Place.child parent w).isChosen replacer then [.child parent w]
  else (w.2.outermost (replacer.below w.1)).map (.under w.1)

theorem mem_outermost : p ∈ n.outermost replacer ↔ p ∈ n.places ∧ p.IsOutermost replacer n := by
  rw [outermost, List.mem_filter, decide_eq_true_eq]

/-- Nothing is above a child. -/
theorem isOutermost_child (w : Step × Node) :
    (Place.child n.kind w).IsOutermost replacer n ↔
      (Place.child n.kind w).isChosen replacer = true := by
  refine ⟨And.left, fun h => ⟨h, fun q hq _ hprefix => ?_⟩⟩
  rcases List.prefix_cons_iff.1 hprefix with hnil | ⟨path, hpath, hrest⟩
  · exact absurd hnil (path_ne_nil hq)
  · rw [hpath, List.prefix_nil.1 hrest]
    rfl

/-- Below a child that is not chosen only what is below it matters. -/
theorem isOutermost_under (hw : w ∈ n.walked) (hp : p ∈ w.2.places) :
    (p.under w.1).IsOutermost replacer n ↔ (Place.child n.kind w).isChosen replacer = false ∧
      p.IsOutermost (replacer.below w.1) w.2 := by
  have hchild : Place.child n.kind w ∈ n.places := by
    rw [places_eq]
    exact List.mem_flatMap.2 ⟨w, hw, List.mem_cons_self⟩
  have hunder : ∀ q ∈ w.2.places, q.under w.1 ∈ n.places := fun q hq => by
    rw [places_eq]
    exact List.mem_flatMap.2 ⟨w, hw, mem_placesAt.2 (.inr ⟨q, hq, rfl⟩)⟩
  constructor
  · rintro ⟨hchosen, houter⟩
    refine ⟨?_, hchosen, fun q hq hq' hprefix => ?_⟩
    · by_contra hne
      have hpath : [w.1] = w.1 :: p.path := houter _ hchild (by simpa using hne) ⟨p.path, rfl⟩
      exact path_ne_nil hp (List.cons.inj hpath).2.symm
    · have hpath : w.1 :: q.path = w.1 :: p.path :=
        houter _ (hunder q hq) hq' ((List.prefix_cons_inj w.1).2 hprefix)
      exact (List.cons.inj hpath).2
  · rintro ⟨hchild, hchosen, houter⟩
    refine ⟨hchosen, fun q hq hq' hprefix => ?_⟩
    rcases List.prefix_cons_iff.1 hprefix with hnil | ⟨path, hpath, hrest⟩
    · exact absurd hnil (path_ne_nil hq)
    · rcases mem_placesAt.1 (mem_placesAt_of_path hq hw hpath) with rfl | ⟨r, hr, rfl⟩
      · rw [hchild] at hq'
        cases hq'
      · obtain rfl := (List.cons.inj hpath).2
        exact congrArg (w.1 :: ·) (houter r hr hq' hrest)

/-- The outermost chosen imports are found child by child. -/
theorem outermost_eq (replacer : Replacer σ) (n : Node) :
    n.outermost replacer = n.walked.flatMap (outermostAt replacer n.kind) := by
  have hplaces := n.places_eq
  have houtermost : n.outermost replacer =
      (n.walked.flatMap (placesAt n.kind)).filter fun p => p.IsOutermost replacer n := by
    rw [← hplaces]
    rfl
  rw [houtermost, List.filter_flatMap]
  apply List.flatMap_congr
  intro w hw
  rw [placesAt, outermostAt, List.filter_cons]
  simp only [isOutermost_child, decide_eq_true_eq]
  have hunder : w.2.places.filter (fun p => (p.under w.1).IsOutermost replacer n) =
      w.2.places.filter fun p => (Place.child n.kind w).isChosen replacer = false ∧
        p.IsOutermost (replacer.below w.1) w.2 :=
    List.filter_congr fun p hp => decide_eq_decide.2 (isOutermost_under hw hp)
  rw [List.filter_map, Function.comp_def, hunder]
  cases (Place.child n.kind w).isChosen replacer with
  | true => simp
  | false => simp [outermost]

end Node

/-- Whether some import that was asked for did not stay. -/
def Told.changes (told : Told) : Bool := told.any (·.2.isSome)

/-- The replacements are the answers that were given. -/
def Replacements.Agrees (put : Replacements) (told : Told) : Prop := ∀ a ∈ told, put a.1 = a.2

/-- What is seen of a walk in the answers that were given: whether something changed, and what holds
of all replacements that are these answers and have nothing at other places. -/
structure Reflects (told : Told) (changed : Bool) (Supported Shown : Replacements → Prop) :
    Prop where
  changed_eq : changed = told.changes
  shown : ∀ put : Replacements, put.Agrees told → Supported put → Shown put

namespace Reflects

variable {told others : Told} {b c : Bool} {S S' P P' : Replacements → Prop}

theorem nil (h : ∀ put, S put → P put) : Reflects [] false S P :=
  ⟨rfl, fun put _ hput => h put hput⟩

theorem append (h : Reflects told b S P) (h' : Reflects others c S' P') :
    Reflects (told ++ others) (b || c) (fun put => S put ∧ S' put) fun put => P put ∧ P' put where
  changed_eq := by
    rw [h.changed_eq, h'.changed_eq, Told.changes, Told.changes, Told.changes, List.any_append]
  shown put hagrees hput :=
    ⟨h.shown put (fun a ha => hagrees a (List.mem_append_left _ ha)) hput.1,
      h'.shown put (fun a ha => hagrees a (List.mem_append_right _ ha)) hput.2⟩

theorem mono (h : Reflects told b S P) (hS : ∀ put, S' put → S put)
    (hP : ∀ put, P put → P' put) : Reflects told b S' P' :=
  ⟨h.changed_eq, fun put hagrees hput => hP put (h.shown put hagrees (hS put hput))⟩

/-- What is built anew only if something changed is the same as what is built in any case, if this
is the old thing where nothing changed. -/
theorem of_if {α : Type} {x y : α} {Q : Replacements → α} (h : Reflects told b S P)
    (hS : ∀ put, S' put → S put) (hx : ∀ put, P put → x = Q put) (hy : b = false → x = y) :
    Reflects told (if b then some x else none).isSome S' fun put =>
      (if b then some x else none).getD y = Q put := by
  cases b with
  | true => exact h.mono hS hx
  | false =>
    refine h.mono hS fun put hput => ?_
    rw [← hx put hput, hy rfl]
    rfl

end Reflects

namespace Node

variable {replacer : Replacer σ} {n : Node} {w : Step × Node} {parent : Kind}

/-- Replacements have something at outermost chosen places only. -/
def Supports (replacer : Replacer σ) (n : Node) (put : Replacements) : Prop :=
  ∀ path, put path ≠ none → ∃ p ∈ n.outermost replacer, p.path = path

/-- The same for the places that begin with the step to a child. -/
def SupportsAt (replacer : Replacer σ) (parent : Kind) (w : Step × Node) (put : Replacements) :
    Prop :=
  ∀ path, put (w.1 :: path) ≠ none → ∃ p ∈ outermostAt replacer parent w, p.path = w.1 :: path

/-- What the walk does with a child. -/
def visitChild (replacer : Replacer σ) (w : Step × Node) : Effect σ (Option (List Node)) :=
  match w.2.import?, replacer [w.1] with
  | some d, some replace => replace d
  | _, _ => do
    let changed ← w.2.replaceImports (replacer.below w.1)
    return changed.map ([·])

theorem replaceImports_eq (replacer : Replacer σ) (n : Node) :
    n.replaceImports replacer =
      n.visitEachChild fun step c _ => visitChild replacer (step, c) := by
  rw [replaceImports]
  rfl

theorem visitChild_of_isChosen (h : (Place.child parent w).isChosen replacer = true) :
    visitChild replacer w = (Place.child parent w).rewrite replacer := by
  obtain ⟨hd, hreplace⟩ := Bool.and_eq_true_iff.1 h
  obtain ⟨d, hd⟩ := Option.isSome_iff_exists.1 hd
  obtain ⟨replace, hreplace⟩ := Option.isSome_iff_exists.1 hreplace
  have himport : w.2.import? = some d := hd
  have hchosen : replacer [w.1] = some replace := hreplace
  rw [visitChild, Place.rewrite, himport, hchosen, hd, hreplace]

theorem visitChild_of_not_isChosen (h : (Place.child parent w).isChosen replacer = false) :
    visitChild replacer w = (do
      let changed ← w.2.replaceImports (replacer.below w.1)
      return changed.map ([·])) := by
  have hnot : (w.2.import?.isSome && (replacer [w.1]).isSome) = false := h
  rw [visitChild]
  split
  · next himport hchosen => simp [himport, hchosen] at hnot
  · rfl

/-- The answer for a child that fits is seen in the answers below it. -/
def ShowsChild (replacer : Replacer σ) (parent : Kind) (w : Step × Node) (told : Told)
    (answer : Option (List Node)) : Prop :=
  (Place.child parent w).check answer = .ok () ∧
    Reflects told answer.isSome (SupportsAt replacer parent w) fun put =>
      answer.getD [w.2] = inPlace put w

/-- The new node is seen in the answers. -/
def ShowsNode (replacer : Replacer σ) (n : Node) (told : Told) (changed : Option Node) : Prop :=
  Reflects told changed.isSome (Supports replacer n) fun put => changed.getD n = n.replaced put

theorem showsChild_of_isChosen (h : (Place.child parent w).isChosen replacer = true)
    {answer : Option (List Node)} (hfits : (Place.child parent w).check answer = .ok ()) :
    ShowsChild replacer parent w [([w.1], answer)] answer := by
  refine ⟨hfits, by simp [Told.changes], fun put hagrees hput => ?_⟩
  have hhere : put [w.1] = answer := hagrees _ (List.mem_singleton.2 rfl)
  cases answer with
  | some ns =>
    rw [inPlace, hhere]
    rfl
  | none =>
    have hbelow : ∀ path, put (w.1 :: path) = none := by
      intro path
      by_contra hne
      obtain ⟨p, hp, hpath⟩ := hput path hne
      rw [outermostAt, if_pos h, List.mem_singleton] at hp
      subst hp
      cases hpath
      exact hne hhere
    rw [inPlace_eq_self hbelow]
    rfl

theorem showsChild_of_not_isChosen (h : (Place.child parent w).isChosen replacer = false)
    {told : Told} {changed : Option Node}
    (hbelow : ShowsNode (replacer.below w.1) w.2 told changed) :
    ShowsChild replacer parent w (told.map fun a => (w.1 :: a.1, a.2)) (changed.map ([·])) := by
  have houtermost : outermostAt replacer parent w =
      (w.2.outermost (replacer.below w.1)).map (.under w.1) := by
    simp [outermostAt, h]
  refine ⟨by cases changed <;> simp [Place.check], ?_, fun put hagrees hput => ?_⟩
  · rw [Option.isSome_map, hbelow.changed_eq, Told.changes, Told.changes, List.any_map]
    rfl
  · have hhere : put [w.1] = none := by
      by_contra hne
      obtain ⟨p, hp, hpath⟩ := hput [] hne
      rw [houtermost] at hp
      obtain ⟨q, hq, rfl⟩ := List.mem_map.1 hp
      exact path_ne_nil (mem_outermost.1 hq).1 (List.cons.inj hpath).2
    have hreplaced : changed.getD w.2 = w.2.replaced (put.below w.1) := by
      apply hbelow.shown
      · exact fun a ha => hagrees _ (List.mem_map_of_mem ha)
      · intro path hne
        obtain ⟨p, hp, hpath⟩ := hput path hne
        rw [houtermost] at hp
        obtain ⟨q, hq, rfl⟩ := List.mem_map.1 hp
        exact ⟨q, hq, (List.cons.inj hpath).2⟩
    rw [inPlace, hhere, Option.getD_none, ← hreplaced]
    cases changed <;> rfl

/-- The visit to a child, with the check of the answer, ends like asking for the outermost chosen
imports there. -/
def Visits (replacer : Replacer σ) (parent : Kind) (w : Step × Node) : Prop :=
  Effect.EndsLike (do
      let answer ← visitChild replacer w
      Effect.ofExcept ((Place.child parent w).check answer)
      return answer)
    (askAll replacer (outermostAt replacer parent w)) (ShowsChild replacer parent w)

theorem visits_of_below (hbelow : (w.2.replaceImports (replacer.below w.1)).EndsLike
      (askAll (replacer.below w.1) (w.2.outermost (replacer.below w.1)))
      (ShowsNode (replacer.below w.1) w.2)) (parent : Kind) : Visits replacer parent w := by
  unfold Visits
  cases h : (Place.child parent w).isChosen replacer with
  | true =>
    rw [visitChild_of_isChosen h, outermostAt, if_pos h, askAll]
    apply (Effect.EndsLike.refl _).bind
    rintro answer _ rfl
    cases hfits : (Place.child parent w).check answer with
    | error e => exact .throw e
    | ok _ => exact .pure (showsChild_of_isChosen h hfits)
  | false =>
    have houtermost : outermostAt replacer parent w =
        (w.2.outermost (replacer.below w.1)).map (.under w.1) := by
      simp [outermostAt, h]
    rw [visitChild_of_not_isChosen h, houtermost, askAll_under, bind_assoc]
    apply hbelow.bind
    intro told changed hshown
    have hchild := showsChild_of_not_isChosen h hshown
    rw [pure_bind, hchild.1, Effect.ofExcept_ok_bind]
    exact .pure hchild

/-- The visit to a node of a sequence, of which any answer fits. -/
theorem Visits.of_index {j : Nat} (hj : w.1.index = some j) (h : Visits replacer parent w) :
    (visitChild replacer w).EndsLike (askAll replacer (outermostAt replacer parent w))
      (ShowsChild replacer parent w) := by
  have hfits : ∀ answer, (Place.child parent w).check answer = .ok () := by
    intro answer
    cases answer <;> simp [Place.check, Place.child, hj]
  simpa only [Visits, hfits, Effect.ofExcept_ok_bind, bind_pure] using h

/-- The nodes of a sequence are visited one after the other. -/
theorem visitItems_endsLike {P : Node → Prop} (field : Field) (i : Nat) (cs : List Node)
    (h : ∀ c ∈ cs, P c)
    (hvisit : ∀ w ∈ Slot.numbered field i cs, (visitChild replacer w).EndsLike
      (askAll replacer (outermostAt replacer parent w)) (ShowsChild replacer parent w)) :
    (visitItems (fun step c _ => visitChild replacer (step, c)) field i cs h).EndsLike
      (askAll replacer ((Slot.numbered field i cs).flatMap (outermostAt replacer parent)))
      fun told answers => answers.length = cs.length ∧ Reflects told (answers.any Option.isSome)
        (fun put => ∀ w ∈ Slot.numbered field i cs, SupportsAt replacer parent w put)
        fun put => spliced cs answers = (Slot.numbered field i cs).flatMap (inPlace put) := by
  induction cs generalizing i with
  | nil => exact .pure ⟨rfl, .nil fun _ _ => rfl⟩
  | cons c cs ih =>
    rw [Slot.numbered, List.forall_mem_cons] at hvisit
    rw [visitItems, Slot.numbered, List.flatMap_cons, askAll_append]
    apply hvisit.1.bind
    intro told answer hanswer
    apply (ih (i + 1) _ hvisit.2).bind
    intro others answers hanswers
    apply Effect.EndsLike.pure
    refine ⟨congrArg Nat.succ hanswers.1, (hanswer.2.append hanswers.2).mono ?_ ?_⟩
    · exact fun put hput => List.forall_mem_cons.1 hput
    · rintro put ⟨hhere, hrest⟩
      rw [List.flatMap_cons, ← hhere, ← hrest]
      rfl

/-- Replacements have something in a slot only below what is walked. -/
def SupportsSlot (replacer : Replacer σ) (parent : Kind) (s : Slot) (put : Replacements) : Prop :=
  ∀ w ∈ s.contents, if s.nodes.any isSyntax then SupportsAt replacer parent w put
    else ∀ path, put (w.1 :: path) = none

/-- A slot without syntax is passed over. -/
theorem visitSlot_of_not_isSyntax {P : Node → Prop} (visit : Visitor σ P) {s : Slot}
    (h : ∀ c ∈ s.nodes, P c) (hcode : s.nodes.any isSyntax = false) :
    visitSlot parent visit s h = pure none := by
  rcases s with ⟨field, _ | c⟩ | ⟨field, _ | cs⟩
  · rfl
  · have hc : c.isSyntax = false := by simpa [Slot.nodes] using hcode
    simp [visitSlot, hc]
  · rfl
  · have hcs : cs.any isSyntax = false := hcode
    simp [visitSlot, hcs]

/-- A node alone in its field gives way to the only node of an answer. -/
def single (field : Field) : Option (List Node) → Option Slot
  | some [d] => some (.one field (some d))
  | _ => none

theorem visitSlot_one {P : Node → Prop} {field : Field} {c : Node} (hc : c.isSyntax = true)
    (h : ∀ d ∈ (Slot.one field (some c)).nodes, P d) :
    visitSlot parent (fun step c _ => visitChild replacer (step, c)) (.one field (some c)) h = (do
      let answer ← (do
        let answer ← visitChild replacer (⟨field, none⟩, c)
        Effect.ofExcept ((Place.child parent (⟨field, none⟩, c)).check answer)
        return answer)
      return single field answer) := by
  rw [visitSlot, hc]
  simp only [Bool.not_true, Bool.false_eq_true, if_false, bind_assoc]
  congr 1
  funext answer
  rcases answer with _ | _ | ⟨d, _ | ⟨e, ds⟩⟩ <;> rfl

/-- What the visit to a slot answers shows the replacements in that slot. -/
def ShowsSlot (replacer : Replacer σ) (parent : Kind) (s : Slot) (told : Told)
    (answer : Option Slot) : Prop :=
  Reflects told answer.isSome (SupportsSlot replacer parent s) fun put =>
    answer.getD s = s.exchange fun w _ => inPlace put w

theorem showsSlot_of_not_isSyntax {s : Slot} (hcode : s.nodes.any isSyntax = false) :
    ShowsSlot replacer parent s [] none := by
  apply Reflects.nil
  intro put hput
  symm
  apply Slot.exchange_eq_self
  intro w hw
  have hnone := hput w hw
  rw [hcode, if_neg Bool.false_ne_true] at hnone
  exact inPlace_eq_self hnone

theorem SupportsSlot.supportsAt {s : Slot} {put : Replacements}
    (h : SupportsSlot replacer parent s put) (hcode : s.nodes.any isSyntax = true)
    (hw : w ∈ s.contents) : SupportsAt replacer parent w put := by
  have hput := h w hw
  rwa [hcode, if_pos rfl] at hput

theorem eq_singleton_of_check {field : Field} {c : Node} {answer : Option (List Node)}
    (h : (Place.child parent (⟨field, none⟩, c)).check answer = .ok ()) :
    answer = none ∨ ∃ d, answer = some [d] := by
  rcases answer with _ | _ | ⟨d, _ | ⟨e, ds⟩⟩
  · exact .inl rfl
  · cases h
  · exact .inr ⟨d, rfl⟩
  · simp [Place.check, Place.child] at h

theorem visitSlot_one_endsLike {P : Node → Prop} {field : Field} {c : Node}
    (hc : c.isSyntax = true) (h : ∀ d ∈ (Slot.one field (some c)).nodes, P d)
    (hvisit : Visits replacer parent (⟨field, none⟩, c)) :
    (visitSlot parent (fun step d _ => visitChild replacer (step, d)) (.one field (some c))
      h).EndsLike (askAll replacer (outermostAt replacer parent (⟨field, none⟩, c)))
        (ShowsSlot replacer parent (.one field (some c))) := by
  have hcode : (Slot.one field (some c)).nodes.any isSyntax = true := by simpa [Slot.nodes] using hc
  have hmem : (⟨field, none⟩, c) ∈ (Slot.one field (some c)).contents := List.mem_singleton.2 rfl
  rw [visitSlot_one hc]
  apply hvisit.map
  rintro told answer ⟨hfits, hanswer⟩
  rcases eq_singleton_of_check hfits with rfl | ⟨d, rfl⟩
  all_goals
    refine hanswer.mono (fun put hput => hput.supportsAt hcode hmem) fun put hshown => ?_
    rw [Slot.exchange_one, ← hshown]
    rfl

theorem visitSlot_many_endsLike {P : Node → Prop} {field : Field} {cs : List Node}
    (hcode : cs.any isSyntax = true) (h : ∀ d ∈ (Slot.many field (some cs)).nodes, P d)
    (hvisit : ∀ w ∈ (Slot.many field (some cs)).contents, Visits replacer parent w) :
    (visitSlot parent (fun step d _ => visitChild replacer (step, d)) (.many field (some cs))
      h).EndsLike
        (askAll replacer ((Slot.many field (some cs)).contents.flatMap
          (outermostAt replacer parent)))
        (ShowsSlot replacer parent (.many field (some cs))) := by
  have hitems := visitItems_endsLike field 0 cs h fun w hw => by
    obtain ⟨-, ⟨j, hj, -⟩, -⟩ := Slot.mem_numbered hw
    exact (hvisit w hw).of_index hj
  rw [visitSlot, hcode]
  simp only [Bool.not_true, Bool.false_eq_true, if_false]
  apply hitems.map
  rintro told answers ⟨hlength, hanswers⟩
  apply hanswers.of_if fun put hput w hw => hput.supportsAt hcode hw
  · intro put hshown
    rw [Slot.exchange_many, hshown]
  · intro hany
    rw [spliced_eq_self hlength hany]

theorem visitSlot_endsLike {P : Node → Prop} (s : Slot) (h : ∀ c ∈ s.nodes, P c)
    (hvisit : ∀ w ∈ s.walked, Visits replacer parent w) :
    (visitSlot parent (fun step c _ => visitChild replacer (step, c)) s h).EndsLike
      (askAll replacer (s.walked.flatMap (outermostAt replacer parent)))
      (ShowsSlot replacer parent s) := by
  cases hcode : s.nodes.any isSyntax with
  | false =>
    have hwalked : s.walked = [] := by simp [Slot.walked, hcode]
    rw [visitSlot_of_not_isSyntax _ h hcode, hwalked]
    exact .pure (showsSlot_of_not_isSyntax hcode)
  | true =>
    have hwalked : s.walked = s.contents := by simp [Slot.walked, hcode]
    rw [hwalked] at hvisit ⊢
    rcases s with ⟨field, _ | c⟩ | ⟨field, _ | cs⟩
    · cases hcode
    · have hc : c.isSyntax = true := by simpa [Slot.nodes] using hcode
      have hasked : (Slot.one field (some c)).contents.flatMap (outermostAt replacer parent) =
          outermostAt replacer parent (⟨field, none⟩, c) := List.flatMap_singleton _ _
      rw [hasked]
      exact visitSlot_one_endsLike hc h (hvisit _ (List.mem_singleton.2 rfl))
    · cases hcode
    · exact visitSlot_many_endsLike hcode h hvisit

/-- The slots are visited one after the other. -/
theorem visitSlots_endsLike {P : Node → Prop} (ss : List Slot)
    (h : ∀ s ∈ ss, ∀ c ∈ s.nodes, P c)
    (hvisit : ∀ s ∈ ss, ∀ w ∈ s.walked, Visits replacer parent w) :
    (visitSlots parent (fun step c _ => visitChild replacer (step, c)) ss h).EndsLike
      (askAll replacer ((ss.flatMap Slot.walked).flatMap (outermostAt replacer parent)))
      fun told answers => answers.length = ss.length ∧ Reflects told (answers.any Option.isSome)
        (fun put => ∀ s ∈ ss, SupportsSlot replacer parent s put)
        fun put => List.zipWith (fun s answer => answer.getD s) ss answers =
          ss.map fun s => s.exchange fun w _ => inPlace put w := by
  induction ss with
  | nil => exact .pure ⟨rfl, .nil fun _ _ => rfl⟩
  | cons s ss ih =>
    obtain ⟨hs, hss⟩ := List.forall_mem_cons.1 hvisit
    rw [visitSlots, List.flatMap_cons, List.flatMap_append, askAll_append]
    apply (visitSlot_endsLike s _ hs).bind
    intro told answer hanswer
    apply (ih _ hss).bind
    intro others answers hanswers
    apply Effect.EndsLike.pure
    refine ⟨congrArg Nat.succ hanswers.1, (hanswer.append hanswers.2).mono ?_ ?_⟩
    · exact fun put hput => List.forall_mem_cons.1 hput
    · rintro put ⟨hhere, hrest⟩
      rw [List.zipWith_cons_cons, List.map_cons, hhere, hrest]

theorem path_of_mem_outermostAt {p : Place} (h : p ∈ outermostAt replacer parent w) :
    ∃ path, p.path = w.1 :: path := by
  unfold outermostAt at h
  split at h
  · obtain rfl := List.mem_singleton.1 h
    exact ⟨[], rfl⟩
  · obtain ⟨q, -, rfl⟩ := List.mem_map.1 h
    exact ⟨q.path, rfl⟩

/-- What has something below a step is a child that is walked. -/
theorem Supports.exists_walked {put : Replacements} (h : Supports replacer n put) {step : Step}
    {path : List Step} (hne : put (step :: path) ≠ none) :
    ∃ w ∈ n.walked, w.1 = step ∧ ∃ p ∈ outermostAt replacer n.kind w, p.path = step :: path := by
  obtain ⟨p, hp, hpath⟩ := h _ hne
  rw [outermost_eq] at hp
  obtain ⟨w, hw, hp⟩ := List.mem_flatMap.1 hp
  obtain ⟨path', hpath'⟩ := path_of_mem_outermostAt hp
  rw [hpath'] at hpath
  exact ⟨w, hw, (List.cons.inj hpath).1, p, hp, hpath'.trans hpath⟩

theorem Supports.slot {put : Replacements} (h : Supports replacer n put) {s : Slot}
    (hs : s ∈ n.slots) : SupportsSlot replacer n.kind s put := by
  intro w hw
  split
  · next hcode =>
    intro path hne
    obtain ⟨v, hv, hstep, hp⟩ := h.exists_walked hne
    have hwalked : w ∈ n.walked := by
      apply List.mem_flatMap.2 ⟨s, hs, _⟩
      rwa [Slot.walked, if_pos hcode]
    rwa [eq_of_mem_walked hv hwalked hstep] at hp
  · next hcode =>
    intro path
    by_contra hne
    obtain ⟨v, hv, hstep, -⟩ := h.exists_walked hne
    obtain ⟨t, ht, hv⟩ := List.mem_flatMap.1 hv
    have hfield : t.field = s.field := by
      rw [← (Slot.of_mem_contents (t.walked_sublist.subset hv)).1, hstep,
        (Slot.of_mem_contents hw).1]
    rw [List.inj_on_of_nodup_map n.nodup_fields ht hs hfield, Slot.walked, if_neg hcode] at hv
    cases hv

/-- Without answers the slots stay as they are. -/
theorem zipWith_getD_eq_self {ss : List Slot} {answers : List (Option Slot)}
    (hlength : answers.length = ss.length) (hany : answers.any Option.isSome = false) :
    List.zipWith (fun s answer => answer.getD s) ss answers = ss := by
  apply List.ext_getElem
  · simp [hlength]
  · intro i hi _
    rw [List.length_zipWith, Nat.lt_min] at hi
    have hnone : answers[i] = none := by
      simpa using List.any_eq_false.1 hany answers[i] (List.getElem_mem hi.2)
    rw [List.getElem_zipWith, hnone, Option.getD_none]

/-- The walk ends like asking for the outermost chosen imports one after the other. -/
theorem replaceImports_endsLike (replacer : Replacer σ) (n : Node) :
    (n.replaceImports replacer).EndsLike (askAll replacer (n.outermost replacer))
      (ShowsNode replacer n) := by
  induction hsize : sizeOf n using Nat.strongRecOn generalizing n replacer with
  | ind size ih =>
    subst hsize
    have hvisit : ∀ s ∈ n.slots, ∀ w ∈ s.walked, Visits replacer n.kind w := by
      intro s hs w hw
      have hchild : w.2 ∈ n.children :=
        mem_children_of_mem_contents hs (s.walked_sublist.subset hw)
      exact visits_of_below (ih _ (sizeOf_child_lt hchild) (replacer.below w.1) w.2 rfl) n.kind
    rw [replaceImports_eq, outermost_eq, visitEachChild]
    apply (visitSlots_endsLike n.slots _ hvisit).map
    rintro told answers ⟨hlength, hanswers⟩
    apply hanswers.of_if (fun put hput s hs => hput.slot hs)
    · intro put hshown
      rw [replaced_eq, hshown]
    · intro hany
      rw [zipWith_getD_eq_self hlength hany, withSlots_slots]

end Node

/-- The answers as replacements. -/
def Told.replacements (told : Told) : Replacements := fun path => (told.lookup path).join

section answers

variable {replacer : Replacer σ} {ps : List Place} {told : Told} {s t : σ}

/-- Every place that was asked for has an answer that fits. -/
theorem forall₂_of_askAll (h : (askAll replacer ps).runFrom s = (.ok told, t)) :
    List.Forall₂ (fun p a => a.1 = p.path ∧ p.check a.2 = .ok ()) ps told := by
  induction ps generalizing s told with
  | nil =>
    cases h
    exact .nil
  | cons p ps ih =>
    obtain ⟨answer, u, -, h⟩ := Effect.runFrom_bind_eq_ok h
    obtain ⟨_, hfits, h⟩ := Effect.ofExcept_bind_eq_ok h
    obtain ⟨others, v, hothers, h⟩ := Effect.runFrom_bind_eq_ok h
    cases h
    exact .cons ⟨rfl, hfits⟩ (ih hothers)

/-- Only an answer of another number of nodes than one fails, where the import stands alone. -/
theorem exists_of_check_error {p : Place} {answer : Option (List Node)} {e : Failure}
    (h : p.check answer = .error e) :
    ∃ ns, answer = some ns ∧ p.last.index = none ∧ ns.length ≠ 1 ∧ e = p.misfit ns.length := by
  cases answer with
  | none => cases h
  | some ns =>
    rw [Place.check] at h
    split at h
    · next hmisfit =>
      cases h
      exact ⟨ns, rfl, hmisfit.1, hmisfit.2, rfl⟩
    · cases h

/-- Asking ends with a failure at the first place where an import fails or the answer does not
fit. -/
theorem exists_of_askAll_error {e : Failure}
    (h : (askAll replacer ps).runFrom s = (.error e, t)) :
    ∃ before p after told u, ps = before ++ p :: after ∧
      (askAll replacer before).runFrom s = (.ok told, u) ∧
      ((p.rewrite replacer).runFrom u = (.error e, t) ∨
        ∃ ns, (p.rewrite replacer).runFrom u = (.ok (some ns), t) ∧ p.last.index = none ∧
          ns.length ≠ 1 ∧ e = p.misfit ns.length) := by
  induction ps generalizing s with
  | nil => cases h
  | cons p ps ih =>
    rw [askAll, Effect.runFrom_bind] at h
    rcases hrun : (p.rewrite replacer).runFrom s with ⟨e' | answer, u⟩
    · rw [hrun] at h
      cases h
      exact ⟨[], p, ps, [], s, rfl, rfl, .inl hrun⟩
    · rw [hrun] at h
      dsimp only at h
      cases hfits : p.check answer with
      | error e' =>
        rw [hfits] at h
        cases h
        obtain ⟨ns, rfl, hindex, hlength, rfl⟩ := exists_of_check_error hfits
        exact ⟨[], p, ps, [], s, rfl, rfl, .inr ⟨ns, hrun, hindex, hlength, rfl⟩⟩
      | ok _ =>
        rw [hfits, Effect.ofExcept_ok_bind, Effect.runFrom_bind] at h
        rcases hothers : (askAll replacer ps).runFrom u with ⟨e' | others, v⟩
        · rw [hothers] at h
          cases h
          obtain ⟨before, q, after, told, w, rfl, htold, hfails⟩ := ih hothers
          refine ⟨p :: before, q, after, (p.path, answer) :: told, w, rfl, ?_, hfails⟩
          rw [askAll, Effect.runFrom_bind_of_ok hrun, hfits, Effect.ofExcept_ok_bind,
            Effect.runFrom_bind_of_ok htold]
          rfl
        · rw [hothers] at h
          cases h

/-- Where no place comes twice, the replacements are the answers. -/
theorem Told.agrees_replacements (hnodup : (told.map Prod.fst).Nodup) :
    told.replacements.Agrees told := by
  intro a ha
  rw [Told.replacements, lookup_eq_some_of_mem hnodup ha]
  rfl

/-- Only places that were asked for have replacements. -/
theorem Told.exists_of_replacements {path : List Step} (h : told.replacements path ≠ none) :
    ∃ a ∈ told, a.1 = path := by
  rw [Told.replacements] at h
  cases hlookup : told.lookup path with
  | none =>
    rw [hlookup] at h
    exact absurd rfl h
  | some answer => exact ⟨(path, answer), mem_of_lookup_eq_some hlookup, rfl⟩

end answers

namespace Node

/-- The imports that are asked for are the outermost chosen ones, none of them twice, in the order
of the document. If all of them are answered by nodes that fit, the tree has the answers in their
places and is otherwise the same, and it stays the very tree exactly if all of these imports stay.
Else the walk ends at the first import that fails itself, or that stands alone in its field and is
answered by another number of nodes than one; the imports after it are not asked for. -/
theorem replaceImports_outermost (replacer : Replacer σ) (n : Node) (s : σ) :
    let chosen := n.outermost replacer
    ((∀ p ∈ n.places, p.IsIn n) ∧
      ∀ path c, path ≠ [] → n.at? path = some c →
        (∀ above d, above <+: path → n.at? above = some d → d.isSyntax = true) →
        ∃ p ∈ n.places, p.path = path) ∧
    (chosen.Sublist n.places ∧ (chosen.map Place.path).Nodup ∧
      ∀ p, p ∈ chosen ↔ p ∈ n.places ∧ p.IsOutermost replacer n) ∧
    ((∃ told changed t, (askAll replacer chosen).runFrom s = (.ok told, t) ∧
        (n.replaceImports replacer).runFrom s = (.ok changed, t) ∧
        List.Forall₂ (fun p a => a.1 = p.path ∧ p.check a.2 = .ok ()) chosen told ∧
        (changed = none ↔ ∀ a ∈ told, a.2 = none) ∧
        changed.getD n = n.replaced told.replacements) ∨
      ∃ before p after told u e t, chosen = before ++ p :: after ∧
        (askAll replacer before).runFrom s = (.ok told, u) ∧
        (n.replaceImports replacer).runFrom s = (.error e, t) ∧
        ((p.rewrite replacer).runFrom u = (.error e, t) ∨
          ∃ ns, (p.rewrite replacer).runFrom u = (.ok (some ns), t) ∧ p.last.index = none ∧
            ns.length ≠ 1 ∧ e = p.misfit ns.length)) := by
  intro chosen
  have hsublist : chosen.Sublist n.places := List.filter_sublist
  have hnodup : (chosen.map Place.path).Nodup := (hsublist.map _).nodup n.nodup_places
  refine ⟨⟨fun p => isIn_of_mem_places, fun path c => exists_mem_places⟩,
    ⟨hsublist, hnodup, fun p => mem_outermost⟩, ?_⟩
  rcases replaceImports_endsLike replacer n s with
    ⟨told, changed, t, hasked, hrun, hshown⟩ | ⟨e, t, hasked, hrun⟩
  · left
    have hfits := forall₂_of_askAll hasked
    have hpaths : told.map Prod.fst = chosen.map Place.path := by
      rw [← List.forall₂_eq_eq_eq, List.forall₂_map_left_iff, List.forall₂_map_right_iff]
      exact (hfits.imp fun _ _ h => h.1).flip
    refine ⟨told, changed, t, hasked, hrun, hfits, ?_, ?_⟩
    · have hchanged := hshown.changed_eq
      rw [← Option.not_isSome_iff_eq_none, hchanged]
      simp [Told.changes]
    · apply hshown.shown
      · rw [← hpaths] at hnodup
        exact Told.agrees_replacements hnodup
      · intro path hne
        obtain ⟨a, ha, rfl⟩ := Told.exists_of_replacements hne
        have hmem := List.mem_map_of_mem (f := Prod.fst) ha
        rw [hpaths] at hmem
        exact List.mem_map.1 hmem
  · right
    obtain ⟨before, p, after, told, u, hsplit, hbefore, hfails⟩ := exists_of_askAll_error hasked
    exact ⟨before, p, after, told, u, e, t, hsplit, hbefore, hrun, hfails⟩

/-- A module with an import among its statements and one inside of an arrow function. -/
def scatteredImports : Node :=
  let imported (specifier : String) : Node :=
    .importDeclaration (.stringLiteral specifier none) none none none none none
  .sourceModule "app.tsx" (some [imported "./panel", .variableStatement
    [.variableDeclaration "again" (some (.arrow [] (some (imported "./side"))))] .constant none])
    none

example : (scatteredImports.outermost fun _ => some fun _ => (pure none : Effect Unit _)).map
    Place.path = [[⟨.statements, some 0⟩], [⟨.statements, some 1⟩, ⟨.declarations, some 0⟩,
      ⟨.initializer, none⟩, ⟨.body, none⟩]] := by
  decide +kernel

end Node

end DeferredImports
