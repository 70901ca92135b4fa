import DeferredImports.Proofs.Runs
import DeferredImports.Transform

/-! Substitution in a module: a transformation answers for each statement by itself, and nothing
below the statements is looked at. -/

namespace DeferredImports

namespace Node

variable {σ : Type} {P : Node → Prop}

/-- The effect ends without an answer and without a change of state. -/
def Keeps {α : Type} (x : Effect σ (Option α)) : Prop := ∀ s, x.runFrom s = (.ok none, s)

theorem visitItems_keeps {visit : Visitor σ P} (hv : ∀ step c h, Keeps (visit step c h))
    (field : Field) (i : Nat) (cs : List Node) (h : ∀ c ∈ cs, P c) (s : σ) :
    ∃ answers, (visitItems visit field i cs h).runFrom s = (.ok answers, s) ∧
      answers.any Option.isSome = false := by
  induction cs generalizing i with
  | nil => exact ⟨[], rfl, rfl⟩
  | cons c cs ih =>
    obtain ⟨answers, hrun, hany⟩ := ih (i + 1) fun d hd => h d (List.mem_cons_of_mem c hd)
    refine ⟨none :: answers, ?_, by simpa using hany⟩
    unfold visitItems
    rw [Effect.runFrom_bind_of_ok (hv _ _ _ s), Effect.runFrom_bind_of_ok hrun]
    rfl

theorem visitSlot_keeps {visit : Visitor σ P} (hv : ∀ step c h, Keeps (visit step c h))
    (parent : Kind) (slot : Slot) (h : ∀ c ∈ slot.nodes, P c) :
    Keeps (visitSlot parent visit slot h) := by
  intro s
  cases slot with
  | one field c =>
    cases c with
    | none => rfl
    | some c =>
      rw [visitSlot]
      split
      · rfl
      · rw [Effect.runFrom_bind_of_ok (hv _ _ _ s)]
        rfl
  | many field cs =>
    cases cs with
    | none => rfl
    | some cs =>
      rw [visitSlot]
      split
      · rfl
      · obtain ⟨answers, hrun, hany⟩ := visitItems_keeps hv field 0 cs h s
        rw [Effect.runFrom_bind_of_ok hrun, hany]
        rfl

theorem visitSlots_keeps {visit : Visitor σ P} (hv : ∀ step c h, Keeps (visit step c h))
    (parent : Kind) (slots : List Slot) (h : ∀ s ∈ slots, ∀ c ∈ s.nodes, P c) (s : σ) :
    ∃ answers, (visitSlots parent visit slots h).runFrom s = (.ok answers, s) ∧
      answers.any Option.isSome = false := by
  induction slots with
  | nil => exact ⟨[], rfl, rfl⟩
  | cons slot slots ih =>
    obtain ⟨answers, hrun, hany⟩ := ih fun t ht => h t (List.mem_cons_of_mem slot ht)
    refine ⟨none :: answers, ?_, by simpa using hany⟩
    unfold visitSlots
    rw [Effect.runFrom_bind_of_ok (visitSlot_keeps hv parent slot _ s),
      Effect.runFrom_bind_of_ok hrun]
    rfl

/-- A visit that keeps every child keeps the node. -/
theorem visitEachChild_keeps {n : Node} {visit : Visitor σ (· ∈ n.children)}
    (hv : ∀ step c h, Keeps (visit step c h)) : Keeps (visitEachChild n visit) := by
  intro s
  unfold visitEachChild
  obtain ⟨answers, hrun, hany⟩ := visitSlots_keeps hv n.kind n.slots
    (fun _ hs _ hc => mem_children_of_mem_slot hs hc) s
  rw [Effect.runFrom_bind_of_ok hrun, hany]
  rfl

/-- Where nothing below a node is chosen, nothing is replaced. -/
theorem replaceImports_keeps (n : Node) {replacer : Replacer σ}
    (hr : ∀ step path, replacer (step :: path) = none) : Keeps (replaceImports replacer n) := by
  induction hsize : sizeOf n using Nat.strongRecOn generalizing n replacer with
  | ind size ih =>
    subst hsize
    unfold replaceImports
    apply visitEachChild_keeps
    intro step c hc s
    have hbelow : Keeps (replaceImports (fun path => replacer (step :: path)) c) :=
      ih _ (sizeOf_child_lt hc) c (fun next path => hr step (next :: path)) rfl
    rw [hr step []]
    cases c.import? <;>
      · rw [Effect.runFrom_bind_of_ok (hbelow s)]
        rfl

theorem candidatesFrom_cons {i : Nat} {s : Node} {ss : List Node} {candidates : List Nat}
    (h : candidatesFrom i (s :: ss) = .ok candidates) :
    ∃ here others, s.isCandidate = .ok here ∧ candidatesFrom (i + 1) ss = .ok others ∧
      candidates = if here then i :: others else others := by
  simp only [candidatesFrom, bind, Except.bind] at h
  split at h
  · cases h
  · next here hhere =>
    split at h
    · cases h
    · next others hothers =>
      cases h
      exact ⟨here, others, hhere, hothers, rfl⟩

theorem le_of_mem_candidatesFrom {i j : Nat} {ss : List Node} {candidates : List Nat}
    (h : candidatesFrom i ss = .ok candidates) (hj : j ∈ candidates) : i ≤ j := by
  induction ss generalizing i candidates with
  | nil =>
    cases h
    cases hj
  | cons s ss ih =>
    obtain ⟨here, others, -, hothers, rfl⟩ := candidatesFrom_cons h
    have hrest : j ∈ others → i ≤ j := fun hj => by
      have := ih hothers hj
      omega
    cases here with
    | false => exact hrest hj
    | true =>
      rcases List.mem_cons.1 hj with rfl | hj
      · exact Nat.le_refl _
      · exact hrest hj

theorem candidatesFrom_ok {ss : List Node} (h : ∀ s ∈ ss, ∃ b, s.isCandidate = .ok b) (i : Nat) :
    ∃ candidates, candidatesFrom i ss = .ok candidates := by
  induction ss generalizing i with
  | nil => exact ⟨[], rfl⟩
  | cons s ss ih =>
    obtain ⟨here, hhere⟩ := h s List.mem_cons_self
    obtain ⟨others, hothers⟩ := ih (fun t ht => h t (List.mem_cons_of_mem s ht)) (i + 1)
    refine ⟨if here then i :: others else others, ?_⟩
    simp only [candidatesFrom, hhere, hothers, bind, Except.bind]
    rfl

theorem isCandidate_of_import?_eq_none {s : Node} (h : s.import? = none) :
    s.isCandidate = .ok false := by
  rw [isCandidate, h]

end Node

variable {ω σ : Type}

/-- What is put in the place of a statement: a candidate gives way to the statements of its plan. -/
def answerTo (oracle : Oracle ω σ) (options : Options) (file : String) (s : Node) :
    Session σ (Option (List Node)) := do
  match s.import?, ← Effect.ofExcept s.isCandidate with
  | some d, true => return (← Plan.ofImport oracle options d file).replacement
  | _, _ => return none

/-- What is put in the places of some statements, one after the other. -/
def answersTo (oracle : Oracle ω σ) (options : Options) (file : String) :
    List Node → Session σ (List (Option (List Node)))
  | [] => pure []
  | s :: ss => do
    let answer ← answerTo oracle options file s
    let answers ← answersTo oracle options file ss
    return answer :: answers

variable {oracle : Oracle ω σ} {options : Options} {file : String}

theorem candidateReplacer_statement (candidates : List Nat) (i : Nat) :
    candidateReplacer oracle options file candidates [⟨.statements, some i⟩] =
      if candidates.contains i then
        some fun d => do return (← Plan.ofImport oracle options d file).replacement
      else none :=
  rfl

section visit

variable {P : Node → Prop} {candidates : List Nat} {visit : Visitor (Progress σ) P}

/-- A visit to a statement gives the answer to it. -/
theorem visit_candidate (hv : ∀ step c h, visit step c h =
      match c.import?, candidateReplacer oracle options file candidates [step] with
      | some d, some replace => replace d
      | _, _ => do
        let changed ← c.replaceImports fun path =>
          candidateReplacer oracle options file candidates (step :: path)
        return changed.map ([·]))
    {i : Nat} {s : Node} {candidate : Bool} (hs : s.isCandidate = .ok candidate)
    (hi : candidates.contains i = candidate) (h : P s) (p : Progress σ) :
    (visit ⟨.statements, some i⟩ s h).runFrom p = (answerTo oracle options file s).runFrom p := by
  have hkeeps : Node.Keeps (s.replaceImports fun path =>
      candidateReplacer oracle options file candidates (⟨.statements, some i⟩ :: path)) :=
    s.replaceImports_keeps fun _ _ => rfl
  have hkeep := hkeeps p
  rw [hv, answerTo, hs, Effect.runFrom_bind_of_ok (Effect.runFrom_ofExcept _ _)]
  cases himport : s.import? with
  | none =>
    dsimp only
    rw [Effect.runFrom_bind_of_ok hkeep]
    rfl
  | some d =>
    rw [candidateReplacer_statement, hi]
    cases candidate with
    | true => rfl
    | false =>
      simp only [Bool.false_eq_true, if_false]
      rw [Effect.runFrom_bind_of_ok hkeep]
      rfl

/-- The walk through the statements of a module gives the answers to its statements. -/
theorem visitItems_candidates (hv : ∀ step c h, visit step c h =
      match c.import?, candidateReplacer oracle options file candidates [step] with
      | some d, some replace => replace d
      | _, _ => do
        let changed ← c.replaceImports fun path =>
          candidateReplacer oracle options file candidates (step :: path)
        return changed.map ([·]))
    {i : Nat} {ss : List Node} {here : List Nat} (h : ∀ s ∈ ss, P s)
    (hss : Node.candidatesFrom i ss = .ok here)
    (hhere : ∀ j, i ≤ j → (candidates.contains j = true ↔ j ∈ here)) (p : Progress σ) :
    (Node.visitItems visit .statements i ss h).runFrom p =
      (answersTo oracle options file ss).runFrom p := by
  induction ss generalizing i here p with
  | nil => rfl
  | cons s ss ih =>
    obtain ⟨candidate, others, hs, hothers, rfl⟩ := Node.candidatesFrom_cons hss
    have hnew : i ∉ others := fun hmem => by
      have hle := Node.le_of_mem_candidatesFrom hothers hmem
      omega
    have hi : candidates.contains i = candidate := by
      rw [Bool.eq_iff_iff, hhere i (Nat.le_refl i)]
      cases candidate <;> simp [hnew]
    have hrest : ∀ j, i + 1 ≤ j → (candidates.contains j = true ↔ j ∈ others) := by
      intro j hj
      have hne : j ≠ i := by omega
      rw [hhere j (by omega)]
      cases candidate <;> simp [hne]
    rw [Node.visitItems, answersTo, Effect.runFrom_bind, Effect.runFrom_bind,
      visit_candidate hv hs hi]
    cases (answerTo oracle options file s).runFrom p with
    | mk outcome q =>
      cases outcome with
      | error e => rfl
      | ok answer =>
        dsimp only
        rw [Effect.runFrom_bind, Effect.runFrom_bind, ih _ hothers hrest q]

end visit

/-- The statements of a module after the answers to them. -/
def substituted (file : String) (ss : List Node) (trailing : Option String)
    (answers : List (Option (List Node))) : Node :=
  .sourceModule file (some (Node.spliced ss answers)) trailing

theorem answersTo_of_no_imports {ss : List Node} (h : ∀ s ∈ ss, s.import? = none)
    (p : Progress σ) :
    (answersTo oracle options file ss).runFrom p = (.ok (ss.map fun _ => none), p) := by
  induction ss with
  | nil => rfl
  | cons s ss ih =>
    have hs := h s List.mem_cons_self
    have hanswer : (answerTo oracle options file s).runFrom p = (.ok none, p) := by
      rw [answerTo, Node.isCandidate_of_import?_eq_none hs, hs]
      rfl
    rw [answersTo, Effect.runFrom_bind_of_ok hanswer,
      Effect.runFrom_bind_of_ok (ih fun t ht => h t (List.mem_cons_of_mem s ht))]
    rfl

theorem mem_children_sourceModule {s : Node} {ss : List Node} (h : s ∈ ss)
    (trailing : Option String) : s ∈ (Node.sourceModule file (some ss) trailing).children := by
  have hslot : Slot.many .statements (some ss) ∈
      (Node.sourceModule file (some ss) trailing).slots := List.mem_singleton.2 rfl
  exact Node.mem_children_of_mem_slot hslot h

theorem visitEachChild_sourceModule (ss : List Node) (trailing : Option String)
    (visit : Visitor (Progress σ) (· ∈ (Node.sourceModule file (some ss) trailing).children))
    (p : Progress σ) :
    ((Node.sourceModule file (some ss) trailing).visitEachChild visit).runFrom p =
      (if ss.any Node.isSyntax then do
        let answers ← Node.visitItems visit .statements 0 ss fun _ hs =>
          mem_children_sourceModule hs trailing
        return if answers.any Option.isSome then some (substituted file ss trailing answers)
          else none
      else return none : Session σ (Option Node)).runFrom p := by
  have hslots : ∀ h, Node.visitSlots (Node.sourceModule file (some ss) trailing).kind visit
      (Node.sourceModule file (some ss) trailing).slots h = (do
        let answer ← Node.visitSlot .sourceModule visit (.many .statements (some ss))
          (h _ List.mem_cons_self)
        return [answer]) := fun h => rfl
  unfold Node.visitEachChild
  rw [hslots, Node.visitSlot]
  cases ss.any Node.isSyntax with
  | false => rfl
  | true =>
    simp only [Bool.not_true, Bool.false_eq_true, if_false, if_true, bind_assoc]
    congr 2
    funext answers
    cases answers.any Option.isSome <;> rfl

theorem length_answersTo {ss : List Node} {p q : Progress σ} {answers : List (Option (List Node))}
    (h : (answersTo oracle options file ss).runFrom p = (.ok answers, q)) :
    answers.length = ss.length := by
  induction ss generalizing p answers with
  | nil =>
    cases h
    rfl
  | cons s ss ih =>
    obtain ⟨answer, p', -, h⟩ := Effect.runFrom_bind_eq_ok h
    obtain ⟨others, q', hothers, h⟩ := Effect.runFrom_bind_eq_ok h
    cases h
    rw [List.length_cons, List.length_cons, ih hothers]

/-- Without answers the statements stay as they are. -/
theorem spliced_eq_self {ss : List Node} {answers : List (Option (List Node))}
    (hlength : answers.length = ss.length) (hany : answers.any Option.isSome = false) :
    Node.spliced ss answers = ss := by
  induction ss generalizing answers with
  | nil => rfl
  | cons s ss ih =>
    cases answers with
    | nil => cases hlength
    | cons answer answers =>
      rw [List.any_cons, Bool.or_eq_false_iff] at hany
      have hnone : answer = none := by simpa using hany.1
      have hrest := ih (by simpa using hlength) hany.2
      subst hnone
      rw [Node.spliced] at hrest ⊢
      rw [List.zipWith_cons_cons, List.flatten_cons, hrest]
      rfl

/-- A module that may be transformed gets the statements that are answered for its own. -/
theorem transform_runFrom {ss : List Node} {trailing : Option String} {candidates : List Nat}
    (he : (Node.sourceModule file (some ss) trailing).isEligible options.framework = .ok true)
    (hc : Node.candidatesFrom 0 ss = .ok candidates) (p : Progress σ) :
    (transform oracle options (.sourceModule file (some ss) trailing)).runFrom p =
      (do
        let answers ← answersTo oracle options file ss
        return if answers.any Option.isSome then some (substituted file ss trailing answers)
          else none : Session σ (Option Node)).runFrom p := by
  unfold transform
  have hname : (Node.sourceModule file (some ss) trailing).fileName = .ok file := rfl
  have hcandidates : (Node.sourceModule file (some ss) trailing).candidates = .ok candidates := hc
  rw [he, Effect.runFrom_bind_of_ok (Effect.runFrom_ofExcept _ _), hname,
    Effect.runFrom_bind_of_ok (Effect.runFrom_ofExcept _ _)]
  simp only [Bool.not_true, Bool.false_eq_true, if_false]
  rw [hcandidates, Effect.runFrom_bind_of_ok (Effect.runFrom_ofExcept _ _)]
  unfold Node.replaceImports
  rw [visitEachChild_sourceModule]
  split
  · apply Effect.runFrom_bind_congr
    refine visitItems_candidates ?_ (fun _ hs => mem_children_sourceModule hs trailing) hc
      (fun _ _ => List.contains_iff_mem) p
    intro step c _
    cases c.import? <;> cases candidateReplacer oracle options file candidates [step] <;> rfl
  · next hsyntax =>
    have hnone : ∀ s ∈ ss, s.import? = none := by
      intro s hs
      rw [Option.eq_none_iff_forall_not_mem]
      intro d hd
      rw [Node.import?_eq_some.1 hd] at hs
      exact hsyntax (List.any_eq_true.2 ⟨_, hs, rfl⟩)
    rw [Effect.runFrom_bind_of_ok (answersTo_of_no_imports hnone p)]
    simp

end DeferredImports
