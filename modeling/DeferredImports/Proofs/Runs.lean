import DeferredImports.Oracle

/-! Running effects and sessions: what each operation does to the outcome and to the state, and
effects that cannot fail. -/

namespace DeferredImports

/-- A sequence that ends with a value has ended both of its parts with one. -/
theorem exists_of_bind_eq_ok {ε α β : Type} {x : Except ε α} {f : α → Except ε β} {b : β}
    (h : (x >>= f) = .ok b) : ∃ a, x = .ok a ∧ f a = .ok b := by
  cases x with
  | error e => cases h
  | ok a => exact ⟨a, rfl, h⟩

/-- What succeeds for each element succeeds for all, one after the other. -/
theorem exists_mapM_eq_ok {ε α β : Type} {f : α → Except ε β} {xs : List α}
    (h : ∀ x ∈ xs, ∃ y, f x = .ok y) : ∃ ys, xs.mapM f = .ok ys := by
  induction xs with
  | nil => exact ⟨[], rfl⟩
  | cons x xs ih =>
    obtain ⟨y, hy⟩ := h x List.mem_cons_self
    obtain ⟨ys, hys⟩ := ih fun z hz => h z (List.mem_cons_of_mem x hz)
    rw [List.mapM_cons, hy, hys]
    exact ⟨y :: ys, rfl⟩

namespace Effect

variable {σ α β : Type}

@[simp] theorem runFrom_ofExcept (x : Except Failure α) (s : σ) :
    (ofExcept x : Effect σ α).runFrom s = (x, s) := rfl

theorem ofExcept_ok_bind (a : α) (f : α → Effect σ β) :
    ((ofExcept (.ok a) : Effect σ α) >>= f) = f a := rfl

/-- A failure ends the whole sequence, in the state reached. -/
theorem runFrom_bind (x : Effect σ α) (f : α → Effect σ β) (s : σ) :
    (x >>= f).runFrom s =
      match x.runFrom s with
      | (.ok a, s') => (f a).runFrom s'
      | (.error e, s') => (.error e, s') := by
  change (ExceptT.bind x f) s = _
  simp only [ExceptT.bind, ExceptT.mk, bind, StateT.bind, runFrom, ExceptT.run, StateT.run]
  rcases x s with ⟨_ | _, _⟩ <;> rfl

theorem runFrom_bind_of_ok {x : Effect σ α} {s s' : σ} {a : α} (h : x.runFrom s = (.ok a, s'))
    (f : α → Effect σ β) : (x >>= f).runFrom s = (f a).runFrom s' := by
  rw [runFrom_bind, h]

theorem runFrom_bind_congr {x y : Effect σ α} {s : σ} (h : x.runFrom s = y.runFrom s)
    (f : α → Effect σ β) : (x >>= f).runFrom s = (y >>= f).runFrom s := by
  rw [runFrom_bind, runFrom_bind, h]

/-- A sequence that ends with a value has run both of its parts to their ends. -/
theorem runFrom_bind_eq_ok {x : Effect σ α} {f : α → Effect σ β} {s t : σ} {b : β}
    (h : (x >>= f).runFrom s = (.ok b, t)) :
    ∃ a s', x.runFrom s = (.ok a, s') ∧ (f a).runFrom s' = (.ok b, t) := by
  rw [runFrom_bind] at h
  split at h
  · next a s' hx => exact ⟨a, s', hx, h⟩
  · cases h

/-- A sequence that ends with a value has read one first. -/
theorem ofExcept_bind_eq_ok {x : Except Failure α} {f : α → Effect σ β} {s t : σ} {b : β}
    (h : (ofExcept x >>= f).runFrom s = (.ok b, t)) :
    ∃ a, x = .ok a ∧ (f a).runFrom s = (.ok b, t) := by
  obtain ⟨a, s', hrun, h⟩ := runFrom_bind_eq_ok h
  rw [runFrom_ofExcept] at hrun
  obtain ⟨hx, rfl⟩ := Prod.mk.inj hrun
  exact ⟨a, hx, h⟩

section yields

variable {I : σ → Prop} {P : α → Prop}

/-- From every state that keeps an invariant the effect ends with a value that has the property, in
a state that keeps the invariant as well. -/
def Yields (x : Effect σ α) (I : σ → Prop) (P : α → Prop) : Prop :=
  ∀ s, I s → ∃ a s', x.runFrom s = (.ok a, s') ∧ I s' ∧ P a

theorem Yields.pure {a : α} (h : P a) : (Pure.pure a : Effect σ α).Yields I P :=
  fun s hs => ⟨a, s, rfl, hs, h⟩

theorem Yields.ofExcept {x : Except Failure α} {a : α} (hx : x = .ok a) (h : P a) :
    (Effect.ofExcept x : Effect σ α).Yields I P :=
  fun s hs => ⟨a, s, by rw [runFrom_ofExcept, hx], hs, h⟩

theorem Yields.bind {Q : β → Prop} {x : Effect σ α} {f : α → Effect σ β} (hx : x.Yields I P)
    (hf : ∀ a, P a → (f a).Yields I Q) : (x >>= f).Yields I Q := by
  intro s hs
  obtain ⟨a, s', h, hs', ha⟩ := hx s hs
  rw [runFrom_bind_of_ok h]
  exact hf a ha s' hs'

/-- After an effect that always ends with the same value, only this value matters. -/
theorem Yields.bind_eq {Q : β → Prop} {x : Effect σ α} {f : α → Effect σ β} {a : α}
    (hx : x.Yields I (· = a)) (hf : (f a).Yields I Q) : (x >>= f).Yields I Q := by
  refine hx.bind ?_
  rintro _ rfl
  exact hf

theorem Yields.ofExcept_bind {Q : β → Prop} {x : Except Failure α} {f : α → Effect σ β} {a : α}
    (hx : x = .ok a) (hf : (f a).Yields I Q) : (Effect.ofExcept x >>= f).Yields I Q :=
  (Yields.ofExcept (P := (· = a)) hx rfl).bind_eq hf

theorem Yields.mono {Q : α → Prop} {x : Effect σ α} (hx : x.Yields I P) (h : ∀ a, P a → Q a) :
    x.Yields I Q := by
  intro s hs
  obtain ⟨a, s', hrun, hs', ha⟩ := hx s hs
  exact ⟨a, s', hrun, hs', h a ha⟩

end yields

section yieldsOr

variable {I : σ → Prop} {P : α → Prop} {E : Failure → Prop}

/-- From every state that keeps an invariant the effect ends with a value that has the property, in
a state that keeps the invariant as well, or with one of the failures. -/
def YieldsOr (x : Effect σ α) (I : σ → Prop) (P : α → Prop) (E : Failure → Prop) : Prop :=
  ∀ s, I s → (∃ a s', x.runFrom s = (.ok a, s') ∧ I s' ∧ P a) ∨
    ∃ e s', x.runFrom s = (.error e, s') ∧ E e

theorem Yields.yieldsOr {x : Effect σ α} (hx : x.Yields I P) (E : Failure → Prop) :
    x.YieldsOr I P E :=
  fun s hs => .inl (hx s hs)

theorem YieldsOr.pure {a : α} (h : P a) : (Pure.pure a : Effect σ α).YieldsOr I P E :=
  (Yields.pure h).yieldsOr E

/-- Where none of the failures can be, there is a value. -/
theorem YieldsOr.yields {x : Effect σ α} (hx : x.YieldsOr I P E) (h : ∀ e, ¬ E e) :
    x.Yields I P := by
  intro s hs
  rcases hx s hs with hvalue | ⟨e, _, _, he⟩
  · exact hvalue
  · exact absurd he (h e)

theorem YieldsOr.bind {Q : β → Prop} {x : Effect σ α} {f : α → Effect σ β}
    (hx : x.YieldsOr I P E) (hf : ∀ a, P a → (f a).YieldsOr I Q E) :
    (x >>= f).YieldsOr I Q E := by
  intro s hs
  rcases hx s hs with ⟨a, s', h, hs', ha⟩ | ⟨e, s', h, he⟩
  · rw [runFrom_bind_of_ok h]
    exact hf a ha s' hs'
  · exact .inr ⟨e, s', by rw [runFrom_bind, h], he⟩

theorem Yields.bind_yieldsOr {Q : β → Prop} {x : Effect σ α} {f : α → Effect σ β}
    (hx : x.Yields I P) (hf : ∀ a, P a → (f a).YieldsOr I Q E) : (x >>= f).YieldsOr I Q E :=
  (hx.yieldsOr E).bind hf

theorem YieldsOr.ofExcept_bind {Q : β → Prop} {x : Except Failure α} {f : α → Effect σ β} {a : α}
    (hx : x = .ok a) (hf : (f a).YieldsOr I Q E) :
    (Effect.ofExcept x >>= f).YieldsOr I Q E := by
  rw [hx, ofExcept_ok_bind]
  exact hf

theorem YieldsOr.mono {Q : α → Prop} {F : Failure → Prop} {x : Effect σ α}
    (hx : x.YieldsOr I P E) (hP : ∀ a, P a → Q a) (hE : ∀ e, E e → F e) : x.YieldsOr I Q F := by
  intro s hs
  rcases hx s hs with ⟨a, s', h, hs', ha⟩ | ⟨e, s', h, he⟩
  · exact .inl ⟨a, s', h, hs', hP a ha⟩
  · exact .inr ⟨e, s', h, hE e he⟩

theorem YieldsOr.ofExcept_error {x : Except Failure α} {e : Failure} (hx : x = .error e)
    (h : E e) (f : α → Effect σ β) {Q : β → Prop} :
    (Effect.ofExcept x >>= f).YieldsOr I Q E :=
  fun s _ => .inr ⟨e, s, by rw [runFrom_bind, runFrom_ofExcept, hx], h⟩

/-- There is always a value or a failure. -/
theorem yieldsOr_any (x : Effect σ α) :
    x.YieldsOr (fun _ => True) (fun _ => True) fun _ => True := by
  intro s _
  rcases hrun : x.runFrom s with ⟨e | a, s'⟩
  · exact .inr ⟨e, s', rfl, trivial⟩
  · exact .inl ⟨a, s', rfl, trivial, trivial⟩

end yieldsOr

end Effect

namespace Session

variable {ω σ α : Type}

@[simp] theorem runFrom_act (a : Action) (p : Progress σ) :
    (act a : Session σ Unit).runFrom p = (.ok (), { p with trace := p.trace ++ [a] }) := rfl

@[simp] theorem runFrom_take (answer : σ → Reply σ α) (p : Progress σ) :
    (take answer).runFrom p =
      (.ok (answer p.oracle).outcome,
        ⟨p.trace ++ (answer p.oracle).events.map .logged, (answer p.oracle).state⟩) := rfl

/-- An action taken on a condition leaves the oracle to what runs after it. -/
theorem exists_runFrom_of_act_if {c : Prop} [Decidable c] {a : Action} {x : Unit → Session σ α}
    {p : Progress σ} {result : Except Failure α × Progress σ}
    (h : (if c then act a >>= x else x ()).runFrom p = result) :
    ∃ q, q.oracle = p.oracle ∧ (x ()).runFrom q = result := by
  split at h
  · rw [Effect.runFrom_bind_of_ok (runFrom_act a p)] at h
    exact ⟨{ p with trace := p.trace ++ [a] }, rfl, h⟩
  · exact ⟨p, rfl, h⟩

section yields

variable {Sound : σ → Prop}

theorem yields_act (a : Action) :
    Effect.Yields (act a : Session σ Unit) (Sound ·.oracle) fun _ => True :=
  fun p hp => ⟨(), _, runFrom_act a p, hp, trivial⟩

theorem yields_log (e : Event) :
    Effect.Yields (log e : Session σ Unit) (Sound ·.oracle) fun _ => True :=
  yields_act (.logged e)

/-- An action taken on a condition does not change what is yielded after it. -/
theorem yields_act_if {P : α → Prop} (c : Prop) [Decidable c] (a : Action)
    {x : Unit → Session σ α} (h : (x ()).Yields (Sound ·.oracle) P) :
    (if c then act a >>= x else x ()).Yields (Sound ·.oracle) P := by
  split
  · exact (yields_act a).bind fun _ _ => h
  · exact h

theorem yieldsOr_act_if {P : α → Prop} {E : Failure → Prop} (c : Prop) [Decidable c] (a : Action)
    {x : Unit → Session σ α} (h : (x ()).YieldsOr (Sound ·.oracle) P E) :
    (if c then act a >>= x else x ()).YieldsOr (Sound ·.oracle) P E := by
  split
  · exact (yields_act a).bind_yieldsOr fun _ _ => h
  · exact h

/-- What an answer always has is taken over with it. -/
theorem yields_take {P : Except Failure α → Prop} {answer : σ → Reply σ α}
    (h : ∀ s, Sound s → Sound (answer s).state ∧ P (answer s).outcome) :
    Effect.Yields (take answer) (Sound ·.oracle) P := by
  intro p hp
  obtain ⟨hsound, houtcome⟩ := h p.oracle hp
  exact ⟨_, _, runFrom_take answer p, hsound, houtcome⟩

theorem yields_ask {P : Except Failure α → Prop} {answer : σ → Reply σ α} (question : Action)
    (h : ∀ s, Sound s → Sound (answer s).state ∧ P (answer s).outcome) :
    Effect.Yields (ask question answer) (Sound ·.oracle) P :=
  (yields_act question).bind fun _ _ => yields_take h

/-- An answer that always has the same value yields it. -/
theorem yields_require {answer : σ → Reply σ α} {a : α}
    (h : ∀ s, Sound s → Sound (answer s).state ∧ (answer s).outcome = .ok a) :
    Effect.Yields (require answer) (Sound ·.oracle) (· = a) := by
  unfold require
  refine (yields_take h).bind_eq ?_
  exact .pure rfl

end yields

end Session

end DeferredImports
