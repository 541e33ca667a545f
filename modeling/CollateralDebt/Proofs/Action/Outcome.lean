import CollateralDebt.Action

/-! What an action comes to, read off its steps. `perform_bind_eq_ok` takes a successful sequence apart, and
an action is all or nothing from a state if it fails only with that state as it was. A sequence is all or
nothing when its first step is and nothing after it can fail; which is why an operation that makes its checks
first and writes last leaves no trace when it is refused. -/

namespace CollateralDebt.Action

variable {σ τ α β : Type}

theorem except_bind_eq_ok {result : Except Error α} {next : α → Except Error β} {b : β} :
    (result >>= next) = .ok b ↔ ∃ a, result = .ok a ∧ next a = .ok b := by
  cases result with
  | error e => exact ⟨fun h => (nomatch h), fun ⟨_, h, _⟩ => (nomatch h)⟩
  | ok a => exact ⟨fun h => ⟨a, rfl, h⟩, fun ⟨_, ha, h⟩ => by cases ha; exact h⟩

theorem except_guard_eq_ok {c : Prop} [Decidable c] {e : Error} {next : PUnit → Except Error β} {b : β} :
    (if c then (throw e : Except Error PUnit) >>= next else next ()) = .ok b ↔ ¬c ∧ next () = .ok b := by
  split
  · next hc => exact ⟨fun h => (nomatch h), fun h => absurd hc h.1⟩
  · next hc => exact (and_iff_right hc).symm

theorem except_map_eq_ok {result : Except Error α} {f : α → β} {b : β} :
    result.map f = .ok b ↔ ∃ a, result = .ok a ∧ f a = b := by
  cases result with
  | error e => exact ⟨fun h => (nomatch h), fun ⟨_, h, _⟩ => (nomatch h)⟩
  | ok a => exact ⟨fun h => ⟨a, rfl, Except.ok.inj h⟩, fun ⟨_, ha, h⟩ => by cases ha; exact congrArg _ h⟩

theorem exists_except_map_iff {result : Except Error α} {f : α → β} :
    (∃ b, result.map f = .ok b) ↔ ∃ a, result = .ok a := by
  constructor
  · rintro ⟨b, h⟩
    obtain ⟨a, ha, -⟩ := except_map_eq_ok.1 h
    exact ⟨a, ha⟩
  · rintro ⟨a, rfl⟩
    exact ⟨f a, rfl⟩

theorem except_map_bind {γ : Type} {result : Except Error α} {next : α → Except Error β} {f : β → γ} :
    (result >>= next).map f = result >>= fun a => (next a).map f := by
  cases result <;> rfl

theorem except_map_eq_error {result : Except Error α} {f : α → β} {e : Error} :
    result.map f = .error e ↔ result = .error e := by
  cases result with
  | error e' => exact ⟨fun h => congrArg Except.error (Except.error.inj h), fun h => congrArg Except.error (Except.error.inj h)⟩
  | ok a => exact ⟨fun h => (nomatch h), fun h => (nomatch h)⟩

theorem exists_ok_of_isOk {result : Except Error α} (h : result.isOk = true) : ∃ a, result = .ok a := by
  cases result with
  | error e => cases h
  | ok a => exact ⟨a, rfl⟩

theorem except_bind_eq_error {result : Except Error α} {next : α → Except Error β} {e : Error} :
    (result >>= next) = .error e ↔ result = .error e ∨ ∃ a, result = .ok a ∧ next a = .error e := by
  cases result with
  | error e' =>
      constructor
      · exact fun h => .inl (congrArg Except.error (Except.error.inj h))
      · rintro (h | ⟨_, ha, -⟩)
        · exact congrArg Except.error (Except.error.inj h)
        · cases ha
  | ok a =>
      constructor
      · exact fun h => .inr ⟨a, rfl, h⟩
      · rintro (h | ⟨_, ha, h⟩)
        · cases h
        · cases ha
          exact h

theorem except_guard_eq_error {c : Prop} [Decidable c] {e e' : Error} {next : PUnit → Except Error β}
    (h : (if c then (throw e : Except Error PUnit) >>= next else next ()) = .error e') :
    c ∧ e' = e ∨ ¬c ∧ next () = .error e' := by
  split at h
  · next hc => exact .inl ⟨hc, (Except.error.inj h).symm⟩
  · next hc => exact .inr ⟨hc, h⟩

@[simp] theorem perform_liftM (result : Except Error α) (s : σ) :
    perform (liftM result : Action σ α) s = (s, result) := perform_ofExcept result s

theorem perform_eq_ok_of_snd {action : Action σ α} {s : σ} {a : α} (h : (perform action s).2 = .ok a) :
    perform action s = ((perform action s).1, .ok a) := Prod.ext rfl h

theorem perform_bind_eq_ok {first : Action σ α} {next : α → Action σ β} {s s' : σ} {b : β} :
    perform (first >>= next) s = (s', .ok b) ↔
      ∃ a s₁, perform first s = (s₁, .ok a) ∧ perform (next a) s₁ = (s', .ok b) := by
  rw [perform_bind]
  rcases perform first s with ⟨s₁, e | a⟩
  · simp
  · constructor
    · exact fun h => ⟨a, s₁, rfl, h⟩
    · rintro ⟨a', s₂, hfirst, h⟩
      cases hfirst
      exact h

theorem perform_bind_pure_eq_ok {action : Action σ α} {f : α → β} {s s' : σ} {b : β} :
    perform (action >>= fun a => pure (f a)) s = (s', .ok b) ↔ ∃ a, perform action s = (s', .ok a) ∧ b = f a := by
  rw [perform_bind_eq_ok]
  constructor
  · rintro ⟨a, s₁, haction, hlast⟩
    cases hlast
    exact ⟨a, haction, rfl⟩
  · rintro ⟨a, haction, rfl⟩
    exact ⟨a, s', haction, rfl⟩

theorem perform_liftM_bind {result : Except Error α} {a : α} (h : result = .ok a) (next : α → Action σ β) (s : σ) :
    perform (liftM result >>= next) s = perform (next a) s := by
  rw [perform_bind, perform_liftM, h]

/-- A check that is passed: the action goes on from the same state with what the check gave. -/
theorem perform_liftM_bind_eq_ok {result : Except Error α} {next : α → Action σ β} {s s' : σ} {b : β} :
    perform (liftM result >>= next) s = (s', .ok b) ↔
      ∃ a, result = .ok a ∧ perform (next a) s = (s', .ok b) := by
  rw [perform_bind, perform_liftM]
  cases result <;> simp

@[simp] theorem perform_get_bind (next : σ → Action σ β) (s : σ) :
    perform (get >>= next) s = perform (next s) s := rfl

@[simp] theorem perform_set_bind (next : PUnit → Action σ β) (s s' : σ) :
    perform (set s' >>= next) s = perform (next ()) s' := rfl

@[simp] theorem perform_modify_bind (f : σ → σ) (next : PUnit → Action σ β) (s : σ) :
    perform (modify f >>= next) s = perform (next ()) (f s) := rfl

@[simp] theorem perform_throw_bind (e : Error) (next : α → Action σ β) (s : σ) :
    perform ((throw e : Action σ α) >>= next) s = (s, .error e) := rfl

/-- A guard that is passed: the action goes on from the same state. -/
theorem perform_guard_eq_ok {c : Prop} [Decidable c] {e : Error} {next : PUnit → Action σ β} {s s' : σ} {b : β} :
    perform (if c then (throw e : Action σ PUnit) >>= next else next ()) s = (s', .ok b) ↔
      ¬c ∧ perform (next ()) s = (s', .ok b) := by
  split
  · next hc =>
      rw [perform_throw_bind]
      exact ⟨fun h => (nomatch h), fun h => absurd hc h.1⟩
  · next hc => exact (and_iff_right hc).symm

theorem perform_guard_eq_error {c : Prop} [Decidable c] {e e' : Error} {next : PUnit → Action σ β} {s s' : σ}
    (h : perform (if c then (throw e : Action σ PUnit) >>= next else next ()) s = (s', .error e')) :
    c ∧ e' = e ∨ ¬c ∧ perform (next ()) s = (s', .error e') := by
  split at h
  · next hc =>
      rw [perform_throw_bind] at h
      exact .inl ⟨hc, (Except.error.inj (Prod.mk.inj h).2).symm⟩
  · next hc => exact .inr ⟨hc, h⟩

/-- What an action is refused for is what its first check says, or what the rest of it says after the check is passed. -/
theorem perform_liftM_bind_eq_error {result : Except Error α} {next : α → Action σ β} {s s' : σ} {e : Error}
    (h : perform (liftM result >>= next) s = (s', .error e)) :
    result = .error e ∨ ∃ a, result = .ok a ∧ perform (next a) s = (s', .error e) := by
  rw [perform_bind, perform_liftM] at h
  cases result with
  | error e' =>
      obtain ⟨-, hsame⟩ := Prod.mk.inj h
      exact .inl (congrArg Except.error (Except.error.inj hsame))
  | ok a => exact .inr ⟨a, rfl, h⟩

/-- The action cannot fail from a state. -/
def Completes (action : Action σ α) (s : σ) : Prop := ∃ a s', perform action s = (s', .ok a)

/-- The action fails from a state only with the state as it was. -/
def AllOrNothing (action : Action σ α) (s : σ) : Prop := ∀ s' e, perform action s = (s', .error e) → s' = s

theorem completes_pure (a : α) (s : σ) : Completes (pure a) s := ⟨a, s, rfl⟩

theorem completes_liftM {result : Except Error α} {a : α} (h : result = .ok a) (s : σ) :
    Completes (liftM result : Action σ α) s := ⟨a, s, by rw [perform_liftM, h]⟩

theorem completes_get_bind {next : σ → Action σ β} {s : σ} (h : Completes (next s) s) :
    Completes (get >>= next) s := h

theorem completes_set_bind {next : PUnit → Action σ β} {s s' : σ} (h : Completes (next ()) s') :
    Completes (set s' >>= next) s := h

theorem completes_bind {first : Action σ α} {next : α → Action σ β} {s : σ} (h : Completes first s)
    (hnext : ∀ a s', Completes (next a) s') : Completes (first >>= next) s := by
  obtain ⟨a, s₁, hfirst⟩ := h
  obtain ⟨b, s₂, hthen⟩ := hnext a s₁
  exact ⟨b, s₂, perform_bind_eq_ok.2 ⟨a, s₁, hfirst, hthen⟩⟩

theorem completes_modify (f : σ → σ) (s : σ) : Completes (modify f : Action σ PUnit) s := ⟨(), f s, rfl⟩

theorem Completes.allOrNothing {action : Action σ α} {s : σ} (h : Completes action s) : AllOrNothing action s := by
  intro s' e hfail
  obtain ⟨a, s₁, hdone⟩ := h
  rw [hdone] at hfail
  cases hfail

/-- A write and a result, after which nothing is left that could fail. -/
theorem allOrNothing_set_return (s s' : σ) (a : α) :
    AllOrNothing (do
      set s'
      return a : Action σ α) s :=
  Completes.allOrNothing (completes_set_bind (completes_pure a s'))

/-- Nothing after the first step of an action can fail. -/
theorem allOrNothing_bind {first : Action σ α} {next : α → Action σ β} {s : σ} (h : AllOrNothing first s)
    (hnext : ∀ a s', perform first s = (s', .ok a) → Completes (next a) s') : AllOrNothing (first >>= next) s := by
  intro s' e hfail
  rw [perform_bind] at hfail
  cases hfirst : perform first s with
  | mk s₁ result =>
      rw [hfirst] at hfail
      cases result with
      | error e₁ =>
          obtain ⟨rfl, -⟩ := Prod.mk.inj hfail
          exact h s₁ e₁ hfirst
      | ok a =>
          obtain ⟨b, s₂, hthen⟩ := hnext a s₁ hfirst
          rw [show perform (next a) s₁ = (s', .error e) from hfail] at hthen
          cases hthen

/-- Either an all-or-nothing action leaves the state as it was, or it gives a result. -/
theorem AllOrNothing.same_or_done {action : Action σ α} {s : σ} (h : AllOrNothing action s) :
    (perform action s).1 = s ∨ ∃ a, perform action s = ((perform action s).1, .ok a) := by
  rcases hperform : perform action s with ⟨s', e | a⟩
  · exact .inl (h s' e hperform)
  · exact .inr ⟨a, rfl⟩

theorem allOrNothing_throw (e : Error) (s : σ) : AllOrNothing (throw e : Action σ α) s := by
  intro s' e' h
  exact (congrArg Prod.fst h).symm

theorem allOrNothing_throw_bind (e : Error) (next : α → Action σ β) (s : σ) :
    AllOrNothing ((throw e : Action σ α) >>= next) s := allOrNothing_throw e s

theorem allOrNothing_get_bind {next : σ → Action σ β} {s : σ} (h : AllOrNothing (next s) s) :
    AllOrNothing (get >>= next) s := h

/-- A check that fails leaves the state alone, whatever would have come after it. -/
theorem allOrNothing_liftM_bind {result : Except Error α} {next : α → Action σ β} {s : σ}
    (h : ∀ a, result = .ok a → AllOrNothing (next a) s) : AllOrNothing (liftM result >>= next) s := by
  cases result with
  | error e => exact allOrNothing_throw e s
  | ok a => exact h a rfl

theorem allOrNothing_ite {c : Prop} [Decidable c] {first second : Action σ α} {s : σ}
    (hfirst : c → AllOrNothing first s) (hsecond : ¬c → AllOrNothing second s) :
    AllOrNothing (if c then first else second) s := by
  split
  · exact hfirst ‹_›
  · exact hsecond ‹_›

/-- An action on a part is all or nothing for the whole if putting back what was read changes nothing. -/
theorem allOrNothing_onPart {part : τ → σ} {putBack : σ → τ → τ} {action : Action σ α} {whole : τ}
    (h : AllOrNothing action (part whole)) (hback : putBack (part whole) whole = whole) :
    AllOrNothing (onPart part putBack action) whole := by
  intro whole' e hfail
  rw [perform_onPart] at hfail
  obtain ⟨hwhole, hresult⟩ := Prod.mk.inj hfail
  have hpart : (perform action (part whole)).1 = part whole := h _ e (Prod.ext rfl hresult)
  rw [← hwhole, hpart, hback]

end CollateralDebt.Action
