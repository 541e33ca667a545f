import CollateralDebt.Proofs.Action.Outcome

/-! Two actions side by side, each from a state of its own. They run in parallel if both are refused with one error, or
both give a result and what they give and leave is related. Sequences run in parallel when their steps do; a check that
both make decides for both. -/

namespace CollateralDebt.Action

variable {σ τ ρ κ α β γ δ : Type}

/-- Both outcomes are the same error, or both are results that are related together with the states left. -/
inductive Parallel (R : σ → α → τ → β → Prop) : σ × Except Error α → τ × Except Error β → Prop where
  | failed (s : σ) (t : τ) (e : Error) : Parallel R (s, .error e) (t, .error e)
  | done {s : σ} {t : τ} {a : α} {b : β} (h : R s a t b) : Parallel R (s, .ok a) (t, .ok b)

variable {R : σ → α → τ → β → Prop} {s : σ} {t : τ}

theorem parallel_get_bind {next : σ → Action σ α} {next' : τ → Action τ β}
    (h : Parallel R (perform (next s) s) (perform (next' t) t)) :
    Parallel R (perform (get >>= next) s) (perform (get >>= next') t) := h

theorem parallel_bind {Q : σ → γ → τ → δ → Prop} {first : Action σ γ} {first' : Action τ δ} {next : γ → Action σ α}
    {next' : δ → Action τ β} (h : Parallel Q (perform first s) (perform first' t))
    (hnext : ∀ s₁ c t₁ d, Q s₁ c t₁ d → Parallel R (perform (next c) s₁) (perform (next' d) t₁)) :
    Parallel R (perform (first >>= next) s) (perform (first' >>= next') t) := by
  rw [perform_bind, perform_bind]
  generalize perform first s = x at h
  generalize perform first' t = y at h
  cases h with
  | failed s₁ t₁ e => exact .failed s₁ t₁ e
  | done h => exact hnext _ _ _ _ h

/-- A check of both of which the second one gives the same in another form. -/
theorem parallel_liftM_map_bind {result : Except Error γ} {f : γ → δ} {next : γ → Action σ α} {next' : δ → Action τ β}
    (h : ∀ c, result = .ok c → Parallel R (perform (next c) s) (perform (next' (f c)) t)) :
    Parallel R (perform (liftM result >>= next) s) (perform (liftM (result.map f) >>= next') t) := by
  rw [perform_bind, perform_bind, perform_liftM, perform_liftM]
  cases result with
  | error e => exact .failed s t e
  | ok c => exact h c rfl

/-- A check of both that does not depend on the state. -/
theorem parallel_liftM_bind {result : Except Error γ} {next : γ → Action σ α} {next' : γ → Action τ β}
    (h : ∀ c, result = .ok c → Parallel R (perform (next c) s) (perform (next' c) t)) :
    Parallel R (perform (liftM result >>= next) s) (perform (liftM result >>= next') t) := by
  have hmapped := parallel_liftM_map_bind (f := id) h
  rw [Except.map_id] at hmapped
  exact hmapped

theorem parallel_guard {c : Prop} [Decidable c] {e : Error} {next : PUnit → Action σ α} {next' : PUnit → Action τ β}
    (h : ¬c → Parallel R (perform (next ()) s) (perform (next' ()) t)) :
    Parallel R (perform (if c then (throw e : Action σ PUnit) >>= next else next ()) s)
      (perform (if c then (throw e : Action τ PUnit) >>= next' else next' ()) t) := by
  split
  · exact .failed s t e
  · next hc => exact h hc

theorem parallel_onPart {Q : ρ → α → κ → β → Prop} {part : σ → ρ} {putBack : ρ → σ → σ} {part' : τ → κ}
    {putBack' : κ → τ → τ} {action : Action ρ α} {action' : Action κ β}
    (h : Parallel Q (perform action (part s)) (perform action' (part' t)))
    (hback : ∀ r a k b, Q r a k b → R (putBack r s) a (putBack' k t) b) :
    Parallel R (perform (onPart part putBack action) s) (perform (onPart part' putBack' action') t) := by
  rw [perform_onPart, perform_onPart]
  generalize perform action (part s) = x at h
  generalize perform action' (part' t) = y at h
  cases h with
  | failed r k e => exact .failed _ _ e
  | done h => exact .done (hback _ _ _ _ h)

end CollateralDebt.Action
