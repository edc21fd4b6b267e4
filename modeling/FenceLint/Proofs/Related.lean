import FenceLint.Act

/-!
Actions side by side. Two actions on different states are related when they keep a relation between
the states and end with related values; sequences of related actions are related, so what one run
does can be read off another.
-/

set_option autoImplicit false

namespace FenceLint.Act

variable {σ τ α β γ δ : Type}

/-- From related states two actions end in related states with related values. -/
def Related (E : σ → τ → Prop) (R : α → β → Prop) (a : Act σ α) (b : Act τ β) : Prop :=
  ∀ s t, E s t → R (a.run s).value (b.run t).value ∧ E (a.run s).state (b.run t).state

namespace Related

variable {E : σ → τ → Prop} {R : α → β → Prop} {Q : γ → δ → Prop}

protected theorem pure {x : α} {y : β} (h : R x y) : Related E R (pure x) (pure y) := by
  intro s t hst
  exact ⟨h, hst⟩

protected theorem bind {a : Act σ α} {b : Act τ β} {f : α → Act σ γ} {g : β → Act τ δ}
    (h : Related E R a b) (hf : ∀ x y, R x y → Related E Q (f x) (g y)) :
    Related E Q (a >>= f) (b >>= g) := by
  intro s t hst
  obtain ⟨hvalue, hstate⟩ := h s t hst
  exact hf _ _ hvalue _ _ hstate

/-- Reading the state first. -/
theorem get_bind {f : σ → Act σ γ} {g : τ → Act τ δ}
    (hf : ∀ s t, E s t → Related E Q (f s) (g t)) :
    Related E Q (get >>= f) (get >>= g) := by
  intro s t hst
  exact hf s t hst s t hst

protected theorem modify {f : σ → σ} {g : τ → τ} (h : ∀ s t, E s t → E (f s) (g t)) :
    Related E (fun _ _ ↦ True) (modify f : Act σ PUnit) (modify g : Act τ PUnit) := by
  intro s t hst
  exact ⟨trivial, h s t hst⟩

/-- What is logged changes no state. -/
theorem log_bind {f : Unit → Act σ γ} {g : Unit → Act τ δ} (level : Log.Level)
    (target message : String) (fields fields' : List (String × Log.Value))
    (h : Related E Q (f ()) (g ())) :
    Related E Q (log level target message fields >>= f)
      (log level target message fields' >>= g) := by
  intro s t hst
  exact h s t hst

protected theorem within {a : Act σ α} {b : Act τ β} (span : Log.Span) (h : Related E R a b) :
    Related E R (within span a) (within span b) := by
  intro s t hst
  rw [run_within, run_within]
  exact h s t hst

end Related

end FenceLint.Act
