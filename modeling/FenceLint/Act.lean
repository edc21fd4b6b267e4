import FenceLint.Log.Record

/-!
Actions: functions from a state to a value, the state after it, and what was logged on the way.
An action can add to the log and has no means to read it, so nothing a run computes depends on
what it said.
-/

set_option autoImplicit false

namespace FenceLint

/-- What is left when an action has run. -/
structure Ran (σ α : Type) where
  value : α
  state : σ
  log : List Log.Item

/-- An action on a state `σ` with a value `α`. -/
def Act (σ α : Type) : Type := σ → Ran σ α

namespace Act

variable {σ τ α β : Type}

/-- Runs an action from a state. -/
def run (a : Act σ α) (s : σ) : Ran σ α := a s

instance : Monad (Act σ) where
  pure x := fun s ↦ ⟨x, s, []⟩
  bind a f := fun s ↦
    let first := a s
    let second := f first.value first.state
    ⟨second.value, second.state, first.log ++ second.log⟩

instance : MonadStateOf σ (Act σ) where
  get := fun s ↦ ⟨s, s, []⟩
  set s := fun _ ↦ ⟨(), s, []⟩
  modifyGet f := fun s ↦ ⟨(f s).1, (f s).2, []⟩

/-- Adds one item to the log. -/
def tell (item : Log.Item) : Act σ Unit := fun s ↦ ⟨(), s, [item]⟩

/-- Adds items to the log, in order. -/
def tellAll (items : List Log.Item) : Act σ Unit := fun s ↦ ⟨(), s, items⟩

/-- Logs an event. -/
def log (level : Log.Level) (target message : String) (fields : List (String × Log.Value)) :
    Act σ Unit :=
  tell (.event ⟨level, target, message, fields⟩)

/-- Runs an action inside a span. -/
def within (span : Log.Span) (a : Act σ α) : Act σ α := do
  tell (.enter span)
  let value ← a
  tell (.leave span)
  pure value

/-- Runs an action on a part of the state. -/
def focus (part : σ → τ) (put : τ → σ → σ) (a : Act τ α) : Act σ α := fun s ↦
  let r := a (part s)
  ⟨r.value, put r.state s, r.log⟩

@[simp] theorem run_pure (x : α) (s : σ) : run (pure x) s = ⟨x, s, []⟩ := rfl

@[simp] theorem run_bind (a : Act σ α) (f : α → Act σ β) (s : σ) :
    run (a >>= f) s =
      ⟨(run (f (run a s).value) (run a s).state).value,
        (run (f (run a s).value) (run a s).state).state,
        (run a s).log ++ (run (f (run a s).value) (run a s).state).log⟩ := rfl

@[simp] theorem run_map (f : α → β) (a : Act σ α) (s : σ) :
    run (f <$> a) s = ⟨f (run a s).value, (run a s).state, (run a s).log⟩ := by
  show (⟨f (run a s).value, (run a s).state, (run a s).log ++ []⟩ : Ran σ β) = _
  rw [List.append_nil]

@[simp] theorem run_get (s : σ) : run (get : Act σ σ) s = ⟨s, s, []⟩ := rfl

@[simp] theorem run_set (s t : σ) : run (set t : Act σ PUnit) s = ⟨(), t, []⟩ := rfl

@[simp] theorem run_modify (f : σ → σ) (s : σ) :
    run (modify f : Act σ PUnit) s = ⟨(), f s, []⟩ := rfl

@[simp] theorem run_modifyGet (f : σ → α × σ) (s : σ) :
    run (modifyGet f : Act σ α) s = ⟨(f s).1, (f s).2, []⟩ := rfl

@[simp] theorem run_tell (item : Log.Item) (s : σ) : run (tell item) s = ⟨(), s, [item]⟩ := rfl

@[simp] theorem run_tellAll (items : List Log.Item) (s : σ) :
    run (tellAll items) s = ⟨(), s, items⟩ := rfl

@[simp] theorem run_log (level : Log.Level) (target message : String)
    (fields : List (String × Log.Value)) (s : σ) :
    run (log level target message fields) s = ⟨(), s, [.event ⟨level, target, message, fields⟩]⟩ :=
  rfl

@[simp] theorem run_within (span : Log.Span) (a : Act σ α) (s : σ) :
    run (within span a) s =
      ⟨(run a s).value, (run a s).state, .enter span :: ((run a s).log ++ [.leave span])⟩ := by
  simp [within]

@[simp] theorem run_focus (part : σ → τ) (put : τ → σ → σ) (a : Act τ α) (s : σ) :
    run (focus part put a) s =
      ⟨(run a (part s)).value, put (run a (part s)).state s, (run a (part s)).log⟩ := rfl

instance : LawfulMonad (Act σ) := LawfulMonad.mk' (Act σ)
  (fun a ↦ by
    funext s
    show (⟨(a s).value, (a s).state, (a s).log ++ []⟩ : Ran σ _) = a s
    simp)
  (fun x f ↦ by
    funext s
    show (⟨(f x s).value, (f x s).state, [] ++ (f x s).log⟩ : Ran σ _) = f x s
    simp)
  (fun a f g ↦ by
    funext s
    simp only [bind, List.append_assoc])

end Act

end FenceLint
