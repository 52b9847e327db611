import Manuscript.Document.Walk

/-! # Running actions

An action is run from a state and gives its result together with the state
that it leaves, also when it fails. The laws here say how the parts of an
action are run one after another, so that no proof has to open the monad.
-/

namespace Manuscript.Action

variable {ε σ α β : Type}

/-- What comes of an action that starts in a state, and the state that it leaves. -/
def runFrom (action : Action ε σ α) (state : σ) : Except ε α × σ := action.run.run state

@[simp] theorem runFrom_pure (value : α) (state : σ) :
    (pure value : Action ε σ α).runFrom state = (.ok value, state) := rfl

@[simp] theorem runFrom_throw (error : ε) (state : σ) :
    (throw error : Action ε σ α).runFrom state = (.error error, state) := rfl

@[simp] theorem runFrom_get (state : σ) :
    (get : Action ε σ σ).runFrom state = (.ok state, state) := rfl

@[simp] theorem runFrom_modify (change : σ → σ) (state : σ) :
    (modify change : Action ε σ Unit).runFrom state = (.ok (), change state) := rfl

@[simp] theorem runFrom_bind (action : Action ε σ α) (next : α → Action ε σ β) (state : σ) :
    (action >>= next).runFrom state =
      match action.runFrom state with
      | (.ok value, after) => (next value).runFrom after
      | (.error error, after) => (.error error, after) := by
  simp only [runFrom, ExceptT.run_bind, StateT.run_bind]
  rcases action.run.run state with ⟨_ | _, _⟩ <;> rfl

@[simp] theorem runFrom_map (f : α → β) (action : Action ε σ α) (state : σ) :
    (f <$> action).runFrom state =
      match action.runFrom state with
      | (.ok value, after) => (.ok (f value), after)
      | (.error error, after) => (.error error, after) := by
  rw [← bind_pure_comp, runFrom_bind]
  rfl

@[simp] theorem runFrom_discard (action : Action ε σ α) (state : σ) :
    (discard action : Action ε σ PUnit).runFrom state =
      match action.runFrom state with
      | (.ok _, after) => (.ok (), after)
      | (.error error, after) => (.error error, after) :=
  runFrom_map (fun _ => ()) action state

/-- After a part that succeeds, the rest is run from the state that it leaves. -/
theorem runFrom_bind_ok {action : Action ε σ α} {next : α → Action ε σ β} {state after : σ}
    {value : α} (hrun : action.runFrom state = (.ok value, after)) :
    (action >>= next).runFrom state = (next value).runFrom after := by
  rw [runFrom_bind, hrun]

/-- After a part that fails, nothing more is run. -/
theorem runFrom_bind_error {action : Action ε σ α} {next : α → Action ε σ β} {state after : σ}
    {error : ε} (hrun : action.runFrom state = (.error error, after)) :
    (action >>= next).runFrom state = (.error error, after) := by
  rw [runFrom_bind, hrun]

/-- Parts succeed one after another if each of them does. -/
theorem runFrom_bind_ok_iff (action : Action ε σ α) (next : α → Action ε σ β) (state : σ)
    (value : β) :
    ((action >>= next).runFrom state).1 = .ok value ↔
      ∃ middle, (action.runFrom state).1 = .ok middle ∧
        ((next middle).runFrom (action.runFrom state).2).1 = .ok value := by
  rw [runFrom_bind]
  rcases action.runFrom state with ⟨_ | middle, after⟩ <;> simp

end Manuscript.Action
