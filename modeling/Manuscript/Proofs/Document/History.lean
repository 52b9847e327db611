import Manuscript.Proofs.Document.Walk

/-! # Histories of walks

A visitor can be made to record each of its visits without any change to what
it does. The history of a walk accounts for its result: the walk stopped or
failed exactly if one of its visits did. It is also the history of the
recursion on the tree (`walk_visits_as_descend`).
-/

namespace Manuscript

/-- A visit that was made: the node, the occasion, the state before it and what came of it. -/
structure Visit (ε σ : Type) where
  node : Node
  phase : Phase
  before : σ
  answer : Except ε Step

/-- The visits made so far, the latest first. -/
abbrev History (ε σ : Type) := List (Visit ε σ)

variable {ε σ : Type}

/-- The same visitor, keeping a history. -/
def Visitor.recorded (visit : Visitor ε σ) : Visitor ε (σ × History ε σ) := fun node phase =>
  ExceptT.mk <| StateT.mk fun (state, history) =>
    let (answer, after) := (visit node phase).runFrom state
    (answer, after, ⟨node, phase, state, answer⟩ :: history)

/-- The visits that a walk makes. -/
def historyOf (visit : Visitor ε σ) (root : Node) (start : σ) : History ε σ :=
  ((walk visit.recorded root).runFrom (start, [])).2.2

/-- The history of a walk can be read off the recursion. -/
theorem historyOf_eq_descend (visit : Visitor ε σ) (root : Node) (start : σ) :
    historyOf visit root start = ((root.descend visit.recorded).runFrom (start, [])).2.2 := by
  rw [historyOf, walk_eq_descend]

/-- A visit with a property can be looked up by the number of visits after it. -/
theorem exists_visit_of_drop {visit : Visitor ε σ} {root : Node} {start : σ} (later : Nat)
    {p : Visit ε σ → History ε σ → Prop}
    (hvisit : ∃ v earlier,
      ((root.descend visit.recorded).runFrom (start, [])).2.2.drop later = v :: earlier ∧
        p v earlier) :
    ∃ v earlier, v :: earlier <:+ historyOf visit root start ∧ p v earlier := by
  obtain ⟨v, earlier, hdrop, hp⟩ := hvisit
  refine ⟨v, earlier, ?_, hp⟩
  rw [historyOf_eq_descend, ← hdrop]
  exact List.drop_suffix _ _

/-- A recorded visit does what the visit does, and adds it to the history. -/
theorem Visitor.runFrom_recorded {visit : Visitor ε σ} {node : Node} {phase : Phase}
    {state after : σ} {answer : Except ε Step}
    (hrun : (visit node phase).runFrom state = (answer, after)) (history : History ε σ) :
    (visit.recorded node phase).runFrom (state, history) =
      (answer, after, ⟨node, phase, state, answer⟩ :: history) := by
  change ((((visit node phase).runFrom state).1, ((visit node phase).runFrom state).2,
    ⟨node, phase, state, ((visit node phase).runFrom state).1⟩ :: history) :
      Except ε Step × σ × History ε σ) = _
  rw [hrun]

section Turn

variable {visit : Visitor ε σ} {node : Node} {phase : Phase} {rest : Pending} {state after : σ}

theorem runFrom_walkPending_error {error : ε}
    (hrun : (visit node phase).runFrom state = (.error error, after)) :
    (walkPending visit ((node, phase) :: rest)).runFrom state = (.error error, after) := by
  rw [walkPending_cons, Action.runFrom_bind_error hrun]

theorem runFrom_walkPending_stop
    (hrun : (visit node phase).runFrom state = (.ok .stop, after)) :
    (walkPending visit ((node, phase) :: rest)).runFrom state = (.ok .stop, after) := by
  rw [walkPending_cons, Action.runFrom_bind_ok hrun, Action.runFrom_pure]

theorem runFrom_walkPending_step {step : Step}
    (hrun : (visit node phase).runFrom state = (.ok step, after)) (hstep : step ≠ .stop) :
    (walkPending visit ((node, phase) :: rest)).runFrom state =
      (walkPending visit (Pending.after node phase step rest)).runFrom after := by
  rw [walkPending_cons, Action.runFrom_bind_ok hrun]
  cases step with
  | stop => exact absurd rfl hstep
  | next => rfl
  | skipChildren => rfl

end Turn

/-! ## The result of a walk -/

/-- A history accounts for the result of a walk: some visit stopped it, some visit failed, or
neither happened. -/
structure Accounts (result : Except ε Step) (history : History ε σ) : Prop where
  stop : result = .ok .stop ↔ ∃ v ∈ history, v.answer = .ok .stop
  error : ∀ e, result = .error e ↔ ∃ v ∈ history, v.answer = .error e
  next : result = .ok .next ↔
    ∀ v ∈ history, v.answer = .ok .next ∨ v.answer = .ok .skipChildren

namespace Accounts

theorem nil : Accounts (.ok .next) ([] : History ε σ) := by
  constructor <;> simp

/-- A visit that stops a walk accounts for it. -/
theorem of_stop (v : Visit ε σ) (hstop : v.answer = .ok .stop) : Accounts (.ok .stop) [v] := by
  constructor <;> simp [hstop]

/-- A visit that fails accounts for the failure of a walk. -/
theorem of_error (v : Visit ε σ) {e : ε} (herror : v.answer = .error e) :
    Accounts (.error e) [v] := by
  constructor <;> simp [herror]

/-- A first visit that neither stopped nor failed changes nothing. -/
theorem append_step {result : Except ε Step} {made : History ε σ}
    (haccounts : Accounts result made) (v : Visit ε σ) {step : Step}
    (hanswer : v.answer = .ok step) (hstep : step ≠ .stop) : Accounts result (made ++ [v]) := by
  have hgo : step = .next ∨ step = .skipChildren := by
    cases step <;> simp_all
  constructor
  · simp [haccounts.stop, hanswer, hstep]
  · simp [haccounts.error, hanswer]
  · simp [haccounts.next, hanswer, or_imp, forall_and, hgo]

/-- If no visit stopped a walk that did not fail, it came to its end. -/
theorem eq_next {step : Step} {history : History ε σ}
    (haccounts : Accounts (.ok step) history)
    (hstop : ∀ v ∈ history, v.answer ≠ .ok .stop) : step = .next := by
  have hgo : ∀ v ∈ history, v.answer = .ok .next ∨ v.answer = .ok .skipChildren := by
    intro v hmem
    cases hanswer : v.answer with
    | error e => cases (haccounts.error e).mpr ⟨v, hmem, hanswer⟩
    | ok answer =>
        cases answer with
        | stop => exact absurd hanswer (hstop v hmem)
        | next => exact .inl rfl
        | skipChildren => exact .inr rfl
  have hresult := haccounts.next.mpr hgo
  cases hresult
  rfl

end Accounts

/-- Recording changes neither the result of a loop nor its state. The visits that it adds account
for the result, and their number is bounded before the first of them is made. -/
theorem runFrom_walkPending_recorded (visit : Visitor ε σ) (pending : Pending) (state : σ)
    (history : History ε σ) :
    ∃ result final made,
      (walkPending visit pending).runFrom state = (result, final) ∧
      (walkPending visit.recorded pending).runFrom (state, history) =
        (result, final, made ++ history) ∧
      Accounts result made ∧ made.length ≤ pending.weight := by
  induction pending using Pending.induction generalizing state history with
  | done =>
      refine ⟨.ok .next, state, [], ?_, ?_, Accounts.nil, Nat.zero_le _⟩ <;>
        rw [walkPending] <;> rfl
  | visit node phase rest ih =>
      obtain ⟨answer, after, hrun⟩ :
          ∃ answer after, (visit node phase).runFrom state = (answer, after) := ⟨_, _, rfl⟩
      have hrecorded := Visitor.runFrom_recorded hrun history
      have hweight := Pending.weight_after_lt node phase
      let v : Visit ε σ := ⟨node, phase, state, answer⟩
      cases answer with
      | error e =>
          refine ⟨.error e, after, [v], runFrom_walkPending_error hrun,
            runFrom_walkPending_error hrecorded, Accounts.of_error v rfl, ?_⟩
          have := hweight .next rest
          simp only [List.length_singleton]
          omega
      | ok step =>
          by_cases hstep : step = .stop
          · subst hstep
            refine ⟨.ok .stop, after, [v], runFrom_walkPending_stop hrun,
              runFrom_walkPending_stop hrecorded, Accounts.of_stop v rfl, ?_⟩
            have := hweight .next rest
            simp only [List.length_singleton]
            omega
          · -- The rest adds its visits in front of this one.
            obtain ⟨result, final, made, hplain, hwith, haccounts, hlength⟩ :=
              ih step after (v :: history)
            refine ⟨result, final, made ++ [v], ?_, ?_, haccounts.append_step v rfl hstep, ?_⟩
            · rw [runFrom_walkPending_step hrun hstep, hplain]
            · rw [runFrom_walkPending_step hrecorded hstep, hwith, List.append_assoc,
                List.singleton_append]
            · have := hweight step rest
              simp only [List.length_append, List.length_singleton]
              omega

/-- A walk does the same with and without a history, and the history accounts for the result. -/
theorem runFrom_walk_recorded {visit : Visitor ε σ} {root : Node} {start final : σ}
    {result : Except ε Step} (hrun : (walk visit root).runFrom start = (result, final)) :
    (walk visit.recorded root).runFrom (start, []) =
      (result, final, historyOf visit root start) ∧
    Accounts result (historyOf visit root start) := by
  obtain ⟨result', final', made, hplain, hrecorded, haccounts, -⟩ :=
    runFrom_walkPending_recorded visit [(root, .enter)] start []
  rw [walk, hplain] at hrun
  cases hrun
  rw [List.append_nil] at hrecorded
  have hhistory : historyOf visit root start = made := by
    rw [historyOf, walk, hrecorded]
  rw [hhistory]
  exact ⟨hrecorded, haccounts⟩

/-- The loop is the recursion on the tree: for every visitor the two make the same visits in the
same order and end with the same result or failure in the same state. The result is told by the
visits, of which there are at most two for each node. -/
theorem walk_visits_as_descend (visit : Visitor ε σ) (root : Node) (start : σ) :
    walk visit root = root.descend visit ∧
    ∃ result final made,
      (walk visit root).runFrom start = (result, final) ∧
      (walk visit.recorded root).runFrom (start, []) = (result, final, made) ∧
      (root.descend visit.recorded).runFrom (start, []) = (result, final, made) ∧
      Accounts result made ∧ made.length ≤ 2 * root.size := by
  refine ⟨walk_eq_descend visit root, ?_⟩
  obtain ⟨result, final, made, hplain, hrecorded, haccounts, hlength⟩ :=
    runFrom_walkPending_recorded visit [(root, .enter)] start []
  rw [List.append_nil] at hrecorded
  refine ⟨result, final, made, hplain, hrecorded, ?_, haccounts, hlength⟩
  rw [← walk_eq_descend]
  exact hrecorded

end Manuscript
