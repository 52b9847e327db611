import Manuscript.Proofs.Document.History

/-! # Nodes that are open during a walk

A node is open from the visit that enters it until the visit that leaves it. A
history tells which nodes are open: leaving a node closes the innermost one,
and that is the node that is left (`Underway.open_of_leave`).

`Underway` says which visits are pending and which were made whenever a walk
takes its next visit, so that what one visit preserves holds along the walk.
-/

namespace Manuscript

variable {ε σ : Type}

/-- A walk is under way: these visits are pending, those were made, and they led to a state. -/
inductive Underway (visit : Visitor ε σ) (root : Node) (start : σ) :
    Pending → History ε σ → σ → Prop
  | start : Underway visit root start [(root, .enter)] [] start
  | step {node : Node} {phase : Phase} {rest : Pending} {history : History ε σ} {state after : σ}
      {step : Step} (hbefore : Underway visit root start ((node, phase) :: rest) history state)
      (hrun : (visit node phase).runFrom state = (.ok step, after)) (hstep : step ≠ .stop) :
      Underway visit root start (Pending.after node phase step rest)
        (⟨node, phase, state, .ok step⟩ :: history) after

/-- A walk makes a visit after others. -/
structure Makes (visit : Visitor ε σ) (root : Node) (start : σ) (v : Visit ε σ)
    (earlier : History ε σ) : Prop where
  underway : ∃ rest, Underway visit root start ((v.node, v.phase) :: rest) earlier v.before
  answer : ((visit v.node v.phase).runFrom v.before).1 = v.answer

section

variable {visit : Visitor ε σ} {root : Node} {start : σ}

/-- A walk that is under way goes on by making visits, and if none of them stops it or fails, it
ends with nothing pending. -/
theorem Underway.run {pending : Pending} {history : History ε σ} {state : σ}
    (hunderway : Underway visit root start pending history state)
    (hmade : ∀ v earlier, v :: earlier <:+ history → Makes visit root start v earlier) :
    ∃ result final whole,
      (walkPending visit.recorded pending).runFrom (state, history) = (result, final, whole) ∧
      (∀ v earlier, v :: earlier <:+ whole → Makes visit root start v earlier) ∧
      (result = .ok .next → Underway visit root start [] whole final) := by
  induction pending using Pending.induction generalizing history state with
  | done =>
      refine ⟨.ok .next, state, history, ?_, hmade, fun _ => hunderway⟩
      rw [walkPending]
      rfl
  | visit node phase rest ih =>
      obtain ⟨answer, after, hrun⟩ :
          ∃ answer after, (visit node phase).runFrom state = (answer, after) := ⟨_, _, rfl⟩
      have hrecorded := Visitor.runFrom_recorded hrun history
      have hthis : Makes visit root start ⟨node, phase, state, answer⟩ history :=
        ⟨⟨rest, hunderway⟩, by rw [hrun]⟩
      have hmade' : ∀ v earlier, v :: earlier <:+ ⟨node, phase, state, answer⟩ :: history →
          Makes visit root start v earlier := by
        intro v earlier hsuffix
        rcases List.suffix_cons_iff.mp hsuffix with heq | hsuffix
        · cases heq
          exact hthis
        · exact hmade v earlier hsuffix
      -- A visit that fails or stops the walk is made as well, but nothing is under way after it.
      cases answer with
      | error e =>
          exact ⟨_, _, _, runFrom_walkPending_error hrecorded, hmade', fun h => by cases h⟩
      | ok step =>
          by_cases hstep : step = .stop
          · subst hstep
            exact ⟨_, _, _, runFrom_walkPending_stop hrecorded, hmade', fun h => by cases h⟩
          · rw [runFrom_walkPending_step hrecorded hstep]
            exact ih step (hunderway.step hrun hstep) hmade'

/-- Whatever is in the history of a walk was made by it after what is before it in the history. -/
theorem makes_of_suffix {v : Visit ε σ} {earlier : History ε σ}
    (hsuffix : v :: earlier <:+ historyOf visit root start) :
    Makes visit root start v earlier := by
  have hstart : Underway visit root start [(root, .enter)] [] start := .start
  obtain ⟨result, final, whole, hrun, hmade, _⟩ := hstart.run (by simp)
  rw [historyOf, walk, hrun] at hsuffix
  exact hmade v earlier hsuffix

/-- Every visit of a history has its place in it. -/
theorem exists_makes_of_mem {v : Visit ε σ} (hmem : v ∈ historyOf visit root start) :
    ∃ earlier, Makes visit root start v earlier := by
  obtain ⟨later, earlier, heq⟩ := List.append_of_mem hmem
  exact ⟨earlier, makes_of_suffix ⟨later, heq.symm⟩⟩

/-- A walk was under way whenever it had made some of its visits. -/
theorem Underway.of_suffix {pending : Pending} {history earlier : History ε σ} {state : σ}
    (hunderway : Underway visit root start pending history state) (hsuffix : earlier <:+ history) :
    ∃ pending state, Underway visit root start pending earlier state := by
  induction hunderway with
  | start =>
      rw [List.suffix_nil.mp hsuffix]
      exact ⟨_, _, .start⟩
  | step hbefore hrun hstep ih =>
      rcases List.suffix_cons_iff.mp hsuffix with rfl | hsuffix
      · exact ⟨_, _, hbefore.step hrun hstep⟩
      · exact ih hsuffix

/-- A walk that comes to its end has nothing pending. -/
theorem underway_historyOf {final : σ}
    (hrun : (walk visit root).runFrom start = (.ok .next, final)) :
    Underway visit root start [] (historyOf visit root start) final := by
  have hstart : Underway visit root start [(root, .enter)] [] start := .start
  obtain ⟨result, final', whole, hrun', -, hdone⟩ := hstart.run (by simp)
  have hrecorded := (runFrom_walk_recorded hrun).1
  rw [walk, hrun'] at hrecorded
  cases hrecorded
  exact hdone rfl

end

/-! ## Open nodes -/

/-- A node that was entered and not left yet, and the number of visits before it was entered. -/
structure OpenNode where
  since : Nat
  node : Node

/-- The open nodes, the innermost first. A node is opened by entering it if its children are
visited, and the innermost open node is closed by a visit that leaves a node. -/
def openNodes : History ε σ → List OpenNode
  | [] => []
  | v :: earlier =>
    match v.phase, v.answer with
    | .enter, .ok .next =>
      if v.node.kind.isLeaf then openNodes earlier
      else ⟨earlier.length, v.node⟩ :: openNodes earlier
    | .enter, _ => openNodes earlier
    | .leave, _ => (openNodes earlier).tail

/-- The open nodes of a kind. -/
def openOf (kind : Kind) (history : History ε σ) : List OpenNode :=
  (openNodes history).filter (·.node.kind = kind)

/-- The nodes that are still to be left, in the order in which they will be. -/
def Pending.toLeave : Pending → List Node
  | [] => []
  | (_, .enter) :: rest => toLeave rest
  | (node, .leave) :: rest => node :: toLeave rest

theorem Pending.toLeave_expand (node : Node) (rest : Pending) :
    (expand node rest).toLeave = node :: rest.toLeave := by
  have hchildren : ∀ (children : List Node) (pending : Pending),
      toLeave (children.map (·, .enter) ++ pending) = pending.toLeave := by
    intro children pending
    induction children with
    | nil => rfl
    | cons child others ih => exact ih
  exact hchildren node.children _

section

variable {visit : Visitor ε σ} {root : Node} {start : σ} {pending rest : Pending}
  {history : History ε σ} {state : σ} {node : Node}

/-- The nodes that are still to be left are the open ones. -/
theorem Underway.toLeave_eq (hunderway : Underway visit root start pending history state) :
    pending.toLeave = (openNodes history).map OpenNode.node := by
  induction hunderway with
  | start => rfl
  | @step node phase rest history state after step _ _ hstep ih =>
      cases phase with
      | leave =>
          simp only [Pending.toLeave] at ih
          simp only [Pending.after, openNodes, List.map_tail, ← ih, List.tail_cons]
      | enter =>
          simp only [Pending.toLeave] at ih
          cases step with
          | stop => exact absurd rfl hstep
          | skipChildren => simpa [Pending.after, openNodes] using ih
          | next =>
              simp only [Pending.after, openNodes]
              split
              · exact ih
              · rw [Pending.toLeave_expand, ih, List.map_cons]

/-- A visit that leaves a node leaves the innermost open one. -/
theorem Underway.open_of_leave
    (hunderway : Underway visit root start ((node, .leave) :: rest) history state) :
    ∃ since, openNodes history = ⟨since, node⟩ :: (openNodes history).tail := by
  have heq := hunderway.toLeave_eq
  simp only [Pending.toLeave] at heq
  cases hopen : openNodes history with
  | nil => simp [hopen] at heq
  | cons innermost outer =>
      obtain ⟨since, node'⟩ := innermost
      simp only [hopen, List.map_cons, List.cons.injEq] at heq
      exact ⟨since, by rw [heq.1, List.tail_cons]⟩

/-- Nothing is open when nothing is pending. -/
theorem Underway.open_of_done (hunderway : Underway visit root start [] history state) :
    openNodes history = [] :=
  List.map_eq_nil_iff.mp hunderway.toLeave_eq.symm

end

/-! ## Open nodes of a kind -/

section

variable {visit : Visitor ε σ} {root : Node} {start : σ} {rest : Pending}
  {history : History ε σ} {state : σ} {node : Node} {phase : Phase}

/-- A container that is entered is open. -/
theorem openOf_enter (kind : Kind) (hkind : node.kind = kind) (hleaf : kind.isLeaf = false) :
    openOf kind (⟨node, .enter, state, .ok .next⟩ :: history) =
      ⟨history.length, node⟩ :: openOf kind history := by
  simp [openOf, openNodes, hkind, hleaf]

/-- A visit of a node of another sort neither opens nor closes nodes of a sort. -/
theorem Underway.filter_openNodes_other
    (hunderway : Underway visit root start ((node, phase) :: rest) history state)
    (p : Node → Bool) (hsort : p node = false) (answer : Except ε Step) :
    (openNodes (⟨node, phase, state, answer⟩ :: history)).filter (p ·.node) =
      (openNodes history).filter (p ·.node) := by
  cases phase with
  | enter =>
      rcases answer with _ | (_ | _ | _) <;> simp only [openNodes]
      split <;> simp [hsort]
  | leave =>
      obtain ⟨since, hopen⟩ := hunderway.open_of_leave
      simp only [openNodes]
      rw [hopen]
      simp [hsort]

/-- A visit of a node of another kind neither opens nor closes nodes of a kind. -/
theorem Underway.openOf_other
    (hunderway : Underway visit root start ((node, phase) :: rest) history state)
    (kind : Kind) (hkind : node.kind ≠ kind) (answer : Except ε Step) :
    openOf kind (⟨node, phase, state, answer⟩ :: history) = openOf kind history :=
  hunderway.filter_openNodes_other (fun node => node.kind = kind) (by simpa using hkind) answer

/-- A visit that leaves a node closes the innermost open node of its kind. -/
theorem Underway.openOf_leave
    (hunderway : Underway visit root start ((node, .leave) :: rest) history state)
    (kind : Kind) (hkind : node.kind = kind) (answer : Except ε Step) :
    ∃ since, openOf kind history =
      ⟨since, node⟩ :: openOf kind (⟨node, .leave, state, answer⟩ :: history) := by
  obtain ⟨since, hopen⟩ := hunderway.open_of_leave
  refine ⟨since, ?_⟩
  simp only [openOf, openNodes]
  rw [hopen]
  simp [hkind]

end

/-- What is open was entered before. -/
theorem since_lt_of_mem {history : History ε σ} {o : OpenNode} (hmem : o ∈ openNodes history) :
    o.since < history.length := by
  induction history with
  | nil => simp [openNodes] at hmem
  | cons v earlier ih =>
      have hearlier : o ∈ openNodes earlier → o.since < (v :: earlier).length := by
        intro hmem
        have := ih hmem
        simp only [List.length_cons]
        omega
      simp only [openNodes] at hmem
      split at hmem
      · split at hmem
        · exact hearlier hmem
        · rcases List.mem_cons.mp hmem with rfl | hmem
          · simp
          · exact hearlier hmem
      · exact hearlier hmem
      · exact hearlier (List.mem_of_mem_tail hmem)

/-- The further out an open node is, the earlier it was entered. -/
theorem pairwise_since (history : History ε σ) :
    (openNodes history).Pairwise fun inner outer => outer.since < inner.since := by
  induction history with
  | nil => exact List.Pairwise.nil
  | cons v earlier ih =>
      simp only [openNodes]
      split
      · split
        · exact ih
        · exact List.Pairwise.cons (fun o hmem => since_lt_of_mem hmem) ih
      · exact ih
      · exact ih.tail

end Manuscript
