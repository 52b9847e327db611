import Manuscript.Proofs.Document.Action

/-! # The walk as a recursion on the tree

A walk takes the next of its pending visits and puts what that visit brings
about in front of the others. The visits below one node come before every
visit that was pending already, so the loop does to a tree what the recursion
on the tree does (`walk_eq_descend`).
-/

namespace Manuscript

variable {ε σ : Type}

/-- Go on with another part of a walk, unless this part stopped it. -/
def Action.goOn (part next : Action ε σ Step) : Action ε σ Step := do
  match ← part with
  | .stop => pure .stop
  | _ => next

namespace Action

theorem goOn_eq_bind (part next : Action ε σ Step) :
    part.goOn next = part >>= fun step => if step = .stop then pure .stop else next :=
  bind_congr fun step => by cases step <;> rfl

@[simp] theorem goOn_pure_stop (next : Action ε σ Step) :
    goOn (pure .stop) next = pure .stop := by
  simp [goOn_eq_bind]

@[simp] theorem goOn_pure_next (next : Action ε σ Step) : goOn (pure .next) next = next := by
  simp [goOn_eq_bind]

/-- It does not matter how parts that go on are grouped. -/
theorem goOn_assoc (first second third : Action ε σ Step) :
    (first.goOn second).goOn third = first.goOn (second.goOn third) := by
  simp only [goOn_eq_bind, bind_assoc]
  refine bind_congr fun step => ?_
  by_cases hstop : step = .stop <;> simp [hstop]

end Action

namespace Node

theorem size_le_sizeAll {child : Node} {nodes : List Node} (hmem : child ∈ nodes) :
    child.size ≤ sizeAll nodes := by
  induction nodes with
  | nil => simp at hmem
  | cons first rest ih =>
      simp only [sizeAll]
      rcases List.mem_cons.mp hmem with rfl | hrest
      · omega
      · have := ih hrest
        omega

theorem size_lt_of_mem {child node : Node} (hmem : child ∈ node.children) :
    child.size < node.size := by
  have := size_le_sizeAll hmem
  rw [size_eq node]
  omega

/-- Induction on trees: a property of every node whose children have it holds of all nodes. -/
theorem induction {motive : Node → Prop}
    (step : ∀ node : Node, (∀ child ∈ node.children, motive child) → motive node)
    (node : Node) : motive node :=
  step node fun child _ => induction step child
  termination_by node.size
  decreasing_by exact size_lt_of_mem ‹_›

/-- The recursion on one node, in terms of its fields. -/
theorem descend_eq (visit : Visitor ε σ) (node : Node) :
    node.descend visit = (do
      match ← visit node .enter with
      | .stop => pure .stop
      | .skipChildren => pure .next
      | .next =>
        if node.kind.isLeaf then pure .next
        else (descendAll visit node.children).goOn ((visit node .leave).goOn (pure .next))) := by
  cases node
  rfl

theorem descendAll_cons (visit : Visitor ε σ) (first : Node) (rest : List Node) :
    descendAll visit (first :: rest) = (first.descend visit).goOn (descendAll visit rest) :=
  rfl

/-- The recursion on a tree never asks its caller to pass anything over. -/
theorem descend_goOn_next (visit : Visitor ε σ) (node : Node) :
    (node.descend visit).goOn (pure .next) = node.descend visit := by
  rw [descend_eq, Action.goOn_eq_bind, bind_assoc]
  refine bind_congr fun step => ?_
  rw [← Action.goOn_eq_bind]
  cases step with
  | stop => simp
  | skipChildren => simp
  | next =>
      dsimp only
      split
      · simp
      · rw [Action.goOn_assoc, Action.goOn_assoc, Action.goOn_pure_next]

end Node

namespace Pending

/-- The visits to come after a visit that did not stop the walk. -/
def after (node : Node) (phase : Phase) (step : Step) (rest : Pending) : Pending :=
  match phase, step with
  | .enter, .next => if node.kind.isLeaf then rest else expand node rest
  | _, _ => rest

/-- Every visit leaves less to do. -/
theorem weight_after_lt (node : Node) (phase : Phase) (step : Step) (rest : Pending) :
    weight (after node phase step rest) < weight ((node, phase) :: rest) := by
  unfold after
  split
  · split
    · exact weight_rest _ _
    · exact weight_expand _ _
  · exact weight_rest _ _

/-- Induction along a walk: from the visits that may be pending after the next visit to all that
are pending before it. -/
theorem induction {motive : Pending → Prop} (done : motive [])
    (visit : ∀ node phase rest, (∀ step, motive (after node phase step rest)) →
      motive ((node, phase) :: rest))
    (pending : Pending) : motive pending :=
  match pending with
  | [] => done
  | (node, phase) :: rest =>
      visit node phase rest fun step => induction done visit (after node phase step rest)
  termination_by weight pending
  decreasing_by exact weight_after_lt node phase step rest

end Pending

/-- One turn of the loop: the next visit is made, and unless it stops the walk, the walk goes on
with what is pending after it. -/
theorem walkPending_cons (visit : Visitor ε σ) (node : Node) (phase : Phase) (rest : Pending) :
    walkPending visit ((node, phase) :: rest) = (do
      match ← visit node phase with
      | .stop => pure .stop
      | step => walkPending visit (Pending.after node phase step rest)) := by
  cases phase <;> rw [walkPending] <;> refine bind_congr fun step => ?_ <;> cases step <;>
    simp only [Pending.after]
  split <;> rfl

/-- Leaving a node adds nothing to what is pending. -/
theorem walkPending_leave (visit : Visitor ε σ) (node : Node) (rest : Pending) :
    walkPending visit ((node, .leave) :: rest) =
      (visit node .leave).goOn (walkPending visit rest) := by
  rw [walkPending]
  rfl

/-- A forest whose trees are walked as the recursion says is walked as the recursion says. -/
theorem walkPending_forest (visit : Visitor ε σ) (nodes : List Node)
    (hnodes : ∀ node ∈ nodes, ∀ rest, walkPending visit ((node, .enter) :: rest) =
      (node.descend visit).goOn (walkPending visit rest))
    (rest : Pending) :
    walkPending visit (nodes.map (·, .enter) ++ rest) =
      (Node.descendAll visit nodes).goOn (walkPending visit rest) := by
  induction nodes with
  | nil => simp [Node.descendAll]
  | cons first others ih =>
      have hothers := ih fun node hmem => hnodes node (List.mem_cons_of_mem _ hmem)
      rw [List.map_cons, List.cons_append, hnodes first List.mem_cons_self, hothers,
        Node.descendAll_cons, Action.goOn_assoc]

/-- The visits of a tree come before all that was pending already, in the order of the
recursion. -/
theorem walkPending_tree (visit : Visitor ε σ) (node : Node) (rest : Pending) :
    walkPending visit ((node, .enter) :: rest) =
      (node.descend visit).goOn (walkPending visit rest) := by
  induction node using Node.induction generalizing rest with
  | step node ih =>
      rw [walkPending_cons, Node.descend_eq, Action.goOn_eq_bind, bind_assoc]
      refine bind_congr fun step => ?_
      rw [← Action.goOn_eq_bind]
      cases step with
      | stop => simp
      | skipChildren => simp [Pending.after]
      | next =>
          simp only [Pending.after]
          split
          · simp
          · rw [Pending.expand, walkPending_forest visit node.children ih, walkPending_leave,
              Action.goOn_assoc, Action.goOn_assoc, Action.goOn_pure_next]

/-- The loop over pending visits is the recursion on the tree. -/
theorem walk_eq_descend (visit : Visitor ε σ) (root : Node) :
    walk visit root = root.descend visit := by
  rw [walk, walkPending_tree, walkPending, Node.descend_goOn_next]

end Manuscript
