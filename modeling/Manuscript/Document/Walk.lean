import Manuscript.Document.Node

/-! # Walking a document tree

A walk visits the nodes of a tree depth first in document order. Containers
are visited twice, on entering and, when everything below them is done, on
leaving; leaves are visited once. Each visit may change a state, may fail, and
answers how the walk goes on.

`walk` keeps the visits that are still to come in one list, so its depth of
recursion does not grow with the depth of the tree. `Node.descend` states the
same rule by recursion on the tree.
-/

namespace Manuscript

/-- The two occasions on which a container is visited. -/
inductive Phase where
  | enter
  | leave
  deriving DecidableEq, Repr

/-- How a walk goes on after a visit. -/
inductive Step where
  /-- Go on with the next visit in document order. -/
  | next
  /-- On entering, pass over the children of the node and its leaving visit. -/
  | skipChildren
  /-- Make no further visit. -/
  | stop
  deriving DecidableEq, Repr

/-- A computation on a state that may fail; the state survives the failure. -/
abbrev Action (ε σ : Type) := ExceptT ε (StateM σ)

/-- What is done at a visit. -/
abbrev Visitor (ε σ : Type) := Node → Phase → Action ε σ Step

/-- Visits that are still to come, the next one first. -/
abbrev Pending := List (Node × Phase)

namespace Pending

/-- An upper bound for the number of visits to come. -/
def weight : Pending → Nat
  | [] => 0
  | (node, .enter) :: rest => 2 * node.size + weight rest
  | (_, .leave) :: rest => 1 + weight rest

theorem weight_append (first second : Pending) :
    weight (first ++ second) = weight first + weight second := by
  induction first with
  | nil => simp [weight]
  | cons visit rest ih =>
      obtain ⟨node, phase⟩ := visit
      cases phase <;> simp only [List.cons_append, weight, ih] <;> omega

theorem weight_enter (children : List Node) :
    weight (children.map (·, .enter)) = 2 * Node.sizeAll children := by
  induction children with
  | nil => rfl
  | cons child rest ih =>
      simp only [List.map_cons, weight, Node.sizeAll, ih]
      omega

/-- The visits that entering a container brings about: its children, then leaving it. -/
def expand (node : Node) (rest : Pending) : Pending :=
  node.children.map (·, .enter) ++ (node, .leave) :: rest

/-- Entering a node leaves less to do, although its children are added. -/
theorem weight_expand (node : Node) (rest : Pending) :
    weight (expand node rest) < weight ((node, .enter) :: rest) := by
  simp only [expand, weight_append, weight_enter, weight, Node.size_eq node]
  omega

theorem weight_rest (visit : Node × Phase) (rest : Pending) :
    weight rest < weight (visit :: rest) := by
  obtain ⟨node, phase⟩ := visit
  cases phase
  · have := Node.size_eq node
    simp only [weight]
    omega
  · simp only [weight]
    omega

end Pending

/-- Make the pending visits and those that they bring about. -/
def walkPending {ε σ : Type} (visit : Visitor ε σ) : Pending → Action ε σ Step
  | [] => pure .next
  | (node, .leave) :: rest => do
    match ← visit node .leave with
    | .stop => pure .stop
    | _ => walkPending visit rest
  | (node, .enter) :: rest => do
    match ← visit node .enter with
    | .stop => pure .stop
    | .skipChildren => walkPending visit rest
    | .next =>
      if node.kind.isLeaf then walkPending visit rest
      else walkPending visit (Pending.expand node rest)
  termination_by pending => Pending.weight pending
  decreasing_by
    all_goals first | exact Pending.weight_rest _ _ | exact Pending.weight_expand _ _

/-- Visit a tree. The answer is `stop` when a visit stopped the walk and `next` otherwise. -/
def walk {ε σ : Type} (visit : Visitor ε σ) (root : Node) : Action ε σ Step :=
  walkPending visit [(root, .enter)]

mutual

/-- Visit a tree by recursion: enter the node, visit its children from left to right unless they
are passed over, and leave it. -/
def Node.descend {ε σ : Type} (visit : Visitor ε σ) : Node → Action ε σ Step
  | ⟨kind, literal, level, isTitleBlock, listStyle, destination, children⟩ => do
    let node : Node := ⟨kind, literal, level, isTitleBlock, listStyle, destination, children⟩
    match ← visit node .enter with
    | .stop => pure .stop
    | .skipChildren => pure .next
    | .next =>
      if kind.isLeaf then pure .next
      else
        match ← Node.descendAll visit children with
        | .stop => pure .stop
        | _ =>
          match ← visit node .leave with
          | .stop => pure .stop
          | _ => pure .next

/-- Visit the trees of a forest from left to right until a visit stops. -/
def Node.descendAll {ε σ : Type} (visit : Visitor ε σ) : List Node → Action ε σ Step
  | [] => pure .next
  | child :: rest => do
    match ← Node.descend visit child with
    | .stop => pure .stop
    | _ => Node.descendAll visit rest

end

end Manuscript
