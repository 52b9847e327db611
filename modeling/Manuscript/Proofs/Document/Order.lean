import Manuscript.Document.Build
import Manuscript.Proofs.Document.Above

/-! # Document order

A walk that always goes on makes the visits of the whole tree (`makesVisits_of_goesOn`):
a node is entered before the visits below it and, if it is a container, left after
them. Where nothing is stored below leaves, the nodes that are entered are therefore
the root and its descendants (`walk_enters_in_order`).
-/

namespace Manuscript

variable {ε σ : Type}

/-- Every visit goes on with the next one: none fails, stops the walk or passes anything over. -/
def GoesOn (visit : Visitor ε σ) : Prop :=
  ∀ node phase state, ∃ after, (visit node phase).runFrom state = (.ok .next, after)

/-- The node that is visited and the occasion. -/
def Visit.event (v : Visit ε σ) : Node × Phase := (v.node, v.phase)

/-- The nodes that are entered, in the order of the visits. -/
def enteredIn (visits : List (Node × Phase)) : List Node :=
  (visits.filter (·.2 = .enter)).map Prod.fst

theorem enteredIn_append (first second : List (Node × Phase)) :
    enteredIn (first ++ second) = enteredIn first ++ enteredIn second := by
  simp [enteredIn]

namespace Node

/-- Nothing is stored below the leaves of a tree. -/
def LeavesBare (root : Node) : Prop :=
  ∀ node ∈ root :: root.descendants, node.kind.isLeaf = true → node.children = []

mutual

/-- The visits of a tree that is walked to its end. -/
def visits : Node → List (Node × Phase)
  | ⟨kind, literal, level, isTitleBlock, listStyle, destination, children⟩ =>
    let node : Node := ⟨kind, literal, level, isTitleBlock, listStyle, destination, children⟩
    (node, .enter) :: if kind.isLeaf then [] else visitsAll children ++ [(node, .leave)]

/-- The visits of the trees of a forest, one tree after the other. -/
def visitsAll : List Node → List (Node × Phase)
  | [] => []
  | child :: rest => child.visits ++ visitsAll rest

end

theorem visits_eq (node : Node) :
    node.visits =
      (node, .enter) ::
        if node.kind.isLeaf then [] else visitsAll node.children ++ [(node, .leave)] := by
  cases node
  rfl

/-- A leaf is visited once. -/
theorem visits_leaf {node : Node} (hleaf : node.kind.isLeaf = true) :
    node.visits = [(node, .enter)] := by
  rw [visits_eq, if_pos hleaf]

/-- A container is visited before and after its children. -/
theorem visits_container {node : Node} (hleaf : node.kind.isLeaf = false) :
    node.visits = (node, .enter) :: (visitsAll node.children ++ [(node, .leave)]) := by
  rw [visits_eq, if_neg (by simp [hleaf])]

theorem enteredIn_visits_leaf {node : Node} (hleaf : node.kind.isLeaf = true) :
    enteredIn node.visits = [node] := by
  rw [visits_leaf hleaf]
  rfl

theorem enteredIn_visits_container {node : Node} (hleaf : node.kind.isLeaf = false) :
    enteredIn node.visits = node :: enteredIn (visitsAll node.children) := by
  rw [visits_container hleaf, ← List.singleton_append, enteredIn_append, enteredIn_append]
  simp [enteredIn]

/-! ## Nodes that are entered -/

theorem LeavesBare.child {node child : Node} (hbare : node.LeavesBare)
    (hchild : child ∈ node.children) : child.LeavesBare :=
  fun target hmem => hbare target (List.mem_cons_of_mem _ (descendants_subset hchild hmem))

/-- If all nodes are entered in document order, so is the forest of them. -/
theorem enteredIn_visitsAll {nodes : List Node}
    (hnodes : ∀ node ∈ nodes, enteredIn node.visits = node :: node.descendants) :
    enteredIn (visitsAll nodes) = descendantsAll nodes := by
  induction nodes with
  | nil => rfl
  | cons first rest ih =>
      obtain ⟨hfirst, hrest⟩ := List.forall_mem_cons.mp hnodes
      rw [visitsAll, enteredIn_append, hfirst, ih hrest, descendantsAll, List.cons_append]

/-- The visits of a tree enter it and its descendants. -/
theorem enteredIn_visits {node : Node} (hbare : node.LeavesBare) :
    enteredIn node.visits = node :: node.descendants := by
  induction node using Node.induction with
  | step node ih =>
      rw [descendants_eq]
      cases hleaf : node.kind.isLeaf with
      | true =>
          -- What is stored below a leaf is a descendant, but it is not visited.
          rw [enteredIn_visits_leaf hleaf, hbare node List.mem_cons_self hleaf]
          rfl
      | false =>
          rw [enteredIn_visits_container hleaf,
            enteredIn_visitsAll fun child hchild => ih child hchild (hbare.child hchild)]

/-! ## Numbers of visits -/

/-- If all nodes have one visit and one more for each container in them, so has the forest of
them. -/
theorem length_visitsAll {nodes : List Node}
    (hnodes : ∀ node ∈ nodes, node.visits.length =
      (enteredIn node.visits).length + (enteredIn node.visits).countP isContainer) :
    (visitsAll nodes).length =
      (enteredIn (visitsAll nodes)).length + (enteredIn (visitsAll nodes)).countP isContainer := by
  induction nodes with
  | nil => rfl
  | cons first rest ih =>
      obtain ⟨hfirst, hrest⟩ := List.forall_mem_cons.mp hnodes
      rw [visitsAll, enteredIn_append, List.length_append, List.length_append, List.countP_append,
        hfirst, ih hrest]
      omega

/-- Each node that is entered takes one visit, and a container takes a second one. -/
theorem length_visits (node : Node) :
    node.visits.length =
      (enteredIn node.visits).length + (enteredIn node.visits).countP isContainer := by
  induction node using Node.induction with
  | step node ih =>
      cases hleaf : node.kind.isLeaf with
      | true =>
          rw [enteredIn_visits_leaf hleaf, visits_leaf hleaf]
          simp [isContainer, hleaf]
      | false =>
          have hchildren := length_visitsAll ih
          rw [enteredIn_visits_container hleaf, visits_container hleaf,
            List.countP_cons_of_pos (by simp [isContainer, hleaf])]
          simp only [List.length_cons, List.length_append, List.length_nil]
          omega

end Node

/-! ## Walks that always go on -/

section

variable {visit : Visitor ε σ}

/-- From wherever it starts, a part of a walk comes to its end and makes these visits. -/
def MakesVisits (part : Action ε (σ × History ε σ) Step) (visits : List (Node × Phase)) : Prop :=
  ∀ state history, ∃ final made,
    part.runFrom (state, history) = (.ok .next, final, made ++ history) ∧
      made.reverse.map Visit.event = visits

theorem makesVisits_pure : MakesVisits (pure .next : Action ε (σ × History ε σ) Step) [] :=
  fun state _ => ⟨state, [], rfl, rfl⟩

/-- The visits of two parts are made one after the other. -/
theorem MakesVisits.goOn {part next : Action ε (σ × History ε σ) Step}
    {first second : List (Node × Phase)} (hpart : MakesVisits part first)
    (hnext : MakesVisits next second) : MakesVisits (part.goOn next) (first ++ second) := by
  intro state history
  obtain ⟨between, made, hrun, hmade⟩ := hpart state history
  obtain ⟨final, later, hthen, hlater⟩ := hnext between (made ++ history)
  refine ⟨final, later ++ made, ?_, ?_⟩
  · rw [Action.runFrom_goOn_next hrun, hthen, List.append_assoc]
  · rw [List.reverse_append, List.map_append, hmade, hlater]

/-- A visit that goes on is one visit. -/
theorem GoesOn.makesVisits (hgoes : GoesOn visit) (node : Node) (phase : Phase) :
    MakesVisits (visit.recorded node phase) [(node, phase)] := by
  intro state history
  obtain ⟨after, hrun⟩ := hgoes node phase state
  exact ⟨after, [_], Visitor.runFrom_recorded hrun history, rfl⟩

theorem makesVisits_forest {nodes : List Node}
    (hnodes : ∀ node ∈ nodes, MakesVisits (node.descend visit.recorded) node.visits) :
    MakesVisits (Node.descendAll visit.recorded nodes) (Node.visitsAll nodes) := by
  induction nodes with
  | nil => exact makesVisits_pure
  | cons first rest ih =>
      obtain ⟨hfirst, hrest⟩ := List.forall_mem_cons.mp hnodes
      rw [Node.descendAll_cons, Node.visitsAll]
      exact hfirst.goOn (ih hrest)

/-- The recursion makes the visits of the whole tree if each of them goes on. -/
theorem makesVisits_of_goesOn (hgoes : GoesOn visit) (node : Node) :
    MakesVisits (node.descend visit.recorded) node.visits := by
  induction node using Node.induction with
  | step node ih =>
      intro state history
      obtain ⟨after, made, henter, hmade⟩ := hgoes.makesVisits node .enter state history
      cases hleaf : node.kind.isLeaf with
      | true =>
          refine ⟨after, made, Node.runFrom_descend_leaf hleaf henter, ?_⟩
          rw [hmade, Node.visits_leaf hleaf]
      | false =>
          -- Entering is followed by the visits below the node and then by leaving it.
          have hbelow := (makesVisits_forest ih).goOn
            ((hgoes.makesVisits node .leave).goOn makesVisits_pure)
          obtain ⟨final, later, hthen, hlater⟩ := hbelow after (made ++ history)
          refine ⟨final, later ++ made, ?_, ?_⟩
          · rw [Node.runFrom_descend_container hleaf henter, hthen, List.append_assoc]
          · rw [List.reverse_append, List.map_append, hmade, hlater, Node.visits_container hleaf]
            rfl

theorem enteredNodes_eq (history : History ε σ) :
    enteredNodes history = enteredIn (history.reverse.map Visit.event) := by
  rw [enteredNodes, enteredIn, List.filter_map, List.map_map]
  rfl

/-- A walk that always goes on comes to its end. If nothing is stored below leaves, it enters the
root and then its descendants in document order, and makes one visit for each node and a second one
for each container. -/
theorem walk_enters_in_order {root : Node} (hgoes : GoesOn visit) (hbare : root.LeavesBare)
    (start : σ) :
    let nodes := root :: root.descendants
    (∃ final, (walk visit root).runFrom start = (.ok .next, final)) ∧
      enteredNodes (historyOf visit root start) = nodes ∧
      (historyOf visit root start).length = nodes.length + nodes.countP Node.isContainer := by
  intro nodes
  obtain ⟨final, made, hrun, hmade⟩ := makesVisits_of_goesOn hgoes root start []
  rw [List.append_nil] at hrun
  obtain ⟨result, last, hplain⟩ :
      ∃ result last, (walk visit root).runFrom start = (result, last) := ⟨_, _, rfl⟩
  have hrecorded := (runFrom_walk_recorded hplain).1
  rw [walk_eq_descend, hrun] at hrecorded
  cases hrecorded
  have hentered : enteredIn root.visits = nodes := Node.enteredIn_visits hbare
  refine ⟨⟨final, hplain⟩, ?_, ?_⟩
  · rw [enteredNodes_eq, hmade, hentered]
  · rw [← hentered, ← Node.length_visits, ← hmade, List.length_map, List.length_reverse]

end

/-- A visitor that counts the visits. -/
def countVisits : Visitor Empty Nat := fun _ _ => do
  modify (· + 1)
  return .next

/-- A document with leaves and containers side by side, some of the containers empty. -/
def unevenDocument : Node :=
  .document [
    .paragraph [.text "a", .emphasis [.strong [.text "b"], .codeSpan "c"], .text "d"],
    .list [.listItem [], .listItem [.paragraph [.text "e"]]],
    .codeBlock "f"]

/-- Leaves are entered only, and all other nodes are also left. -/
theorem walk_enters_unevenDocument :
    GoesOn countVisits ∧ unevenDocument.LeavesBare ∧
      (∃ count, (walk countVisits unevenDocument).runFrom 0 = (.ok .next, count)) ∧
      (enteredNodes (historyOf countVisits unevenDocument 0)).map Node.kind =
        [.document, .paragraph, .text, .emphasis, .strong, .text, .codeSpan, .text, .list,
          .listItem, .listItem, .paragraph, .text, .codeBlock] ∧
      (historyOf countVisits unevenDocument 0).length = 22 := by
  have hgoes : GoesOn countVisits := fun _ _ count => ⟨count + 1, rfl⟩
  have hbare : unevenDocument.LeavesBare := by
    unfold Node.LeavesBare
    decide
  obtain ⟨hends, hentered, hlength⟩ := walk_enters_in_order hgoes hbare 0
  refine ⟨hgoes, hbare, hends, ?_, ?_⟩
  · rw [hentered]
    rfl
  · rw [hlength]
    decide

end Manuscript
