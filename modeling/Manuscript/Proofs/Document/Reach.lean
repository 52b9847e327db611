import Manuscript.Proofs.Document.Walk

/-! # Nodes that a walk comes to

Leaves are not descended into, and images are passed over. `Reaches` says which
nodes are left and what is above each of them, and the recursion on a tree is
run one node at a time.
-/

namespace Manuscript

variable {ε σ : Type}

/-- Entering a node below some nodes, the innermost first, leads to a node below those and
others. -/
inductive Reaches : List Node → Node → List Node → Node → Prop
  | here {above node} : Reaches above node above node
  | child {above node child outer target} (hleaf : node.kind.isLeaf = false)
      (himage : node.kind ≠ .image) (hchild : child ∈ node.children)
      (hreaches : Reaches (node :: above) child outer target) : Reaches above node outer target

section

variable {above : List Node} {node : Node} {property : List Node → Node → Prop}

/-- All that is reached has a property exactly if the node itself has it and so does all that is
reached from its children. -/
theorem forall_reaches_iff (hleaf : node.kind.isLeaf = false) (himage : node.kind ≠ .image) :
    (∀ outer target, Reaches above node outer target → property outer target) ↔
      property above node ∧ ∀ child ∈ node.children, ∀ outer target,
        Reaches (node :: above) child outer target → property outer target := by
  constructor
  · intro hall
    exact ⟨hall _ _ .here, fun child hchild outer target hreaches =>
      hall _ _ (.child hleaf himage hchild hreaches)⟩
  · rintro ⟨hnode, hchildren⟩ outer target hreaches
    cases hreaches with
    | here => exact hnode
    | child _ _ hchild hreaches => exact hchildren _ hchild _ _ hreaches

/-- What is reached from a container is the container itself or is reached from a child. -/
theorem exists_reaches_iff (hleaf : node.kind.isLeaf = false) (himage : node.kind ≠ .image) :
    (∃ outer target, Reaches above node outer target ∧ property outer target) ↔
      property above node ∨ ∃ child ∈ node.children, ∃ outer target,
        Reaches (node :: above) child outer target ∧ property outer target := by
  constructor
  · rintro ⟨outer, target, hreaches, hproperty⟩
    cases hreaches with
    | here => exact .inl hproperty
    | child _ _ hchild hreaches => exact .inr ⟨_, hchild, _, _, hreaches, hproperty⟩
  · rintro (hproperty | ⟨child, hchild, outer, target, hreaches, hproperty⟩)
    · exact ⟨_, _, .here, hproperty⟩
    · exact ⟨_, _, .child hleaf himage hchild hreaches, hproperty⟩

/-- What is above a node is also above all that is reached from it. -/
theorem Reaches.subset {outer : List Node} {target : Node}
    (hreaches : Reaches above node outer target) : above ⊆ outer := by
  induction hreaches with
  | here => exact List.Subset.refl _
  | child _ _ _ _ ih => exact fun other hmem => ih (List.mem_cons_of_mem _ hmem)

/-- Nothing is reached through a leaf or an image. -/
theorem Reaches.eq_here {outer : List Node} {target : Node}
    (hreaches : Reaches above node outer target)
    (hend : node.kind.isLeaf = true ∨ node.kind = .image) : outer = above ∧ target = node := by
  cases hreaches with
  | here => exact ⟨rfl, rfl⟩
  | child hleaf himage =>
      rcases hend with hend | hend
      · simp [hleaf] at hend
      · exact absurd hend himage

end

namespace Node

theorem descendants_eq (node : Node) : node.descendants = descendantsAll node.children := by
  cases node
  rfl

theorem descendantsAll_append (first second : List Node) :
    descendantsAll (first ++ second) = descendantsAll first ++ descendantsAll second := by
  induction first with
  | nil => rfl
  | cons node rest ih => simp [descendantsAll, ih]

theorem descendants_subset_descendantsAll {child : Node} {nodes : List Node}
    (hchild : child ∈ nodes) : child :: child.descendants ⊆ descendantsAll nodes := by
  induction nodes with
  | nil => simp at hchild
  | cons first rest ih =>
      intro target hmem
      rw [descendantsAll, ← List.cons_append, List.mem_append]
      rcases List.mem_cons.mp hchild with rfl | hchild
      · exact .inl hmem
      · exact .inr (ih hchild hmem)

theorem descendants_subset {child node : Node} (hchild : child ∈ node.children) :
    child :: child.descendants ⊆ node.descendants := by
  cases node
  exact descendants_subset_descendantsAll hchild

end Node

/-- What is reached is in the tree. -/
theorem Reaches.mem {above outer : List Node} {node target : Node}
    (hreaches : Reaches above node outer target) : target ∈ node :: node.descendants := by
  induction hreaches with
  | here => exact List.mem_cons_self
  | child _ _ hchild _ ih => exact List.mem_cons_of_mem _ (Node.descendants_subset hchild ih)

/-- What is reached is the node itself or a child of the innermost node above it, which is neither a
leaf nor an image. -/
theorem Reaches.here_or_below {above outer : List Node} {node target : Node}
    (hreaches : Reaches above node outer target) :
    outer = above ∧ target = node ∨
      ∃ parent others, outer = parent :: others ∧ target ∈ parent.children ∧
        Reaches above node others parent ∧ parent.kind.isLeaf = false ∧ parent.kind ≠ .image := by
  induction hreaches with
  | here => exact .inl ⟨rfl, rfl⟩
  | child hleaf himage hchild _ ih =>
      right
      rcases ih with ⟨rfl, rfl⟩ | ⟨parent, others, rfl, htarget, hbelow, hparent⟩
      · exact ⟨_, _, rfl, hchild, .here, hleaf, himage⟩
      · exact ⟨parent, others, rfl, htarget, .child hleaf himage hchild hbelow, hparent⟩

/-- What is reached is below each node that was descended into. -/
theorem Reaches.mem_descendants {above outer : List Node} {node target other : Node}
    (hreaches : Reaches above node outer target) (hmem : other ∈ outer) :
    other ∈ above ∨ other ∈ node :: node.descendants ∧ target ∈ other.descendants := by
  induction hreaches with
  | here => exact .inl hmem
  | @child above node child outer target _ _ hchild hbelow ih =>
      have hsubset := Node.descendants_subset hchild
      rcases ih hmem with habove | ⟨hother, htarget⟩
      · rcases List.mem_cons.mp habove with rfl | habove
        · exact .inr ⟨List.mem_cons_self, hsubset hbelow.mem⟩
        · exact .inl habove
      · exact .inr ⟨List.mem_cons_of_mem _ (hsubset hother), htarget⟩

namespace Node

mutual

/-- The node and all that is reached below it, in document order. -/
def reached : Node → List Node
  | ⟨kind, literal, level, isTitleBlock, listStyle, destination, children⟩ =>
    ⟨kind, literal, level, isTitleBlock, listStyle, destination, children⟩ ::
      if kind.isLeaf || kind == .image then [] else reachedAll children

/-- All that is reached in a forest, in document order. -/
def reachedAll : List Node → List Node
  | [] => []
  | child :: rest => child.reached ++ reachedAll rest

end

theorem reached_eq (node : Node) :
    node.reached =
      node :: if node.kind.isLeaf || node.kind == .image then [] else reachedAll node.children := by
  cases node
  rfl

/-- From a leaf or an image nothing else is reached. -/
theorem reached_end {node : Node} (hend : node.kind.isLeaf = true ∨ node.kind = .image) :
    node.reached = [node] := by
  rw [reached_eq, if_pos (by simpa using hend)]

theorem reached_container {node : Node} (hleaf : node.kind.isLeaf = false)
    (himage : node.kind ≠ .image) : node.reached = node :: reachedAll node.children := by
  rw [reached_eq, if_neg (by simp [hleaf, himage])]

/-- What is reached from a forest is reached from one of its trees. -/
theorem mem_reachedAll {nodes : List Node} {target : Node} :
    target ∈ reachedAll nodes ↔ ∃ child ∈ nodes, target ∈ child.reached := by
  induction nodes with
  | nil => simp [reachedAll]
  | cons first rest ih => simp [reachedAll, ih]

end Node

/-- The nodes of the list are those that are reached, whatever is above. -/
theorem mem_reached_iff (above : List Node) {node target : Node} :
    target ∈ node.reached ↔ ∃ outer, Reaches above node outer target := by
  induction node using Node.induction generalizing above with
  | step node ih =>
      by_cases hend : node.kind.isLeaf = true ∨ node.kind = .image
      · rw [Node.reached_end hend, List.mem_singleton]
        constructor
        · rintro rfl
          exact ⟨above, .here⟩
        · rintro ⟨outer, hreaches⟩
          exact (hreaches.eq_here hend).2
      · obtain ⟨hleaf, himage⟩ : node.kind.isLeaf = false ∧ node.kind ≠ .image := by
          simpa using hend
        rw [Node.reached_container hleaf himage, List.mem_cons, Node.mem_reachedAll]
        constructor
        · rintro (rfl | ⟨child, hchild, htarget⟩)
          · exact ⟨above, .here⟩
          · obtain ⟨outer, hreaches⟩ := (ih child hchild _).mp htarget
            exact ⟨outer, .child hleaf himage hchild hreaches⟩
        · rintro ⟨outer, hreaches⟩
          cases hreaches with
          | here => exact .inl rfl
          | child _ _ hchild hreaches =>
              exact .inr ⟨_, hchild, (ih _ hchild _).mpr ⟨outer, hreaches⟩⟩

/-! ## Running the recursion -/

section

variable {visit : Visitor ε σ} {node : Node} {state entered left after : σ}

theorem Action.runFrom_goOn_next {part next : Action ε σ Step}
    (hpart : part.runFrom state = (.ok .next, after)) :
    (part.goOn next).runFrom state = next.runFrom after := by
  rw [goOn_eq_bind, runFrom_bind_ok hpart, if_neg (by decide)]

theorem Action.runFrom_goOn_error {part next : Action ε σ Step} {error : ε}
    (hpart : part.runFrom state = (.error error, after)) :
    (part.goOn next).runFrom state = (.error error, after) := by
  rw [goOn_eq_bind, runFrom_bind_error hpart]

/-- A part of a walk and the next one come to their end only if both do. -/
theorem Action.runFrom_goOn_ok {part next : Action ε σ Step} {step : Step} (hstep : step ≠ .stop)
    (hrun : (part.goOn next).runFrom state = (.ok step, after)) :
    ∃ answer left, part.runFrom state = (.ok answer, left) ∧ answer ≠ .stop ∧
      next.runFrom left = (.ok step, after) := by
  obtain ⟨result, left, hpart⟩ : ∃ result left, part.runFrom state = (result, left) := ⟨_, _, rfl⟩
  cases result with
  | error e =>
      rw [runFrom_goOn_error hpart] at hrun
      cases hrun
  | ok answer =>
      rw [goOn_eq_bind, runFrom_bind_ok hpart] at hrun
      by_cases hanswer : answer = .stop
      · rw [if_pos hanswer] at hrun
        cases hrun
        exact absurd rfl hstep
      · rw [if_neg hanswer] at hrun
        exact ⟨answer, left, hpart, hanswer, hrun⟩

namespace Node

/-- A node that cannot be entered ends the recursion with its error. -/
theorem runFrom_descend_error {error : ε}
    (henter : (visit node .enter).runFrom state = (.error error, after)) :
    (node.descend visit).runFrom state = (.error error, after) := by
  rw [descend_eq, Action.runFrom_bind_error henter]

theorem runFrom_descend_stop
    (henter : (visit node .enter).runFrom state = (.ok .stop, after)) :
    (node.descend visit).runFrom state = (.ok .stop, after) := by
  rw [descend_eq, Action.runFrom_bind_ok henter]
  rfl

/-- A node whose children are passed over is done with when it is entered. -/
theorem runFrom_descend_skip
    (henter : (visit node .enter).runFrom state = (.ok .skipChildren, after)) :
    (node.descend visit).runFrom state = (.ok .next, after) := by
  rw [descend_eq, Action.runFrom_bind_ok henter]
  rfl

/-- A leaf is done with when it is entered. -/
theorem runFrom_descend_leaf (hleaf : node.kind.isLeaf = true)
    (henter : (visit node .enter).runFrom state = (.ok .next, after)) :
    (node.descend visit).runFrom state = (.ok .next, after) := by
  rw [descend_eq, Action.runFrom_bind_ok henter]
  simp [hleaf]

/-- A container that is entered is its children followed by leaving it. -/
theorem runFrom_descend_container (hleaf : node.kind.isLeaf = false)
    (henter : (visit node .enter).runFrom state = (.ok .next, entered)) :
    (node.descend visit).runFrom state =
      ((descendAll visit node.children).goOn ((visit node .leave).goOn (pure .next))).runFrom
        entered := by
  rw [descend_eq, Action.runFrom_bind_ok henter]
  simp [hleaf]

/-- A container is entered, its children are descended into, and it is left. -/
theorem runFrom_descend_ok {answer : Step} (hleaf : node.kind.isLeaf = false)
    (henter : (visit node .enter).runFrom state = (.ok .next, entered))
    (hbelow : (descendAll visit node.children).runFrom entered = (.ok .next, left))
    (hleave : (visit node .leave).runFrom left = (.ok answer, after)) (hanswer : answer ≠ .stop) :
    (node.descend visit).runFrom state = (.ok .next, after) := by
  rw [runFrom_descend_container hleaf henter, Action.runFrom_goOn_next hbelow,
    Action.goOn_eq_bind, Action.runFrom_bind_ok hleave, if_neg hanswer, Action.runFrom_pure]

variable (visit node state after) in
/-- The recursion on a node has come to its end: the node was passed over, or it is a leaf, or its
children were visited and it was left. -/
inductive Descends : Prop
  | skip (henter : (visit node .enter).runFrom state = (.ok .skipChildren, after))
  | leaf (hleaf : node.kind.isLeaf = true)
      (henter : (visit node .enter).runFrom state = (.ok .next, after))
  | container {entered left step answer} (hleaf : node.kind.isLeaf = false)
      (henter : (visit node .enter).runFrom state = (.ok .next, entered))
      (hbelow : (descendAll visit node.children).runFrom entered = (.ok step, left))
      (hstep : step ≠ .stop)
      (hleave : (visit node .leave).runFrom left = (.ok answer, after)) (hanswer : answer ≠ .stop)

/-- If the recursion on a node neither fails nor stops, it goes on after having come to its end. -/
theorem descends_of_ok {step : Step} (hstep : step ≠ .stop)
    (hrun : (node.descend visit).runFrom state = (.ok step, after)) :
    step = .next ∧ Descends visit node state after := by
  obtain ⟨result, entered, henter⟩ : ∃ result entered,
      (visit node .enter).runFrom state = (result, entered) := ⟨_, _, rfl⟩
  cases result with
  | error e =>
      rw [runFrom_descend_error henter] at hrun
      cases hrun
  | ok answer =>
      cases answer with
      | stop =>
          rw [runFrom_descend_stop henter] at hrun
          cases hrun
          exact absurd rfl hstep
      | skipChildren =>
          rw [runFrom_descend_skip henter] at hrun
          cases hrun
          exact ⟨rfl, .skip henter⟩
      | next =>
          cases hleaf : node.kind.isLeaf with
          | true =>
              rw [runFrom_descend_leaf hleaf henter] at hrun
              cases hrun
              exact ⟨rfl, .leaf hleaf henter⟩
          | false =>
              rw [runFrom_descend_container hleaf henter] at hrun
              obtain ⟨_, left, hbelow, hgo, hrun⟩ := Action.runFrom_goOn_ok hstep hrun
              obtain ⟨_, final, hleave, hanswer, hrun⟩ := Action.runFrom_goOn_ok hstep hrun
              cases hrun
              exact ⟨rfl, .container hleaf henter hbelow hgo hleave hanswer⟩

theorem descendAll_append (first second : List Node) :
    descendAll visit (first ++ second) =
      (descendAll visit first).goOn (descendAll visit second) := by
  induction first with
  | nil => rw [List.nil_append, descendAll, Action.goOn_pure_next]
  | cons node rest ih =>
      rw [List.cons_append, descendAll_cons, descendAll_cons, ih, Action.goOn_assoc]

theorem descendAll_singleton (node : Node) : descendAll visit [node] = node.descend visit := by
  rw [descendAll_cons, descendAll, descend_goOn_next]

/-- A container whose own visits do nothing is its children. -/
theorem descend_eq_descendAll (hleaf : node.kind.isLeaf = false)
    (hvisit : ∀ phase, visit node phase = pure .next) :
    node.descend visit = descendAll visit node.children := by
  calc node.descend visit
      = (descendAll visit node.children).goOn (pure .next) := by
        rw [descend_eq, hvisit, hvisit]
        simp [hleaf]
    _ = descendAll visit node.children := by
        have happend : descendAll visit (node.children ++ []) = _ :=
          descendAll_append node.children []
        rw [List.append_nil] at happend
        exact happend.symm

end Node

end

/-! ## What the recursion preserves -/

/-- A visitor never goes on with the children of an image. -/
def PassesOverImages (visit : Visitor ε σ) : Prop :=
  ∀ node state after, (visit node .enter).runFrom state = (.ok .next, after) → node.kind ≠ .image

section

variable {visit : Visitor ε σ} {preserves : σ → σ → Prop} {state after : σ} {step : Step}

/-- A relation between states is kept by a visit if it does not fail. -/
def Keeps (visit : Visitor ε σ) (preserves : σ → σ → Prop) (node : Node) : Prop :=
  ∀ phase state step after,
    (visit node phase).runFrom state = (.ok step, after) → preserves state after

/-- What every tree of a forest preserves, the forest preserves. -/
theorem Node.preserves_descendAll (hrefl : ∀ state, preserves state state)
    (htrans : ∀ {first second third}, preserves first second → preserves second third →
      preserves first third) {nodes : List Node}
    (hnodes : ∀ child ∈ nodes, ∀ state step after, step ≠ .stop →
      (child.descend visit).runFrom state = (.ok step, after) → preserves state after)
    (hstep : step ≠ .stop)
    (hrun : (descendAll visit nodes).runFrom state = (.ok step, after)) :
    preserves state after := by
  induction nodes generalizing state with
  | nil =>
      cases hrun
      exact hrefl _
  | cons first rest ih =>
      rw [descendAll_cons] at hrun
      obtain ⟨answer, between, hfirst, hgo, hrest⟩ := Action.runFrom_goOn_ok hstep hrun
      have hothers := ih (fun child hmem => hnodes child (List.mem_cons_of_mem _ hmem)) hrest
      exact htrans (hnodes first List.mem_cons_self _ _ _ hgo hfirst) hothers

/-- What every visit of a reached node preserves, the recursion on the tree preserves. -/
theorem Node.preserves_descend (himages : PassesOverImages visit)
    (hrefl : ∀ state, preserves state state)
    (htrans : ∀ {first second third}, preserves first second → preserves second third →
      preserves first third) {node : Node}
    (hkeeps : ∀ target ∈ node.reached, Keeps visit preserves target) (hstep : step ≠ .stop)
    (hrun : (node.descend visit).runFrom state = (.ok step, after)) : preserves state after := by
  induction node using Node.induction generalizing state step after with
  | step node ih =>
      have hhere : Keeps visit preserves node :=
        hkeeps node (by rw [reached_eq]; exact List.mem_cons_self)
      cases (descends_of_ok hstep hrun).2 with
      | skip henter => exact hhere _ _ _ _ henter
      | leaf _ henter => exact hhere _ _ _ _ henter
      | @container entered left _ _ hleaf henter hbelow hgo hleave =>
          have hinside : preserves entered left := by
            refine preserves_descendAll hrefl htrans ?_ hgo hbelow
            intro child hmem state step after hstep hchild
            refine ih child hmem (fun target htarget => hkeeps target ?_) hstep hchild
            rw [reached_container hleaf (himages _ _ _ henter)]
            exact List.mem_cons_of_mem _ (mem_reachedAll.mpr ⟨child, hmem, htarget⟩)
          exact htrans (htrans (hhere _ _ _ _ henter) hinside) (hhere _ _ _ _ hleave)

end

end Manuscript
