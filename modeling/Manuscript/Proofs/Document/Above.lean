import Manuscript.Proofs.Document.Nesting
import Manuscript.Proofs.Document.Reach

/-! # What is above a visited node

If a walk passes over images, the open nodes are those above the node that is
entered next (`Underway.reaches`). The nodes that were entered and those that
are still to be reached are, in document order, all that is reached from the
root, but for what is below the nodes that were passed over
(`Underway.filter_reached`).
-/

namespace Manuscript

variable {ε σ : Type}

/-- What is reached from a node that is reached is reached. -/
theorem Reaches.trans {above between outer : List Node} {node middle target : Node}
    (hfirst : Reaches above node between middle) (hsecond : Reaches between middle outer target) :
    Reaches above node outer target := by
  induction hfirst with
  | here => exact hsecond
  | child hleaf himage hchild _ ih => exact .child hleaf himage hchild (ih hsecond)

/-- Each pending visit is below the nodes that will be open when it is its turn. -/
def Pending.Placed (root : Node) : Pending → List Node → Prop
  | [], _ => True
  | (node, .enter) :: rest, above => Reaches [] root above node ∧ Placed root rest above
  | (node, .leave) :: rest, above => ∃ outer, above = node :: outer ∧ Placed root rest outer

/-- The children of a node that is entered stand below it. -/
theorem Pending.placed_expand {root node : Node} {rest : Pending} {above : List Node}
    (hreaches : Reaches [] root above node) (hleaf : node.kind.isLeaf = false)
    (himage : node.kind ≠ .image) (hrest : rest.Placed root above) :
    (expand node rest).Placed root (node :: above) := by
  have hchildren : ∀ children ⊆ node.children,
      Placed root (children.map (·, .enter) ++ (node, .leave) :: rest) (node :: above) := by
    intro children hsubset
    induction children with
    | nil => exact ⟨above, rfl, hrest⟩
    | cons child others ih =>
        refine ⟨hreaches.trans ?_, ih fun _ hmem => hsubset (List.mem_cons_of_mem _ hmem)⟩
        exact .child hleaf himage (hsubset List.mem_cons_self) .here
  exact hchildren node.children (List.Subset.refl _)

/-- The nodes that are reached by the pending visits, in document order. -/
def Pending.toReach : Pending → List Node
  | [] => []
  | (node, .enter) :: rest => node.reached ++ toReach rest
  | (_, .leave) :: rest => toReach rest

theorem Pending.toReach_expand (node : Node) (rest : Pending) :
    (expand node rest).toReach = Node.reachedAll node.children ++ rest.toReach := by
  have hchildren : ∀ children : List Node,
      toReach (children.map (·, .enter) ++ (node, .leave) :: rest) =
        Node.reachedAll children ++ rest.toReach := by
    intro children
    induction children with
    | nil => rfl
    | cons child others ih =>
        rw [List.map_cons, List.cons_append, toReach, ih, Node.reachedAll, List.append_assoc]
  exact hchildren node.children

/-- The open nodes when a node below others is visited. -/
def openAt (node : Node) (outer : List Node) : Phase → List Node
  | .enter => outer
  | .leave => node :: outer

/-- The nodes that were entered, in the order in which they were. -/
def enteredNodes (history : History ε σ) : List Node :=
  (history.reverse.filter (·.phase = .enter)).map Visit.node

section

variable {visit : Visitor ε σ} {root node : Node} {start : σ} {pending rest : Pending}
  {history : History ε σ} {state : σ}

/-- What is left of a walk stands below the nodes that are open. -/
theorem Underway.placed (himages : PassesOverImages visit)
    (hunderway : Underway visit root start pending history state) :
    pending.Placed root ((openNodes history).map OpenNode.node) := by
  induction hunderway with
  | start => exact ⟨.here, trivial⟩
  | @step node phase rest history state after step _ hrun hstep ih =>
      cases phase with
      | leave =>
          obtain ⟨outer, habove, hrest⟩ := ih
          simpa [Pending.after, openNodes, habove] using hrest
      | enter =>
          obtain ⟨hreaches, hrest⟩ := ih
          cases step with
          | stop => exact absurd rfl hstep
          | skipChildren => exact hrest
          | next =>
              simp only [Pending.after, openNodes]
              cases hleaf : node.kind.isLeaf with
              | true => simpa using hrest
              | false =>
                  simpa using Pending.placed_expand hreaches hleaf (himages _ _ _ hrun) hrest

/-- The open nodes are those above the node that is entered next. -/
theorem Underway.reaches (himages : PassesOverImages visit)
    (hunderway : Underway visit root start ((node, .enter) :: rest) history state) :
    Reaches [] root ((openNodes history).map OpenNode.node) node :=
  (hunderway.placed himages).1

/-- Each open node is below those that were opened before it. -/
theorem Underway.reaches_open (himages : PassesOverImages visit)
    (hunderway : Underway visit root start pending history state) {outer : List Node}
    (hopen : node :: outer <:+ (openNodes history).map OpenNode.node) :
    Reaches [] root outer node := by
  induction hunderway with
  | start => simp [openNodes] at hopen
  | @step visited phase rest history state after step hbefore hrun hstep ih =>
      cases phase with
      | leave =>
          simp only [openNodes, List.map_tail] at hopen
          exact ih (hopen.trans (List.tail_suffix _))
      | enter =>
          cases step with
          | stop => exact absurd rfl hstep
          | skipChildren => exact ih hopen
          | next =>
              simp only [openNodes] at hopen
              split at hopen
              · exact ih hopen
              · rcases List.suffix_cons_iff.mp hopen with heq | hopen
                · obtain ⟨rfl, rfl⟩ := List.cons.inj heq
                  exact hbefore.reaches himages
                · exact ih hopen

/-- The nodes that a visited node is below are open, and so is the node itself when it is left. -/
theorem Underway.exists_reaches {phase : Phase} (himages : PassesOverImages visit)
    (hunderway : Underway visit root start ((node, phase) :: rest) history state) :
    ∃ outer, Reaches [] root outer node ∧
      (openNodes history).map OpenNode.node = openAt node outer phase := by
  cases phase with
  | enter => exact ⟨_, hunderway.reaches himages, rfl⟩
  | leave =>
      obtain ⟨since, hopen⟩ := hunderway.open_of_leave
      refine ⟨(openNodes history).tail.map OpenNode.node, ?_, ?_⟩
      · apply hunderway.reaches_open himages
        rw [hopen]
        exact List.suffix_rfl
      · rw [hopen]
        rfl

theorem enteredNodes_enter (node : Node) (answer : Except ε Step) :
    enteredNodes (⟨node, .enter, state, answer⟩ :: history) = enteredNodes history ++ [node] := by
  simp [enteredNodes]

theorem enteredNodes_leave (node : Node) (answer : Except ε Step) :
    enteredNodes (⟨node, .leave, state, answer⟩ :: history) = enteredNodes history := by
  simp [enteredNodes]

/-- Of the nodes of a sort that has none below the nodes that are passed over, those that were
entered and those still to be reached are all that are reached from the root. -/
theorem Underway.filter_reached (himages : PassesOverImages visit) {p : Node → Bool}
    (hskip : ∀ node rest history state after,
      Underway visit root start ((node, .enter) :: rest) history state →
      (visit node .enter).runFrom state = (.ok .skipChildren, after) →
      node.reached.filter p = [node].filter p)
    (hunderway : Underway visit root start pending history state) :
    (enteredNodes history ++ pending.toReach).filter p = root.reached.filter p := by
  induction hunderway with
  | start => simp [enteredNodes, Pending.toReach]
  | @step node phase rest history state after step hbefore hrun hstep ih =>
      cases phase with
      | leave => simpa [Pending.after, Pending.toReach, enteredNodes_leave] using ih
      | enter =>
          rw [← ih, enteredNodes_enter, Pending.toReach]
          cases step with
          | stop => exact absurd rfl hstep
          | skipChildren =>
              -- What is below the node is no longer pending, but none of it is of the sort.
              have hbelow := hskip node rest history state after hbefore hrun
              simp only [Pending.after, List.filter_append, hbelow, List.append_assoc]
          | next =>
              cases hleaf : node.kind.isLeaf with
              | true => simp [Pending.after, hleaf, Node.reached_end (.inl hleaf)]
              | false =>
                  rw [Node.reached_container hleaf (himages _ _ _ hrun)]
                  simp [Pending.after, hleaf, Pending.toReach_expand]

end

end Manuscript
