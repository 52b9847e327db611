import Manuscript.Proofs.Document.Above

/-! # Places in a tree

A node may occur in a tree more than once. A place is an occurrence: the node
together with the nodes that it is below. The places that a walk enters and those
that are still to be reached are, in document order, all that are reached from the
root, but for what is below the nodes that were passed over
(`Underway.filter_places`).
-/

namespace Manuscript

variable {ε σ : Type}

namespace Node

mutual

/-- The node and all that is reached below it, in document order, each with the nodes that it is
below, the innermost first. -/
def places (above : List Node) : Node → List (List Node × Node)
  | ⟨kind, literal, level, isTitleBlock, listStyle, destination, children⟩ =>
    let node : Node := ⟨kind, literal, level, isTitleBlock, listStyle, destination, children⟩
    (above, node) ::
      if kind.isLeaf || kind == .image then [] else placesAll (node :: above) children

/-- All that is reached in a forest, in document order. -/
def placesAll (above : List Node) : List Node → List (List Node × Node)
  | [] => []
  | child :: rest => child.places above ++ placesAll above rest

end

section

variable {above : List Node} {node : Node}

theorem places_eq (above : List Node) (node : Node) :
    node.places above =
      (above, node) ::
        if node.kind.isLeaf || node.kind == .image then []
        else placesAll (node :: above) node.children := by
  cases node
  rfl

/-- Below a leaf or an image there are no places. -/
theorem places_end (hend : node.kind.isLeaf = true ∨ node.kind = .image) :
    node.places above = [(above, node)] := by
  rw [places_eq, if_pos (by simpa using hend)]

theorem places_container (hleaf : node.kind.isLeaf = false) (himage : node.kind ≠ .image) :
    node.places above = (above, node) :: placesAll (node :: above) node.children := by
  rw [places_eq, if_neg (by simp [hleaf, himage])]

theorem mem_placesAll {nodes : List Node} {place : List Node × Node} :
    place ∈ placesAll above nodes ↔ ∃ child ∈ nodes, place ∈ child.places above := by
  induction nodes with
  | nil => simp [placesAll]
  | cons first rest ih => simp [placesAll, ih]

end

end Node

/-- The places of a tree are what is reached in it. -/
theorem mem_places_iff {above outer : List Node} {node target : Node} :
    (outer, target) ∈ node.places above ↔ Reaches above node outer target := by
  induction node using Node.induction generalizing above with
  | step node ih =>
      by_cases hend : node.kind.isLeaf = true ∨ node.kind = .image
      · rw [Node.places_end hend, List.mem_singleton]
        constructor
        · intro hplace
          cases hplace
          exact .here
        · intro hreaches
          obtain ⟨rfl, rfl⟩ := hreaches.eq_here hend
          rfl
      · obtain ⟨hleaf, himage⟩ : node.kind.isLeaf = false ∧ node.kind ≠ .image := by
          simpa using hend
        rw [Node.places_container hleaf himage, List.mem_cons, Node.mem_placesAll]
        constructor
        · rintro (hplace | ⟨child, hchild, hplace⟩)
          · cases hplace
            exact .here
          · exact .child hleaf himage hchild ((ih child hchild).mp hplace)
        · intro hreaches
          cases hreaches with
          | here => exact .inl rfl
          | child _ _ hchild hreaches => exact .inr ⟨_, hchild, (ih _ hchild).mpr hreaches⟩

/-! ## Along a walk -/

/-- The places of the pending visits, in document order. -/
def Pending.places : Pending → List (List Node × Node)
  | [] => []
  | (node, .enter) :: rest => node.places (toLeave rest) ++ places rest
  | (_, .leave) :: rest => places rest

theorem Pending.places_expand (node : Node) (rest : Pending) :
    (expand node rest).places =
      Node.placesAll (node :: rest.toLeave) node.children ++ rest.places := by
  have hleave (children : List Node) :
      toLeave (children.map (·, .enter) ++ (node, .leave) :: rest) = node :: rest.toLeave := by
    induction children with
    | nil => rfl
    | cons child others ih => exact ih
  have hchildren (children : List Node) :
      places (children.map (·, .enter) ++ (node, .leave) :: rest) =
        Node.placesAll (node :: rest.toLeave) children ++ rest.places := by
    induction children with
    | nil => rfl
    | cons child others ih =>
        rw [List.map_cons, List.cons_append, places, hleave, ih, Node.placesAll, List.append_assoc]
  exact hchildren node.children

/-- The places that were entered, in the order in which they were. -/
def enteredPlaces : History ε σ → List (List Node × Node)
  | [] => []
  | v :: earlier =>
    enteredPlaces earlier ++
      if v.phase = .enter then [((openNodes earlier).map OpenNode.node, v.node)] else []

/-- A place was entered exactly if the node was, below the nodes that were open then. -/
theorem mem_enteredPlaces_iff {history : History ε σ} {place : List Node × Node} :
    place ∈ enteredPlaces history ↔ ∃ v earlier, v :: earlier <:+ history ∧ v.phase = .enter ∧
      place = ((openNodes earlier).map OpenNode.node, v.node) := by
  induction history with
  | nil => simp [enteredPlaces]
  | cons last rest ih =>
      rw [enteredPlaces, List.mem_append, ih]
      constructor
      · rintro (⟨v, earlier, hsuffix, hfacts⟩ | hlast)
        · exact ⟨v, earlier, hsuffix.trans (List.suffix_cons _ _), hfacts⟩
        · split at hlast
          next henter => exact ⟨last, rest, List.suffix_rfl, henter, List.mem_singleton.mp hlast⟩
          next => cases hlast
      · rintro ⟨v, earlier, hsuffix, henter, hplace⟩
        rcases List.suffix_cons_iff.mp hsuffix with heq | hsuffix
        · cases heq
          right
          rw [if_pos henter, hplace]
          exact List.mem_singleton_self _
        · exact .inl ⟨v, earlier, hsuffix, henter, hplace⟩

section

variable {visit : Visitor ε σ} {root : Node} {start : σ} {pending : Pending}
  {history : History ε σ} {state : σ}

/-- Of the places of a sort that has none below the nodes that are passed over, those that were
entered and those still to be reached are all that are reached from the root. -/
theorem Underway.filter_places (himages : PassesOverImages visit)
    {p : List Node × Node → Bool}
    (hskip : ∀ node rest history state after,
      Underway visit root start ((node, .enter) :: rest) history state →
      (visit node .enter).runFrom state = (.ok .skipChildren, after) →
      let above := (openNodes history).map OpenNode.node
      (node.places above).filter p = [(above, node)].filter p)
    (hunderway : Underway visit root start pending history state) :
    (enteredPlaces history ++ pending.places).filter p = (root.places []).filter p := by
  induction hunderway with
  | start => simp [enteredPlaces, Pending.places, Pending.toLeave]
  | @step node phase rest history state after step hbefore hrun hstep ih =>
      cases phase with
      | leave => simpa [Pending.after, Pending.places, enteredPlaces] using ih
      | enter =>
          have hopen : Pending.toLeave rest = (openNodes history).map OpenNode.node :=
            hbefore.toLeave_eq
          rw [← ih, enteredPlaces, if_pos rfl, Pending.places, hopen]
          cases step with
          | stop => exact absurd rfl hstep
          | skipChildren =>
              -- What is below the node is no longer pending, but none of it is of the sort.
              have hbelow := hskip node rest history state after hbefore hrun
              simp only [Pending.after, List.filter_append, hbelow, List.append_assoc]
          | next =>
              cases hleaf : node.kind.isLeaf with
              | true => simp [Pending.after, hleaf, Node.places_end (.inl hleaf)]
              | false =>
                  rw [Node.places_container hleaf (himages _ _ _ hrun)]
                  simp [Pending.after, hleaf, Pending.places_expand, hopen]

end

end Manuscript
