import Manuscript.Proofs.Document.Nesting
import Manuscript.Proofs.Document.Reach

/-! # From entering a node to leaving it

The visits between entering a node and leaving it are a stretch of the history
in which every node that was opened is closed again
(`Spans.countP_opens_eq_countP_leaves`). The recursion on a node makes just
these visits (`exists_spans_of_enter`).
-/

namespace Manuscript

variable {ε σ : Type}

/-- A visit opens a node: it enters it, and its children are visited. -/
def Visit.opens (v : Visit ε σ) : Bool :=
  match v.phase, v.answer with
  | .enter, .ok .next => !v.node.kind.isLeaf
  | _, _ => false

/-- A visit leaves the node that another one entered. Between the two the visits `inside` were
made, and the visits `earlier` before both of them. -/
structure Spans (history : History ε σ) (entered : Visit ε σ) (inside : History ε σ)
    (left : Visit ε σ) (earlier : History ε σ) : Prop where
  suffix : left :: (inside ++ entered :: earlier) <:+ history
  leave : left.phase = .leave
  closes : openNodes (inside ++ entered :: earlier) =
    ⟨earlier.length, entered.node⟩ :: openNodes earlier

section

variable {history inside earlier : History ε σ} {entered left : Visit ε σ}
  (hspans : Spans history entered inside left earlier)
include hspans

theorem Spans.suffix_entered : entered :: earlier <:+ history :=
  (List.suffix_append _ _).trans ((List.suffix_cons _ _).trans hspans.suffix)

theorem Spans.suffix_inside {later before : History ε σ} {v : Visit ε σ}
    (hinside : inside = later ++ v :: before) :
    v :: (before ++ entered :: earlier) <:+ history := by
  refine List.IsSuffix.trans ⟨left :: later, ?_⟩ hspans.suffix
  rw [hinside]
  simp

end

/-! ## Open nodes and the visits that opened them -/

theorem Visit.enter_of_opens {v : Visit ε σ} (hopens : v.opens = true) : v.phase = .enter := by
  cases hphase : v.phase with
  | enter => rfl
  | leave => simp [opens, hphase] at hopens

theorem Visit.isLeaf_of_opens {v : Visit ε σ} (hopens : v.opens = true) :
    v.node.kind.isLeaf = false := by
  unfold opens at hopens
  split at hopens
  · simpa using hopens
  · cases hopens

/-- A container that was entered is the innermost open node. -/
theorem openNodes_opens {v : Visit ε σ} (hopens : v.opens = true) (earlier : History ε σ) :
    openNodes (v :: earlier) = ⟨earlier.length, v.node⟩ :: openNodes earlier := by
  unfold Visit.opens at hopens
  split at hopens
  next hphase hanswer =>
    simp only [Bool.not_eq_true'] at hopens
    simp [openNodes, hphase, hanswer, hopens]
  next => cases hopens

/-- An open node was opened by the visit whose number it has. -/
theorem exists_opens_of_mem {history : History ε σ} {o : OpenNode}
    (hmem : o ∈ openNodes history) :
    ∃ later v earlier, history = later ++ v :: earlier ∧ earlier.length = o.since ∧
      v.opens = true ∧ v.node = o.node := by
  induction history with
  | nil => simp [openNodes] at hmem
  | cons v rest ih =>
      have hrest : o ∈ openNodes rest → ∃ later w earlier, v :: rest = later ++ w :: earlier ∧
          earlier.length = o.since ∧ w.opens = true ∧ w.node = o.node := by
        intro hmem
        obtain ⟨later, w, earlier, rfl, hfacts⟩ := ih hmem
        exact ⟨v :: later, w, earlier, rfl, hfacts⟩
      simp only [openNodes] at hmem
      split at hmem
      next hphase hanswer =>
        split at hmem
        next => exact hrest hmem
        next hleaf =>
          rcases List.mem_cons.mp hmem with rfl | hmem
          · exact ⟨[], v, rest, rfl, rfl, by simp [Visit.opens, hphase, hanswer, hleaf], rfl⟩
          · exact hrest hmem
      next => exact hrest hmem
      next => exact hrest (List.mem_of_mem_tail hmem)

/-- Later visits close some of the open nodes and put others on top. -/
theorem openNodes_append (later earlier : History ε σ) :
    ∃ inner closed, openNodes (later ++ earlier) = inner ++ (openNodes earlier).drop closed ∧
      ∀ o ∈ inner, earlier.length ≤ o.since := by
  induction later with
  | nil => exact ⟨[], 0, by simp, by simp⟩
  | cons v rest ih =>
      obtain ⟨inner, closed, heq, hinner⟩ := ih
      by_cases hopens : v.opens = true
      · refine ⟨⟨(rest ++ earlier).length, v.node⟩ :: inner, closed, ?_, ?_⟩
        · rw [List.cons_append, openNodes_opens hopens, heq, List.cons_append]
        · intro o hmem
          rcases List.mem_cons.mp hmem with rfl | hmem
          · simp
          · exact hinner o hmem
      · by_cases hleave : v.phase = .leave
        · have htail : openNodes (v :: rest ++ earlier) = (openNodes (rest ++ earlier)).tail := by
            simp [openNodes, hleave]
          rw [htail, heq]
          cases inner with
          | nil => exact ⟨[], closed + 1, by simp, by simp⟩
          | cons o others =>
              exact ⟨others, closed, rfl, fun o' hmem => hinner o' (List.mem_cons_of_mem _ hmem)⟩
        · refine ⟨inner, closed, ?_, hinner⟩
          rw [← heq]
          unfold Visit.opens at hopens
          simp only [List.cons_append, openNodes]
          split <;> simp_all

section

variable {visit : Visitor ε σ} {root : Node} {start : σ} {pending : Pending}
  {history inside earlier : History ε σ} {state : σ} {entered left : Visit ε σ}

/-- Every visit of a history did what the visitor does. -/
theorem Underway.ran (hunderway : Underway visit root start pending history state)
    {v : Visit ε σ} (hmem : v ∈ history) :
    ∃ step after, v.answer = .ok step ∧
      (visit v.node v.phase).runFrom v.before = (.ok step, after) := by
  induction hunderway with
  | start => simp at hmem
  | step _ hrun _ ih =>
      rcases List.mem_cons.mp hmem with rfl | hmem
      · exact ⟨_, _, rfl, hrun⟩
      · exact ih hmem

/-- Only nodes whose children are visited are left. -/
theorem Underway.isLeaf_of_leave {node : Node} {rest : Pending}
    (hunderway : Underway visit root start ((node, .leave) :: rest) history state) :
    node.kind.isLeaf = false := by
  obtain ⟨since, hopen⟩ := hunderway.open_of_leave
  have hmem : ⟨since, node⟩ ∈ openNodes history := by
    rw [hopen]
    exact List.mem_cons_self
  obtain ⟨_, v, _, _, _, hopens, hnode⟩ := exists_opens_of_mem hmem
  have hleaf := Visit.isLeaf_of_opens hopens
  rwa [hnode] at hleaf

/-- Of the nodes that were opened, those are open that were not left. -/
theorem Underway.countP_opens (hunderway : Underway visit root start pending history state)
    (p : Node → Bool) :
    history.countP (fun v => v.opens && p v.node) =
      history.countP (fun v => decide (v.phase = .leave) && p v.node) +
        (openNodes history).countP (fun o => p o.node) := by
  induction hunderway with
  | start => rfl
  | @step node phase rest history state after step hbefore _ _ ih =>
      rw [List.countP_cons, List.countP_cons, ih]
      cases phase with
      | leave =>
          obtain ⟨since, hopen⟩ := hbefore.open_of_leave
          have hcount : (openNodes history).countP (fun o => p o.node) =
              (openNodes history).tail.countP (fun o => p o.node) + if p node then 1 else 0 := by
            rw [hopen, List.countP_cons, List.tail_cons]
          simp only [openNodes, Visit.opens, hcount]
          simp
          omega
      | enter =>
          by_cases hopens : (⟨node, .enter, state, .ok step⟩ : Visit ε σ).opens = true
          · rw [openNodes_opens hopens, List.countP_cons, hopens]
            simp
            omega
          · have hsame : openNodes (⟨node, .enter, state, .ok step⟩ :: history) =
                openNodes history := by
              cases step <;> simp_all [Visit.opens, openNodes]
            rw [hsame]
            simp [hopens]

theorem Spans.opens (hspans : Spans history entered inside left earlier) :
    entered.opens = true := by
  have hmem : ⟨earlier.length, entered.node⟩ ∈ openNodes (inside ++ entered :: earlier) := by
    rw [hspans.closes]
    exact List.mem_cons_self
  obtain ⟨later, v, before, heq, hlength, hopens, -⟩ := exists_opens_of_mem hmem
  have hcut := List.append_inj' heq (by simp [hlength])
  obtain ⟨rfl, -⟩ := List.cons.inj hcut.2
  exact hopens

/-- The node stays open throughout. -/
theorem Spans.mem_openNodes (hspans : Spans history entered inside left earlier)
    {later before : History ε σ} (hinside : inside = later ++ before) :
    ⟨earlier.length, entered.node⟩ ∈ openNodes (before ++ entered :: earlier) := by
  obtain ⟨inner, closed, heq, hinner⟩ := openNodes_append later (before ++ entered :: earlier)
  rw [← List.append_assoc, ← hinside, hspans.closes] at heq
  have hmem : ⟨earlier.length, entered.node⟩ ∈ inner ++
      (openNodes (before ++ entered :: earlier)).drop closed := heq ▸ List.mem_cons_self
  rcases List.mem_append.mp hmem with hnew | hold
  · have hsince := hinner _ hnew
    simp only [List.length_append, List.length_cons] at hsince
    omega
  · exact List.mem_of_mem_drop hold

/-- What was open before the node was entered stays open throughout as well, around the node. -/
theorem Spans.suffix_openNodes (hspans : Spans history entered inside left earlier)
    {later before : History ε σ} (hinside : inside = later ++ before) :
    ⟨earlier.length, entered.node⟩ :: openNodes earlier <:+
      openNodes (before ++ entered :: earlier) := by
  have hmem := hspans.mem_openNodes hinside
  obtain ⟨inner, closed, heq, hinner⟩ := openNodes_append before (entered :: earlier)
  rw [openNodes_opens hspans.opens] at heq
  rw [heq] at hmem ⊢
  -- The node is neither among those opened later nor among those that were open before it.
  cases closed with
  | zero => exact List.suffix_append _ _
  | succ closed =>
      rcases List.mem_append.mp hmem with hnew | hold
      · have hsince := hinner _ hnew
        simp only [List.length_cons] at hsince
        omega
      · have hsince := since_lt_of_mem (List.mem_of_mem_drop hold)
        simp only at hsince
        omega

/-- A stretch ends with leaving the node that it starts with. -/
theorem Spans.node_eq
    (hspans : Spans (historyOf visit root start) entered inside left earlier) :
    left.node = entered.node := by
  obtain ⟨rest, hunderway⟩ := (makes_of_suffix hspans.suffix).underway
  rw [hspans.leave] at hunderway
  obtain ⟨since, hopen⟩ := hunderway.open_of_leave
  rw [hspans.closes] at hopen
  have hhead := (List.cons.inj hopen).1
  exact (congrArg OpenNode.node hhead).symm

/-- If the innermost open node was opened by a visit, all that was opened after that visit is closed
again. -/
theorem closes_of_innermost {node : Node} {outer : List OpenNode}
    (hopen : openNodes (inside ++ entered :: earlier) = ⟨earlier.length, node⟩ :: outer) :
    entered.node = node ∧ openNodes (inside ++ entered :: earlier) =
      ⟨earlier.length, entered.node⟩ :: openNodes earlier := by
  obtain ⟨later, v, before, heq, hlength, hopens, hnode⟩ :=
    exists_opens_of_mem (hopen ▸ List.mem_cons_self)
  obtain ⟨rfl, hcut⟩ := List.append_inj' heq (by simp [hlength])
  obtain ⟨rfl, rfl⟩ := List.cons.inj hcut
  refine ⟨hnode, ?_⟩
  obtain ⟨inner, closed, heq, hinner⟩ := openNodes_append inside (entered :: earlier)
  rw [openNodes_opens hopens] at heq
  -- The innermost open node was opened before `inside`, so none of `inside` is still open.
  cases inner with
  | cons o others =>
      rw [hopen] at heq
      have hlast := hinner o List.mem_cons_self
      rw [← (List.cons.inj heq).1] at hlast
      simp only [List.length_cons] at hlast
      omega
  | nil =>
      cases closed with
      | zero => exact heq
      | succ closed =>
          have hmem : ⟨earlier.length, node⟩ ∈ openNodes earlier := by
            refine List.mem_of_mem_drop (i := closed) ?_
            rw [List.nil_append, List.drop_succ_cons] at heq
            rw [← heq, hopen]
            exact List.mem_cons_self
          have hlast := since_lt_of_mem hmem
          simp only at hlast
          omega

/-- A container that is left was entered before. -/
theorem exists_spans {before : History ε σ}
    (hsuffix : left :: before <:+ historyOf visit root start) (hleave : left.phase = .leave) :
    ∃ entered inside earlier, before = inside ++ entered :: earlier ∧
      Spans (historyOf visit root start) entered inside left earlier := by
  obtain ⟨rest, hunderway⟩ := (makes_of_suffix hsuffix).underway
  rw [hleave] at hunderway
  obtain ⟨since, hopen⟩ := hunderway.open_of_leave
  obtain ⟨inside, entered, earlier, rfl, rfl, -⟩ :=
    exists_opens_of_mem (hopen ▸ List.mem_cons_self)
  exact ⟨entered, inside, earlier, rfl, hsuffix, hleave, (closes_of_innermost hopen).2⟩

/-- Between entering and leaving a node, as many nodes are left as are opened, of every sort. -/
theorem Spans.countP_opens_eq_countP_leaves
    (hspans : Spans (historyOf visit root start) entered inside left earlier) (p : Node → Bool) :
    inside.countP (fun v => v.opens && p v.node) =
      inside.countP (fun v => decide (v.phase = .leave) && p v.node) := by
  obtain ⟨_, hbefore⟩ := (makes_of_suffix hspans.suffix).underway
  obtain ⟨_, hentered⟩ := (makes_of_suffix hspans.suffix_entered).underway
  have htotal := hbefore.countP_opens p
  have hearlier := hentered.countP_opens p
  have henter := Visit.enter_of_opens hspans.opens
  rw [hspans.closes, List.countP_append, List.countP_append, List.countP_cons, List.countP_cons,
    List.countP_cons, hspans.opens] at htotal
  simp [henter] at htotal
  omega

end

/-! ## The visits of the recursion -/

section

variable {visit : Visitor ε σ} {root node : Node} {start : σ} {pending rest : Pending}
  {history : History ε σ} {state entered after : σ} {step : Step}

/-- What is pending goes on to where the walk leads. -/
theorem Underway.runFrom_walkPending
    (hunderway : Underway visit root start pending history state) :
    (walkPending visit pending).runFrom state = (walk visit root).runFrom start := by
  induction hunderway with
  | start => rfl
  | step _ hrun hstep ih => rw [← ih, runFrom_walkPending_step hrun hstep]

/-- In a walk that comes to its end, so does the recursion on each node whose turn it is. -/
theorem Underway.descend_ok {final : σ}
    (hwalk : (walk visit root).runFrom start = (.ok .next, final))
    (hunderway : Underway visit root start ((node, .enter) :: rest) history state) :
    ∃ answer after, (node.descend visit).runFrom state = (.ok answer, after) ∧ answer ≠ .stop := by
  have hrun := hunderway.runFrom_walkPending
  rw [hwalk, walkPending_tree] at hrun
  obtain ⟨answer, after, hdescend, hanswer, -⟩ := Action.runFrom_goOn_ok (by decide) hrun
  exact ⟨answer, after, hdescend, hanswer⟩

/-- The visits made so far are the first of the whole walk. -/
theorem Underway.suffix_historyOf
    (hunderway : Underway visit root start pending history state) :
    history <:+ historyOf visit root start := by
  have hcontinues : (walkPending visit.recorded pending).runFrom (state, history) =
      (walk visit.recorded root).runFrom (start, []) := by
    induction hunderway with
    | start => rfl
    | step _ hrun hstep ih =>
        rw [← ih, runFrom_walkPending_step (Visitor.runFrom_recorded hrun _) hstep]
  obtain ⟨result, final, made, -, hrecorded, -⟩ :=
    runFrom_walkPending_recorded visit pending state history
  rw [hcontinues] at hrecorded
  exact ⟨made, by rw [historyOf, hrecorded]⟩

variable (visit root start) in
/-- When it is this node's turn and the recursion on it does not stop, the walk makes visits that
close all that they open and goes on with what was pending. -/
def Completes (node : Node) : Prop :=
  ∀ {rest history state step after},
    Underway visit root start ((node, .enter) :: rest) history state →
    (node.descend visit).runFrom state = (.ok step, after) → step ≠ .stop →
    ∃ made, Underway visit root start rest (made ++ history) after ∧
      openNodes (made ++ history) = openNodes history

/-- What is made of each tree of a forest is made of the forest. -/
theorem Underway.descend_forest {nodes : List Node}
    (hnodes : ∀ node ∈ nodes, Completes visit root start node)
    (hunderway : Underway visit root start (nodes.map (·, .enter) ++ rest) history state)
    (hrun : (Node.descendAll visit nodes).runFrom state = (.ok step, after))
    (hstep : step ≠ .stop) :
    ∃ made, Underway visit root start rest (made ++ history) after ∧
      openNodes (made ++ history) = openNodes history := by
  induction nodes generalizing history state with
  | nil =>
      cases hrun
      exact ⟨[], hunderway, rfl⟩
  | cons first others ih =>
      rw [Node.descendAll_cons] at hrun
      obtain ⟨answer, left, hfirst, hanswer, hothers⟩ := Action.runFrom_goOn_ok hstep hrun
      obtain ⟨made, hleft, hopen⟩ := hnodes first List.mem_cons_self hunderway hfirst hanswer
      obtain ⟨more, hafter, hopen'⟩ :=
        ih (fun node hmem => hnodes node (List.mem_cons_of_mem _ hmem)) hleft hothers
      rw [← List.append_assoc] at hafter hopen'
      exact ⟨more ++ made, hafter, hopen'.trans hopen⟩

/-- When the children of a node that is entered were visited, the node is left. -/
theorem Underway.descend_below
    (hchildren : ∀ child ∈ node.children, Completes visit root start child)
    (hunderway : Underway visit root start ((node, .enter) :: rest) history state)
    (hleaf : node.kind.isLeaf = false)
    (henter : (visit node .enter).runFrom state = (.ok .next, entered))
    (hbelow : (Node.descendAll visit node.children).runFrom entered = (.ok step, after))
    (hstep : step ≠ .stop) :
    ∃ inside,
      Underway visit root start ((node, .leave) :: rest)
        (inside ++ ⟨node, .enter, state, .ok .next⟩ :: history) after ∧
      openNodes (inside ++ ⟨node, .enter, state, .ok .next⟩ :: history) =
        ⟨history.length, node⟩ :: openNodes history := by
  have hopens : (⟨node, .enter, state, .ok .next⟩ : Visit ε σ).opens = true := by
    simp [Visit.opens, hleaf]
  have hentered := hunderway.step henter (by decide)
  have hafter : Pending.after node .enter .next rest =
      node.children.map (·, .enter) ++ (node, .leave) :: rest := by
    simp [Pending.after, hleaf, Pending.expand]
  rw [hafter] at hentered
  obtain ⟨inside, hleft, hopen⟩ := hentered.descend_forest hchildren hbelow hstep
  rw [openNodes_opens hopens] at hopen
  exact ⟨inside, hleft, hopen⟩

/-- Every node that is entered is also done with, or ends the walk. -/
theorem completes (node : Node) : Completes visit root start node := by
  induction node using Node.induction with
  | step node ih =>
      intro rest history state step after hunderway hrun hstep
      cases (Node.descends_of_ok hstep hrun).2 with
      | skip henter => exact ⟨[_], hunderway.step henter (by decide), by simp [openNodes]⟩
      | leaf hleaf henter =>
          have hafter := hunderway.step henter (by decide)
          simp only [Pending.after, hleaf, if_true] at hafter
          exact ⟨[_], hafter, by simp [openNodes, hleaf]⟩
      | @container entered left _ answer hleaf henter hbelow hgo hleave hanswer =>
          obtain ⟨inside, hleft, hopen⟩ := hunderway.descend_below ih hleaf henter hbelow hgo
          refine ⟨⟨node, .leave, left, .ok answer⟩ ::
            (inside ++ [⟨node, .enter, state, .ok .next⟩]), ?_, ?_⟩
          · have hdone := hleft.step hleave hanswer
            simpa [Pending.after] using hdone
          · simp [openNodes, hopen]

/-- Entering a node starts a stretch if its children are visited and it is left. -/
theorem Underway.spans_of_container {left : σ} {answer : Step}
    (hunderway : Underway visit root start ((node, .enter) :: rest) history state)
    (hleaf : node.kind.isLeaf = false)
    (henter : (visit node .enter).runFrom state = (.ok .next, entered))
    (hbelow : (Node.descendAll visit node.children).runFrom entered = (.ok step, left))
    (hstep : step ≠ .stop) (hleave : (visit node .leave).runFrom left = (.ok answer, after))
    (hanswer : answer ≠ .stop) :
    ∃ inside, Spans (historyOf visit root start) ⟨node, .enter, state, .ok .next⟩ inside
      ⟨node, .leave, left, .ok answer⟩ history := by
  obtain ⟨inside, hleft, hopen⟩ :=
    hunderway.descend_below (fun child _ => completes child) hleaf henter hbelow hstep
  exact ⟨inside, (hleft.step hleave hanswer).suffix_historyOf, rfl, hopen⟩

/-- Entering a node starts a stretch if its children are visited and the recursion on it does not
stop. What the recursion leaves is what the visit at the end of the stretch leaves. -/
theorem exists_spans_of_enter {entered : Visit ε σ} {earlier : History ε σ}
    (hsuffix : entered :: earlier <:+ historyOf visit root start) (hopens : entered.opens = true)
    (hrun : (entered.node.descend visit).runFrom entered.before = (.ok step, after))
    (hstep : step ≠ .stop) :
    ∃ inside left answer, Spans (historyOf visit root start) entered inside left earlier ∧
      (visit left.node .leave).runFrom left.before = (.ok answer, after) := by
  obtain ⟨node, phase, before, result⟩ := entered
  obtain ⟨rfl, rfl, hleaf⟩ : phase = .enter ∧ result = .ok .next ∧ node.kind.isLeaf = false := by
    unfold Visit.opens at hopens
    split at hopens <;> simp_all
  obtain ⟨⟨rest, hunderway⟩, hanswered⟩ := makes_of_suffix hsuffix
  dsimp only at hunderway hanswered hrun
  cases (Node.descends_of_ok hstep hrun).2 with
  | skip henter =>
      rw [henter] at hanswered
      cases hanswered
  | leaf hleaf' =>
      rw [hleaf] at hleaf'
      cases hleaf'
  | container _ henter hbelow hgo hleave hanswer =>
      obtain ⟨inside, hspans⟩ :=
        hunderway.spans_of_container hleaf henter hbelow hgo hleave hanswer
      exact ⟨inside, _, _, hspans, hleave⟩

end

end Manuscript
