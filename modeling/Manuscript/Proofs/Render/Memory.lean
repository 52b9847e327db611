import Manuscript.Proofs.Render.History

/-! # What rendering remembers

Whenever a document is rendered, what the renderer remembers is told by the
visits made so far: a counter for each open list, a buffer exactly inside of a
table, and the mark of front matter only inside of a heading that carries it
(`rendering_remembers`). Nothing of it is left at the end.
-/

namespace Manuscript.Render

variable {ε σ : Type}

/-- The innermost open list, named by the number of visits before it was entered. -/
def innermostList (history : History ε σ) : Option Nat :=
  (openOf .list history).head?.map OpenNode.since

/-- How many items were entered while a list was the innermost open one. -/
def itemsOf (list : Nat) : History ε σ → Nat
  | [] => 0
  | v :: earlier =>
      itemsOf list earlier +
        if v.node.kind = .listItem ∧ v.phase = .enter ∧ innermostList earlier = some list then 1
        else 0

/-- The numbers of items of the open lists, the innermost list first. -/
def itemCounts (history : History ε σ) : List Nat :=
  (openOf .list history).map fun list => itemsOf list.since history

/-- A state agrees with the visits that led to it. -/
structure Remembers (options : Options) (history : History ε σ) (state : State) : Prop where
  counters : state.counters = itemCounts history
  tableBuffer : state.tableBuffer.isSome ↔ openOf .table history ≠ []
  oneTable : (openOf .table history).length ≤ 1
  frontMatter : state.consumingFrontMatter = true →
    ∃ heading ∈ openOf .heading history, isFrontMatter options heading.node = true

section

variable {options : Options} {history : History ε σ} {state : State}

/-- Outside of tables no table is assembled. -/
theorem Remembers.tableBuffer_eq_none (hremembers : Remembers options history state)
    (htable : openOf .table history = []) : state.tableBuffer = none := by
  simpa [htable] using hremembers.tableBuffer

/-- Outside of front matter no payload is looked for. -/
theorem Remembers.consuming_eq_false (hremembers : Remembers options history state)
    (hfront : ∀ heading ∈ openOf .heading history, isFrontMatter options heading.node = false) :
    state.consumingFrontMatter = false := by
  rw [← Bool.not_eq_true]
  intro hconsuming
  obtain ⟨heading, hmem, htrue⟩ := hremembers.frontMatter hconsuming
  rw [hfront heading hmem] at htrue
  cases htrue

end

/-! ## Counting items -/

theorem itemsOf_of_length_le {list : Nat} {history : History ε σ}
    (hlength : history.length ≤ list) : itemsOf list history = 0 := by
  induction history with
  | nil => rfl
  | cons v earlier ih =>
      simp only [List.length_cons] at hlength
      have hinner : innermostList earlier ≠ some list := by
        intro hinner
        obtain ⟨innermost, hhead, heq⟩ := Option.map_eq_some_iff.mp hinner
        have hmem := (List.mem_filter.mp (List.mem_of_mem_head? hhead)).1
        have := since_lt_of_mem hmem
        omega
      rw [itemsOf, ih (by omega)]
      simp [hinner]

section

variable {visit : Visitor ε σ} {root : Node} {start : σ} {rest : Pending}
  {history : History ε σ} {state : σ} {node : Node} {phase : Phase} {answer : Except ε Step}

theorem itemCounts_other
    (hunderway : Underway visit root start ((node, phase) :: rest) history state)
    (hlist : node.kind ≠ .list) (hitem : node.kind ≠ .listItem ∨ phase = .leave) :
    itemCounts (⟨node, phase, state, answer⟩ :: history) = itemCounts history := by
  rw [itemCounts, hunderway.openOf_other .list hlist]
  refine List.map_congr_left fun list _ => ?_
  rcases hitem with hitem | hitem <;> simp [itemsOf, hitem]

/-- A list that is entered has no item yet. -/
theorem itemCounts_enterList (hlist : node.kind = .list) :
    itemCounts (⟨node, .enter, state, .ok .next⟩ :: history) = 0 :: itemCounts history := by
  rw [itemCounts, openOf_enter .list hlist rfl, List.map_cons]
  have hfresh : itemsOf history.length history = 0 := itemsOf_of_length_le (Nat.le_refl _)
  simp [itemsOf, hlist, hfresh, itemCounts]

/-- A list that is left is no longer counted for. -/
theorem itemCounts_leaveList
    (hunderway : Underway visit root start ((node, .leave) :: rest) history state)
    (hlist : node.kind = .list) :
    itemCounts (⟨node, .leave, state, answer⟩ :: history) = (itemCounts history).tail := by
  obtain ⟨since, hopen⟩ := hunderway.openOf_leave .list hlist answer
  rw [itemCounts, itemCounts, hopen, List.map_cons, List.tail_cons]
  refine List.map_congr_left fun list _ => ?_
  simp [itemsOf]

/-- Entering an item counts it for the innermost list alone. -/
theorem itemCounts_enterItem
    (hunderway : Underway visit root start ((node, .enter) :: rest) history state)
    (hitem : node.kind = .listItem) {count : Nat} {outer : List Nat}
    (hcounts : itemCounts history = count :: outer) :
    itemCounts (⟨node, .enter, state, answer⟩ :: history) = (count + 1) :: outer := by
  have hlist : node.kind ≠ .list := by simp [hitem]
  rw [itemCounts, hunderway.openOf_other .list hlist]
  cases hopen : openOf .list history with
  | nil => simp [itemCounts, hopen] at hcounts
  | cons innermost others =>
      have hinner : innermostList history = some innermost.since := by simp [innermostList, hopen]
      simp only [itemCounts, hopen, List.map_cons, List.cons.injEq] at hcounts
      obtain ⟨hcount, houter⟩ := hcounts
      -- The outer lists were entered before the innermost one, so the item counts for none of them.
      have hpairwise := (pairwise_since history).filter (·.node.kind = .list)
      rw [← openOf, hopen, List.pairwise_cons] at hpairwise
      simp only [List.map_cons, itemsOf, hinner, hitem, true_and, if_true, hcount, ← houter]
      congr 1
      refine List.map_congr_left fun list hmem => ?_
      have := hpairwise.1 list hmem
      rw [if_neg (by simp; omega), Nat.add_zero]

end

/-! ## Along a walk -/

theorem Remembers.nil (options : Options) :
    Remembers options ([] : History ε σ) {} := by
  constructor <;> simp [itemCounts, openOf, openNodes]

section

variable {load : Loader} {options : Options} {root node : Node} {start run after : Run}
  {rest : Pending} {history : History RenderError Run} {phase : Phase}

/-- Visits of other nodes than lists, items, tables and headings leave the agreement as it is. -/
theorem Remembers.keep {answer : Except RenderError Step} {state : State}
    (hremembers : Remembers options history run.state)
    (hunderway : Underway (visitWith load options) root start ((node, phase) :: rest) history run)
    (hlist : node.kind ≠ .list) (htable : node.kind ≠ .table) (hheading : node.kind ≠ .heading)
    (hitem : node.kind ≠ .listItem ∨ phase = .leave)
    (hcounters : state.counters = run.state.counters)
    (hbuffer : state.tableBuffer.isSome = run.state.tableBuffer.isSome)
    (hconsuming : state.consumingFrontMatter = true → run.state.consumingFrontMatter = true) :
    Remembers options (⟨node, phase, run, answer⟩ :: history) state where
  counters := by
    rw [itemCounts_other hunderway hlist hitem, hcounters, hremembers.counters]
  tableBuffer := by
    rw [hunderway.openOf_other .table htable, hbuffer, hremembers.tableBuffer]
  oneTable := by
    rw [hunderway.openOf_other .table htable]
    exact hremembers.oneTable
  frontMatter h := by
    rw [hunderway.openOf_other .heading hheading]
    exact hremembers.frontMatter (hconsuming h)

/-- Entering a table keeps what is remembered in step. -/
theorem Remembers.enterTable (hremembers : Remembers options history run.state)
    (hunderway : Underway (visitWith load options) root start ((node, .enter) :: rest) history run)
    (hkind : node.kind = .table) (hbuffer : run.state.tableBuffer = none) :
    Remembers options (⟨node, .enter, run, .ok .next⟩ :: history)
      { run.state with tableBuffer := some "" } where
  counters := by
    rw [itemCounts_other hunderway (by simp [hkind]) (by simp [hkind])]
    exact hremembers.counters
  tableBuffer := by simp [openOf_enter .table hkind rfl]
  oneTable := by
    have hnone : openOf .table history = [] := by
      simpa [hbuffer] using hremembers.tableBuffer
    simp [openOf_enter .table hkind rfl, hnone]
  frontMatter h := by
    rw [hunderway.openOf_other .heading (by simp [hkind])]
    exact hremembers.frontMatter h

/-- Tables are not nested, so that no table is open once one is left. -/
theorem Remembers.openOf_leaveTable (hremembers : Remembers options history run.state)
    (hunderway : Underway (visitWith load options) root start ((node, .leave) :: rest) history run)
    (hkind : node.kind = .table) (answer : Except RenderError Step) :
    openOf .table (⟨node, .leave, run, answer⟩ :: history) = [] := by
  obtain ⟨since, hopen⟩ := hunderway.openOf_leave .table hkind answer
  have hone := hremembers.oneTable
  rw [hopen, List.length_cons] at hone
  exact List.eq_nil_of_length_eq_zero (by omega)

/-- Leaving a table keeps what is remembered in step. -/
theorem Remembers.leaveTable (hremembers : Remembers options history run.state)
    (hunderway : Underway (visitWith load options) root start ((node, .leave) :: rest) history run)
    (hkind : node.kind = .table) :
    Remembers options (⟨node, .leave, run, .ok .next⟩ :: history)
      { run.state with tableBuffer := none } := by
  have hnone := hremembers.openOf_leaveTable hunderway hkind (.ok .next)
  constructor
  · rw [itemCounts_other hunderway (by simp [hkind]) (by simp [hkind])]
    exact hremembers.counters
  · simp [hnone]
  · simp [hnone]
  · rw [hunderway.openOf_other .heading (by simp [hkind])]
    exact hremembers.frontMatter

/-- Entering or leaving a list or entering an item changes the counters alone. -/
theorem Remembers.count {answer : Except RenderError Step} {counters : List Nat}
    (hremembers : Remembers options history run.state)
    (hunderway : Underway (visitWith load options) root start ((node, phase) :: rest) history run)
    (htable : node.kind ≠ .table) (hheading : node.kind ≠ .heading)
    (hcounters : counters = itemCounts (⟨node, phase, run, answer⟩ :: history)) :
    Remembers options (⟨node, phase, run, answer⟩ :: history)
      { run.state with counters } where
  counters := hcounters
  tableBuffer := by
    rw [hunderway.openOf_other .table htable]
    exact hremembers.tableBuffer
  oneTable := by
    rw [hunderway.openOf_other .table htable]
    exact hremembers.oneTable
  frontMatter h := by
    rw [hunderway.openOf_other .heading hheading]
    exact hremembers.frontMatter h

/-- Entering or leaving a heading changes only whether the next text is front matter. -/
theorem Remembers.heading {answer : Except RenderError Step} {consuming : Bool}
    (hremembers : Remembers options history run.state)
    (hunderway : Underway (visitWith load options) root start ((node, phase) :: rest) history run)
    (hkind : node.kind = .heading)
    (hfront : consuming = true →
      ∃ heading ∈ openOf .heading (⟨node, phase, run, answer⟩ :: history),
        isFrontMatter options heading.node = true) :
    Remembers options (⟨node, phase, run, answer⟩ :: history)
      { run.state with consumingFrontMatter := consuming } where
  counters := by
    rw [itemCounts_other hunderway (by simp [hkind]) (by simp [hkind])]
    exact hremembers.counters
  tableBuffer := by
    rw [hunderway.openOf_other .table (by simp [hkind])]
    exact hremembers.tableBuffer
  oneTable := by
    rw [hunderway.openOf_other .table (by simp [hkind])]
    exact hremembers.oneTable
  frontMatter := hfront

/-- Visits preserve the agreement. -/
theorem Remembers.step {step : Step} (hremembers : Remembers options history run.state)
    (hunderway : Underway (visitWith load options) root start ((node, phase) :: rest) history run)
    (hrule : Visited load options run node phase (.ok step) after) :
    Remembers options (⟨node, phase, run, .ok step⟩ :: history) after.state := by
  cases hrule with
  | plain hplain =>
      obtain ⟨-, hlist, htable, hheading, hitem⟩ := kind_of_plainPieces hplain
      exact hremembers.keep hunderway hlist htable hheading hitem rfl rfl id
  | image hkind | emptyText hkind | writtenText hkind =>
      exact hremembers.keep hunderway (by simp [hkind]) (by simp [hkind]) (by simp [hkind])
        (by simp [hkind]) rfl rfl id
  | payload hkind =>
      exact hremembers.keep hunderway (by simp [hkind]) (by simp [hkind]) (by simp [hkind])
        (by simp [hkind]) rfl rfl (by simp)
  | bufferedText hkind _ _ hbuffer =>
      exact hremembers.keep hunderway (by simp [hkind]) (by simp [hkind]) (by simp [hkind])
        (by simp [hkind]) rfl (by simp [hbuffer]) id
  | mark hmark hbuffer =>
      rcases kind_of_tableMark hmark with ⟨hkind, -⟩ | ⟨hkind, -⟩ <;>
        exact hremembers.keep hunderway (by simp [hkind]) (by simp [hkind]) (by simp [hkind])
          (.inr rfl) rfl (by simp [hbuffer]) id
  | enterTable hkind hbuffer => exact hremembers.enterTable hunderway hkind hbuffer
  | leaveTable hkind => exact hremembers.leaveTable hunderway hkind
  | enterList hkind =>
      refine hremembers.count hunderway (by simp [hkind]) (by simp [hkind]) ?_
      rw [itemCounts_enterList hkind, hremembers.counters]
  | leaveList hkind =>
      refine hremembers.count hunderway (by simp [hkind]) (by simp [hkind]) ?_
      rw [itemCounts_leaveList hunderway hkind, hremembers.counters]
  | enterItem hkind hcounters =>
      refine hremembers.count hunderway (by simp [hkind]) (by simp [hkind]) ?_
      rw [hremembers.counters] at hcounters
      rw [itemCounts_enterItem hunderway hkind hcounters]
  | repeatedFrontMatter hkind =>
      -- The heading is passed over, so it is not opened.
      exact hremembers.heading hunderway hkind hremembers.frontMatter
  | enterFrontMatter hkind hfront =>
      refine hremembers.heading hunderway hkind fun _ => ?_
      rw [openOf_enter .heading hkind rfl]
      exact ⟨_, List.mem_cons_self, hfront⟩
  | enterSection hkind => exact hremembers.heading hunderway hkind (by simp)
  | leaveSection hkind => exact hremembers.heading hunderway hkind (by simp)
  | leaveFrontMatter hkind => exact hremembers.heading hunderway hkind (by simp)

/-- The agreement holds whenever a visit is to be made, and at the end. -/
theorem remembers_of_underway {pending : Pending}
    (hunderway : Underway (visitWith load options) root (Renderer.start options) pending history
      run) : Remembers options history run.state := by
  induction hunderway with
  | start =>
      rw [Renderer.start_state]
      exact Remembers.nil options
  | step hbefore hrun _ ih => exact ih.step hbefore (visited hrun)

end

/-- At every visit of every rendering, also of one that fails later, each open list has a counter
of the items entered while it was the innermost open list, a table is buffered exactly if one is
open, and a text is taken for front matter only in a heading that carries it. A rendering that
succeeds leaves no counter, no buffer and no such mark. -/
theorem rendering_remembers (load : Loader) (renderer : Renderer) (root : Node) :
    (∀ v earlier, v :: earlier <:+ renderer.historyWith load root →
      Remembers renderer.options earlier v.before.state) ∧
    ((renderer.renderWith load root).result = .ok () →
      let final := (renderer.renderWith load root).renderer.state
      final.counters = [] ∧ final.tableBuffer = none ∧ final.consumingFrontMatter = false) := by
  constructor
  · intro v earlier hsuffix
    obtain ⟨rest, hunderway⟩ := (makes_of_suffix hsuffix).underway
    exact remembers_of_underway hunderway
  · intro hresult
    obtain ⟨final, hwalk, hstate⟩ := Renderer.walk_of_renderWith_ok hresult
    have hdone := underway_historyOf hwalk
    have hopen := hdone.open_of_done
    have hremembers := remembers_of_underway hdone
    have hnone : ∀ kind, openOf kind (historyOf (visitWith load renderer.options) root
        (Renderer.start renderer.options)) = [] := by
      intro kind
      rw [openOf, hopen, List.filter_nil]
    simp only [hstate]
    refine ⟨?_, ?_, ?_⟩
    · rw [hremembers.counters, itemCounts, hnone, List.map_nil]
    · simpa [hnone] using hremembers.tableBuffer
    · simpa [hnone] using hremembers.frontMatter

/-- The second item of a list holds a list, and its only item a table with a row and a break. -/
def brokenTable : Node where
  kind := .list
  children := [
    { kind := .listItem },
    { kind := .listItem
      children := [
        { kind := .list
          children := [
            { kind := .listItem
              children := [
                { kind := .table
                  children := [
                    { kind := .tableRow, children := [{ kind := .tableCell }] },
                    { kind := .thematicBreak }] }] }] }] }]

/-- Breaks cannot be rendered, so that the first of these renderings fails with two lists and a
table open; the second comes to its end. -/
theorem rendering_remembers_until_break :
    (∃ v earlier, v :: earlier <:+ Renderer.historyWith FrontMatter.load {} brokenTable ∧
      v.node.kind = .thematicBreak ∧ v.before.state.counters = [1, 2] ∧
      v.before.state.tableBuffer = some "\t\n" ∧ Remembers {} earlier v.before.state) ∧
    (Renderer.renderWith FrontMatter.load {} { kind := .list }).result = .ok () ∧
    (Renderer.renderWith FrontMatter.load {} { kind := .list }).renderer.state.counters = [] := by
  have hresult : (Renderer.renderWith FrontMatter.load {} { kind := .list }).result = .ok () := by
    rw [Renderer.renderWith, Renderer.document, walk_eq_descend]
    rfl
  refine ⟨?_, hresult, ((rendering_remembers FrontMatter.load {} { kind := .list }).2 hresult).1⟩
  cases hhistory : Renderer.historyWith FrontMatter.load {} brokenTable with
  | nil =>
      rw [Renderer.historyWith, historyOf_eq_descend] at hhistory
      cases hhistory
  | cons v earlier =>
      have hsuffix : v :: earlier <:+ Renderer.historyWith FrontMatter.load {} brokenTable :=
        hhistory ▸ List.suffix_rfl
      have hremembers := (rendering_remembers FrontMatter.load {} brokenTable).1 v earlier hsuffix
      rw [Renderer.historyWith, historyOf_eq_descend] at hhistory
      cases hhistory
      exact ⟨_, _, List.suffix_rfl, by decide, by decide, by decide, hremembers⟩

end Manuscript.Render
