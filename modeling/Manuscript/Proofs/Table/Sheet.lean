import Manuscript.Table.InPlace

/-! # Lines written into a sheet

What the parts of a layout in place do if they find what they ask for (`Yields`).
Rows that have no cell behind the columns of the stack are written one after
another with its widths (`yields_writeLines`), and a block is measured up to the
first row that has no cell in its column (`yields_measureBlock`).
-/

namespace Manuscript.Table

/-! ## Parts that come to their end -/

/-- A part of a layout comes to its end without a failure. -/
def Yields {α : Type} (part : Layouter α) (before : Progress) (value : α) (after : Progress) :
    Prop :=
  part.run.run before = some (.ok value, after)

section Yields

variable {α β : Type} {part : Layouter α} {before middle after : Progress} {value : α}

theorem Yields.bind {next : α → Layouter β} {result : β}
    (hpart : Yields part before value middle) (hnext : Yields (next value) middle result after) :
    Yields (part >>= next) before result after := by
  unfold Yields at hpart hnext ⊢
  simp only [ExceptT.run_bind, StateT.run_bind, hpart]
  exact hnext

theorem yields_pure (value : α) (progress : Progress) :
    Yields (pure value) progress value progress :=
  rfl

theorem yields_get (progress : Progress) : Yields get progress progress progress :=
  rfl

theorem yields_modify (next : Progress → Progress) (progress : Progress) :
    Yields (modify next) progress () (next progress) :=
  rfl

theorem yields_found {asked : Option α} (hasked : asked = some value) (missing : Missing)
    (progress : Progress) : Yields (found missing asked) progress value progress := by
  rw [hasked]
  rfl

theorem yields_change {next : Sheet → Option Sheet} {sheet : Sheet} {progress : Progress}
    (hnext : next progress.sheet = some sheet) (missing : Missing) :
    Yields (change missing next) progress () { progress with sheet } :=
  (yields_get progress).bind ((yields_found hnext missing progress).bind (yields_modify _ _))

end Yields

/-- A part of a layout does what another part does, unless it runs out of steps. -/
def Agrees {α : Type} (part other : Layouter α) : Prop :=
  ∀ before, part.run.run before = none ∨ other.run.run before = part.run.run before

section Agrees

variable {α β : Type} {part other : Layouter α}

theorem Agrees.refl (part : Layouter α) : Agrees part part := fun _ => .inr rfl

theorem agrees_outOfSteps (other : Layouter Unit) : Agrees outOfSteps other := fun _ => .inl rfl

theorem Agrees.bind {next otherNext : α → Layouter β} (hpart : Agrees part other)
    (hnext : ∀ value, Agrees (next value) (otherNext value)) :
    Agrees (part >>= next) (other >>= otherNext) := by
  intro before
  simp only [ExceptT.run_bind, StateT.run_bind]
  rcases hpart before with hnone | hsame
  · left
    rw [hnone]
    rfl
  · rw [hsame]
    rcases part.run.run before with _ | ⟨_ | value, after⟩
    · exact .inl rfl
    · exact .inr rfl
    · exact hnext value after

theorem Agrees.yields (hpart : Agrees part other) {before after : Progress} {value : α}
    (hyields : Yields part before value after) : Yields other before value after := by
  unfold Yields at hyields ⊢
  rcases hpart before with hnone | hsame
  · rw [hyields] at hnone
    contradiction
  · rw [hsame, hyields]

end Agrees

/-! ## Sheets -/

/-- Lines are written one after another, the first one at a given place. -/
def Sheet.fill (sheet : Sheet) (start : Nat) (block : List (List Char)) : Sheet :=
  { sheet with
    lines := sheet.lines.take start ++ block ++ sheet.lines.drop (start + block.length)
    written := sheet.written ++ List.range' start block.length }

namespace Sheet

variable {sheet : Sheet} {start : Nat}

@[simp] theorem widths_fill (sheet : Sheet) (start : Nat) (block : List (List Char)) :
    (sheet.fill start block).widths = sheet.widths := rfl

theorem written_fill (sheet : Sheet) (start : Nat) (block : List (List Char)) :
    (sheet.fill start block).written = sheet.written ++ List.range' start block.length := rfl

@[simp] theorem fill_nil (sheet : Sheet) (start : Nat) : sheet.fill start [] = sheet := by
  simp [fill]

theorem length_lines_fill {block : List (List Char)}
    (hblock : start + block.length ≤ sheet.lines.length) :
    (sheet.fill start block).lines.length = sheet.lines.length := by
  simp only [fill, List.length_append, List.length_take, List.length_drop]
  omega

/-- Lines that follow one another can be written in two parts. -/
theorem fill_append (hstart : start ≤ sheet.lines.length) (first second : List (List Char)) :
    (sheet.fill start first).fill (start + first.length) second =
      sheet.fill start (first ++ second) := by
  have hfront : (sheet.lines.take start).length = start := List.length_take_of_le hstart
  have hdone : (sheet.lines.take start ++ first).length = start + first.length := by
    rw [List.length_append, hfront]
  simp only [fill, mk.injEq, true_and]
  constructor
  · rw [← hdone, List.take_left, List.drop_length_add_append, List.drop_drop, hdone,
      List.length_append]
    simp only [List.append_assoc, Nat.add_assoc]
  · rw [List.append_assoc, List.range'_append_1, List.length_append]

theorem write?_eq_fill {place : Nat} (hplace : place < sheet.lines.length) (line : List Char) :
    sheet.write? place line = some (sheet.fill place [line]) := by
  rw [write?, if_pos hplace, List.set_eq_take_append_cons_drop, if_pos hplace]
  simp [fill]

/-- What stands at other places is kept. -/
theorem getElem?_fill_of_outside {block : List (List Char)} {place : Nat}
    (hstart : start ≤ sheet.lines.length)
    (hplace : place < start ∨ start + block.length ≤ place) :
    (sheet.fill start block).lines[place]? = sheet.lines[place]? := by
  have hfront : (sheet.lines.take start).length = start := List.length_take_of_le hstart
  rcases hplace with hbefore | hbehind
  · rw [fill, List.append_assoc, List.getElem?_append_left (by omega),
      List.getElem?_take_of_lt hbefore]
  · rw [fill, List.getElem?_append_right (by rw [List.length_append]; omega), List.getElem?_drop,
      List.length_append, hfront, Nat.add_sub_cancel' hbehind]

@[simp] theorem pop?_push (sheet : Sheet) (width : Nat) : (sheet.push width).pop? = some sheet := by
  simp [pop?, push]

end Sheet

/-! ## Blocks of rows -/

/-- A list has these elements, one after another, from a place on. -/
def StandsAt {α : Type} (xs : List α) (start : Nat) (block : List α) : Prop :=
  ∃ front back, xs = front ++ block ++ back ∧ front.length = start

namespace StandsAt

variable {α : Type} {xs first second : List α} {start : Nat} {x : α}

theorem whole (xs : List α) : StandsAt xs 0 xs := ⟨[], [], by simp, rfl⟩

theorem left (hblock : StandsAt xs start (first ++ second)) : StandsAt xs start first := by
  obtain ⟨front, back, rfl, hfront⟩ := hblock
  exact ⟨front, second ++ back, by simp, hfront⟩

theorem right (hblock : StandsAt xs start (first ++ second)) :
    StandsAt xs (start + first.length) second := by
  obtain ⟨front, back, rfl, rfl⟩ := hblock
  exact ⟨front ++ first, back, by simp, List.length_append⟩

theorem tail (hblock : StandsAt xs start (x :: first)) : StandsAt xs (start + 1) first := by
  rw [← List.singleton_append] at hblock
  exact hblock.right

theorem le_length (hblock : StandsAt xs start first) : start + first.length ≤ xs.length := by
  obtain ⟨front, back, rfl, rfl⟩ := hblock
  simp only [List.length_append]
  omega

theorem getElem? (hblock : StandsAt xs start first) {place : Nat} (hstart : start ≤ place)
    (hstop : place < start + first.length) : xs[place]? = first[place - start]? := by
  obtain ⟨front, back, rfl, rfl⟩ := hblock
  rw [List.append_assoc, List.getElem?_append_right hstart, List.getElem?_append_left (by omega)]

theorem getElem?_head (hblock : StandsAt xs start (x :: first)) : xs[start]? = some x := by
  rw [hblock.getElem? (Nat.le_refl _) (by simp), Nat.sub_self, List.getElem?_cons_zero]

end StandsAt

/-- The parts of a row between its tabs. -/
def Row.parts (row : Row) : List (List Char) := row.cells ++ [row.rest]

theorem Row.parts_ofLine (line : List Char) :
    (Row.ofLine line).parts = Text.splitBy (· == '\t') line := by
  have hne := Text.splitBy_ne_nil (· == '\t') line
  rw [Row.parts, Row.ofLine, List.getLastD_eq_getLast?, List.getLast?_eq_some_getLast hne]
  exact List.dropLast_concat_getLast hne

@[simp] theorem Row.dropLast_parts (row : Row) : row.parts.dropLast = row.cells := by
  simp [parts]

@[simp] theorem Row.length_parts (row : Row) : row.parts.length = row.cells.length + 1 := by
  simp [parts]

/-- The parts of the rows of a table. -/
def partsOf (rows : List Row) : List (List (List Char)) := rows.map Row.parts

theorem getElem?_partsOf {rows : List Row} {place : Nat} {row : Row}
    (hrow : rows[place]? = some row) : (partsOf rows)[place]? = some row.parts := by
  rw [partsOf, List.getElem?_map, hrow, Option.map_some]

/-! ## Written lines -/

section

variable {rows block : List Row} {row : Row} {start column : Nat} {progress : Progress}

/-- Cells that have widths on the stack are widened to them. -/
theorem yields_widenCells {cells : List (List Char)}
    (hcells : column + cells.length ≤ progress.sheet.widths.length) :
    Yields (widenCells column cells) progress
      (List.zipWith widen (progress.sheet.widths.drop column) cells).flatten progress := by
  induction cells generalizing column with
  | nil =>
      rw [List.zipWith_nil_right, widenCells]
      exact yields_pure _ _
  | cons cell cells ih =>
      rw [List.length_cons] at hcells
      have hcolumn : column < progress.sheet.widths.length := by omega
      rw [List.drop_eq_getElem_cons hcolumn, List.zipWith_cons_cons, List.flatten_cons, widenCells]
      apply (yields_get progress).bind
      apply (yields_found (List.getElem?_eq_getElem hcolumn) _ _).bind
      exact (ih (by omega)).bind (yields_pure _ _)

theorem yields_writeLine {place : Nat} (hrow : rows[place]? = some row)
    (hcells : row.cells.length ≤ progress.sheet.widths.length)
    (hplace : place < progress.sheet.lines.length) :
    Yields (writeLine (partsOf rows) place) progress ()
      { progress with sheet := progress.sheet.fill place [row.write progress.sheet.widths] } := by
  have hrest : row.parts.getLast? = some row.rest := List.getLast?_concat
  have hwidths : 0 + row.parts.dropLast.length ≤ progress.sheet.widths.length := by
    rwa [Row.dropLast_parts, Nat.zero_add]
  rw [writeLine]
  apply (yields_found (getElem?_partsOf hrow) _ _).bind
  apply (yields_widenCells hwidths).bind
  apply (yields_found hrest _ _).bind
  rw [Row.dropLast_parts]
  exact yields_change (Sheet.write?_eq_fill hplace _) _

/-- Rows that have no cell behind the columns of the stack are written with its widths. -/
theorem yields_writeLines (hblock : StandsAt rows start block)
    (hcells : ∀ row ∈ block, row.cells.length ≤ progress.sheet.widths.length)
    (hlines : progress.sheet.lines.length = rows.length) :
    Yields (writeLines (partsOf rows) start (start + block.length)) progress ()
      { progress with
        sheet := progress.sheet.fill start (block.map (Row.write progress.sheet.widths)) } := by
  rw [writeLines, Nat.add_sub_cancel_left]
  induction block generalizing start progress with
  | nil =>
      rw [List.map_nil, Sheet.fill_nil]
      exact yields_pure _ _
  | cons row rest ih =>
      obtain ⟨hrow, hrest⟩ := List.forall_mem_cons.mp hcells
      have hle := hblock.le_length
      rw [List.length_cons] at hle
      have hstart : start < progress.sheet.lines.length := by omega
      have hfilled : (progress.sheet.fill start [row.write progress.sheet.widths]).lines.length =
          rows.length := by
        rw [Sheet.length_lines_fill hstart, hlines]
      rw [List.length_cons, List.range'_succ, List.forM_cons, List.map_cons,
        ← List.singleton_append, ← Sheet.fill_append (Nat.le_of_lt hstart)]
      apply (yields_writeLine hblock.getElem?_head hrow hstart).bind
      exact ih hblock.tail hrest hfilled

/-! ## Measured blocks -/

/-- The width of a column over a block of rows, but at least a given one. -/
def widthOver (padding : Int) (column width : Nat) (block : List Row) : Nat :=
  block.foldl
    (fun width row => max width ((((row.cells.getD column []).length : Int) + padding).toNat)) width

/-- Going on from a row passes the rows up to the first one that has no cell in the column. -/
theorem yields_measureBlock (padding : Int) (column width : Nat) (progress : Progress)
    {stop : Nat} (hblock : StandsAt rows start block) (hstop : stop = start + block.length) :
    let run := block.takeWhile (Row.reaches column)
    Yields (measureBlock padding (partsOf rows) column stop start width) progress
      (widthOver padding column width run, start + run.length) progress := by
  induction block generalizing start width with
  | nil =>
      rw [measureBlock, if_neg (by simp [hstop])]
      exact yields_pure _ _
  | cons row rest ih =>
      rw [List.length_cons] at hstop
      rw [measureBlock, if_pos (by omega)]
      apply (yields_found (getElem?_partsOf hblock.getElem?_head) _ _).bind
      rw [Row.length_parts, Nat.add_sub_cancel, List.takeWhile_cons]
      cases hreaches : row.reaches column with
      | false =>
          have hcells : ¬ column < row.cells.length := by simpa [Row.reaches] using hreaches
          rw [if_neg hcells]
          exact yields_pure _ _
      | true =>
          have hcells : column < row.cells.length := by simpa [Row.reaches] using hreaches
          have hcell : row.parts[column]? = some (row.cells.getD column []) := by
            rw [Row.parts, List.getElem?_append_left hcells, List.getElem?_eq_getElem hcells,
              List.getD_eq_getElem?_getD, List.getElem?_eq_getElem hcells, Option.getD_some]
          have hplace (run : List Row) : start + (row :: run).length = start + 1 + run.length := by
            rw [List.length_cons]
            omega
          rw [if_pos hcells]
          apply (yields_found hcell _ _).bind
          rw [if_pos rfl, hplace]
          exact ih _ hblock.tail (by omega)

end

end Manuscript.Table
