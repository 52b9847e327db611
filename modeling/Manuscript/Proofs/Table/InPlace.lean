import Mathlib.Data.List.TakeWhile
import Manuscript.Proofs.Table.Lines
import Manuscript.Proofs.Table.Sheet

/-! # Laying out in place

A layout in place comes to its end and finds everything that it asks for. Each
layout of some rows that it makes on the way finds rows with cells in all columns
of the stack, writes each of their lines once and no other line, and leaves the
stack as it was (`Call.Orderly`). What it writes is the layout of the rows, so an
alignment in place is the alignment of the text (`layOutBlock_orderly`). Two steps
for each cell and each rest are enough (`writes_layOutFrom`), and steps that are
left over change nothing (`Yields.more_steps`).
-/

namespace Manuscript.Table

section

variable {rows block : List Row} {row : Row} {start : Nat}

/-! ## Layouts -/

/-- What the layout of some rows of a table finds and leaves: each row has a cell in every column of
the stack, the stack is left as it was found, and the lines of the rows, and no others, are written
once and in order. -/
structure Call.Orderly (rows : List Row) (call : Call) : Prop where
  start_le_stop : call.start ≤ call.stop
  stop_le_length : call.stop ≤ rows.length
  cells : ∀ place row, call.start ≤ place → place < call.stop → rows[place]? = some row →
    call.before.widths.length ≤ row.cells.length
  widths : call.after.widths = call.before.widths
  written : call.after.written =
    call.before.written ++ List.range' call.start (call.stop - call.start)
  outside : ∀ place, place < call.start ∨ call.stop ≤ place →
    call.after.lines[place]? = call.before.lines[place]?

theorem Call.orderly_of_fill (sheet : Sheet) {lines : List (List Char)}
    (hblock : StandsAt rows start block)
    (hcells : ∀ row ∈ block, sheet.widths.length ≤ row.cells.length)
    (hlines : lines.length = block.length) (hsheet : sheet.lines.length = rows.length) :
    (Call.mk start (start + block.length) sheet (sheet.fill start lines)).Orderly rows := by
  have hle := hblock.le_length
  constructor
  case start_le_stop => exact Nat.le_add_right _ _
  case stop_le_length => exact hle
  case cells =>
      intro place row hstart hstop hrow
      rw [hblock.getElem? hstart hstop] at hrow
      exact hcells row (List.mem_of_getElem? hrow)
  case widths => rfl
  case written => rw [Sheet.written_fill, hlines, Nat.add_sub_cancel_left]
  case outside =>
      intro place hplace
      exact Sheet.getElem?_fill_of_outside (by omega) (by rwa [hlines])

/-- A part of a layout that finds some widths on the stack leaves them there. It writes lines one
after another from a place on, and the layouts that it begins come to their end and are orderly. -/
def Writes (rows : List Row) (widths : List Nat) (part : Layouter Unit) (start : Nat)
    (lines : List (List Char)) : Prop :=
  ∀ sheet begun calls, sheet.widths = widths → sheet.lines.length = rows.length →
    ∃ made, Yields part ⟨sheet, begun, calls⟩ ()
        ⟨sheet.fill start lines, begun + made.length, calls ++ made⟩ ∧
      ∀ call ∈ made, call.Orderly rows

namespace Writes

variable {α : Type} {widths : List Nat} {part rest : Layouter Unit}
  {first second : List (List Char)}

/-- What only looks something up comes before. -/
theorem after_reading {reading : Layouter α} {next : α → Layouter Unit} {value : α}
    (hreading : ∀ progress, Yields reading progress value progress)
    (hnext : Writes rows widths (next value) start first) :
    Writes rows widths (reading >>= next) start first := by
  intro sheet begun calls hwidths hsheet
  obtain ⟨made, hyields, horderly⟩ := hnext sheet begun calls hwidths hsheet
  exact ⟨made, (hreading _).bind hyields, horderly⟩

theorem andThen (hpart : Writes rows widths part start first)
    (hrest : Writes rows widths rest (start + first.length) second)
    (hfirst : start + first.length ≤ rows.length) :
    Writes rows widths (part >>= fun _ => rest) start (first ++ second) := by
  intro sheet begun calls hwidths hsheet
  obtain ⟨made, hyields, horderly⟩ := hpart sheet begun calls hwidths hsheet
  have hfits : start + first.length ≤ sheet.lines.length := by omega
  have hlength := Sheet.length_lines_fill hfits
  obtain ⟨madeThen, hyieldsThen, horderlyThen⟩ :=
    hrest (sheet.fill start first) (begun + made.length) (calls ++ made) hwidths
      (hlength.trans hsheet)
  refine ⟨made ++ madeThen, ?_, List.forall_mem_append.mpr ⟨horderly, horderlyThen⟩⟩
  rw [← Sheet.fill_append (by omega), List.length_append, ← Nat.add_assoc, ← List.append_assoc]
  exact hyields.bind hyieldsThen

/-- A part that finds one more width on the stack is put between a push and a pop. -/
theorem within {width : Nat} (hpart : Writes rows (widths ++ [width]) part start first) :
    Writes rows widths (do
      modify fun progress => { progress with sheet := progress.sheet.push width }
      part
      change .top Sheet.pop?) start first := by
  intro sheet begun calls hwidths hsheet
  subst hwidths
  obtain ⟨made, hyields, horderly⟩ := hpart (sheet.push width) begun calls rfl hsheet
  -- Writing lines leaves the stack alone, so the width that was pushed is the one that is popped.
  have hpop : ((sheet.push width).fill start first).pop? = some (sheet.fill start first) :=
    Sheet.pop?_push (sheet.fill start first) width
  exact ⟨made, (yields_modify _ _).bind (hyields.bind (yields_change hpop _)), horderly⟩

end Writes

theorem writes_writeLines {widths : List Nat} {stop : Nat} (hblock : StandsAt rows start block)
    (hcells : ∀ row ∈ block, row.cells.length ≤ widths.length)
    (hstop : stop = start + block.length) :
    Writes rows widths (writeLines (partsOf rows) start stop) start
      (block.map (Row.write widths)) := by
  intro sheet begun calls hwidths hsheet
  subst hwidths hstop
  refine ⟨[], ?_, List.forall_mem_nil _⟩
  rw [List.append_nil]
  exact yields_writeLines hblock hcells hsheet

/-- A layout is what it goes on to from its first row. -/
theorem yields_layOutBlock {padding : Int} {table : List (List (List Char))} {steps stop : Nat}
    {before after : Sheet} {begun ended : Nat} {calls made : List Call}
    (hfrom : Yields (layOutFrom padding table steps before.widths.length stop start start)
      ⟨before, begun + 1, calls⟩ () ⟨after, ended, made⟩) :
    Yields (layOutBlock padding table (steps + 1) start stop) ⟨before, begun, calls⟩ ()
      ⟨after, ended, made ++ [⟨start, stop, before, after⟩]⟩ := by
  rw [layOutBlock]
  apply (yields_get _).bind
  apply (yields_modify _ _).bind
  exact hfrom.bind (yields_modify _ _)

theorem writes_layOutBlock {padding : Int} {widths : List Nat} {lines : List (List Char)}
    {steps stop : Nat} (hblock : StandsAt rows start block) (hstop : stop = start + block.length)
    (hcells : ∀ row ∈ block, widths.length ≤ row.cells.length)
    (hlines : lines.length = block.length)
    (hfrom : Writes rows widths
      (layOutFrom padding (partsOf rows) steps widths.length stop start start) start lines) :
    Writes rows widths (layOutBlock padding (partsOf rows) (steps + 1) start stop) start lines := by
  intro sheet begun calls hwidths hsheet
  obtain ⟨made, hyields, horderly⟩ := hfrom sheet (begun + 1) calls hwidths hsheet
  subst hwidths hstop
  have hcall := Call.orderly_of_fill sheet hblock hcells hlines hsheet
  refine ⟨made ++ [_], ?_,
    List.forall_mem_append.mpr ⟨horderly, List.forall_mem_singleton.mpr hcall⟩⟩
  rw [← List.append_assoc, List.length_append, List.length_singleton, ← Nat.add_assoc,
    Nat.add_right_comm]
  exact yields_layOutBlock hyields

/-! ## Steps of a layout -/

section Steps

variable {padding : Int} {widths : List Nat} {pending run after : List Row}
  {steps stop current : Nat} {lines others : List (List Char)}

/-- At the end the pending rows are written. -/
theorem writes_layOutFrom_end (hpending : StandsAt rows start pending)
    (hdone : ∀ row ∈ pending, row.cells.length ≤ widths.length)
    (hstop : stop = start + pending.length) :
    Writes rows widths (layOutFrom padding (partsOf rows) (steps + 1) widths.length stop start stop)
      start (pending.map (Row.write widths)) := by
  rw [layOutFrom, if_neg (Nat.lt_irrefl _)]
  exact writes_writeLines hpending hdone hstop

/-- A row without a cell in the next column is passed. -/
theorem writes_layOutFrom_pass (hcurrent : current < stop) (hrow : rows[current]? = some row)
    (hcells : row.cells.length ≤ widths.length)
    (hnext : Writes rows widths
      (layOutFrom padding (partsOf rows) steps widths.length stop start (current + 1)) start
      lines) :
    Writes rows widths
      (layOutFrom padding (partsOf rows) (steps + 1) widths.length stop start current) start
      lines := by
  rw [layOutFrom, if_pos hcurrent]
  apply Writes.after_reading fun progress => yields_found (getElem?_partsOf hrow) _ progress
  rwa [Row.length_parts, Nat.add_sub_cancel, if_pos hcells]

/-- At a row with a cell in the next column the pending rows are written, the block that starts
there is laid out with its width on the stack, and the layout goes on behind it. -/
theorem writes_layOutFrom_block (hpending : StandsAt rows start pending)
    (hdone : ∀ row ∈ pending, row.cells.length ≤ widths.length)
    (hcurrent : current = start + pending.length)
    (hblock : StandsAt rows current (row :: run ++ after))
    (hrun : (row :: run ++ after).takeWhile (Row.reaches widths.length) = row :: run)
    (hstop : stop = current + (row :: run ++ after).length)
    (hlines : lines.length = (row :: run).length)
    (hinside : Writes rows (widths ++ [columnWidth padding widths.length (row :: run)])
      (layOutFrom padding (partsOf rows) steps (widths.length + 1) (current + (row :: run).length)
        current current) current lines)
    (hafter : Writes rows widths
      (layOutFrom padding (partsOf rows) (steps + 1) widths.length stop
        (current + (row :: run).length) (current + (row :: run).length))
      (current + (row :: run).length) others) :
    Writes rows widths
      (layOutFrom padding (partsOf rows) (steps + 2) widths.length stop start current) start
      (pending.map (Row.write widths) ++ (lines ++ others)) := by
  have hcells : ∀ other ∈ row :: run, widths.length < other.cells.length := by
    intro other hmem
    rw [← hrun] at hmem
    simpa [Row.reaches] using List.mem_takeWhile_imp hmem
  have hfirst : widths.length < row.cells.length := hcells row List.mem_cons_self
  have hrow : rows[current]? = some row := hblock.left.getElem?_head
  have hfits := hblock.left.le_length
  have hmeasured (progress : Progress) :
      Yields (measureBlock padding (partsOf rows) widths.length stop current 0) progress
        (columnWidth padding widths.length (row :: run), current + (row :: run).length)
        progress := by
    have hyields := yields_measureBlock padding widths.length 0 progress hblock hstop
    rwa [hrun] at hyields
  have hlaid : Writes rows (widths ++ [columnWidth padding widths.length (row :: run)])
      (layOutBlock padding (partsOf rows) (steps + 1) current (current + (row :: run).length))
      current lines := by
    apply writes_layOutBlock hblock.left rfl _ hlines
    · rwa [List.length_append, List.length_singleton]
    · intro other hmem
      rw [List.length_append, List.length_singleton]
      exact hcells other hmem
  -- The push, the block and the pop are one part, and what follows them is the other.
  rw [← hlines] at hfits
  have hthen := hlaid.within.andThen (by rwa [hlines]) hfits
  have hplace : start + (pending.map (Row.write widths)).length = current := by
    rw [List.length_map, hcurrent]
  rw [layOutFrom, if_pos (by simp [hstop])]
  apply Writes.after_reading fun progress => yields_found (getElem?_partsOf hrow) _ progress
  rw [Row.length_parts, Nat.add_sub_cancel, if_neg (Nat.not_le_of_lt hfirst)]
  apply Writes.andThen (writes_writeLines hpending hdone hcurrent)
  · rw [hplace]
    apply Writes.after_reading hmeasured
    simpa only [bind_assoc] using hthen
  · omega

end Steps

theorem cellsFrom_succ_lt {column : Nat} (hrow : column < row.cells.length) (rest : List Row) :
    cellsFrom (column + 1) (row :: rest) < cellsFrom column (row :: rest) := by
  have hle := cellsFrom_succ_le column rest
  simp only [cellsFrom]
  omega

/-- From any row on, a layout writes the rows that are pending and lays out the others, with two
steps for each of their cells and rests from the next column on. The induction is that of `layOut`:
a block of the next column is laid out with one more width, and the rows after it with the same
widths again. -/
theorem writes_layOutFrom (padding : Int) (widths : List Nat) (pending : List Row)
    {steps stop current : Nat} (hsteps : 2 * cellsFrom widths.length block < steps)
    (hblock : StandsAt rows start (pending ++ block))
    (hdone : ∀ row ∈ pending, row.cells.length ≤ widths.length)
    (hcurrent : current = start + pending.length) (hstop : stop = current + block.length) :
    Writes rows widths (layOutFrom padding (partsOf rows) steps widths.length stop start current)
      start (pending.map (Row.write widths) ++ layOut padding widths block) := by
  fun_induction layOut padding widths block generalizing start pending steps stop current with
  | case1 widths =>
      obtain ⟨steps, rfl⟩ := Nat.exists_eq_add_of_le' (Nat.one_le_of_lt hsteps)
      rw [List.append_nil] at hblock ⊢
      rw [List.length_nil, Nat.add_zero] at hstop
      rw [← hstop]
      exact writes_layOutFrom_end hblock hdone (hstop.trans hcurrent)
  | case2 widths row rest hreaches run after =>
      rename_i ihrun ihafter
      have hrest : row :: rest = row :: run ++ after := by
        rw [List.cons_append, List.takeWhile_append_dropWhile]
      have hrun : (row :: run ++ after).takeWhile (Row.reaches widths.length) = row :: run := by
        rw [← hrest, List.takeWhile_cons_of_pos hreaches]
      have hblocks : StandsAt rows current (row :: run ++ after) := by
        rw [hcurrent, ← hrest]
        exact hblock.right
      have hfewer : cellsFrom (widths.length + 1) (row :: run) <
          cellsFrom widths.length (row :: run) :=
        cellsFrom_succ_lt (by simpa [Row.reaches] using hreaches) run
      rw [hrest, cellsFrom_append] at hsteps
      rw [hrest] at hstop
      obtain ⟨steps, rfl⟩ : ∃ fewer, steps = fewer + 2 :=
        Nat.exists_eq_add_of_le' (by omega)
      -- No row is pending where a block is begun, nor where the layout goes on behind it.
      apply writes_layOutFrom_block hblock.left hdone hcurrent hblocks hrun hstop
      · exact length_layOut _ _ _
      · have hsteps' :
            2 * cellsFrom (widths ++ [columnWidth padding widths.length (row :: run)]).length
              (row :: run) < steps := by
          rw [List.length_append, List.length_singleton]
          omega
        have hinside := ihrun [] hsteps' hblocks.left (List.forall_mem_nil _) rfl rfl
        rwa [List.length_append] at hinside
      · have hstop' : stop = current + (row :: run).length + after.length := by
          rw [hstop, List.length_append, Nat.add_assoc]
        exact ihafter [] (by omega) hblocks.right (List.forall_mem_nil _) rfl hstop'
  | case3 widths row rest hreaches ih =>
      have hcells : row.cells.length ≤ widths.length := by simpa [Row.reaches] using hreaches
      have hdone' : ∀ other ∈ pending ++ [row], other.cells.length ≤ widths.length :=
        List.forall_mem_append.mpr ⟨hdone, List.forall_mem_singleton.mpr hcells⟩
      have hcurrent' : current + 1 = start + (pending ++ [row]).length := by
        rw [List.length_append, hcurrent, Nat.add_assoc, List.length_singleton]
      have hstop' : stop = current + 1 + rest.length := by
        rw [hstop, List.length_cons]
        omega
      rw [cellsFrom] at hsteps
      obtain ⟨steps, rfl⟩ := Nat.exists_eq_add_of_le' (Nat.one_le_of_lt hsteps)
      have hsteps' : 2 * cellsFrom widths.length rest < steps := by omega
      have hnext := ih (pending ++ [row]) hsteps' (by simpa using hblock) hdone' hcurrent' hstop'
      have hrow : rows[current]? = some row := hcurrent ▸ hblock.right.getElem?_head
      apply writes_layOutFrom_pass (by omega) hrow hcells
      simpa using hnext

end

/-! ## Steps that are left over -/

/-- Another step changes nothing but a layout that ran out of steps. -/
theorem agrees_layOut_succ (padding : Int) (table : List (List (List Char))) (steps : Nat) :
    (∀ start stop, Agrees (layOutBlock padding table steps start stop)
      (layOutBlock padding table (steps + 1) start stop)) ∧
    ∀ column stop start current, Agrees (layOutFrom padding table steps column stop start current)
      (layOutFrom padding table (steps + 1) column stop start current) := by
  induction steps with
  | zero =>
      constructor
      · intro start stop
        rw [layOutBlock]
        exact agrees_outOfSteps _
      · intro column stop start current
        rw [layOutFrom]
        exact agrees_outOfSteps _
  | succ steps ih =>
      -- Only the layouts that are called with a step less can tell the two sides apart.
      obtain ⟨hblock, hfrom⟩ := ih
      constructor
      · intro start stop
        rw [layOutBlock, layOutBlock]
        apply (Agrees.refl get).bind
        intro progress
        apply (Agrees.refl (modify _)).bind
        intro _
        exact (hfrom _ _ _ _).bind fun _ => Agrees.refl _
      · intro column stop start current
        rw [layOutFrom, layOutFrom]
        split
        next =>
          apply (Agrees.refl (found _ _)).bind
          intro parts
          split
          next => exact hfrom _ _ _ _
          next =>
            apply (Agrees.refl (writeLines _ _ _)).bind
            intro _
            apply (Agrees.refl (measureBlock _ _ _ _ _ _)).bind
            rintro ⟨width, next⟩
            apply (Agrees.refl (modify _)).bind
            intro _
            apply (hblock _ _).bind
            intro _
            apply (Agrees.refl (change _ _)).bind
            intro _
            exact hfrom _ _ _ _
        next => exact Agrees.refl _

theorem Yields.more_steps {padding : Int} {table : List (List (List Char))}
    {steps start stop : Nat} {before after : Progress}
    (hyields : Yields (layOutBlock padding table steps start stop) before () after) (more : Nat) :
    Yields (layOutBlock padding table (steps + more) start stop) before () after := by
  induction more with
  | zero => exact hyields
  | succ more ih => exact ((agrees_layOut_succ padding table (steps + more)).1 start stop).yields ih

/-! ## Layouts from the start -/

/-- The parts of a text are its lines, cut at tabs. -/
theorem partsOf_rowsOf (text : List Char) :
    partsOf (rowsOf text) =
      (Text.splitBy (· == '\n') text).map (Text.splitBy (· == '\t')) := by
  rw [partsOf, rowsOf, List.map_map]
  exact List.map_congr_left fun line _ => Row.parts_ofLine line

@[simp] theorem Sheet.length_lines_blank (lines : Nat) : (blank lines).lines.length = lines :=
  List.length_replicate

theorem Sheet.lines_fill_blank {places : Nat} {lines : List (List Char)}
    (hlines : lines.length = places) : ((blank places).fill 0 lines).lines = lines := by
  subst hlines
  simp [fill]

/-- There are two steps for each cell and each rest of the rows, and two more. -/
theorem stepsFor_partsOf (rows : List Row) :
    stepsFor (partsOf rows) = 2 * cellsFrom 0 rows + 2 := by
  have hparts : (partsOf rows).flatten.length = cellsFrom 0 rows := by
    induction rows with
    | nil => rfl
    | cons row rest ih =>
        rw [partsOf, List.map_cons, List.flatten_cons, List.length_append, ← partsOf, ih,
          Row.length_parts, cellsFrom, Nat.sub_zero]
  rw [stepsFor, hparts]

/-- The layout of all rows comes to its end. It is the last one to be recorded. -/
theorem yields_layOutBlock_whole (padding : Int) (rows : List Row) :
    ∃ made,
      Yields (layOutBlock padding (partsOf rows) (stepsFor (partsOf rows)) 0 rows.length)
        { sheet := .blank rows.length } ()
        ⟨(Sheet.blank rows.length).fill 0 (layOut padding [] rows), 1 + made.length,
          made ++ [⟨0, rows.length, .blank rows.length,
            (Sheet.blank rows.length).fill 0 (layOut padding [] rows)⟩]⟩ ∧
      ∀ call ∈ made, call.Orderly rows := by
  rw [stepsFor_partsOf]
  have hfrom : Writes rows []
      (layOutFrom padding (partsOf rows) (2 * cellsFrom 0 rows + 1) 0 rows.length 0 0) 0
      (layOut padding [] rows) :=
    writes_layOutFrom padding [] [] (Nat.lt_succ_self _) (.whole rows) (List.forall_mem_nil _) rfl
      (Nat.zero_add _).symm
  obtain ⟨made, hyields, horderly⟩ := hfrom (.blank rows.length) 1 [] rfl (by simp)
  exact ⟨made, yields_layOutBlock hyields, horderly⟩

/-- Aligning in place comes to an end with the aligned text. -/
theorem alignInPlace_eq (text : String) (padding : Int) :
    alignInPlace text padding = some (.ok (align text padding)) := by
  let rows := rowsOf text.toList
  obtain ⟨made, hyields, -⟩ := yields_layOutBlock_whole padding rows
  have hlength : (partsOf rows).length = rows.length := List.length_map _
  have hlines := Sheet.lines_fill_blank (length_layOut padding [] rows)
  have hjoined : ∃ after, Yields (joinInPlace padding (partsOf rows))
      { sheet := .blank (partsOf rows).length } (align text padding) after := by
    rw [joinInPlace, align, ← hlines, hlength]
    exact ⟨_, hyields.bind ((yields_get _).bind (yields_pure _ _))⟩
  obtain ⟨after, hafter⟩ := hjoined
  rw [alignInPlace, ← partsOf_rowsOf, hafter]
  rfl

/-- The layout of a table in place comes to its end, and finds every row, part, width and line that
it asks for; what it comes to does not depend on how many steps more than enough it is given. The
layouts that it begins on the way come to their end and are orderly, the last of them is that of the
whole table, and the lines are those of the layout of the rows. Any text is therefore aligned in
place. -/
theorem layOutBlock_orderly (padding : Int) :
    (∀ rows : List Row, ∃ sheet calls,
      (∀ more, Yields
        (layOutBlock padding (partsOf rows) (stepsFor (partsOf rows) + more) 0 rows.length)
        { sheet := .blank rows.length } () ⟨sheet, calls.length, calls⟩) ∧
      sheet.lines = layOut padding [] rows ∧
      calls.getLast? = some ⟨0, rows.length, .blank rows.length, sheet⟩ ∧
      ∀ call ∈ calls, call.Orderly rows) ∧
    ∀ text, alignInPlace text padding = some (.ok (align text padding)) := by
  refine ⟨fun rows => ?_, fun text => alignInPlace_eq text padding⟩
  have hlength : (layOut padding [] rows).length = rows.length := length_layOut _ _ _
  obtain ⟨made, hyields, horderly⟩ := yields_layOutBlock_whole padding rows
  have hcall := Call.orderly_of_fill (.blank rows.length) (.whole rows)
    (fun row _ => Nat.zero_le row.cells.length) hlength (by simp)
  rw [Nat.zero_add] at hcall
  refine ⟨_, made ++ [_], ?_, Sheet.lines_fill_blank hlength, List.getLast?_concat,
    List.forall_mem_append.mpr ⟨horderly, List.forall_mem_singleton.mpr hcall⟩⟩
  rw [List.length_append, Nat.add_comm]
  exact hyields.more_steps

/-- The block of the first column holds that of the second one, which stops at the second row. -/
example :
    ((layOutBlock 1 [[['a'], ['b'], []], [['c'], []], [[]]] 14 0 3).run.run
        { sheet := .blank 3 }).map
      (fun (_, after) => after.calls.map fun call => (call.start, call.stop, call.before.widths)) =
      some [(0, 1, [2, 2]), (0, 2, [2]), (0, 3, [])] := by
  cbv

end Manuscript.Table
