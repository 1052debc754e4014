import DefectLog.Proofs.Document.Patches
import DefectLog.Proofs.Success
import DefectLog.Word.Rendering

-- What each function of the writer did when it succeeds.
namespace DefectLog.Word

open Success

-- One cell of the tree is placed and written.
def Advance (book : StyleBook) (columns : Nat) (s : Step DefectLog.Block) (g g' : Grid) : Prop :=
  ∃ g₁ p c d d' unresolved, g.placed columns s.row s.column s.cell.span = .ok (g₁, p) ∧
    g₁.cell? p = some c ∧ c.dress s.cell = .ok d ∧
    writeBlocks book true s.cell.blocks d = .ok (d', unresolved) ∧ g' = g₁.setCell p d'

inductive Advances (book : StyleBook) (columns : Nat) : List (Step DefectLog.Block) → Grid → Grid → Prop
  | nil : Advances book columns [] g g
  | cons :
    (Advance book columns s g g₁) → (Advances book columns ss g₁ g') → Advances book columns (s :: ss) g g'

variable {book : StyleBook} {columns row : Nat} {column room : Int} {g g' : Grid} {c d : Cell Block}
  {unresolved : List String}

section Cells

variable {first : Bool} {source : DefectLog.Paragraph} {t : DefectLog.Table DefectLog.Block}
  {b : DefectLog.Block} {blocks : List DefectLog.Block} {bs cs : List Block}

theorem Cell.dress_eq_ok {source : DefectLog.Cell DefectLog.Block} (h : c.dress source = .ok d) :
    ∃ width finishes, widthText (Emu.ofTwips source.width) = .ok width ∧ Finish.ofCell source = .ok finishes ∧
      d = { c with width, finishes := c.finishes ++ finishes } := by
  simp only [dress, bind_eq_ok, pure_eq_ok] at h
  obtain ⟨_, hw, _, hf, rfl⟩ := h
  exact ⟨_, _, hw, hf, rfl⟩

-- The first paragraph of a cell may come after tables.
theorem Cell.writeFirst_go_eq_ok (h : Cell.writeFirst.go book source bs = .ok (cs, unresolved)) :
    ∃ (tables : List (Table Block)) (p p' : Paragraph) (rest : List Block), p.write book source = .ok (p', unresolved) ∧
      bs = tables.map .table ++ .paragraph p :: rest ∧ cs = tables.map .table ++ .paragraph p' :: rest := by
  induction bs generalizing cs unresolved
  case nil => cases h
  case cons b bs hi =>
    cases b <;> simp only [Cell.writeFirst.go, bind_eq_ok, pure_eq_ok, Prod.mk.injEq] at h
    case paragraph p =>
      obtain ⟨⟨p', _⟩, hw, rfl, rfl⟩ := h
      exact ⟨[], p, p', bs, hw, rfl, rfl⟩
    case table t =>
      obtain ⟨⟨cs, _⟩, h, rfl, rfl⟩ := h
      obtain ⟨tables, p, p', rest, hw, rfl, rfl⟩ := hi h
      exact ⟨t :: tables, p, p', rest, hw, rfl, rfl⟩

theorem writeInCell_first_eq_ok (h : writeInCell book true (.paragraph source) c = .ok (d, unresolved)) :
    ∃ content, Cell.writeFirst.go book source c.content = .ok (content, unresolved) ∧ d = { c with content } := by
  simp only [writeInCell, Cell.writeFirst, bind_eq_ok, pure_eq_ok, Prod.mk.injEq, ↓reduceIte] at h
  obtain ⟨⟨content, _⟩, hgo, rfl, rfl⟩ := h
  exact ⟨content, hgo, rfl⟩

theorem writeInCell_next_eq_ok (h : writeInCell book false (.paragraph source) c = .ok (d, unresolved)) :
    ∃ p, Paragraph.write book source {} = .ok (p, unresolved) ∧ d = c.append (.paragraph p) := by
  simp only [writeInCell, Cell.writeNext, bind_eq_ok, pure_eq_ok, Prod.mk.injEq, Bool.false_eq_true, ↓reduceIte] at h
  obtain ⟨⟨p, _⟩, hw, rfl, rfl⟩ := h
  exact ⟨p, hw, rfl⟩

theorem writeInCell_table_eq_ok (h : writeInCell book first (.table t) c = .ok (d, unresolved)) :
    ∃ out, writeTable book (Emu.ofTwips c.width) t = .ok (out, unresolved) ∧
      d = (c.append (.table out)).append .empty := by
  simp only [writeInCell, bind_eq_ok, pure_eq_ok, Prod.mk.injEq] at h
  obtain ⟨⟨out, _⟩, ht, rfl, rfl⟩ := h
  exact ⟨out, ht, rfl⟩

theorem writeBlocks_nil_eq_ok (h : writeBlocks book first [] c = .ok (d, unresolved)) : d = c ∧ unresolved = [] := by
  simp only [writeBlocks, Except.ok.injEq, Prod.mk.injEq] at h
  exact ⟨h.left.symm, h.right.symm⟩

theorem writeBlocks_cons_eq_ok (h : writeBlocks book first (b :: blocks) c = .ok (d, unresolved)) :
    ∃ e here more, writeInCell book first b c = .ok (e, here) ∧ writeBlocks book false blocks e = .ok (d, more) ∧
      unresolved = here ++ more := by
  simp only [writeBlocks, bind_eq_ok, pure_eq_ok, Prod.mk.injEq] at h
  obtain ⟨⟨e, here⟩, hb, ⟨_, more⟩, hbs, rfl, rfl⟩ := h
  exact ⟨e, here, more, hb, hbs, rfl⟩

end Cells

section Tables

variable {source : DefectLog.Cell DefectLog.Block} {cells : List (DefectLog.Cell DefectLog.Block)}
  {rows : List (List (DefectLog.Cell DefectLog.Block))} {t : DefectLog.Table DefectLog.Block} {out : Table Block}

theorem writeCells_nil_eq_ok (h : writeCells book columns row column [] g = .ok (g', unresolved)) :
    g' = g ∧ unresolved = [] := by
  simp only [writeCells, Except.ok.injEq, Prod.mk.injEq] at h
  exact ⟨h.left.symm, h.right.symm⟩

theorem writeCells_cons_eq_ok (h : writeCells book columns row column (source :: cells) g = .ok (g', unresolved)) :
    ∃ g₁ p c d d' here more, g.placed columns row column source.span = .ok (g₁, p) ∧ g₁.cell? p = some c ∧
      c.dress source = .ok d ∧ writeBlocks book true source.blocks d = .ok (d', here) ∧
      writeCells book columns row (column + source.span) cells (g₁.setCell p d') = .ok (g', more) ∧
      unresolved = here ++ more := by
  simp only [writeCells, bind_eq_ok] at h
  obtain ⟨⟨g₁, p⟩, hp, h⟩ := h
  split at h
  case h_1 => cases h
  case h_2 c hc =>
    simp only [bind_eq_ok, pure_eq_ok, Prod.mk.injEq] at h
    obtain ⟨d, hd, ⟨d', here⟩, hw, ⟨_, more⟩, hrest, rfl, rfl⟩ := h
    exact ⟨g₁, p, c, d, d', here, more, hp, hc, hd, hw, hrest, rfl⟩

theorem writeRows_nil_eq_ok (h : writeRows book columns row [] g = .ok (g', unresolved)) :
    g' = g ∧ unresolved = [] := by
  simp only [writeRows, Except.ok.injEq, Prod.mk.injEq] at h
  exact ⟨h.left.symm, h.right.symm⟩

theorem writeRows_cons_eq_ok (h : writeRows book columns row (cells :: rows) g = .ok (g', unresolved)) :
    ∃ g₁ here more, writeCells book columns row 0 cells g = .ok (g₁, here) ∧
      writeRows book columns (row + 1) rows g₁ = .ok (g', more) ∧ unresolved = here ++ more := by
  simp only [writeRows, bind_eq_ok, pure_eq_ok, Prod.mk.injEq] at h
  obtain ⟨⟨g₁, here⟩, hcells, ⟨_, more⟩, hrows, rfl, rfl⟩ := h
  exact ⟨g₁, here, more, hcells, hrows, rfl⟩

theorem writeTable_eq_ok (h : writeTable book room t = .ok (out, unresolved)) :
    ∃ columns width, t.columnWidths.mapM lengthText = .ok columns ∧
      writeRows book t.columnWidths.length 0 t.rows (Grid.blank t.rows.length t.columnWidths.length width) =
        .ok (out.grid, unresolved) ∧ out.columns = columns := by
  simp only [writeTable, bind_eq_ok, pure_eq_ok, Prod.mk.injEq] at h
  obtain ⟨columns, hc, ⟨grid, _⟩, hg, rfl, rfl⟩ := h
  rw [length_eq_of_mapM hc] at hg
  exact ⟨columns, _, hc, hg, rfl⟩

end Tables

theorem Advances.append {ss ss' : List (Step DefectLog.Block)} {g₁ : Grid} (h : Advances book columns ss g g₁)
    (h' : Advances book columns ss' g₁ g') : Advances book columns (ss ++ ss') g g' := by
  induction h
  case nil          => exact h'
  case cons h _ hi  => exact .cons h (hi h')

theorem advances_of_writeCells {cells : List (DefectLog.Cell DefectLog.Block)}
    (h : writeCells book columns row column cells g = .ok (g', unresolved)) :
    Advances book columns (Table.rowSteps row column cells) g g' := by
  induction cells generalizing column g unresolved
  case nil => exact (writeCells_nil_eq_ok h).left ▸ .nil
  case cons source cells hi =>
    have ⟨g₁, p, c, d, d', here, _, hp, hc, hd, hw, hrest, _⟩ := writeCells_cons_eq_ok h
    exact .cons ⟨g₁, p, c, d, d', here, hp, hc, hd, hw, rfl⟩ (hi hrest)

theorem advances_of_writeRows {rows : List (List (DefectLog.Cell DefectLog.Block))}
    (h : writeRows book columns row rows g = .ok (g', unresolved)) :
    Advances book columns (Table.stepsFrom row rows) g g' := by
  induction rows generalizing row g unresolved
  case nil => exact (writeRows_nil_eq_ok h).left ▸ .nil
  case cons cells rows hi =>
    have ⟨_, _, _, hcells, hrows, _⟩ := writeRows_cons_eq_ok h
    exact (advances_of_writeCells hcells).append (hi hrows)

-- A table is written cell by cell.
theorem advances_of_writeTable {t : DefectLog.Table DefectLog.Block} {out : Table Block}
    (h : writeTable book room t = .ok (out, unresolved)) :
    ∃ width, Advances book t.columnWidths.length t.steps
      (Grid.blank t.rows.length t.columnWidths.length width) out.grid := by
  have ⟨_, width, _, hg, _⟩ := writeTable_eq_ok h
  exact ⟨width, advances_of_writeRows hg⟩

end DefectLog.Word
