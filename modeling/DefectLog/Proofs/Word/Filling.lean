import DefectLog.Proofs.Document.Tables
import DefectLog.Proofs.Word.Content
import DefectLog.Proofs.Word.Finishes
import DefectLog.Proofs.Word.Length
import DefectLog.Proofs.Word.Placing

-- How a table whose rows fit is filled: the cells of the tree stand side by side in their row, and the
-- columns that no cell of the tree covers keep the cells that they were made with.
namespace DefectLog.Word

open Success Row

-- A cell of a document that keeps what one cell of the tree has, and nothing else.
structure Keeps (book : StyleBook) (source : DefectLog.Cell DefectLog.Block) (c : Cell Block) : Prop where
  width    : c.width = source.width
  finishes : c.finishes = Finish.own source
  content  : Content book (Emu.ofTwips source.width) source.blocks c.content

-- Such a cell in a row of its own, which covers the columns that it should.
structure Holds (book : StyleBook) (source : DefectLog.Cell DefectLog.Block) (c : Cell Block) : Prop
    extends Keeps book source c where
  span     : (c.span : Int) = source.span
  stacking : c.stacking = none

-- A row of a document that holds the cells of one row of the tree, each in a cell of its own.
def HoldsRow (book : StyleBook) (columns : Nat) (blank : Int)
    (sources : List (DefectLog.Cell DefectLog.Block)) (cells : List (Cell Block)) : Prop :=
  ∃ held, List.Forall₂ (Holds book) sources held ∧
    cells = held ++ List.replicate (columns - extent held) (Cell.blank blank)

section Writing

variable {book : StyleBook} {source : DefectLog.Cell DefectLog.Block} {c d d' : Cell Block}
  {unresolved : List String}

theorem frame_of_write (hd : c.dress source = .ok d)
    (hw : writeBlocks book true source.blocks d = .ok (d', unresolved)) :
    d'.span = c.span ∧ d'.stacking = c.stacking ∧ d'.finishes = c.finishes ++ Finish.own source := by
  obtain ⟨_, finishes, -, hfin, rfl⟩ := Cell.dress_eq_ok hd
  obtain ⟨content, rfl⟩ := writeBlocks_eq_ok hw
  exact ⟨rfl, rfl, by rw [Finish.ofCell_eq_ok hfin]⟩

-- Writing to a cell that nothing was written to.
theorem keeps_of_write (hf : c.finishes = []) (hc : c.content = [.empty]) (hd : c.dress source = .ok d)
    (hw : writeBlocks book true source.blocks d = .ok (d', unresolved)) : Keeps book source d' := by
  have ⟨_, _, hfin⟩ := frame_of_write hd hw
  obtain ⟨_, finishes, hwidth, -, rfl⟩ := Cell.dress_eq_ok hd
  obtain rfl := eq_of_widthText hwidth
  obtain ⟨content, hcontent, rfl⟩ := writeBlocks_eq_content (by exact hc) hw
  exact ⟨rfl, by rw [hfin, hf, List.nil_append], hcontent⟩

end Writing

variable {book : StyleBook} {columns row left : Nat} {width : Int} {g g' : Grid}
  {sources : List (DefectLog.Cell DefectLog.Block)} {before held : List (Cell Block)}
  {unresolved : List String}

theorem extent_of_holds (h : List.Forall₂ (Holds book) sources held) :
    (extent held : Int) = Table.extent sources := by
  induction h
  case nil => rfl
  case cons h _ hi =>
    have := h.span
    rw [Row.extent_cons, Table.extent_cons]
    omega

-- A row that asks for all columns holds nothing but its cells.
theorem holds_of_holdsRow {blank : Int} {cells : List (Cell Block)} (hs : Table.extent sources = columns)
    (h : HoldsRow book columns blank sources cells) : List.Forall₂ (Holds book) sources cells := by
  obtain ⟨held, hheld, rfl⟩ := h
  have hn : columns - extent held = 0 := by have := extent_of_holds hheld; omega
  simpa [hn] using hheld

-- A step: the next cell of the tree goes to the first of the cells that nothing was written to.
theorem holds_of_placed {source : DefectLog.Cell DefectLog.Block} {span : Nat} {p : Position}
    {c c' d : Cell Block}
    (hr : g[row]? = some (before ++ List.replicate (span + left) (Cell.blank width)))
    (hb : ∀ b ∈ before, 0 < b.span) (hc : extent before + (span + left) = columns)
    (hs : source.span = span) (hp : 0 < span)
    (hg : g.placed columns row (extent before) source.span = .ok (g', p)) (hd : g'.cell? p = some c)
    (hw : c.dress source = .ok d) (ht : writeBlocks book true source.blocks d = .ok (c', unresolved)) :
    Holds book source c' ∧
      g'.setCell p c' = g.set row (before ++ c' :: List.replicate left (Cell.blank width)) := by
  rw [hs] at hg
  obtain ⟨rfl, w, rfl⟩ := Grid.placed_eq_ok hr hb hc hp hg
  have hl : row < g.length := (List.getElem?_eq_some_iff.mp hr).1
  obtain rfl : { Cell.blank w with span } = c := by
    simpa [Grid.cell?, hl] using hd
  have hk := keeps_of_write rfl rfl hw ht
  have ⟨hspan, hstacking, _⟩ := frame_of_write hw ht
  refine ⟨{ hk with span := by rw [hspan, hs], stacking := hstacking }, ?_⟩
  simp [Grid.setCell, List.modify_eq_set_getElem?, hl]

theorem holds_of_writeCells (hs : ∀ c ∈ sources, 1 ≤ c.span)
    (hr : g[row]? = some (before ++ List.replicate left (Cell.blank width)))
    (hb : ∀ b ∈ before, 0 < b.span) (hc : extent before + left = columns)
    (he : extent before + Table.extent sources ≤ columns)
    (h : writeCells book columns row (extent before) sources g = .ok (g', unresolved)) :
    ∃ held, List.Forall₂ (Holds book) sources held ∧ g' = g.set row
      (before ++ held ++ List.replicate (left - extent held) (Cell.blank width)) := by
  induction sources generalizing before left g g' unresolved
  case nil =>
    obtain ⟨rfl, -⟩ := writeCells_nil_eq_ok h
    have ⟨hl, hr⟩ := List.getElem?_eq_some_iff.mp hr
    exact ⟨[], .nil, by simp [← hr]⟩
  case cons source sources hi =>
    obtain ⟨g₁, p, c, d, d', _, _, hg, hcell, hd, ht, hrest, -⟩ := writeCells_cons_eq_ok h
    have hs₁ : 1 ≤ source.span := hs source List.mem_cons_self
    have hs₂ : ∀ c ∈ sources, 1 ≤ c.span := fun c hc => hs c (List.mem_cons_of_mem _ hc)
    have hn : 0 ≤ Table.extent sources := Table.extent_nonneg hs₂
    rw [Table.extent_cons] at he
    obtain ⟨span, hspan⟩ : ∃ n : Nat, source.span = n := ⟨source.span.toNat, by omega⟩
    obtain ⟨rest, rfl⟩ : ∃ rest, left = span + rest := ⟨left - span, by omega⟩
    have ⟨hold, hset⟩ := holds_of_placed hr hb hc hspan (by omega) hg hcell hd ht
    have hd' : d'.span = span := by have := hold.span; omega
    have hx : extent (before ++ [d']) = extent before + span := by simp [hd']
    have hnext : (extent before : Int) + source.span = extent (before ++ [d']) := by omega
    have hl : row < g.length := (List.getElem?_eq_some_iff.mp hr).1
    have hr' : (g.set row (before ++ d' :: List.replicate rest (Cell.blank width)))[row]? =
        some ((before ++ [d']) ++ List.replicate rest (Cell.blank width)) := by simp [hl]
    have hb' : ∀ b ∈ before ++ [d'], 0 < b.span := by
      intro b hm
      cases List.mem_append.mp hm
      case inl hm => exact hb b hm
      case inr hm => rw [List.mem_singleton.mp hm]; omega
    rw [hset, hnext] at hrest
    obtain ⟨held, hheld, rfl⟩ := hi hs₂ hr' hb' (by omega) (by omega) hrest
    exact ⟨d' :: held, .cons hold hheld, by simp [hd', Nat.add_sub_add_left]⟩

theorem holdsRow_of_writeCells (hs : ∀ c ∈ sources, 1 ≤ c.span) (he : Table.extent sources ≤ columns)
    (hr : g[row]? = some (List.replicate columns (Cell.blank width)))
    (h : writeCells book columns row 0 sources g = .ok (g', unresolved)) :
    ∃ cells, HoldsRow book columns width sources cells ∧ g' = g.set row cells := by
  have hr' : g[row]? = some ([] ++ List.replicate columns (Cell.blank width)) := hr
  have ⟨held, hheld, hg⟩ := holds_of_writeCells hs hr' (by simp) (by simp) (by simpa) h
  exact ⟨_, ⟨held, hheld, rfl⟩, by simpa using hg⟩

-- The rows before `done.length` are finished, and nothing was written to the others.
theorem holdsRow_of_writeRows {rows : List (List (DefectLog.Cell DefectLog.Block))} {done : Grid}
    (hf : ∀ sources ∈ rows, (∀ c ∈ sources, 1 ≤ c.span) ∧ Table.extent sources ≤ columns)
    (h : writeRows book columns done.length rows (done ++ Grid.blank rows.length columns width) =
      .ok (g', unresolved)) :
    ∃ grid, List.Forall₂ (HoldsRow book columns width) rows grid ∧ g' = done ++ grid := by
  induction rows generalizing done g' unresolved
  case nil => exact ⟨[], .nil, by simpa [Grid.blank] using (writeRows_nil_eq_ok h).left⟩
  case cons sources rows hi =>
    obtain ⟨g₁, _, _, hcells, hrows, -⟩ := writeRows_cons_eq_ok h
    have ⟨hs, he⟩ := hf sources List.mem_cons_self
    have hr : (done ++ Grid.blank (rows.length + 1) columns width)[done.length]? =
        some (List.replicate columns (Cell.blank width)) := by
      simp [Grid.blank, Cell.blank]
    obtain ⟨cells, hrow, rfl⟩ := holdsRow_of_writeCells hs he hr hcells
    have hset : (done ++ Grid.blank (rows.length + 1) columns width).set done.length cells =
        (done ++ [cells]) ++ Grid.blank rows.length columns width := by
      simp [Grid.blank, List.replicate_succ]
    have hlen : done.length + 1 = (done ++ [cells]).length := by simp
    simp only [hset, hlen] at hrows
    obtain ⟨grid, hgrid, rfl⟩ := hi (fun s hm => hf s (List.mem_cons_of_mem _ hm)) hrows
    exact ⟨cells :: grid, .cons hrow hgrid, by simp⟩

-- A table whose rows fit holds each of its cells in a cell of its own, at the place where it belongs.
theorem holdsRow_of_writeTable {room : Int} {t : DefectLog.Table DefectLog.Block} {out : Table Block}
    (hf : t.Fits) (h : writeTable book room t = .ok (out, unresolved)) :
    t.columnWidths.mapM lengthText = .ok out.columns ∧ ∃ blank,
      List.Forall₂ (HoldsRow book t.columnWidths.length blank) t.rows out.grid := by
  obtain ⟨columns, width, hc, hg, rfl⟩ := writeTable_eq_ok h
  have hg' : writeRows book _ ([] : Grid).length t.rows ([] ++ Grid.blank _ _ _) = _ := hg
  have ⟨grid', hgrid, he⟩ := holdsRow_of_writeRows hf hg'
  exact ⟨hc, _, by simpa [he] using hgrid⟩

end DefectLog.Word
