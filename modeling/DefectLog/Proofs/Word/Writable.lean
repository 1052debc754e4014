import DefectLog.Proofs.Word.Filling
import DefectLog.Proofs.Word.Legible

-- A document is written if its tables fit and its lengths and colors are such as can be written.
namespace DefectLog.Word

open Success Row

-- The number of twips that the width of a cell may have.
def widest : Int := 2147483647

theorem exists_widthText {n : Int} (h : |n| ≤ widest) : ∃ m, widthText (Emu.ofTwips n) = .ok m := by
  have ⟨hlow, hhigh⟩ := abs_le.mp h
  have hn : |Emu.ofTwips n| ≤ 2 ^ 53 := by
    rw [Emu.ofTwips, abs_le]
    simp only [widest] at hlow hhigh
    constructor <;> linarith
  have hr : checkSigned (Emu.toTwips (Emu.ofTwips n)) = .ok () := by
    rw [Emu.toTwips_ofTwips hn]
    exact if_pos ⟨by simp only [widest] at hlow; linarith, hhigh⟩
  exact ⟨_, by simp only [widthText, Number.isFinite_nearest hn, hr]; rfl⟩

variable {g : Grid} {before rest : List (Cell Block)} {c : Cell Block} {width : Int} {row columns span left k : Nat}

theorem Cell.exists_widen (hw : |c.width| + (k + 1 : Nat) * |width| ≤ widest) :
    ∃ w, c.widen (blank width) = .ok { c with width := w, span := c.span + 1 } ∧ |w| + k * |width| ≤ widest := by
  have hle : |c.width| + |width| + k * |width| ≤ widest := by
    push_cast at hw
    linarith
  have hk : 0 ≤ k * |width| := by positivity
  by_cases hz : c.width = 0 ∨ width = 0
  case pos => exact ⟨c.width, by simp only [widen, blank, hz, ↓reduceIte]; rfl, by linarith [abs_nonneg width]⟩
  case neg =>
    have habs : |c.width + width| ≤ |c.width| + |width| := abs_add_le c.width width
    have hsum : Emu.ofTwips c.width + Emu.ofTwips width = Emu.ofTwips (c.width + width) := (add_mul ..).symm
    obtain ⟨w, hw⟩ := exists_widthText (habs.trans (by linarith))
    obtain rfl := eq_of_widthText hw
    exact ⟨_, by simp only [widen, blank, hz, hsum, hw, ↓reduceIte]; rfl, by linarith⟩

namespace Row

-- A cell grows over cells that nothing was written to, as long as it does not get too wide.
theorem exists_absorb (hw : |c.width| + k * |width| ≤ widest) (rest : List (Cell Block)) :
    ∃ grown vanished stays, absorb (c.span + k) c (List.replicate k (Cell.blank width) ++ rest) =
      .ok (grown, vanished, stays) := by
  induction k generalizing c
  case zero =>
    cases rest
    case nil  => exact ⟨_, _, _, if_neg (Nat.lt_irrefl _)⟩
    case cons => exact ⟨_, _, _, if_neg (Nat.lt_irrefl _)⟩
  case succ k hi =>
    have ⟨w, hwider, hwidth⟩ := Cell.exists_widen hw
    have ⟨grown, vanished, stays, hr⟩ := hi (c := { c with width := w, span := c.span + 1 }) hwidth
    have hspan : c.span + (k + 1) = c.span + 1 + k := by omega
    have hc : c.span < c.span + 1 + k := by omega
    have hn : ¬c.span + 1 + k < c.span + (Cell.blank width).span := by
      simp only [Cell.blank]
      omega
    rw [hspan, List.replicate_succ, List.cons_append, absorb, if_pos hc, if_neg hn, hwider]
    exact ⟨_, _, _, bind_eq_ok.mpr ⟨_, rfl, bind_eq_ok.mpr ⟨_, hr, rfl⟩⟩⟩

theorem startingAt?_append (hb : ∀ b ∈ before, 0 < b.span) :
    startingAt? (before ++ c :: rest) (extent before) = some before.length := by
  induction before
  case nil => rfl
  case cons b before hi =>
    have ⟨hb, hbs⟩ := List.forall_mem_cons.mp hb
    have ⟨n, hn⟩ := Nat.exists_eq_succ_of_ne_zero (Nat.ne_of_gt hb)
    have hlt : ¬n + extent before + 1 < b.span := by omega
    have hsub : n + extent before + 1 - b.span = extent before := by omega
    rw [extent_cons, hn, Nat.succ_add, List.cons_append, startingAt?, if_neg hlt, hsub, hi hbs]
    · rfl
    · exact Nat.succ_ne_zero _

end Row

namespace Grid

-- A place in the grid is found if its number can be told.
theorem numbered?_of_covering? {p : Position} (hn : g.length * columns < 9223372036854775808) (hc : k < columns)
    (hr : row < g.length) (h : g.covering? k row = some p) :
    g.numbered? columns ((row * columns + k : Nat) : Int) = .ok p := by
  have hlt : row * columns + k < g.length * columns := calc
    row * columns + k < (row + 1) * columns := by rw [Nat.succ_mul]; omega
    _ ≤ g.length * columns := Nat.mul_le_mul_right columns hr
  have hi : Number.isIndex ((row * columns + k : Nat) : Int) = true := by
    simp only [Number.isIndex, Bool.and_eq_true, decide_eq_true_eq]
    omega
  have hneg : ¬((row * columns + k : Nat) : Int) < 0 := by omega
  have hsize : ¬(g.length * columns : Int) ≤ (row * columns + k : Nat) := by
    rw [← Int.natCast_mul]
    omega
  have ⟨hd, hm⟩ := place_of_number row hc
  simp only [numbered?, hi, hneg, hsize, Int.toNat_natCast, hd, hm, h, Bool.not_true, Bool.false_eq_true, or_self,
    ↓reduceIte]

-- Two cells of one row.
theorem checkCorners_of_row {l r l' r' : Nat} (hl : l < l') (hr : r ≤ r') :
    checkCorners ⟨row, row + 1, l, r⟩ ⟨row, row + 1, l', r'⟩ = .ok () := by
  simp [checkCorners, hl, Nat.ne_of_lt hl, Nat.not_lt.mpr hr]
  rfl

theorem exists_merge_of_absorb {p q : Position} {r l' r' : Nat} {own grown : Cell Block}
    {after vanished stays : List (Cell Block)} (hr : g[row]? = some (before ++ own :: after))
    (hb : ∀ b ∈ before, 0 < b.span) (hp : g.area p = .ok ⟨row, row + 1, extent before, r⟩)
    (hq : g.area q = .ok ⟨row, row + 1, l', r'⟩) (hl : extent before < l') (hle : r ≤ r')
    (ha : absorb (r' - extent before) own after = .ok (grown, vanished, stays)) : ∃ m, g.merge p q = .ok m := by
  have hrow : g.getD row [] = before ++ own :: after := by rw [List.getD_eq_getElem?_getD, hr, Option.getD_some]
  have hown (d : Cell Block) : (before ++ own :: after).getD before.length d = own := by simp
  have hafter : (before ++ own :: after).drop (before.length + 1) = after := by simp
  have hrows : row + 1 - row - 1 = 0 := by omega
  unfold merge
  simp only [hp, hq, checkCorners_of_row hl hle, hrow, Nat.min_self, Nat.max_self, Nat.min_eq_left hl.le,
    Nat.max_eq_right hle, startingAt?_append hb, hown, hafter, ha, hrows, growBelow_zero, bind, Except.bind]
  exact ⟨_, rfl⟩

-- Cells that nothing was written to are merged.
theorem exists_merge (hr : g[row]? = some (before ++ List.replicate (k + 1 + 1 + left) (Cell.blank width)))
    (hb : ∀ b ∈ before, 0 < b.span) (hw : (k + 1 + 1 : Nat) * |width| ≤ widest) :
    ∃ m, g.merge ⟨row, before.length⟩ ⟨row, before.length + (k + 1)⟩ = .ok m := by
  have hlen : (before ++ Cell.blank width :: List.replicate k (Cell.blank width)).length = before.length + (k + 1) := by
    simp
  have hext : extent (before ++ Cell.blank width :: List.replicate k (Cell.blank width)) = extent before + (k + 1) := by
    rw [extent_append, extent_cons, extent_blanks, Nat.add_comm k]
    rfl
  have hfirst : g[row]? = some (before ++ Cell.blank width :: (List.replicate (k + 1) (Cell.blank width) ++
      List.replicate left (Cell.blank width))) := by
    rw [hr, List.replicate_append_replicate, ← List.replicate_succ]
    congr 3
    omega
  have hlast : g[row]? = some ((before ++ Cell.blank width :: List.replicate k (Cell.blank width)) ++
      Cell.blank width :: List.replicate left (Cell.blank width)) := by
    rw [hr, blanks_split, List.append_assoc, List.cons_append]
  have hp := area_of_plain hfirst rfl
  have hq := area_of_plain hlast rfl
  rw [hlen, hext] at hq
  have hspan : extent before + (k + 1) + (Cell.blank width).span - extent before =
      (Cell.blank width).span + (k + 1) := by
    omega
  have hwidth : |(Cell.blank width).width| + (k + 1 : Nat) * |width| ≤ widest := by
    simp only [Cell.blank]
    push_cast at hw ⊢
    linarith
  obtain ⟨_, _, _, ha⟩ := exists_absorb hwidth (List.replicate left (Cell.blank width))
  exact exists_merge_of_absorb hfirst hb hp hq (by omega) (by omega) (hspan ▸ ha)

-- A cell of the tree finds its place if its row has room for it.
theorem exists_placed (hr : g[row]? = some (before ++ List.replicate (span + left) (Cell.blank width)))
    (hb : ∀ b ∈ before, 0 < b.span) (hc : extent before + (span + left) = columns) (hs : 0 < span)
    (hn : g.length * columns < 9223372036854775808) (hw : columns * |width| ≤ widest) :
    ∃ g' p, g.placed columns row (extent before) span = .ok (g', p) := by
  have hl : row < g.length := (List.getElem?_eq_some_iff.mp hr).1
  have hnumber (k : Nat) (hk : k < span) : g.numbered? columns ((row * columns + (extent before + k) : Nat) : Int) =
      .ok ⟨row, before.length + k⟩ :=
    numbered?_of_covering? hn (by omega) hl (covering?_of_blanks hr (by omega))
  have hfirst := hnumber 0 hs
  rw [Nat.add_zero, Nat.add_zero, Int.natCast_add] at hfirst
  obtain _ | _ | k := span
  case zero      => omega
  case succ.zero => exact ⟨_, _, bind_eq_ok.mpr ⟨_, hfirst, rfl⟩⟩
  case succ.succ =>
    have hlast := hnumber (k + 1) (by omega)
    have he : ((row * columns : Nat) : Int) + extent before + (k + 1 + 1 : Nat) - 1 =
        ((row * columns + (extent before + (k + 1)) : Nat) : Int) := by
      omega
    have hgt : (1 : Int) < (k + 1 + 1 : Nat) := by omega
    have hwidth : (k + 1 + 1 : Nat) * |width| ≤ widest := by
      refine le_trans (mul_le_mul_of_nonneg_right ?_ (abs_nonneg width)) hw
      omega
    obtain ⟨m, hm⟩ := exists_merge hr hb hwidth
    rw [← he] at hlast
    exact ⟨m.1, m.2, bind_eq_ok.mpr ⟨_, hfirst, (if_pos hgt).trans (bind_eq_ok.mpr ⟨_, hlast, hm⟩)⟩⟩

end Grid

-- A paragraph that can be written into any other one.
structure Writable (p : DefectLog.Paragraph) : Prop where
  style  : p.styleId = none
  rule   : ∀ border, p.rule = some border → (Rule.ofBorder border).isOk
  before : (lengthText p.spacing.before).isOk
  after  : (lengthText p.spacing.after).isOk
  indent : (offsetText p.indent).isOk
  runs   : Legible p

theorem Paragraph.exists_write {source : DefectLog.Paragraph} (h : Writable source) (book : StyleBook) (p : Paragraph) :
    ∃ p', write book source p = .ok (p', []) := by
  have hs : restyle book source.styleId p.style = .ok (p.style, []) := by rw [h.style]; rfl
  obtain ⟨rules, hr⟩ := exists_of_mapM_option fun border hb => exists_of_isOk (h.rule border hb)
  obtain ⟨before, hb⟩ := exists_of_isOk h.before
  obtain ⟨after, ha⟩ := exists_of_isOk h.after
  obtain ⟨indent, hi⟩ := exists_of_isOk h.indent
  obtain ⟨runs, hruns⟩ := exists_of_mapM h.runs
  by_cases hz : source.indent = 0
  case pos => exact ⟨_, by simp only [write, hs, hr, hb, ha, hz, hruns, ↓reduceIte]; rfl⟩
  case neg => exact ⟨_, by simp only [write, hs, hr, hb, ha, hi, hz, hruns, ↓reduceIte]; rfl⟩

-- A cell that can be written. It holds no table.
structure WritableCell (c : DefectLog.Cell DefectLog.Block) : Prop where
  span     : 1 ≤ c.span
  width    : (widthText (Emu.ofTwips c.width)).isOk
  finishes : (Finish.ofCell c).isOk
  blocks   : ∀ b ∈ c.blocks, ∃ p, b = .paragraph p ∧ Writable p

section

variable {book : StyleBook} {source : DefectLog.Cell DefectLog.Block} {blocks : List DefectLog.Block}
  {sources : List (DefectLog.Cell DefectLog.Block)} {rows : List (List (DefectLog.Cell DefectLog.Block))}

theorem Cell.exists_dress (h : WritableCell source) (c : Cell Block) :
    ∃ d, c.dress source = .ok d ∧ d.content = c.content := by
  obtain ⟨width, hw⟩ := exists_of_isOk h.width
  obtain ⟨finishes, hf⟩ := exists_of_isOk h.finishes
  exact ⟨_, bind_eq_ok.mpr ⟨width, hw, bind_eq_ok.mpr ⟨finishes, hf, rfl⟩⟩, rfl⟩

theorem exists_writeBlocks {first : Bool} (hp : ∀ b ∈ blocks, ∃ p, b = .paragraph p ∧ Writable p)
    (hc : first = true → c.content = [.empty]) : ∃ d, writeBlocks book first blocks c = .ok (d, []) := by
  induction blocks generalizing first c
  case nil => exact ⟨c, rfl⟩
  case cons b blocks hi =>
    obtain ⟨⟨source, rfl, hw⟩, hps⟩ := List.forall_mem_cons.mp hp
    obtain ⟨p, hp'⟩ := Paragraph.exists_write hw book {}
    obtain ⟨d, hd⟩ : ∃ d, writeInCell book first (.paragraph source) c = .ok (d, []) := by
      cases first
      case false => exact ⟨_, bind_eq_ok.mpr ⟨_, hp', rfl⟩⟩
      case true  => exact ⟨{ c with content := [.paragraph p] }, by
        simp only [writeInCell, Cell.writeFirst, hc rfl, Block.empty, Cell.writeFirst.go, hp', ↓reduceIte]
        rfl⟩
    obtain ⟨e, he⟩ : ∃ e, writeBlocks book false blocks d = .ok (e, []) :=
      hi hps fun h => absurd h Bool.false_ne_true
    exact ⟨e, bind_eq_ok.mpr ⟨_, hd, bind_eq_ok.mpr ⟨_, he, rfl⟩⟩⟩

theorem exists_writeCells (hs : ∀ c ∈ sources, WritableCell c)
    (hr : g[row]? = some (before ++ List.replicate left (Cell.blank width)))
    (hb : ∀ b ∈ before, 0 < b.span) (hc : extent before + left = columns)
    (he : extent before + Table.extent sources ≤ columns)
    (hn : g.length * columns < 9223372036854775808) (hw : columns * |width| ≤ widest) :
    ∃ g', writeCells book columns row (extent before) sources g = .ok (g', []) := by
  induction sources generalizing before left g
  case nil => exact ⟨g, rfl⟩
  case cons source sources hi =>
    obtain ⟨hs₁, hs₂⟩ := List.forall_mem_cons.mp hs
    have hspan := hs₁.span
    have hpos : 0 ≤ Table.extent sources := Table.extent_nonneg fun c hm => (hs₂ c hm).span
    rw [Table.extent_cons] at he
    obtain ⟨span, hspan⟩ : ∃ n : Nat, source.span = n := ⟨source.span.toNat, by omega⟩
    obtain ⟨rest, rfl⟩ : ∃ rest, left = span + rest := ⟨left - span, by omega⟩
    obtain ⟨g₁, p, hp⟩ := Grid.exists_placed hr hb hc (by omega) hn hw
    have hplaced : g.placed columns row (extent before) source.span = .ok (g₁, p) := hspan ▸ hp
    obtain ⟨rfl, w, rfl⟩ := Grid.placed_eq_ok hr hb hc (by omega) hp
    have hl : row < g.length := (List.getElem?_eq_some_iff.mp hr).1
    have hcell : Grid.cell? (g.set row (before ++ { Cell.blank w with span } :: List.replicate rest (Cell.blank width)))
        ⟨row, before.length⟩ = some { Cell.blank w with span } := by
      simp [Grid.cell?, hl]
    obtain ⟨d, hd, hcontent⟩ := Cell.exists_dress hs₁ { Cell.blank w with span }
    obtain ⟨d', hd'⟩ : ∃ d', writeBlocks book true source.blocks d = .ok (d', []) :=
      exists_writeBlocks hs₁.blocks fun _ => hcontent
    obtain ⟨hold, hset⟩ := holds_of_placed hr hb hc hspan (by omega) hplaced hcell hd hd'
    have hspan' : d'.span = span := by have := hold.span; omega
    have hnext : (extent before : Int) + source.span = extent (before ++ [d']) := by simp [hspan, hspan']
    have hr' : (g.set row (before ++ d' :: List.replicate rest (Cell.blank width)))[row]? =
        some ((before ++ [d']) ++ List.replicate rest (Cell.blank width)) := by simp [hl]
    have hb' : ∀ b ∈ before ++ [d'], 0 < b.span :=
      List.forall_mem_append.mpr ⟨hb, List.forall_mem_singleton.mpr (by omega)⟩
    obtain ⟨g', hg'⟩ := hi hs₂ hr' hb' (by omega) (by omega) (by rwa [List.length_set])
    rw [← hset, ← hnext] at hg'
    refine ⟨g', bind_eq_ok.mpr ⟨_, hplaced, ?_⟩⟩
    simp only [hcell]
    exact bind_eq_ok.mpr ⟨_, hd, bind_eq_ok.mpr ⟨_, hd', bind_eq_ok.mpr ⟨_, hg', rfl⟩⟩⟩

-- The rows before `done.length` are finished, and nothing was written to the others.
theorem exists_writeRows {done : Grid} (hs : ∀ sources ∈ rows, ∀ c ∈ sources, WritableCell c)
    (he : ∀ sources ∈ rows, Table.extent sources ≤ columns)
    (hn : (done.length + rows.length) * columns < 9223372036854775808) (hw : columns * |width| ≤ widest) :
    ∃ g', writeRows book columns done.length rows (done ++ Grid.blank rows.length columns width) = .ok (g', []) := by
  induction rows generalizing done
  case nil => exact ⟨_, rfl⟩
  case cons sources rows hi =>
    obtain ⟨hs, hss⟩ := List.forall_mem_cons.mp hs
    obtain ⟨he, hes⟩ := List.forall_mem_cons.mp he
    have hr : (done ++ Grid.blank (rows.length + 1) columns width)[done.length]? =
        some (List.replicate columns (Cell.blank width)) := by
      simp [Grid.blank, Cell.blank]
    have hlen : (done ++ Grid.blank (rows.length + 1) columns width).length = done.length + (rows.length + 1) := by
      simp [Grid.blank]
    obtain ⟨g₁, hg⟩ : ∃ g₁, writeCells book columns done.length (extent []) sources
        (done ++ Grid.blank (rows.length + 1) columns width) = .ok (g₁, []) :=
      exists_writeCells hs hr (List.forall_mem_nil _) (Nat.zero_add columns) (by simpa using he) (hlen ▸ hn) hw
    obtain ⟨cells, -, rfl⟩ := holdsRow_of_writeCells (fun c hm => (hs c hm).span) he hr hg
    have hset : (done ++ Grid.blank (rows.length + 1) columns width).set done.length cells =
        (done ++ [cells]) ++ Grid.blank rows.length columns width := by
      simp [Grid.blank, List.replicate_succ]
    have hplaces : ((done ++ [cells]).length + rows.length) * columns < 9223372036854775808 := by
      simpa [Nat.add_assoc, Nat.add_comm 1] using hn
    obtain ⟨g', hg'⟩ := hi hss hes hplaces
    rw [← hset, List.length_append, List.length_singleton] at hg'
    exact ⟨g', bind_eq_ok.mpr ⟨_, hg, bind_eq_ok.mpr ⟨_, hg', rfl⟩⟩⟩

-- A table that can be written where there is so much room.
structure WritableTable (room : Int) (t : DefectLog.Table DefectLog.Block) : Prop where
  widths : ∀ w ∈ t.columnWidths, (lengthText w).isOk
  cells  : ∀ cells ∈ t.rows, ∀ c ∈ cells, WritableCell c
  fits   : ∀ cells ∈ t.rows, Table.extent cells ≤ t.columnWidths.length
  places : t.rows.length * t.columnWidths.length < 9223372036854775808
  room   : t.columnWidths.length * |Emu.toTwips (room / t.columnWidths.length)| ≤ widest

theorem exists_writeTable {room : Int} {t : DefectLog.Table DefectLog.Block} (h : WritableTable room t) :
    ∃ out, writeTable book room t = .ok (out, []) := by
  obtain ⟨columns, hc⟩ := exists_of_mapM fun w hm => exists_of_isOk (h.widths w hm)
  have hl := length_eq_of_mapM hc
  obtain ⟨g, hg⟩ : ∃ g, writeRows book t.columnWidths.length 0 t.rows (Grid.blank t.rows.length t.columnWidths.length
      (Emu.toTwips (room / t.columnWidths.length))) = .ok (g, []) := by
    have hplaces : (([] : Grid).length + t.rows.length) * t.columnWidths.length < 9223372036854775808 := by
      simpa using h.places
    exact exists_writeRows h.cells h.fits hplaces h.room
  rw [← hl] at hg
  rw [writeTable.eq_def]
  exact ⟨_, bind_eq_ok.mpr ⟨_, hc, bind_eq_ok.mpr ⟨_, hg, rfl⟩⟩⟩

end

-- A block of the body that can be written.
def WritableBlock (room : Int) : DefectLog.Block → Prop
  | .paragraph p => Writable p
  | .table t     => WritableTable room t

theorem exists_writeBody {room : Int} {blocks : List DefectLog.Block} (book : StyleBook)
    (h : ∀ b ∈ blocks, WritableBlock room b) : ∃ body, writeBody book room blocks = .ok (body, []) := by
  induction blocks
  case nil => exact ⟨[], rfl⟩
  case cons b blocks hi =>
    obtain ⟨hb, hbs⟩ := List.forall_mem_cons.mp h
    obtain ⟨body, hbody⟩ := hi hbs
    cases b
    case paragraph =>
      obtain ⟨p, hp⟩ := Paragraph.exists_write hb book {}
      exact ⟨.paragraph p :: body, by simp only [writeBody, writeBlock, hp, hbody]; rfl⟩
    case table =>
      obtain ⟨out, ht⟩ : ∃ out, writeTable book room _ = .ok (out, []) := exists_writeTable hb
      exact ⟨.table out :: body, by simp only [writeBody, writeBlock, ht, hbody]; rfl⟩

theorem exists_render {d : Document} {pages : Section} (hb : (StyleBook.ofDefaults d.defaults).isOk)
    (hp : Section.ofPage d.page = .ok pages) (h : ∀ b ∈ d.body, WritableBlock pages.room b) :
    ∃ r, render d = .ok r := by
  have ⟨book, hb⟩ := exists_of_isOk hb
  have ⟨body, hbody⟩ := exists_writeBody book h
  exact ⟨_, bind_eq_ok.mpr ⟨_, hb, bind_eq_ok.mpr ⟨_, hp, bind_eq_ok.mpr ⟨_, hbody, rfl⟩⟩⟩⟩

end DefectLog.Word
