import DefectLog.Proofs.Number.Decimal
import DefectLog.Proofs.Word.Shown

-- The widths that a table tells: its own, those of its columns and those of its cells.
namespace DefectLog.Word

open Xml Success

namespace Xml

-- The number in the attribute that widths are given in.
def width? (x : Xml) : Option Int :=
  (x.attribute? "w:w").bind String.toInt?

def tableWidth? (x : Xml) : Option Int :=
  (((x.named "w:tblPr").flatMap (named "w:tblW")).head?).bind width?

-- There are none if a column does not tell its width, and likewise for the cells of a row.
def columnWidths? (x : Xml) : Option (List Int) :=
  ((x.named "w:tblGrid").flatMap (named "w:gridCol")).mapM width?

def cellWidths? (row : Xml) : Option (List Int) :=
  (row.named "w:tc").mapM fun c => (c.property? "w:tcW").bind width?

theorem mapM_map_eq_some {f : α → Xml} {read : Xml → Option β} {value : α → β}
    (h : ∀ a, read (f a) = some (value a)) (xs : List α) : (xs.map f).mapM read = some (xs.map value) := by
  induction xs
  case nil          => rfl
  case cons x xs hi => simp [h, hi]

end Xml

theorem width?_of_attribute {x : Xml} {n : Int} (h : x.attribute? "w:w" = some (toString n)) : x.width? = some n := by
  rw [width?, h, Option.bind_some, Int.toString_eq_repr, Int.toInt?_repr]

theorem width?_cellWidth (n : Int) : (cellWidth n).width? = some n :=
  width?_of_attribute (by simp [cellWidth, leaf, w, attribute?, List.lookup_cons])

theorem width?_columnXml (n : Int) : (columnXml n).width? = some n :=
  width?_of_attribute (by simp [columnXml, leaf, w, attribute?])

theorem Cell.tcW_xml (c : Cell Block) : c.xml.property? "w:tcW" = some (cellWidth c.width) := by
  rw [property?_xml, named_properties c (by simp), List.singleton_append, List.cons_append,
    List.filter_cons_of_pos (by simp [cellWidth, leaf])]
  rfl

theorem cellWidths?_rowXml (cells : List (Cell Block)) : (rowXml cells).cellWidths? = some (cells.map (·.width)) := by
  rw [cellWidths?, named_tc_rowXml]
  exact mapM_map_eq_some (fun c => by rw [c.tcW_xml, Option.bind_some, width?_cellWidth]) cells

theorem columnWidths?_xml (t : Table Block) : (Block.table t).xml.columnWidths? = some t.columns := by
  rw [columnWidths?, Block.gridCols_table, mapM_map_eq_some width?_columnXml, List.map_id']

theorem tableWidth?_xml (t : Table Block) : (Block.table t).xml.tableWidth? = some t.width := by
  have hp : (Block.table t).xml.named "w:tblPr" = [tableProperties t.width] := by
    rw [Block.xml_table, named_cons, named_cons, named_map_of_ne fun _ => by simp [rowXml]]
    rfl
  have hw : (tableProperties t.width).named "w:tblW" = [leaf "tblW" [("type", "dxa"), ("w", toString t.width)]] := by
    simp [tableProperties, leaf, named_cons]
    rfl
  have ha : (leaf "tblW" [("type", "dxa"), ("w", toString t.width)]).attribute? "w:w" = some (toString t.width) := by
    simp [leaf, w, attribute?, List.lookup_cons]
  rw [tableWidth?, hp, List.flatMap_singleton, hw]
  exact width?_of_attribute ha

section Writing

variable {book : StyleBook} {room : Int} {t : DefectLog.Table DefectLog.Block} {out : Table Block}
  {unresolved : List String}

theorem width_of_writeTable (h : writeTable book room t = .ok (out, unresolved)) : out.width = t.width := by
  simp only [writeTable, bind_eq_ok, pure_eq_ok, Prod.mk.injEq] at h
  obtain ⟨_, -, _, -, rfl, -⟩ := h
  rfl

-- Each cell of the tree is narrow enough for the range of cell widths, wherever it is written to.
theorem widthText_of_advances {columns : Nat} {ss : List (Step DefectLog.Block)} {g g' : Grid}
    (h : Advances book columns ss g g') : ∀ s ∈ ss, ∃ n, widthText (Emu.ofTwips s.cell.width) = .ok n := by
  induction h
  case nil => exact List.forall_mem_nil _
  case cons h _ hi =>
    have ⟨_, _, _, _, _, _, _, _, hd, _⟩ := h
    have ⟨n, _, hw, _⟩ := Cell.dress_eq_ok hd
    exact List.forall_mem_cons.mpr ⟨⟨n, hw⟩, hi⟩

-- A column that is as wide as some cell keeps its width.
theorem columns_of_writeTable (h : writeTable book room t = .ok (out, unresolved))
    (hc : ∀ width ∈ t.columnWidths, ∃ c ∈ t.rows.flatten, c.width = width) : out.columns = t.columnWidths := by
  have ⟨columns, _, hcolumns, _, hout⟩ := writeTable_eq_ok h
  have ⟨_, ha⟩ := advances_of_writeTable h
  have hn : ∀ width ∈ t.columnWidths, ∀ n, lengthText width = .ok n → n = width := by
    intro width hm n hl
    have ⟨c, hm, he⟩ := hc width hm
    rw [← Table.cells_stepsFrom 0] at hm
    have ⟨s, hs, hcell⟩ := List.mem_map.mp hm
    have ⟨m, hw⟩ := widthText_of_advances ha s hs
    rw [hcell, he] at hw
    exact eq_of_lengthText (Emu.abs_ofTwips_le hw) hl
  rw [hout]
  exact eq_of_mapM hn hcolumns

theorem widths_of_holds {sources : List (DefectLog.Cell DefectLog.Block)} {cells : List (Cell Block)}
    (h : List.Forall₂ (Holds book) sources cells) : cells.map (·.width) = sources.map (·.width) := by
  induction h
  case nil         => rfl
  case cons h _ hi => rw [List.map_cons, List.map_cons, h.width, hi]

-- The cells of a row that asks for all columns are as wide as the cells of the tree.
theorem rowWidths_of_writeTable (h : writeTable book room t = .ok (out, unresolved))
    (hf : ∀ cells ∈ t.rows, (∀ c ∈ cells, 1 ≤ c.span) ∧ Table.extent cells = t.columnWidths.length) :
    ((Block.table out).xml.named "w:tr").map cellWidths? = t.rows.map fun cells => some (cells.map (·.width)) := by
  obtain ⟨_, _, hg⟩ := holdsRow_of_writeTable (fun cells hm => ⟨(hf cells hm).left, (hf cells hm).right.le⟩) h
  have hg := (List.forall₂_and_left t.rows out.grid).mpr ⟨fun cells hm => (hf cells hm).right, hg⟩
  rw [Block.named_tr_table, List.map_map]
  generalize t.rows = rows, out.grid = grid at hg ⊢
  induction hg
  case nil => rfl
  case cons h _ hi =>
    obtain ⟨he, hrow⟩ := h
    rw [List.map_cons, List.map_cons, Function.comp_apply, cellWidths?_rowXml,
      widths_of_holds (holds_of_holdsRow he hrow), hi]

end Writing
end DefectLog.Word
