import DefectLog.Proofs.Word.Elements
import DefectLog.Proofs.Word.Filling
import Std.Data.String.ToNat

-- What the cells and the rows of a table whose rows fit look like as elements.
namespace DefectLog.Word

open Xml Success Row

def cellWidth (width : Int) : Xml :=
  leaf "tcW" [("type", "dxa"), ("w", toString width)]

-- What stands in a column that no cell of the tree covers.
def untouched (width : Int) : Xml :=
  w "tc" [] [w "tcPr" [] [cellWidth width], w "p" [] []]

-- An element that shows one cell of the tree and nothing else.
def ShowsCell (book : StyleBook) (source : DefectLog.Cell DefectLog.Block) (x : Xml) : Prop :=
  ∃ content, Content book (Emu.ofTwips source.width) source.blocks content ∧
    x = w "tc" [] (w "tcPr" []
      (cellWidth source.width :: (if source.span = 1 then [] else [value "gridSpan" (toString source.span)]) ++
        (Finish.own source).map Finish.xml) :: content.map Block.xml)

-- An element that shows the cells of one row of the tree, side by side and in order.
structure ShowsRow (book : StyleBook) (columns : Nat) (blank : Int)
    (sources : List (DefectLog.Cell DefectLog.Block)) (x : Xml) : Prop where
  cells    : ∃ shown, List.Forall₂ (ShowsCell book) sources shown ∧
    x = w "tr" [] (shown ++ List.replicate (columns - Table.extent sources).toNat (untouched blank))
  extent   : ((x.named "w:tc").map gridSpan).sum = columns
  unmerged : ∀ c ∈ x.named "w:tc", c.property? "w:vMerge" = none

structure ShowsTable (book : StyleBook) (t : DefectLog.Table DefectLog.Block) (x : Xml) : Prop where
  tag     : x.tag? = some "w:tbl"
  columns : List.Forall₂ (fun width c => ∃ n, lengthText width = .ok n ∧ c = columnXml n)
    t.columnWidths ((x.named "w:tblGrid").flatMap (named "w:gridCol"))
  rows    : ∃ blank, List.Forall₂ (ShowsRow book t.columnWidths.length blank) t.rows (x.named "w:tr")

variable {book : StyleBook} {source : DefectLog.Cell DefectLog.Block}
  {sources : List (DefectLog.Cell DefectLog.Block)} {c : Cell Block} {cells : List (Cell Block)}

theorem Cell.xml_blank (width : Int) : (Cell.blank width).xml = untouched width := by
  simp [Cell.xml, Cell.blank, Cell.properties, blocksXml, Block.xml_empty, untouched, cellWidth]

theorem showsCell_of_holds (h : Holds book source c) : ShowsCell book source c.xml := by
  refine ⟨c.content, h.content, ?_⟩
  have hs : c.span = 1 ↔ source.span = 1 := by have := h.span; omega
  have ht : toString c.span = toString source.span := by rw [← h.span]; rfl
  simp only [Cell.xml, Cell.properties, cellWidth, h.width, hs, ht, h.stacking, h.finishes,
    blocksXml_eq_map, Option.map_none, Option.toList_none, List.append_nil, List.singleton_append]

theorem Cell.named_tcPr (c : Cell Block) : c.xml.named "w:tcPr" = [c.properties] := by
  have hb : ∀ b : Block, b.xml.tag? ≠ some "w:tcPr" := fun b => by cases b.tag?_xml <;> simp_all
  rw [xml, named_cons, blocksXml_eq_map, named_map_of_ne hb]
  rfl

theorem Cell.property?_xml (c : Cell Block) (tag : String) :
    c.xml.property? tag = (c.properties.named tag).head? := by
  rw [property?, named_tcPr, List.flatMap_singleton]

-- The properties of a cell other than its finishes, none of which looks like one of them.
theorem Cell.named_properties (c : Cell Block) {tag : String}
    (ht : tag ∉ ["w:tcBorders", "w:shd", "w:tcMar"]) :
    c.properties.named tag = ([cellWidth c.width] ++
      (if c.span = 1 then [] else [value "gridSpan" (toString c.span)]) ++
      (c.stacking.map Stacking.xml).toList).filter (·.tag? = some tag) := by
  have hf : (c.finishes.map Finish.xml).filter (·.tag? = some tag) = [] := by
    rw [List.filter_eq_nil_iff]
    intro x hx
    obtain ⟨f, -, rfl⟩ := List.mem_map.mp hx
    cases f <;> simp_all [Finish.xml, w, leaf, tag?, eq_comm]
  rw [named, properties, w, children, List.filter_append, hf, List.append_nil]
  rfl

theorem Cell.gridSpan_xml (c : Cell Block) : c.xml.gridSpan = c.span := by
  have hs : (c.stacking.map Stacking.xml).toList.filter (·.tag? = some "w:gridSpan") = [] := by
    cases c.stacking
    case none   => rfl
    case some s => cases s <;> rfl
  rw [gridSpan, property?_xml, named_properties c (by simp), List.filter_append, hs]
  by_cases h : c.span = 1
  case pos => simp [h, cellWidth, w, leaf, tag?]
  case neg => simp [h, cellWidth, w, leaf, value, tag?, attribute?, Nat.toNat?_repr]

theorem Cell.vMerge_xml (c : Cell Block) : c.xml.property? "w:vMerge" = c.stacking.map Stacking.xml := by
  rw [property?_xml, named_properties c (by simp)]
  cases c.stacking
  case none   => by_cases h : c.span = 1 <;> simp [h, cellWidth, w, leaf, value, tag?]
  case some s => by_cases h : c.span = 1 <;> cases s <;> simp [h, cellWidth, Stacking.xml, w, leaf, value, tag?]

theorem named_tc_rowXml (cells : List (Cell Block)) : (rowXml cells).named "w:tc" = cells.map Cell.xml :=
  named_map (fun _ => rfl) cells

theorem Block.named_tr_table (t : Table Block) : (Block.table t).xml.named "w:tr" = t.grid.map rowXml := by
  rw [xml_table, named_cons, named_cons, named_map fun _ => rfl]
  rfl

theorem Block.gridCols_table (t : Table Block) :
    ((Block.table t).xml.named "w:tblGrid").flatMap (named "w:gridCol") = t.columns.map columnXml := by
  rw [xml_table, named_cons, named_cons, named_map_of_ne fun _ => by simp [rowXml]]
  exact (List.flatMap_singleton _ _).trans (named_map (fun _ => rfl) t.columns)

theorem extent_xml (cells : List (Cell Block)) : ((cells.map Cell.xml).map gridSpan).sum = extent cells := by
  induction cells
  case nil          => rfl
  case cons c cs hi => rw [List.map_cons, List.map_cons, List.sum_cons, hi, c.gridSpan_xml, extent_cons]

theorem showsRow_of_holdsRow {columns : Nat} {blank : Int} (hs : Table.extent sources ≤ columns)
    (h : HoldsRow book columns blank sources cells) :
    ShowsRow book columns blank sources (rowXml cells) := by
  obtain ⟨held, hheld, rfl⟩ := h
  have he : (extent held : Int) = Table.extent sources := extent_of_holds hheld
  refine { cells := ⟨held.map Cell.xml, ?cells, ?filled⟩, extent := ?extent, unmerged := ?unmerged }
  case cells =>
    rw [List.forall₂_map_right_iff]
    exact hheld.imp fun _ _ => showsCell_of_holds
  case filled =>
    have hn : columns - extent held = (columns - Table.extent sources).toNat := by omega
    rw [rowXml, List.map_append, List.map_replicate, Cell.xml_blank, hn]
  case extent =>
    rw [named_tc_rowXml, extent_xml, extent_append, extent_blanks]
    omega
  case unmerged =>
    intro x hx
    rw [named_tc_rowXml] at hx
    obtain ⟨c, hc, rfl⟩ := List.mem_map.mp hx
    have hc : c.stacking = none := by
      cases List.mem_append.mp hc
      case inl hc => exact forall_mem_of_forall₂ hheld Holds.stacking c hc
      case inr hc => rw [(List.mem_replicate.mp hc).right]; rfl
    rw [Cell.vMerge_xml, hc, Option.map_none]

-- Each table whose rows fit shows its columns and its rows.
theorem showsTable_of_writeTable {room : Int} {t : DefectLog.Table DefectLog.Block} {out : Table Block}
    {unresolved : List String} (hf : t.Fits) (h : writeTable book room t = .ok (out, unresolved)) :
    ShowsTable book t (Block.table out).xml := by
  have ⟨hc, blank, hg⟩ := holdsRow_of_writeTable hf h
  refine { tag := rfl, columns := ?columns, rows := ⟨blank, ?rows⟩ }
  case columns =>
    rw [Block.gridCols_table, List.forall₂_map_right_iff]
    exact (mapM_eq_ok.mp hc).imp fun _ n hn => ⟨n, hn, rfl⟩
  case rows =>
    rw [Block.named_tr_table, List.forall₂_map_right_iff]
    have hr := (List.forall₂_and_left t.rows out.grid).mpr ⟨hf, hg⟩
    exact hr.imp fun _ _ h => showsRow_of_holdsRow h.left.right h.right

end DefectLog.Word
