import DefectLog.Proofs.Report.Defects
import DefectLog.Proofs.Word.Rendered
import DefectLog.Proofs.Word.Widths

-- The tables of a report are as wide as their two columns, in whatever way they tell it.
namespace DefectLog

open Word Success

-- A table of a title row and two narratives, in which all widths go together.
structure Aligns (left right : Twips) (x : Xml) : Prop where
  table   : x.tableWidth? = some (left + right)
  columns : x.columnWidths? = some [left, right]
  rows    : ∃ top cause fix, x.named "w:tr" = [top, cause, fix] ∧ top.cellWidths? = some [left + right] ∧
    cause.cellWidths? = x.columnWidths? ∧ fix.cellWidths? = x.columnWidths?
  totals  : ∀ widths ∈ x.columnWidths? :: (x.named "w:tr").map Xml.cellWidths?,
    widths.map Twips.total = x.tableWidth?

namespace Defect

variable {sheet : Sheet} {d : Defect}

-- Each column is as wide as one of the two cells of a narrative.
theorem width_of_column (sheet : Sheet) (d : Defect) :
    ∀ width ∈ (d.table sheet).columnWidths, ∃ c ∈ (d.table sheet).rows.flatten, c.width = width := by
  have hf : (d.table sheet).rows.flatten = d.titleRow sheet ++ (narrativeRow sheet "Cause" d.cause ++
    (narrativeRow sheet "Fix" d.fix ++ [])) := rfl
  have hw : (d.table sheet).columnWidths = (narrativeRow sheet "Cause" d.cause).map (·.width) := rfl
  intro width hm
  rw [hw] at hm
  have ⟨c, hc, he⟩ := List.mem_map.mp hm
  exact ⟨c, hf ▸ List.mem_append_right _ (List.mem_append_left _ hc), he⟩

theorem aligns_table {book : StyleBook} {room : Int} {unresolved : List String} {out : Word.Table Word.Block}
    (h : writeTable book room (d.table sheet) = .ok (out, unresolved)) :
    Aligns sheet.labelWidth sheet.contentWidth (Word.Block.table out).xml := by
  have ht : (Word.Block.table out).xml.tableWidth? = some (sheet.labelWidth + sheet.contentWidth) := by
    rw [tableWidth?_xml, width_of_writeTable h]
    exact congrArg some sheet.total_columns
  have hc : (Word.Block.table out).xml.columnWidths? = some [sheet.labelWidth, sheet.contentWidth] := by
    rw [columnWidths?_xml, columns_of_writeTable h (width_of_column sheet d)]
    rfl
  have hr : ((Word.Block.table out).xml.named "w:tr").map Xml.cellWidths? = [
      some [sheet.labelWidth + sheet.contentWidth], some [sheet.labelWidth, sheet.contentWidth],
      some [sheet.labelWidth, sheet.contentWidth]] :=
    rowWidths_of_writeTable h (extent_table sheet d)
  refine { table := ht, columns := hc, rows := ?rows, totals := ?totals }
  case rows =>
    simp only [List.map_eq_cons_iff, List.map_eq_nil_iff] at hr
    obtain ⟨top, _, hrows, htop, cause, _, rfl, hcause, fix, _, rfl, hfix, rfl⟩ := hr
    exact ⟨top, cause, fix, hrows, htop, hcause.trans hc.symm, hfix.trans hc.symm⟩
  case totals =>
    rw [hr, hc, ht]
    simp [Twips.total]

end Defect

namespace Report

variable {sheet : Sheet} {title subtitle : String} {closing : Option String} {defects : List Defect}

theorem blocksTables_lines (sheet : Sheet) (lines : List String) :
    blocksTables (lines.map fun text => .paragraph (Defect.line sheet text)) = [] := by
  induction lines
  case nil         => rfl
  case cons _ _ hi => exact hi

-- No table of a report holds another one.
theorem allTables_table (sheet : Sheet) (d : Defect) :
    (Block.table (d.table sheet)).allTables = [d.table sheet] := by
  simp only [Block.allTables, Defect.table, rowsTables, Defect.titleRow, Defect.narrativeRow, cellsTables, blocksTables,
    blocksTables_lines, List.append_nil]

theorem allTables_assemble : (assemble sheet title subtitle closing defects).document.allTables =
    defects.map (·.table sheet) := by
  have he : ∀ d : Defect, (entryBlocks sheet d).flatMap Block.allTables = [d.table sheet] := fun d => by
    rw [entryBlocks, List.flatMap_cons, List.flatMap_cons, allTables_table]
    rfl
  have hb : (assemble sheet title subtitle closing defects).document.body =
    opening sheet title subtitle ++ defects.flatMap (entryBlocks sheet) ++ ending sheet defects.length closing := rfl
  have ho : (opening sheet title subtitle).flatMap Block.allTables = [] := rfl
  have hn : (ending sheet defects.length closing).flatMap Block.allTables = [] := rfl
  rw [Document.allTables, hb, blocksTables_eq_flatMap, List.flatMap_append, List.flatMap_append, List.flatMap_assoc,
    ho, hn, List.nil_append, List.append_nil, funext he, ← List.map_eq_flatMap]

-- However wide the columns are, a table that is written at all tells only one width.
theorem aligned_of_render {r : Rendering}
    (h : render (assemble sheet title subtitle closing defects).document = .ok r) :
    (Xml.allIn "w:tbl" r.package.bodyXml).length = defects.length ∧
      ∀ x ∈ Xml.allIn "w:tbl" r.package.bodyXml, Aligns sheet.labelWidth sheet.contentWidth x := by
  have ⟨xs, hp, hx⟩ := pairs_of_render (R := fun t x => ∀ d : Defect, t = d.table sheet →
    Aligns sheet.labelWidth sheet.contentWidth x) h fun ⟨_, _, ht⟩ d he => Defect.aligns_table (he ▸ ht)
  rw [allTables_assemble, List.forall₂_map_left_iff] at hx
  refine ⟨?count, fun x hm => ?aligns⟩
  case count => rw [← hp.length_eq, ← hx.length_eq]
  case aligns => exact forall_mem_of_forall₂ hx (fun hd => hd.right _ rfl) x (hp.mem_iff.mpr hm)

-- Two columns that together are as wide as a cell can be.
def widestSheet : Sheet where
  headings     := .ofList []
  labelWidth   := 1
  contentWidth := 2147483646

set_option maxRecDepth 10000 in
theorem aligned_of_render_widest : ∃ r,
    render (assemble widestSheet "Log" "" none [single, single]).document = .ok r ∧
    (Xml.allIn "w:tbl" r.package.bodyXml).length = [single, single].length ∧
      ∀ x ∈ Xml.allIn "w:tbl" r.package.bodyXml, Aligns widestSheet.labelWidth widestSheet.contentWidth x := by
  have ⟨r, h⟩ : ∃ r, render (assemble widestSheet "Log" "" none [single, single]).document = .ok r :=
    exists_of_isOk (by decide +kernel)
  exact ⟨r, h, aligned_of_render h⟩

end Report
end DefectLog
