import DefectLog.Proofs.Document.Erasure
import DefectLog.Proofs.Report.Recovery

-- The look of a report and what it says do not touch each other.
namespace DefectLog

-- The number of lines in each narrative. Only the table of a defect has any.
def Table.shape (t : Table Block) : Nat × Nat :=
  match t.rows with
  | [_, [_, cause], [_, fix]] => (cause.blocks.length, fix.blocks.length)
  | _                         => (0, 0)

namespace Defect

-- The number of lines in each narrative.
def shape (d : Defect) : Nat × Nat :=
  (d.cause.length, d.fix.length)

-- A defect that says nothing.
def silent (shape : Nat × Nat) : Defect where
  number := 0
  title  := ""
  cause  := List.replicate shape.1 ""
  fix    := List.replicate shape.2 ""

theorem erase_look_table (sheet sheet' : Sheet) (d : Defect) :
    (Block.table (d.table sheet)).erase .look = (Block.table (d.table sheet')).erase .look := by
  simp only [Block.erase, table, eraseRows_eq_map, eraseCells_eq_map, titleRow, narrativeRow, List.map_cons,
    List.map_nil, List.map_map]
  rfl

theorem erase_texts_lines (sheet : Sheet) (lines : List String) :
    (lines.map fun text => Block.paragraph (line sheet text)).map (Block.erase .texts) =
      List.replicate lines.length ((Block.paragraph (line sheet "")).erase .texts) := by
  rw [List.map_map, ← List.map_const']
  rfl

theorem erase_texts_table (sheet : Sheet) (d : Defect) :
    (Block.table (d.table sheet)).erase .texts = (Block.table ((silent d.shape).table sheet)).erase .texts := by
  simp only [Block.erase, table, eraseRows_eq_map, eraseCells_eq_map, titleRow, narrativeRow, List.map_cons,
    List.map_nil, erase_texts_lines, silent, shape, List.length_replicate]
  rfl

theorem shape_erase_table (sheet : Sheet) (d : Defect) : Table.shape
    { rows := (d.table sheet).rows.map (eraseCells .texts), columnWidths := Erasure.texts.widths sheet.columns } =
      d.shape := by
  simp only [table, titleRow, narrativeRow, List.map_cons, List.map_nil, eraseCells_eq_map, erase_texts_lines,
    Table.shape, List.length_replicate, shape]

end Defect

namespace Report

variable {sheet sheet' : Sheet} {title subtitle : String} {closing : Option String} {defects : List Defect}

theorem erase_body (e : Erasure) : eraseBlocks e (body sheet title subtitle closing defects) =
    (opening sheet title subtitle).map (Block.erase e) ++
      defects.flatMap (fun d => (entryBlocks sheet d).map (Block.erase e)) ++
      (ending sheet defects.length closing).map (Block.erase e) := by
  rw [eraseBlocks_eq_map, body, List.map_append, List.map_append, List.map_flatMap]

theorem erase_look_body : eraseBlocks .look (body sheet title subtitle closing defects) =
    eraseBlocks .look (body sheet' title subtitle closing defects) := by
  have he : ∀ d : Defect, (entryBlocks sheet d).map (Block.erase .look) =
      (entryBlocks sheet' d).map (Block.erase .look) := by
    intro d
    simp only [entryBlocks, List.map_cons, List.map_nil, d.erase_look_table sheet sheet']
    rfl
  simp only [erase_body, he]
  rfl

theorem shapes_erase_texts : ((assemble sheet title subtitle closing defects).document.erase .texts).tables.map
    Table.shape = defects.map Defect.shape := by
  have ht : (assemble sheet title subtitle closing defects).document.tables = defects.map (·.table sheet) := tables_body
  rw [Document.tables_erase, ht, List.map_map, List.map_map]
  exact congrArg (List.map · defects) (funext fun d => d.shape_erase_table sheet)

theorem erase_texts_entries (sheet : Sheet) (defects : List Defect) :
    (defects.flatMap fun d => (entryBlocks sheet d).map (Block.erase .texts)) =
      (defects.map Defect.shape).flatMap fun s => (entryBlocks sheet (.silent s)).map (Block.erase .texts) := by
  rw [List.flatMap_map]
  refine congrArg (List.flatMap · defects) (funext fun d => ?_)
  simp only [entryBlocks, List.map_cons, List.map_nil, d.erase_texts_table sheet]

-- Nothing that a sheet chooses shows in what a report says or in how its tables are divided. And nothing
-- that a report says shows in the rest of its document but the number of lines of each narrative.
theorem erase_assemble (sheet sheet' : Sheet) (title subtitle title' subtitle' : String)
    (closing closing' : Option String) (defects defects' : List Defect) :
    eraseBlocks .look (assemble sheet title subtitle closing defects).document.body =
      eraseBlocks .look (assemble sheet' title subtitle closing defects).document.body ∧
    ((assemble sheet title subtitle closing defects).document.erase .texts =
        (assemble sheet title' subtitle' closing' defects').document.erase .texts ↔
      defects.map Defect.shape = defects'.map Defect.shape) := by
  refine ⟨erase_look_body, ?mp, ?mpr⟩
  case mp =>
    intro h
    have hs := congrArg (·.tables.map Table.shape) h
    simpa only [shapes_erase_texts] using hs
  case mpr =>
    intro h
    have hb : eraseBlocks .texts (body sheet title subtitle closing defects) =
        eraseBlocks .texts (body sheet title' subtitle' closing' defects') := by
      rw [erase_body, erase_body, erase_texts_entries, erase_texts_entries, h]
      rfl
    simp only [Document.erase, assemble, hb]

end Report
end DefectLog
