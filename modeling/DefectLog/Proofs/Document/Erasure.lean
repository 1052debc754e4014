import DefectLog.Document.Basic

-- What remains of a document when a part of it is left out.
namespace DefectLog

-- What remains of each part. The blocks of a cell and the rows of a table are treated on their own.
structure Erasure where
  paragraph : Paragraph → Paragraph
  cell      : Cell Block → Cell Block
  widths    : List Twips → List Twips

namespace Erasure

-- Only the texts and the division of the tables remain.
def look : Erasure where
  paragraph p   := { runs := p.runs.map fun run => { text := run.text, size := 0 } }
  cell c        := { blocks := [], width := 0, span := c.span }
  widths widths := widths.map fun _ => 0

-- All but the texts remains.
def texts : Erasure where
  paragraph p := { p with runs := p.runs.map ({ · with text := "" }) }
  cell        := id
  widths      := id

end Erasure

mutual
def Block.erase (e : Erasure) : Block → Block
  | .paragraph p => .paragraph (e.paragraph p)
  | .table t     => .table { rows := eraseRows e t.rows, columnWidths := e.widths t.columnWidths }
def eraseRows (e : Erasure) : List (List (Cell Block)) → List (List (Cell Block))
  | []            => []
  | cells :: rows => eraseCells e cells :: eraseRows e rows
def eraseCells (e : Erasure) : List (Cell Block) → List (Cell Block)
  | []         => []
  | c :: cells => { e.cell c with blocks := eraseBlocks e c.blocks } :: eraseCells e cells
def eraseBlocks (e : Erasure) : List Block → List Block
  | []      => []
  | b :: bs => b.erase e :: eraseBlocks e bs
end

def Document.erase (e : Erasure) (d : Document) : Document :=
  { d with body := eraseBlocks e d.body }

theorem eraseBlocks_eq_map (e : Erasure) (bs : List Block) : eraseBlocks e bs = bs.map (Block.erase e) := by
  induction bs
  case nil       => rfl
  case cons _ hi => rw [eraseBlocks, hi, List.map_cons]

theorem eraseCells_eq_map (e : Erasure) (cells : List (Cell Block)) :
    eraseCells e cells = cells.map fun c => { e.cell c with blocks := c.blocks.map (Block.erase e) } := by
  induction cells
  case nil       => rfl
  case cons _ hi => rw [eraseCells, hi, List.map_cons, eraseBlocks_eq_map]

theorem eraseRows_eq_map (e : Erasure) (rows : List (List (Cell Block))) :
    eraseRows e rows = rows.map (eraseCells e) := by
  induction rows
  case nil       => rfl
  case cons _ hi => rw [eraseRows, hi, List.map_cons]

-- The kinds of the blocks remain.
theorem Document.tables_erase (e : Erasure) (d : Document) : (d.erase e).tables = d.tables.map fun t =>
    { rows := t.rows.map (eraseCells e), columnWidths := e.widths t.columnWidths } := by
  have hb : ∀ b : Block, (b.erase e).table? = b.table?.map fun t =>
      { rows := t.rows.map (eraseCells e), columnWidths := e.widths t.columnWidths } := by
    intro b
    cases b
    case paragraph => rfl
    case table t   => rw [Block.erase, eraseRows_eq_map]; rfl
  rw [tables, tables, erase, eraseBlocks_eq_map, List.filterMap_map, List.map_filterMap]
  exact congrArg (List.filterMap · d.body) (funext hb)

end DefectLog
