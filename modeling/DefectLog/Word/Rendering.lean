import DefectLog.Journal.Entry
import DefectLog.Word.Grid
import DefectLog.Word.Section

namespace DefectLog.Word

namespace Finish

def ofBorders (b : Borders) : Except Fault Finish := do
  let top ← Rule.ofBorder b.top
  let left ← Rule.ofBorder b.left
  let bottom ← Rule.ofBorder b.bottom
  let right ← Rule.ofBorder b.right
  return .borders top left bottom right

def ofShading (s : Shading) : Except Fault Finish := do
  checkText s.pattern
  checkText s.fill
  return .shading s.pattern s.fill

-- Borders and shading are optional. The margins are always written.
def ofCell (c : DefectLog.Cell DefectLog.Block) : Except Fault (List Finish) := do
  let borders ← c.borders.mapM ofBorders
  let shading ← c.shading.mapM ofShading
  return borders.toList ++ shading.toList ++ [.margins c.margins]

end Finish

namespace Cell

def append (c : Cell Block) (b : Block) : Cell Block :=
  { c with content := c.content ++ [b] }

-- The first block of a cell goes into the first paragraph that the cell has.
def writeFirst (book : StyleBook) (source : DefectLog.Paragraph) (c : Cell Block) :
    Except Fault (Cell Block × List String) := do
  let (content, unresolved) ← go c.content
  return ({ c with content }, unresolved)
where
  go : List Block → Except Fault (List Block × List String)
    | []                 => .error .noSuchCell
    | .table t :: bs     => do
      let (bs, unresolved) ← go bs
      return (.table t :: bs, unresolved)
    | .paragraph p :: bs => do
      let (p, unresolved) ← p.write book source
      return (.paragraph p :: bs, unresolved)

def writeNext (book : StyleBook) (source : DefectLog.Paragraph) (c : Cell Block) :
    Except Fault (Cell Block × List String) := do
  let (p, unresolved) ← Paragraph.write book source {}
  return (c.append (.paragraph p), unresolved)

-- Sets the width of a cell and adds the finishes of a cell of the tree.
def dress (source : DefectLog.Cell DefectLog.Block) (c : Cell Block) : Except Fault (Cell Block) := do
  let width ← widthText (Emu.ofTwips source.width)
  let finishes ← Finish.ofCell source
  return { c with width, finishes := c.finishes ++ finishes }

end Cell

-- Writing a block yields the style ids that resolve to nothing, in the order in which the paragraphs
-- are written.
mutual
-- `room` is the width of the container in EMU. It is divided evenly until the widths of the cells are
-- set.
def writeTable (book : StyleBook) (room : Int) (t : DefectLog.Table DefectLog.Block) :
    Except Fault (Table Block × List String) := do
  let columns ← t.columnWidths.mapM lengthText
  let grid := Grid.blank t.rows.length columns.length (Emu.toTwips (room / columns.length))
  let (grid, unresolved) ← writeRows book columns.length 0 t.rows grid
  return ({ width := t.width, columns, grid }, unresolved)
termination_by structural t
def writeRows (book : StyleBook) (columns row : Nat) :
    List (List (DefectLog.Cell DefectLog.Block)) → Grid → Except Fault (Grid × List String)
  | [], grid            => .ok (grid, [])
  | cells :: rows, grid => do
    let (grid, unresolved) ← writeCells book columns row 0 cells grid
    let (grid, more) ← writeRows book columns (row + 1) rows grid
    return (grid, unresolved ++ more)
termination_by structural rows => rows
def writeCells (book : StyleBook) (columns row : Nat) (column : Int) :
    List (DefectLog.Cell DefectLog.Block) → Grid → Except Fault (Grid × List String)
  | [], grid            => .ok (grid, [])
  | source :: cells, grid => do
    let (grid, p) ← grid.placed columns row column source.span
    match grid.cell? p with
    | none   => .error .noSuchCell
    | some c =>
      let c ← c.dress source
      let (c, unresolved) ← writeBlocks book true source.blocks c
      let (grid, more) ← writeCells book columns row (column + source.span) cells (grid.setCell p c)
      return (grid, unresolved ++ more)
termination_by structural cells => cells
def writeBlocks (book : StyleBook) (first : Bool) :
    List DefectLog.Block → Cell Block → Except Fault (Cell Block × List String)
  | [], c      => .ok (c, [])
  | b :: bs, c => do
    let (c, unresolved) ← writeInCell book first b c
    let (c, more) ← writeBlocks book false bs c
    return (c, unresolved ++ more)
termination_by structural bs => bs
-- A table in a cell is followed by an empty paragraph, since a cell may not end in a table.
def writeInCell (book : StyleBook) (first : Bool) :
    DefectLog.Block → Cell Block → Except Fault (Cell Block × List String)
  | .paragraph source, c => if first then c.writeFirst book source else c.writeNext book source
  | .table t, c          => do
    let (t, unresolved) ← writeTable book (Emu.ofTwips c.width) t
    return ((c.append (.table t)).append .empty, unresolved)
termination_by structural b => b
end

def writeBlock (book : StyleBook) (room : Int) : DefectLog.Block → Except Fault (Block × List String)
  | .paragraph source => do
    let (p, unresolved) ← Paragraph.write book source {}
    return (.paragraph p, unresolved)
  | .table t          => do
    let (t, unresolved) ← writeTable book room t
    return (.table t, unresolved)

def writeBody (book : StyleBook) (room : Int) :
    List DefectLog.Block → Except Fault (List Block × List String)
  | []      => .ok ([], [])
  | b :: bs => do
    let (block, unresolved) ← writeBlock book room b
    let (blocks, more) ← writeBody book room bs
    return (block :: blocks, unresolved ++ more)

-- The parts of a document of the word processor that depend on the tree.
structure Package where
  book  : StyleBook
  pages : Section
  body  : List Block

-- A package together with what writing it adds to the log.
structure Rendering where
  package : Package
  entries : List Journal.Entry

def unresolvedEntry (styleId : String) : Journal.Entry where
  level   := Journal.Level.warning
  source  := "BugDoc.DOCXBuilder"
  message := s!"DOCX: unknown paragraph style '{styleId}', using Normal"

def builtEntry (document : Document) : Journal.Entry where
  level   := Journal.Level.debug
  source  := "BugDoc.DOCXBuilder"
  message := s!"DOCX built: {document.body.length} blocks, {document.tables.length} tables"

def render (document : Document) : Except Fault Rendering := do
  let book ← StyleBook.ofDefaults document.defaults
  let pages ← Section.ofPage document.page
  let (body, unresolved) ← writeBody book pages.room document.body
  return {
    package := { book, pages, body }
    entries := unresolved.map unresolvedEntry ++ [builtEntry document] }

end DefectLog.Word
