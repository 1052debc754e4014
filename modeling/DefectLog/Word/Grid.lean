import DefectLog.Number.Index
import DefectLog.Word.Block

namespace DefectLog.Word

open Number

namespace Cell

-- A cell that has been left as it was made, or whose only block is a paragraph without runs.
def isVacant (c : Cell Block) : Bool :=
  match c.content with
  | [b] => b.isVacant
  | _   => false

-- Content that moves into a cell takes the place of a last paragraph without runs.
def receive (c : Cell Block) (blocks : List Block) : Cell Block :=
  let kept := match c.content.getLast? with
    | some b => if b.isVacant then c.content.dropLast else c.content
    | none   => c.content
  { c with content := kept ++ blocks }

-- The width of a merged cell is the sum of the widths, unless one of them is zero.
def widen (c next : Cell Block) : Except Fault (Cell Block) := do
  let width ←
    if c.width = 0 ∨ next.width = 0 then pure c.width
    else widthText (Emu.ofTwips c.width + Emu.ofTwips next.width)
  return { c with width, span := c.span + next.span }

end Cell

-- The cells of one row.
namespace Row

-- The place of the cell that covers a column.
def covering? : List (Cell Block) → Nat → Option Nat
  | [], _           => none
  | c :: cs, column =>
    if column < c.span then some 0 else (covering? cs (column - c.span)).map (· + 1)

-- The place of the cell that starts at a column.
def startingAt? : List (Cell Block) → Nat → Option Nat
  | [], _           => none
  | _ :: _, 0       => some 0
  | c :: cs, column =>
    if column < c.span then none else (startingAt? cs (column - c.span)).map (· + 1)

-- The column at which the cell at a place starts.
def start : List (Cell Block) → Nat → Nat
  | c :: cs, place + 1 => c.span + start cs place
  | _, _               => 0

-- Lets a cell grow over the cells after it until it covers `span` columns. Returns the grown cell, the
-- contents of the cells that vanish, and the cells that stay.
def absorb (span : Nat) (c : Cell Block) :
    List (Cell Block) → Except Fault (Cell Block × List (Cell Block) × List (Cell Block))
  | []           => if c.span < span then .error .tooFewColumns else .ok (c, [], [])
  | next :: rest =>
    if c.span < span then
      if span < c.span + next.span then .error .spanNotRectangular
      else do
        let wider ← c.widen next
        let (grown, vanished, stays) ← absorb span wider rest
        return (grown, next :: vanished, stays)
    else .ok (c, [], next :: rest)

end Row

-- Where a cell stands in a grid.
structure Position where
  row   : Nat
  place : Nat
deriving DecidableEq

namespace Grid

def blank (rows columns : Nat) (width : Int) : Grid :=
  List.replicate rows (List.replicate columns { width, content := [.empty] })

def cell? (g : Grid) (p : Position) : Option (Cell Block) :=
  (g[p.row]?).bind (·[p.place]?)

def setCell (g : Grid) (p : Position) (c : Cell Block) : Grid :=
  g.modify p.row (·.set p.place c)

-- The cell of a row that covers a column.
def inRow? (g : Grid) (row column : Nat) : Option (Position × Cell Block) := do
  let cells ← g[row]?
  let place ← Row.covering? cells column
  let c ← cells[place]?
  return (⟨row, place⟩, c)

-- The cell that covers a column of a row, where a cell that is continued stands for the one above it.
def covering? (g : Grid) (column : Nat) : Nat → Option Position
  | 0       => (g.inRow? 0 column).map (·.1)
  | row + 1 =>
    match g.inRow? (row + 1) column with
    | none        => none
    | some (p, c) => if c.stacking = some .continued then covering? g column row else some p

-- Cells are numbered row by row, `columns` in each row, and from the end of the grid below zero. So a
-- column beyond the last one of its row is a column of a following row.
def numbered? (g : Grid) (columns : Nat) (number : Int) : Except Fault Position :=
  if !isIndex number then .error .cellNumberTooLarge
  else
    let size : Int := g.length * columns
    let n := if number < 0 then number + size else number
    let found := if n < 0 ∨ size ≤ n then none
      else g.covering? (n.toNat % columns) (n.toNat / columns)
    match found with
    | some p => .ok p
    | none   => .error .noSuchCell

-- The rectangle of rows and columns that a cell covers. The ends are exclusive.
structure Area where
  top    : Nat
  bottom : Nat
  left   : Nat
  right  : Nat
deriving DecidableEq

-- How many of the rows continue a cell that starts at a column.
def continuedRows (column : Nat) : Grid → Except Fault Nat
  | []          => .ok 0
  | row :: rows =>
    match Row.startingAt? row column with
    | none       => .error (.noCellAtColumn column)
    | some place =>
      if (row[place]?).bind (·.stacking) = some .continued then (· + 1) <$> continuedRows column rows
      else .ok 0

def area (g : Grid) (p : Position) : Except Fault Area := do
  let row := g.getD p.row []
  let left := Row.start row p.place
  let (span, stacking) := match row[p.place]? with
    | some c => (c.span, c.stacking)
    | none   => (1, none)
  let more ← if stacking = none then pure 0 else continuedRows left (g.drop (p.row + 1))
  return { top := p.row, bottom := p.row + 1 + more, left, right := left + span }

-- Two cells that start in one row have to end in one row, likewise for columns, and neither may lie
-- inside the rows or the columns of the other.
def checkCorners (a b : Area) : Except Fault Unit := do
  if a.top = b.top ∧ a.bottom ≠ b.bottom then .error .cornersNotRectangular
  if a.left = b.left ∧ a.right ≠ b.right then .error .cornersNotRectangular
  let (upper, lower) := if a.top < b.top then (a, b) else (b, a)
  if upper.top < lower.top ∧ lower.bottom < upper.bottom then .error .cornersNotRectangular
  let (first, second) := if a.left < b.left then (a, b) else (b, a)
  if first.left < second.left ∧ second.right < first.right then .error .cornersNotRectangular

-- The cells below the first row of a merged rectangle hand their content to its first cell and stay
-- as its continuation.
def growBelow (left span : Nat) (rows : Nat) (top : Cell Block) :
    Grid → Except Fault (Cell Block × Grid)
  | []        => .ok (top, [])
  | row :: below =>
    match rows with
    | 0         => .ok (top, row :: below)
    | rows' + 1 =>
      match Row.startingAt? row left with
      | none       => .error (.noCellAtColumn left)
      | some place => do
        let own := row.getD place { width := 0, content := [] }
        let (grown, vanished, stays) ← Row.absorb span own (row.drop (place + 1))
        let moved := (own :: vanished).filter (!·.isVacant)
        let kept := if own.isVacant then grown.content else [.empty]
        let rest := { grown with content := kept, stacking := some .continued } :: stays
        let (top, below) ← growBelow left span rows' (moved.foldl (·.receive ·.content) top) below
        return (top, (row.take place ++ rest) :: below)

-- Merges the rectangle that has two cells at its corners.
def merge (g : Grid) (p q : Position) : Except Fault (Grid × Position) := do
  let a ← g.area p
  let b ← g.area q
  checkCorners a b
  let first := min a.top b.top
  let left  := min a.left b.left
  let rows  := max a.bottom b.bottom - first
  let span  := max a.right b.right - left
  let row := g.getD first []
  match Row.startingAt? row left with
  | none       => .error (.noCellAtColumn left)
  | some place =>
    let own := row.getD place { width := 0, content := [] }
    let (grown, vanished, stays) ← Row.absorb span own (row.drop (place + 1))
    let moved := vanished.filter (!·.isVacant)
    let full := moved.foldl (·.receive ·.content) grown
    let stacking := if rows = 1 then none else some Stacking.start
    let (top, below) ← growBelow left span (rows - 1) { full with stacking } (g.drop (first + 1))
    return (g.take first ++ (row.take place ++ top :: stays) :: below, ⟨first, place⟩)

-- The cell for a cell of the tree that starts at a column. If it spans more than one, the cells up to
-- the last one are merged first.
def placed (g : Grid) (columns row : Nat) (column span : Int) :
    Except Fault (Grid × Position) := do
  let number := (row * columns : Nat) + column
  let p ← g.numbered? columns number
  if 1 < span then
    let q ← g.numbered? columns (number + span - 1)
    g.merge p q
  else return (g, p)

end Grid
end DefectLog.Word
