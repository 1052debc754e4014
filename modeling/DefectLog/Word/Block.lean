import DefectLog.Word.Paragraph

namespace DefectLog.Word

-- What is appended to the properties of a cell each time a cell of the tree is written into it.
inductive Finish
  | borders (top left bottom right : Rule)
  | shading (pattern fill : String)
  | margins (m : Margins)
deriving DecidableEq

-- A cell that covers several rows starts in the first of them and is continued in the others.
inductive Stacking
  | start
  | continued
deriving DecidableEq

-- A cell covers `span` columns. Its content has at least one block.
structure Cell (β : Type) where
  width    : Int
  span     : Nat := 1
  stacking : Option Stacking := none
  finishes : List Finish := []
  content  : List β
deriving DecidableEq

structure Table (β : Type) where
  width   : Int
  columns : List Int
  grid    : List (List (Cell β))
deriving DecidableEq

inductive Block
  | paragraph (p : Paragraph)
  | table (t : Table Block)

-- The rows of a table.
abbrev Grid := List (List (Cell Block))

namespace Block

def empty : Block :=
  .paragraph {}

-- A paragraph without runs, whatever its properties are.
def isVacant : Block → Bool
  | .paragraph p => p.runs.isEmpty
  | .table _     => false

end Block
end DefectLog.Word
