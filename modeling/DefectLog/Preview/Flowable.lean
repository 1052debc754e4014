import DefectLog.Color
import DefectLog.Document.Tree

namespace DefectLog.Preview

-- A paragraph with text. Its style is named after its number.
structure TextFlow where
  markup    : String
  number    : Nat
  font      : String
  size      : Rat
  leading   : Rat
  before    : Rat
  after     : Rat
  indent    : Rat
  alignment : Alignment
deriving DecidableEq

def TextFlow.name (t : TextFlow) : String :=
  s!"Block{t.number}"

-- A line across the page.
structure RuleFlow where
  thickness : Rat
  color     : Rgb
  before    : Rat
  after     : Rat
deriving DecidableEq

inductive Side
  | top
  | bottom
  | left
  | right
deriving DecidableEq

inductive Effect
  | alignTop
  | span
  | background (color : Rgb)
  | box (thickness : Rat) (color : Rgb)
  | padding (side : Side) (amount : Rat)
deriving DecidableEq

-- An effect on a rectangle of cells, given by the column and the row of two corners. A negative number
-- counts from the end.
structure Directive where
  first  : Int × Int
  last   : Int × Int
  effect : Effect
deriving DecidableEq

-- An entry of the matrix without flowables is blank.
structure Matrix (φ : Type) where
  entries      : List (List (List φ))
  columnWidths : List Rat
  directives   : List Directive
deriving DecidableEq

inductive Flowable
  | text (t : TextFlow)
  | rule (r : RuleFlow)
  | gap (height : Rat)
  | table (m : Matrix Flowable)

end DefectLog.Preview
