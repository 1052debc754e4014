namespace DefectLog

-- 22 half-points are 11 points.
abbrev HalfPoints := Int

-- 1440 twips are one inch.
abbrev Twips := Int

-- The length that some lengths have together.
def Twips.total (lengths : List Twips) : Twips :=
  lengths.foldr (· + ·) 0

-- Vertical space around a paragraph.
structure Spacing where
  before : Twips := 0
  after  : Twips := 0
deriving DecidableEq

-- The margins of a cell or a page.
structure Margins where
  top    : Twips := 0
  bottom : Twips := 0
  left   : Twips := 0
  right  : Twips := 0
deriving DecidableEq

-- One edge. The thickness counts eighths of a point.
structure Border where
  style     : String := "single"
  thickness : Int := 1
  color     : String := "DDDDDD"
deriving DecidableEq

-- The four edges of a table cell.
structure Borders where
  top    : Border
  bottom : Border
  left   : Border
  right  : Border
deriving DecidableEq

def Borders.uniform (edge : Border) : Borders :=
  { top := edge, bottom := edge, left := edge, right := edge }

-- A solid background.
structure Shading where
  fill    : String
  pattern : String := "clear"
deriving DecidableEq

end DefectLog
