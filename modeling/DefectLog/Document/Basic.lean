import DefectLog.Document.Tree
import DefectLog.Text.Quoted

namespace DefectLog

-- A paragraph style that is registered once for a whole document.
structure NamedStyle where
  styleId      : String
  name         : String
  size         : HalfPoints
  color        : String
  spacing      : Spacing
  outlineLevel : Int
  font         : Option String := none
  bold         : Bool := true
deriving DecidableEq

structure Defaults where
  font        : String
  size        : HalfPoints
  namedStyles : List NamedStyle := []
deriving DecidableEq

structure Page where
  width   : Twips
  height  : Twips
  margins : Margins
deriving DecidableEq

structure Document where
  defaults : Defaults
  page     : Page
  body     : List Block := []
deriving DecidableEq

-- The tables of the body. Nested tables do not count.
def Document.tables (d : Document) : List (Table Block) :=
  d.body.filterMap Block.table?

-- Why a part of a document cannot be built.
inductive BuildFault
  | unknownAlignment (text : String)
  | unsupportedHeading (level : Int)
deriving DecidableEq

def BuildFault.message : BuildFault → String
  | .unknownAlignment text    => s!"{Text.quoted text} is not a valid Alignment"
  | .unsupportedHeading level => s!"Unsupported heading level: {level}"

def Alignment.parse (text : String) : Except BuildFault Alignment :=
  match Alignment.ofText? text with
  | some a => .ok a
  | none   => .error (.unknownAlignment text)

end DefectLog
