import DefectLog.Document.Tree
import DefectLog.Text.Blank
import DefectLog.Word.Color
import DefectLog.Word.Length

namespace DefectLog.Word

-- The characters of XML 1.0.
def isXmlChar (c : Char) : Bool :=
  let n := c.toNat
  n == 0x09 || n == 0x0A || n == 0x0D || (0x20 ≤ n && n ≤ 0xD7FF) || (0xE000 ≤ n && n ≤ 0xFFFD) ||
  (0x10000 ≤ n && n ≤ 0x10FFFF)

def checkText (s : String) : Except Fault Unit :=
  if s.toList.all isXmlChar then .ok () else .error .illegalText

-- A piece of the content of a run. `kept` marks a stretch that has blanks at its ends, which a reader
-- would drop otherwise.
inductive Piece
  | stretch (text : List Char) (kept : Bool)
  | tab
  | lineBreak
deriving DecidableEq

namespace Piece

def ofStretch (text : List Char) : Piece :=
  .stretch text ((Text.trim text).length < text.length)

-- Puts a character in front of the pieces.
def cons (c : Char) (pieces : List Piece) : List Piece :=
  if c = '\t' then .tab :: pieces
  else if c = '\n' ∨ c = '\r' then .lineBreak :: pieces
  else match pieces with
    | .stretch text _ :: rest => ofStretch (c :: text) :: rest
    | _                       => ofStretch [c] :: pieces

-- Splits a text at tabs and line breaks. Each carriage return is a line break of its own.
def ofText (text : List Char) : List Piece :=
  text.foldr cons []

end Piece

structure Run where
  font   : Option String
  bold   : Bool
  italic : Bool
  color  : Option Rgb
  size   : Int
  pieces : List Piece
deriving DecidableEq

-- An empty color or font counts as none.
def nonempty? (s : Option String) : Option String :=
  s.filter (· ≠ "")

-- The text comes first, then the size, the color and the font.
def Run.ofTree (run : DefectLog.Run) : Except Fault Run := do
  checkText run.text
  let size ← sizeText run.size
  let color ← (nonempty? run.color).mapM readColor
  (nonempty? run.font).forM checkText
  return { font := nonempty? run.font, bold := run.bold, italic := run.italic, color, size
           pieces := Piece.ofText run.text.toList }

end DefectLog.Word
