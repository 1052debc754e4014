import DefectLog.Word.Rendering
import DefectLog.Word.Xml

-- How each part of a document is spelled in WordprocessingML.
namespace DefectLog.Word

open Xml

def Piece.xml : Piece → Xml
  | .stretch text kept =>
    .element "w:t" (if kept then [("xml:space", "preserve")] else []) [.chars (String.ofList text)]
  | .tab               => leaf "tab" []
  | .lineBreak         => leaf "br" []

def Run.xml (r : Run) : Xml :=
  let properties := (r.font.map fonts).toList ++ flag "b" r.bold ++ flag "i" r.italic ++
    (r.color.map Xml.color).toList ++ [value "sz" (toString r.size)]
  w "r" [] (w "rPr" [] properties :: r.pieces.map Piece.xml)

-- A rule keeps its distance from the text in a paragraph and none in a cell.
def Rule.xml (side : String) (distance : Nat) (r : Rule) : Xml :=
  leaf side [("val", r.style), ("sz", toString r.thickness), ("space", toString distance),
    ("color", r.color)]

def alignmentText : Alignment → String
  | .left    => "left"
  | .center  => "center"
  | .right   => "right"
  | .justify => "both"

def Paragraph.xml (p : Paragraph) : Xml :=
  let properties := (p.style.map (value "pStyle")).toList ++
    p.rules.map (fun r => w "pBdr" [] [r.xml "bottom" 1]) ++
    (p.spacing.map Xml.spacing).toList ++
    (p.indent.map fun n => leaf "ind" [("left", toString n)]).toList ++
    (p.alignment.map fun a => value "jc" (alignmentText a)).toList ++
    (p.outlineLevel.map outline).toList
  w "p" [] (unlessEmpty "pPr" properties ++ p.runs.map Run.xml)

def Finish.xml : Finish → Xml
  | .borders top left bottom right => w "tcBorders" [] [top.xml "top" 0, left.xml "left" 0,
      bottom.xml "bottom" 0, right.xml "right" 0]
  | .shading pattern fill          =>
    leaf "shd" [("val", pattern), ("color", "auto"), ("fill", fill)]
  | .margins m                     =>
    let side (tag : String) (n : Int) := leaf tag [("w", toString n), ("type", "dxa")]
    w "tcMar" [] [side "top" m.top, side "left" m.left, side "bottom" m.bottom, side "right" m.right]

def Stacking.xml : Stacking → Xml
  | .start     => value "vMerge" "restart"
  | .continued => leaf "vMerge" []

def Cell.properties (c : Cell Block) : Xml :=
  w "tcPr" [] <|
    [leaf "tcW" [("type", "dxa"), ("w", toString c.width)]] ++
    (if c.span = 1 then [] else [value "gridSpan" (toString c.span)]) ++
    (c.stacking.map Stacking.xml).toList ++ c.finishes.map Finish.xml

def tableProperties (width : Int) : Xml :=
  w "tblPr" [] [
    leaf "tblW" [("type", "dxa"), ("w", toString width)],
    leaf "tblLayout" [("type", "fixed")],
    leaf "tblLook" [("firstColumn", "1"), ("firstRow", "1"), ("lastColumn", "0"), ("lastRow", "0"),
      ("noHBand", "0"), ("noVBand", "1"), ("val", "04A0")]]

mutual
def Block.xml : Block → Xml
  | .paragraph p => p.xml
  | .table t     =>
    let columns := t.columns.map fun n => leaf "gridCol" [("w", toString n)]
    w "tbl" [] (tableProperties t.width :: w "tblGrid" [] columns :: rowsXml t.grid)
def rowsXml : List (List (Cell Block)) → List Xml
  | []            => []
  | cells :: rows => w "tr" [] (cellsXml cells) :: rowsXml rows
def cellsXml : List (Cell Block) → List Xml
  | []         => []
  | c :: cells => w "tc" [] (c.properties :: blocksXml c.content) :: cellsXml cells
def blocksXml : List Block → List Xml
  | []      => []
  | b :: bs => b.xml :: blocksXml bs
end

def Section.xml (s : Section) : Xml :=
  w "sectPr" [("rsidR", "00FC693F"), ("rsidRPr", "0006063C"), ("rsidSect", "00034616")] [
    leaf "pgSz" [("w", toString s.width), ("h", toString s.height)],
    leaf "pgMar" [("top", toString s.top), ("right", toString s.right), ("bottom", toString s.bottom),
      ("left", toString s.left), ("header", "720"), ("footer", "720"), ("gutter", "0")],
    leaf "cols" [("space", "720")],
    leaf "docGrid" [("linePitch", "360")]]

namespace Package

def bodyXml (p : Package) : List Xml :=
  blocksXml p.body

-- `Normal`, and then the styles that carry the names of heading styles, each name once. A heading style
-- that was found by its id carries another name, and is left out.
def stylesXml (p : Package) (defaults : Defaults) : List Xml :=
  let names := ("Normal" :: defaults.namedStyles.map (Style.storedName ·.name)).eraseDups
  (names.filterMap fun name => p.book.styles.find? (·.name == name)).map Style.xml

end Package
end DefectLog.Word
