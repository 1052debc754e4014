import DefectLog.Document.Basic
import DefectLog.Journal.Entry
import DefectLog.Number.Index
import DefectLog.Preview.Flowable
import DefectLog.Preview.Markup
import DefectLog.Preview.Markup.Nesting
import DefectLog.Text.Blank
import DefectLog.Text.Numeral

namespace DefectLog.Preview

open Number

-- Converting blocks numbers the paragraphs with text. The number that was given last stays when a
-- block fails.
abbrev Numbered := ExceptT Fault (StateM Nat)

def readColor (text : String) : Except Fault Rgb :=
  match Text.Numeral.hexadecimal.parse text.toList with
  | some n => .ok (Rgb.ofInt n)
  | none   => .error (.notHexadecimal text)

-- The color of a run has to be a number, but any number will do. Blanks and character references in it
-- are those of markup.
def checkColor (run : Run) : Except Fault Unit :=
  match Markup.colorOf run with
  | none      => .ok ()
  | some text =>
    let value := text.toList.map fun c => if Text.isBlank c then ' ' else c
    if Markup.isColor ('#' :: Text.Reference.resolve value) then .ok () else .error .refusedColor

-- Whether a color closes the quotation marks around it, so that it may go on with markup of its own.
def breaksOut (run : Run) : Bool :=
  (Markup.colorOf run).any ('"' ∈ ·.toList)

-- If no color breaks out then the colors decide, and if one does then the markup as a whole.
def checkMarkup (runs : List Run) (markup : List Char) : Except Fault Unit :=
  if runs.any breaksOut then
    if Markup.isWellNested markup then .ok () else .error .refusedColor
  else runs.forM (checkColor ·)

def largestSize (runs : List Run) : Except Fault (Option Rat) :=
  largest? <$> runs.mapM (ofHalfPoints ·.size)

def flowRule (p : Paragraph) (border : Border) : Except Fault Flowable := do
  let thickness ← ofEighths border.thickness
  let color ← readColor border.color
  let before ← ofTwips p.spacing.before
  let after ← ofTwips p.spacing.after
  return .rule { thickness, color, before, after }

-- A blank line keeps the room that it takes on the page.
def flowGap (p : Paragraph) : Except Fault Flowable := do
  let size ← largestSize p.runs
  let line := (size.map leading).getD 0
  let space ← ofTwips (p.spacing.before + p.spacing.after)
  return .gap (nearest (space + line))

-- The number is given once the markup is there, and is used up even if something fails after that. The default size
-- is converted even where the runs have sizes of their own.
def flowText (defaults : Defaults) (p : Paragraph) : Numbered Flowable := do
  let markup ← Markup.ofRuns defaults.font p.runs
  let number ← modifyGet fun n => (n + 1, n + 1)
  let other ← ofHalfPoints defaults.size
  let largest ← largestSize p.runs
  let size := largest.getD other
  let before ← ofTwips p.spacing.before
  let after ← ofTwips p.spacing.after
  let indent ← ofTwips p.indent
  checkMarkup p.runs markup
  return .text {
    markup := String.ofList markup, number, size, leading := leading size, before, after, indent
    font      := (Family.ofName defaults.font).regular
    alignment := p.alignment.getD .left }

-- A rule hides the text of its paragraph.
def flowParagraph (defaults : Defaults) (p : Paragraph) : Numbered Flowable :=
  match p.rule with
  | some border => flowRule p border
  | none        => if Text.allBlank p.text then flowGap p else flowText defaults p

-- The blank entries after the one in which a cell starts.
def restOfSpan (span : Int) : Except Fault (List (List Flowable)) :=
  if isIndex (span - 1) then .ok (List.replicate (span - 1).toNat []) else .error .spanTooLarge

-- Only the top edge of the borders counts.
def directives (c : Cell Block) (row : Nat) (column : Int) : Except Fault (List Directive) := do
  let directive (effect : Effect) : Directive :=
    { first := (column, row), last := (column + c.span - 1, row), effect }
  let background ← c.shading.mapM fun s => Effect.background <$> readColor s.fill
  let box ← c.borders.mapM fun b => do
    let thickness ← ofEighths b.top.thickness
    let color ← readColor b.top.color
    return Effect.box thickness color
  let top ← ofTwips c.margins.top
  let bottom ← ofTwips c.margins.bottom
  let left ← ofTwips c.margins.left
  let right ← ofTwips c.margins.right
  let effects : List Effect := (if 1 < c.span then [.span] else []) ++ background.toList ++
    box.toList ++
    [.padding .top top, .padding .bottom bottom, .padding .left left, .padding .right right]
  return effects.map directive

-- A matrix needs an entry in some row, and a column width if there is one.
def matrix (entries : List (List (List Flowable))) (columnWidths : List Rat)
    (directives : List Directive) : Except Fault (Matrix Flowable) :=
  if entries.all (·.isEmpty) then .error .emptyTable
  else if columnWidths.isEmpty then .error .noColumnWidths
  else .ok {
    entries, columnWidths
    directives := { first := (0, 0), last := (-1, -1), effect := .alignTop } :: directives }

mutual
def flowBlock (defaults : Defaults) : Block → Numbered Flowable
  | .paragraph p => flowParagraph defaults p
  | .table t     => do
    let (entries, directives) ← flowRows defaults t.columnWidths.length 0 t.rows
    let columnWidths ← t.columnWidths.mapM (ofTwips ·)
    let m ← matrix entries columnWidths directives
    return .table m
termination_by structural b => b
-- A row is filled up with blank entries. One that is too long stays so.
def flowRows (defaults : Defaults) (columns row : Nat) :
    List (List (Cell Block)) → Numbered (List (List (List Flowable)) × List Directive)
  | []            => return ([], [])
  | cells :: rows => do
    let (entries, directives) ← flowCells defaults row 0 cells
    let (more, moreDirectives) ← flowRows defaults columns (row + 1) rows
    return ((entries ++ List.replicate (columns - entries.length) []) :: more,
      directives ++ moreDirectives)
termination_by structural rows => rows
def flowCells (defaults : Defaults) (row : Nat) (column : Int) :
    List (Cell Block) → Numbered (List (List Flowable) × List Directive)
  | []         => return ([], [])
  | c :: cells => do
    let flowables ← flowBlocks defaults c.blocks
    let rest ← restOfSpan c.span
    let own ← directives c row column
    let (entries, more) ← flowCells defaults row (column + c.span) cells
    return (flowables :: rest ++ entries, own ++ more)
termination_by structural cells => cells
def flowBlocks (defaults : Defaults) : List Block → Numbered (List Flowable)
  | []      => return []
  | b :: bs => do
    let f ← flowBlock defaults b
    let fs ← flowBlocks defaults bs
    return f :: fs
termination_by structural bs => bs
end

-- Converts one block after `count` paragraphs with text. Returns their number after it as well.
def step (defaults : Defaults) (count : Nat) (b : Block) : Except Fault Flowable × Nat :=
  (flowBlock defaults b).run count

def story (document : Document) : Except Fault (List Flowable) :=
  ((flowBlocks document.defaults document.body).run 0).1

-- The geometry of the pages, in points, and what flows onto them.
structure Package where
  width  : Rat
  height : Rat
  left   : Rat
  right  : Rat
  top    : Rat
  bottom : Rat
  story  : List Flowable

structure Rendering where
  package : Package
  entries : List Journal.Entry

-- The story has been used up by the time it is counted, and so the count is always zero.
def renderedEntry : Journal.Entry where
  level   := Journal.Level.debug
  source  := "BugDoc.PDFExport"
  message := "PDF rendered: 0 flowables, N bytes"

def render (document : Document) : Except Fault Rendering := do
  let page := document.page
  let width ← ofTwips page.width
  let height ← ofTwips page.height
  let left ← ofTwips page.margins.left
  let right ← ofTwips page.margins.right
  let top ← ofTwips page.margins.top
  let bottom ← ofTwips page.margins.bottom
  let story ← story document
  return { package := { width, height, left, right, top, bottom, story }, entries := [renderedEntry] }

end DefectLog.Preview
