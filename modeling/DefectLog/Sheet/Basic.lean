import DefectLog.Sheet.Headings

namespace DefectLog

namespace Palette

def title      := "1F3864"
def heading1   := "1F3864"
def heading2   := "2E75B6"
def accent     := "2E75B6"
def subtitle   := "666666"
def caption    := "888888"
def code       := "C0392B"
def labelFill  := "F2F2F2"
def headerFill := "1F3864"
def divider    := "CCCCCC"
def border     := "DDDDDD"
def white      := "FFFFFF"

end Palette

-- Everything about the look of a document that can be chosen. The same sheet is passed to every part
-- of a report.
structure Sheet where
  headings        : Headings   := .ofList [
    (1, { size := 28, color := Palette.heading1, spacing := { before := 320, after := 120 } }),
    (2, { size := 24, color := Palette.heading2, spacing := { before := 200, after := 80 } })]
  font            : String     := "Arial"
  bodySize        : HalfPoints := 22
  bodySpacing     : Spacing    := { before := 60, after := 60 }
  labelBold       : Bool       := true
  codeFont        : String     := "Courier New"
  codeSize        : HalfPoints := 18
  codeIndent      : Twips      := 480
  codeColor       : String     := Palette.code
  accentColor     : String     := Palette.accent
  titleSize       : HalfPoints := 40
  titleColor      : String     := Palette.title
  subtitleColor   : String     := Palette.subtitle
  captionSize     : HalfPoints := 20
  captionColor    : String     := Palette.caption
  tableTextSize   : HalfPoints := 20
  headerTextSize  : HalfPoints := 22
  headerFill      : String     := Palette.headerFill
  headerTextColor : String     := Palette.white
  labelFill       : String     := Palette.labelFill
  labelWidth      : Twips      := 1440
  contentWidth    : Twips      := 7920
  headerMargins   : Margins    := { top := 100, bottom := 100, left := 160, right := 160 }
  cellMargins     : Margins    := { top := 80, bottom := 80, left := 160, right := 160 }
  lineSpacing     : Spacing    := { before := 40, after := 40 }
  cellBorder      : Border     := { style := "single", thickness := 1, color := Palette.border }
  dividerBorder   : Border     := { style := "single", thickness := 4, color := Palette.divider }
  dividerSpacing  : Spacing    := { before := 160, after := 160 }
  spacerSpacing   : Spacing    := { before := 160, after := 0 }
  pageWidth       : Twips      := 12240
  pageHeight      : Twips      := 15840
  pageMargins     : Margins    := { top := 1440, bottom := 1440, left := 1440, right := 1440 }
deriving DecidableEq

namespace Sheet

def tableBorders (s : Sheet) : Borders :=
  .uniform s.cellBorder

def columns (s : Sheet) : List Twips :=
  [s.labelWidth, s.contentWidth]

def fullWidth (s : Sheet) : Twips :=
  s.labelWidth + s.contentWidth

theorem total_columns (s : Sheet) : Twips.total s.columns = s.fullWidth := by
  simp [columns, fullWidth, Twips.total]

end Sheet
end DefectLog
