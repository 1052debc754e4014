import DefectLog.Defect
import DefectLog.Journal.Entry
import DefectLog.Report.Paragraphs

namespace DefectLog

namespace Defect

def headline (d : Defect) : String :=
  s!"Bug #{d.number}: {d.title}"

-- One cell across both columns.
def titleRow (sheet : Sheet) (d : Defect) : List (Cell Block) := [{
  blocks  := [.paragraph {
    runs := [{ text := d.headline, size := sheet.headerTextSize,
               color := some sheet.headerTextColor, bold := true }] }]
  width   := sheet.fullWidth
  margins := sheet.headerMargins
  shading := some { fill := sheet.headerFill }
  borders := some sheet.tableBorders
  span    := 2 }]

def line (sheet : Sheet) (text : String) : Paragraph where
  runs    := [{ text, size := sheet.tableTextSize }]
  spacing := sheet.lineSpacing

-- A label on the left, and on the right one paragraph for each line.
def narrativeRow (sheet : Sheet) (name : String) (lines : List String) : List (Cell Block) := [{
    blocks  := [.paragraph {
      runs := [{ text := name, size := sheet.tableTextSize,
                 color := some sheet.accentColor, bold := true }] }]
    width   := sheet.labelWidth
    margins := sheet.cellMargins
    shading := some { fill := sheet.labelFill }
    borders := some sheet.tableBorders }, {
    blocks  := lines.map (.paragraph <| line sheet ·)
    width   := sheet.contentWidth
    margins := sheet.cellMargins
    borders := some sheet.tableBorders }]

def table (sheet : Sheet) (d : Defect) : Table Block where
  rows         := [d.titleRow sheet, narrativeRow sheet "Cause" d.cause, narrativeRow sheet "Fix" d.fix]
  columnWidths := sheet.columns

def tableEntry (d : Defect) : Journal.Entry where
  level   := Journal.Level.debug
  source  := "bugdoc.reporting.document.layout"
  message := s!"Bug #{d.number} table: {d.cause.length} cause lines, {d.fix.length} fix lines"

end Defect
end DefectLog
