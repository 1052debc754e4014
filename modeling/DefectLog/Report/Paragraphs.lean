import DefectLog.Sheet.Basic
import DefectLog.Document.Basic

namespace DefectLog

namespace Run

def plain (sheet : Sheet) (text : String) : Run :=
  { text, size := sheet.bodySize }

def lead (sheet : Sheet) (text : String) : Run :=
  { text, size := sheet.bodySize, bold := sheet.labelBold }

end Run

def NamedStyle.headingId (level : Int) : String :=
  s!"Heading{level}"

namespace Paragraph

-- The outline level counts from zero, so that navigation panes list the headings.
def heading (sheet : Sheet) (level : Int) (text : String) : Except BuildFault Paragraph :=
  match sheet.headings.look? level with
  | none      => .error (.unsupportedHeading level)
  | some look => .ok {
      runs         := [{ text, size := look.size, color := some look.color, bold := true }]
      spacing      := look.spacing
      styleId      := some (NamedStyle.headingId level)
      outlineLevel := some (level - 1) }

def plain (sheet : Sheet) (text : String) : Paragraph where
  runs    := [.plain sheet text]
  spacing := sheet.bodySpacing

def keyed (sheet : Sheet) (key value : String) : Paragraph where
  runs    := [.lead sheet s!"{key}: ", .plain sheet value]
  spacing := sheet.bodySpacing

-- The text is kept as it is, with the blanks at its start.
def code (sheet : Sheet) (text : String) : Paragraph where
  runs    := [{ text, size := sheet.codeSize, color := some sheet.codeColor,
                font := some sheet.codeFont }]
  spacing := sheet.bodySpacing
  indent  := sheet.codeIndent

-- An empty paragraph whose bottom edge is drawn.
def divider (sheet : Sheet) : Paragraph where
  spacing := sheet.dividerSpacing
  rule    := some sheet.dividerBorder

def spacer (sheet : Sheet) : Paragraph where
  spacing := sheet.spacerSpacing

def title (sheet : Sheet) (text : String) : Paragraph where
  runs      := [{ text, size := sheet.titleSize, color := some sheet.titleColor, bold := true }]
  spacing   := { before := 0, after := 80 }
  alignment := some .center

def subtitle (sheet : Sheet) (text : String) : Paragraph where
  runs      := [{ text, size := sheet.bodySize, color := some sheet.subtitleColor, italic := true }]
  spacing   := { before := 0, after := 320 }
  alignment := some .center

def closing (sheet : Sheet) (text : String) : Paragraph where
  runs      := [{ text, size := sheet.captionSize, color := some sheet.captionColor, italic := true }]
  spacing   := { before := 200, after := 0 }
  alignment := some .center

end Paragraph
end DefectLog
