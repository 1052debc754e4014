import DefectLog.Word.StyleBook

namespace DefectLog.Word

-- One line under a paragraph.
structure Rule where
  style     : String
  thickness : Int
  color     : String
deriving DecidableEq

def Rule.ofBorder (border : Border) : Except Fault Rule := do
  checkText border.style
  checkText border.color
  return { style := border.style, thickness := border.thickness, color := border.color }

-- An empty paragraph has no properties and no runs.
structure Paragraph where
  style        : Option String := none
  rules        : List Rule := []
  spacing      : Option (Int × Int) := none
  indent       : Option Int := none
  alignment    : Option Alignment := none
  outlineLevel : Option Int := none
  runs         : List Run := []
deriving DecidableEq

namespace Paragraph

-- The reference that a paragraph of the tree gets in place of the one it had, and the style id if it
-- resolves to nothing.
def restyle (book : StyleBook) (styleId : Option String) (old : Option String) :
    Except Fault (Option String × List String) :=
  match nonempty? styleId with
  | none    => .ok (old, [])
  | some id =>
    match book.nameOf? id with
    | some name => (book.reference? name).map (·, [])
    | none      => .ok (old, [id])

-- Writes a paragraph of the tree into a paragraph of the document. What the latter holds already stays
-- unless it is set again, and the runs follow those that are there.
def write (book : StyleBook) (source : DefectLog.Paragraph) (p : Paragraph) :
    Except Fault (Paragraph × List String) := do
  let (style, unresolved) ← restyle book source.styleId p.style
  let rules ← source.rule.mapM Rule.ofBorder
  let before ← lengthText source.spacing.before
  let after ← lengthText source.spacing.after
  let indent ← if source.indent = 0 then pure none else some <$> offsetText source.indent
  let runs ← source.runs.mapM Run.ofTree
  return ({
    style
    rules        := p.rules ++ rules.toList
    spacing      := some (before, after)
    indent       := indent.or p.indent
    alignment    := source.alignment.or p.alignment
    outlineLevel := source.outlineLevel.or p.outlineLevel
    runs         := p.runs ++ runs }, unresolved)

end Paragraph
end DefectLog.Word
