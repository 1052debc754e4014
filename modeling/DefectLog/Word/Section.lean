import DefectLog.Document.Basic
import DefectLog.Word.Length

namespace DefectLog.Word

-- The geometry of the pages, as it is written.
structure Section where
  width  : Int
  height : Int
  top    : Int
  bottom : Int
  left   : Int
  right  : Int
deriving DecidableEq

namespace Section

def ofPage (page : Page) : Except Fault Section := do
  let width ← lengthText page.width
  let height ← lengthText page.height
  let top ← offsetText page.margins.top
  let bottom ← offsetText page.margins.bottom
  let left ← lengthText page.margins.left
  let right ← lengthText page.margins.right
  return { width, height, top, bottom, left, right }

-- The width between the side margins, in EMU. A width of zero counts as 8.5 inches and a margin of zero
-- as one inch.
def room (s : Section) : Int :=
  let orElse (length : Int) (fallback : Int) := if length = 0 then fallback else Emu.ofTwips length
  orElse s.width (Emu.inch * 17 / 2) - orElse s.left Emu.inch - orElse s.right Emu.inch

end Section
end DefectLog.Word
