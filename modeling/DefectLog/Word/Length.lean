import DefectLog.Number.Nearest
import DefectLog.Sheet.Frame
import DefectLog.Word.Fault

-- Lengths are held in English Metric Units, of which an inch has 914400, a point 12700 and a twip 635.
-- They are written in half-points or twips.
namespace DefectLog.Word

open Number

namespace Emu

def inch : Int := 914400

-- Half of the size in points is taken first. The product with the units of a point loses the part
-- behind the point.
def ofHalfPoints (size : HalfPoints) : Except Fault Int :=
  let points := nearest (size / 2)
  if !isFinite points then .error .sizeTooLarge
  else
    let emu := nearest (points * 12700)
    if !isFinite emu then .error .sizeInfinite else .ok (truncate emu)

def toHalfPoints (emu : Int) : HalfPoints :=
  truncate (nearest (nearest emu / 12700) * 2)

def ofTwips (length : Twips) : Int :=
  length * 635

def toTwips (emu : Int) : Twips :=
  roundHalfEven (nearest (nearest emu / 635))

end Emu

def checkRange (least greatest value : Int) : Except Fault Unit :=
  if least ≤ value ∧ value ≤ greatest then .ok () else .error (.lengthOutOfRange least greatest value)

-- The range of a size, and of a length that cannot be negative.
def checkUnsigned (value : Int) : Except Fault Unit :=
  checkRange 0 18446744073709551615 value

def checkSigned (value : Int) : Except Fault Unit :=
  checkRange (-2147483648) 2147483647 value

-- The number that is written for a font size.
def sizeText (size : HalfPoints) : Except Fault Int := do
  let emu ← Emu.ofHalfPoints size
  checkUnsigned emu
  return Emu.toHalfPoints emu

-- The number that is written for spacing, a column width, or the width or height of a page.
def lengthText (length : Twips) : Except Fault Int := do
  let emu := Emu.ofTwips length
  checkUnsigned emu
  return Emu.toTwips emu

-- The number that is written for an indent or for a margin at the top or bottom of a page.
def offsetText (length : Twips) : Except Fault Int := do
  let emu := Emu.ofTwips length
  checkSigned emu
  return Emu.toTwips emu

-- The number that is written for the width of a cell, given in EMU. Here the number of twips is
-- checked, and not the number of units.
def widthText (emu : Int) : Except Fault Int := do
  if !isFinite (nearest emu) then .error .lengthTooLarge
  let twips := Emu.toTwips emu
  checkSigned twips
  return twips

end DefectLog.Word
