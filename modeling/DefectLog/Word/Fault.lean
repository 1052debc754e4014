import DefectLog.Text.Numeral
import DefectLog.Word.Selector.Basic

namespace DefectLog.Word

-- Why a document cannot be written.
inductive Fault
  | illegalText
  | notHexadecimal (text : String)
  | channelOutOfRange
  | lengthOutOfRange (least greatest value : Int)
  | sizeTooLarge
  | sizeInfinite
  | lengthTooLarge
  | noSuchCell
  | cellNumberTooLarge
  | cornersNotRectangular
  | tooFewColumns
  | spanNotRectangular
  | noCellAtColumn (column : Nat)
  | badSelector (f : Selector.Fault)
  | selectsTruth
  | selectsNumber
  | selectsNoStyle
  | repeatedStyle (name : String)
  | unknownStyle (name : String)
deriving DecidableEq

namespace Fault

def message : Fault → String
  | .illegalText =>
    "All strings must be XML compatible: Unicode or ASCII, no NULL bytes or control characters"
  | .notHexadecimal text => Text.Numeral.hexadecimal.refusal text
  | .channelOutOfRange => "RGBColor() takes three integer values 0-255"
  | .lengthOutOfRange least greatest value =>
    s!"value must be in range {least} to {greatest} inclusive, got {value}"
  | .sizeTooLarge => "integer division result too large for a float"
  | .sizeInfinite => "cannot convert float infinity to integer"
  | .lengthTooLarge => "int too large to convert to float"
  | .noSuchCell => "list index out of range"
  | .cellNumberTooLarge => "cannot fit 'int' into an index-sized integer"
  | .cornersNotRectangular => "requested span not rectangular"
  | .tooFewColumns => "not enough grid columns"
  | .spanNotRectangular => "span is not rectangular"
  | .noCellAtColumn column => s!"no `tc` element at grid_offset={column}"
  | .badSelector f => f.message
  | .selectsTruth => "'bool' object is not iterable"
  | .selectsNumber => "'float' object is not iterable"
  | .selectsNoStyle => "'CT_String' object has no attribute 'type'"
  | .repeatedStyle name => s!"document already contains style '{name}'"
  | .unknownStyle name => Text.quoted ("no style with name '" ++ name ++ "'")

end Fault
end DefectLog.Word
