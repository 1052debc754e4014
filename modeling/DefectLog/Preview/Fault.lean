import DefectLog.Text.Numeral

namespace DefectLog.Preview

-- Why a document has no preview.
inductive Fault
  | numberTooLarge
  | notHexadecimal (text : String)
  | refusedColor
  | emptyTable
  | noColumnWidths
  | spanTooLarge
deriving DecidableEq

-- A refused color and an empty table are reported without a text of their own.
def Fault.message? : Fault → Option String
  | .numberTooLarge => some "int too large to convert to float"
  | .notHexadecimal text => some (Text.Numeral.hexadecimal.refusal text)
  | .refusedColor => none
  | .emptyTable => none
  | .noColumnWidths => some "list index out of range"
  | .spanTooLarge => some "cannot fit 'int' into an index-sized integer"

end DefectLog.Preview
