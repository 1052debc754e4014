import DefectLog.Color
import DefectLog.Text.Numeral
import DefectLog.Word.Fault

namespace DefectLog.Word

def channel (text : List Char) : Except Fault Int :=
  match Text.Numeral.hexadecimal.parse text with
  | some n => .ok n
  | none   => .error (.notHexadecimal (String.ofList text))

-- Two characters for red, two for green, and the rest for blue. All three are read before any of them
-- is found to be out of range.
def readColor (text : String) : Except Fault Rgb := do
  let cs := text.toList
  let red   ← channel (cs.take 2)
  let green ← channel ((cs.drop 2).take 2)
  let blue  ← channel (cs.drop 4)
  match Rgb.ofChannels? red green blue with
  | some color => return color
  | none       => .error .channelOutOfRange

end DefectLog.Word
