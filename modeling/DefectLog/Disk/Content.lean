import DefectLog.Preview.Story
import DefectLog.Word.Rendering

namespace DefectLog

-- What a file holds: bytes, or a rendered report. How a report is packed into bytes is left open.
inductive Content
  | bytes (data : List UInt8)
  | word (package : Word.Package)
  | preview (package : Preview.Package)

-- The number of bytes, where it is known.
def Content.sizeText : Content → String
  | .bytes data => toString data.length
  | .word _     => "N"
  | .preview _  => "N"

end DefectLog
