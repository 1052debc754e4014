import DefectLog.Number.Nearest
import DefectLog.Preview.Fault
import DefectLog.Sheet.Frame

-- Lengths of the preview are points in double precision.
namespace DefectLog.Preview

open Number

-- The quotient of two numbers of double precision, the first of which is an integer.
def quotient (n : Int) (divisor : Rat) : Except Fault Rat :=
  let dividend := nearest n
  if isFinite dividend then .ok (nearest (dividend / divisor)) else .error .numberTooLarge

def ofTwips (length : Twips) : Except Fault Rat :=
  quotient length 20

def ofHalfPoints (size : HalfPoints) : Except Fault Rat :=
  quotient size 2

def ofEighths (thickness : Int) : Except Fault Rat :=
  quotient thickness 8

-- The distance of two lines is this multiple of the font size.
def leadingFactor : Rat :=
  nearest (6 / 5)

def leading (size : Rat) : Rat :=
  nearest (size * leadingFactor)

-- The largest of some sizes, if there is one.
def largest? : List Rat → Option Rat
  | []      => none
  | q :: qs => some (qs.foldl (fun a b => if a ≤ b then b else a) q)

end DefectLog.Preview
