namespace DefectLog.Number

-- A place in a list is counted with 64 bits, one of which is for the sign.
def isIndex (n : Int) : Bool :=
  -9223372036854775808 ≤ n && n < 9223372036854775808

end DefectLog.Number
