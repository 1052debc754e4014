namespace DefectLog

-- One fixed defect: the number it is shown under, a title, and two narratives that read top to bottom.
structure Defect where
  number : Int
  title  : String
  cause  : List String := []
  fix    : List String := []
deriving DecidableEq

end DefectLog
