import DefectLog.Sheet.Frame

namespace DefectLog

-- How a heading of one level looks.
structure HeadingLook where
  size    : HalfPoints
  color   : String
  spacing : Spacing
deriving DecidableEq

-- The heading levels of a sheet, lowest first. A level may occur more than once.
structure Headings where
  entries : List (Int × HeadingLook)
  sorted  : entries.Pairwise (·.1 ≤ ·.1)
deriving DecidableEq

namespace Headings

-- Entries of one level keep the order in which they are given.
def ofList (entries : List (Int × HeadingLook)) : Headings where
  entries := entries.mergeSort (·.1 ≤ ·.1)
  sorted  := by
    have h : (entries.mergeSort (·.1 ≤ ·.1)).Pairwise fun a b => decide (a.1 ≤ b.1) = true :=
      List.pairwise_mergeSort (by simp; omega) (by simp; omega) entries
    simpa using h

-- Gives a level its look. A level that is there gets a new one in its place.
def assign (entries : List (Int × HeadingLook)) (entry : Int × HeadingLook) : List (Int × HeadingLook) :=
  if entries.any (·.1 == entry.1) then entries.map fun e => if e.1 = entry.1 then entry else e
  else entries ++ [entry]

-- Assigns one entry after the other, so that no level occurs twice.
def ofAssignments (entries : List (Int × HeadingLook)) : Headings :=
  .ofList (entries.foldl assign [])

-- The first entry of a level counts.
def look? (hs : Headings) (level : Int) : Option HeadingLook :=
  (hs.entries.find? (·.1 == level)).map (·.2)

def levels (hs : Headings) : List Int :=
  hs.entries.map (·.1)

end Headings
end DefectLog
