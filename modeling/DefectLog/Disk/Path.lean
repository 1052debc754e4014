namespace DefectLog

-- Where a path starts. Exactly two slashes at the start differ from one.
inductive Anchor
  | here
  | root
  | doubleRoot
deriving DecidableEq

def Anchor.text : Anchor → String
  | .here       => ""
  | .root       => "/"
  | .doubleRoot => "//"

-- The parts of a path are neither empty nor a single dot. A part may be two dots, which are kept.
structure Path where
  anchor : Anchor
  parts  : List String
deriving DecidableEq

namespace Path

-- The stretches between slashes.
def segments : List Char → List (List Char)
  | []      => [[]]
  | c :: cs =>
    if c = '/' then [] :: segments cs
    else match segments cs with
      | []      => [[c]]
      | s :: ss => (c :: s) :: ss

def anchorOf : List Char → Anchor
  | '/' :: '/' :: '/' :: _ => .root
  | '/' :: '/' :: _        => .doubleRoot
  | '/' :: _               => .root
  | _                      => .here

def ofText (s : String) : Path where
  anchor := anchorOf s.toList
  parts  := ((segments s.toList).filter fun s => s ≠ [] && s ≠ ['.']).map String.ofList

def text (p : Path) : String :=
  let joined := p.anchor.text ++ "/".intercalate p.parts
  if joined = "" then "." else joined

-- A path without parts is its own parent.
def parent (p : Path) : Path :=
  { p with parts := p.parts.dropLast }

example : (ofText "a//b/./c/").text = "a/b/c" ∧ (ofText "").text = "." := by decide +kernel

example : (ofText "///x").text = "/x" ∧ (ofText "//x").text = "//x" := by decide +kernel

end Path
end DefectLog
