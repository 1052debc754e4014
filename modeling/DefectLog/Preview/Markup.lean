import DefectLog.Document.Tree
import DefectLog.Number.Shortest
import DefectLog.Preview.Font
import DefectLog.Preview.Points

namespace DefectLog.Preview.Markup

def escapeChar (c : Char) : List Char :=
  if c = '&' then "&amp;".toList
  else if c = '<' then "&lt;".toList
  else if c = '>' then "&gt;".toList
  else [c]

-- Spaces at the start of a text are kept, since a paragraph would drop them.
def text (s : List Char) : List Char :=
  (s.takeWhile (· = ' ')).flatMap (fun _ => "&nbsp;".toList) ++
    (s.dropWhile (· = ' ')).flatMap escapeChar

def wrap (tag : String) (on : Bool) (s : List Char) : List Char :=
  if on then "<".toList ++ tag.toList ++ ">".toList ++ s ++ "</".toList ++ tag.toList ++ ">".toList
  else s

def named (name value : String) : List Char :=
  " ".toList ++ name.toList ++ "=\"".toList ++ value.toList ++ "\"".toList

-- An empty font counts as none, and so does an empty color.
def fontOf (defaultFont : String) (run : Run) : String :=
  (Family.ofName ((run.font.filter (· ≠ "")).getD defaultFont)).regular

def colorOf (run : Run) : Option String :=
  run.color.filter (· ≠ "")

-- One `font` element for each run. Inside of it bold type encloses nothing but text, and italic type
-- encloses bold type.
def ofRun (defaultFont : String) (run : Run) : Except Fault (List Char) := do
  let size ← ofHalfPoints run.size
  let attributes := named "name" (fontOf defaultFont run) ++
    named "size" (Number.shortest size) ++
    match colorOf run with
    | none       => []
    | some color => named "color" ("#" ++ color)
  let content := wrap "i" run.italic (wrap "b" run.bold (text run.text.toList))
  return "<font".toList ++ attributes ++ ">".toList ++ content ++ "</font>".toList

def ofRuns (defaultFont : String) (runs : List Run) : Except Fault (List Char) :=
  List.flatten <$> runs.mapM (ofRun defaultFont)

end DefectLog.Preview.Markup
