import DefectLog.Preview.Story

-- A preview as lines of text: the markup of its paragraphs in reading order.
namespace DefectLog.Preview

mutual
def Flowable.lines : Flowable → List String
  | .text t  => [t.markup]
  | .rule _  => ["<hr/>"]
  | .gap _   => [""]
  | .table m => linesOfRows m.entries
def linesOfRows : List (List (List Flowable)) → List String
  | []          => []
  | row :: rows => linesOfRow row ++ linesOfRows rows
def linesOfRow : List (List Flowable) → List String
  | []           => []
  | entry :: row => linesOfEntry entry ++ linesOfRow row
def linesOfEntry : List Flowable → List String
  | []      => []
  | f :: fs => f.lines ++ linesOfEntry fs
end

def Package.lines (p : Package) : List String :=
  linesOfEntry p.story

end DefectLog.Preview
