import DefectLog.Report.DefectTable

namespace DefectLog

namespace Sheet

-- The paragraph styles of a document, one for each entry of the headings.
def namedStyles (sheet : Sheet) : List NamedStyle :=
  sheet.headings.entries.map fun (level, look) => {
    styleId      := NamedStyle.headingId level
    name         := s!"Heading {level}"
    size         := look.size
    color        := look.color
    spacing      := look.spacing
    outlineLevel := level - 1
    font         := some sheet.font }

def defaults (sheet : Sheet) : Defaults where
  font        := sheet.font
  size        := sheet.bodySize
  namedStyles := sheet.namedStyles

def page (sheet : Sheet) : Page where
  width   := sheet.pageWidth
  height  := sheet.pageHeight
  margins := sheet.pageMargins

end Sheet

-- A document together with what its assembly writes to the log.
structure Report where
  document : Document
  entries  : List Journal.Entry
deriving DecidableEq

namespace Report

-- An empty closing phrase counts as none.
def closingLine (count : Int) (closing : Option String) : String :=
  let noun := if count = 1 then "bug" else "bugs"
  let text := s!"{count} {noun} fixed"
  match closing with
  | none    => text
  | some "" => text
  | some c  => s!"{text} — {c}"

def opening (sheet : Sheet) (title subtitle : String) : List Block := [
  .paragraph (.title sheet title),
  .paragraph (.subtitle sheet subtitle),
  .paragraph (.divider sheet)]

def entryBlocks (sheet : Sheet) (d : Defect) : List Block := [
  .paragraph (.spacer sheet),
  .table (d.table sheet),
  .paragraph (.spacer sheet)]

def ending (sheet : Sheet) (count : Nat) (closing : Option String) : List Block := [
  .paragraph (.divider sheet),
  .paragraph (.closing sheet (closingLine count closing))]

def body (sheet : Sheet) (title subtitle : String) (closing : Option String) (defects : List Defect) :
    List Block :=
  opening sheet title subtitle ++ defects.flatMap (entryBlocks sheet) ++
    ending sheet defects.length closing

-- The defects appear as they are given. They are not sorted, and repeated numbers stay.
def assemble (sheet : Sheet) (title subtitle : String) (closing : Option String)
    (defects : List Defect) : Report :=
  let body := body sheet title subtitle closing defects
  { document := { defaults := sheet.defaults, page := sheet.page, body }
    entries  := defects.map Defect.tableEntry ++ [{
      level   := Journal.Level.debug
      source  := "BugDoc.DocumentBuilder"
      message := s!"Assembled document: {defects.length} bugs, {body.length} blocks" }] }

theorem length_entries (sheet : Sheet) (defects : List Defect) :
    (defects.flatMap (entryBlocks sheet)).length = 3 * defects.length := by
  induction defects
  case nil         => rfl
  case cons d _ hi =>
    have hd : (entryBlocks sheet d).length = 3 := rfl
    rw [List.flatMap_cons, List.length_append, hi, hd, List.length_cons, Nat.mul_succ, Nat.add_comm]

theorem length_body (sheet : Sheet) (title subtitle : String) (closing : Option String)
    (defects : List Defect) :
    (body sheet title subtitle closing defects).length = 3 * defects.length + 5 := by
  have ho : (opening sheet title subtitle).length = 3 := rfl
  have he : (ending sheet defects.length closing).length = 2 := rfl
  rw [body, List.length_append, List.length_append, length_entries, ho, he, Nat.add_comm 3]

end Report
end DefectLog
