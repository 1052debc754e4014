import DefectLog.Proofs.Number.Decimal
import DefectLog.Report.Assembly

-- What a report was made of can be read off its document again.
namespace DefectLog

open Number

-- What is left of a text after a start that is known.
theorem Text.drop_append (known rest : String) : (known ++ rest).toList.drop known.length = rest.toList := by
  rw [String.toList_append, ← String.length_toList, List.drop_left]

theorem Paragraph.text_of_runs {p : Paragraph} {text : String} (h : p.runs.map (·.text) = [text]) :
    p.text = text := by
  rw [Paragraph.text, h]
  exact String.empty_append

-- The texts of the paragraphs in a cell.
def Cell.lines (c : Cell Block) : List String :=
  c.paragraphs.map (·.text)

theorem Cell.lines_of_blocks (look : String → Paragraph) (lines : List String) {c : Cell Block}
    (hl : ∀ line, (look line).runs.map (·.text) = [line])
    (h : c.blocks = lines.map fun line => .paragraph (look line)) : c.lines = lines := by
  have hp : c.paragraphs = lines.map look := by
    rw [paragraphs, h, List.filterMap_map]
    exact congrFun List.filterMap_eq_map lines
  rw [Cell.lines, hp, List.map_map]
  exact List.map_id'' (fun line => Paragraph.text_of_runs (hl line)) lines

namespace Defect

-- The number of a headline ends at the first colon, whatever the title holds.
def ofHeadline? (text : String) : Option (Int × String) := do
  let rest := text.toList.drop "Bug #".length
  let number ← (String.ofList (rest.takeWhile (· ≠ ':'))).toInt?
  return (number, String.ofList ((rest.dropWhile (· ≠ ':')).drop ": ".length))

-- The labels say nothing about the defect.
def ofTable? (t : Table Block) : Option Defect :=
  match t.rows.map (·.map Cell.lines) with
  | [[[headline]], [_, cause], [_, fix]] => do
    let (number, title) ← ofHeadline? headline
    return { number, title, cause, fix }
  | _                                    => none

theorem headline_eq (d : Defect) : d.headline = "Bug #" ++ (toString d.number ++ (": " ++ d.title)) := by
  have h : d.headline = "Bug #" ++ toString d.number ++ ": " ++ d.title := rfl
  rw [h, String.append_assoc, String.append_assoc]

theorem ofHeadline?_headline (d : Defect) : ofHeadline? d.headline = some (d.number, d.title) := by
  have hc : ∀ c ∈ (toString d.number).toList, decide (c ≠ ':') = true := fun c hc =>
    decide_eq_true fun h => not_mem_of_not_digit (by decide) (by decide) (h ▸ hc)
  have hn : (toString d.number).toInt? = some d.number := Int.toInt?_repr d.number
  have ht : (": " ++ d.title).toList.takeWhile (· ≠ ':') = [] := by simp
  have hd : (": " ++ d.title).toList.dropWhile (· ≠ ':') = (": " ++ d.title).toList := by simp
  rw [ofHeadline?, headline_eq, Text.drop_append, String.toList_append, List.takeWhile_append_of_pos hc,
    List.dropWhile_append_of_pos hc, ht, hd, Text.drop_append, List.append_nil, String.ofList_toList, hn,
    String.ofList_toList]
  rfl

theorem lines_titleRow (sheet : Sheet) (d : Defect) : (d.titleRow sheet).map Cell.lines = [[d.headline]] := by
  let look (line : String) : Paragraph := {
    runs := [{ text := line, size := sheet.headerTextSize,
               color := some sheet.headerTextColor, bold := true }] }
  rw [titleRow, List.map_singleton, Cell.lines_of_blocks look [d.headline] (fun _ => rfl) rfl]

theorem lines_narrativeRow (sheet : Sheet) (name : String) (lines : List String) :
    (narrativeRow sheet name lines).map Cell.lines = [[name], lines] := by
  let look (line : String) : Paragraph := {
    runs := [{ text := line, size := sheet.tableTextSize,
               color := some sheet.accentColor, bold := true }] }
  rw [narrativeRow, List.map_cons, List.map_singleton, Cell.lines_of_blocks look [name] (fun _ => rfl) rfl,
    Cell.lines_of_blocks (line sheet) lines (fun _ => rfl) rfl]

theorem ofTable?_table (sheet : Sheet) (d : Defect) : ofTable? (d.table sheet) = some d := by
  have hl : (d.table sheet).rows.map (·.map Cell.lines) =
      [[[d.headline]], [["Cause"], d.cause], [["Fix"], d.fix]] := by
    simp only [table, List.map_cons, List.map_nil, lines_titleRow, lines_narrativeRow]
  simp only [ofTable?, hl, ofHeadline?_headline]
  rfl

end Defect

namespace Report

-- What a report is made of, apart from its look. A closing phrase that is missing counts as empty.
structure Source where
  title    : String
  subtitle : String
  closing  : String
  defects  : List Defect
deriving DecidableEq

-- The closing phrase comes after the count and a dash.
def closingOf (count : Int) (line : String) : String :=
  String.ofList (line.toList.drop (closingLine count none ++ " — ").length)

def source? (d : Document) : Option Source := do
  let title ← d.body[0]?.bind Block.paragraph?
  let subtitle ← d.body[1]?.bind Block.paragraph?
  let last ← d.body.getLast?.bind Block.paragraph?
  let defects ← d.tables.mapM Defect.ofTable?
  return { title := title.text, subtitle := subtitle.text, defects
           closing := closingOf defects.length last.text }

variable {sheet : Sheet} {title subtitle : String} {closing : Option String} {defects : List Defect}

-- A closing phrase that is missing is no different from an empty one.
theorem closingLine_eq (count : Int) (closing : Option String) : closingLine count closing =
    if closing.getD "" = "" then closingLine count none
    else closingLine count none ++ " — " ++ closing.getD "" := by
  cases closing
  case none   => rfl
  case some c =>
    by_cases hc : c = ""
    case pos =>
      subst hc
      rfl
    case neg =>
      simp only [closingLine, Option.getD_some, if_neg hc]
      rfl

theorem closingOf_closingLine (count : Int) (closing : Option String) :
    closingOf count (closingLine count closing) = closing.getD "" := by
  rw [closingLine_eq, closingOf]
  split
  case isTrue h =>
    have hl : (closingLine count none).toList.length ≤ (closingLine count none ++ " — ").length := by
      rw [String.length_toList, String.length_append]
      exact Nat.le_add_right _ _
    rw [List.drop_eq_nil_of_le hl, String.ofList_nil, h]
  case isFalse => rw [Text.drop_append, String.ofList_toList]

theorem tables_body : (body sheet title subtitle closing defects).filterMap Block.table? =
    defects.map (·.table sheet) := by
  have he : ∀ d : Defect, (entryBlocks sheet d).filterMap Block.table? = [d.table sheet] := fun _ => rfl
  have ho : (opening sheet title subtitle).filterMap Block.table? = [] := rfl
  have hc : (ending sheet defects.length closing).filterMap Block.table? = [] := rfl
  simp only [body, List.filterMap_append, List.filterMap_flatMap, he, ho, hc, List.nil_append, List.append_nil]
  exact List.map_eq_flatMap.symm

theorem getLast?_body : (body sheet title subtitle closing defects).getLast? =
    some (.paragraph (.closing sheet (closingLine defects.length closing))) := by
  rw [body, List.getLast?_append]
  rfl

theorem mapM_ofTable? (sheet : Sheet) (defects : List Defect) :
    (defects.map (·.table sheet)).mapM Defect.ofTable? = some defects := by
  induction defects
  case nil          => rfl
  case cons d ds hi => simp [Defect.ofTable?_table, hi]

-- The sheet is not needed to read a report.
theorem source?_assemble (sheet : Sheet) (title subtitle : String) (closing : Option String)
    (defects : List Defect) : source? (assemble sheet title subtitle closing defects).document =
      some { title, subtitle, closing := closing.getD "", defects } := by
  have ht : (assemble sheet title subtitle closing defects).document.tables.mapM Defect.ofTable? = some defects := by
    rw [Document.tables, assemble, tables_body, mapM_ofTable?]
  have hl : (assemble sheet title subtitle closing defects).document.body.getLast? = _ := getLast?_body
  have h₀ : (assemble sheet title subtitle closing defects).document.body[0]? =
    some (.paragraph (.title sheet title)) := rfl
  have h₁ : (assemble sheet title subtitle closing defects).document.body[1]? =
    some (.paragraph (.subtitle sheet subtitle)) := rfl
  have hc : (Paragraph.closing sheet (closingLine defects.length closing)).text = _ := Paragraph.text_of_runs rfl
  have htitle : (Paragraph.title sheet title).text = title := Paragraph.text_of_runs rfl
  have hsubtitle : (Paragraph.subtitle sheet subtitle).text = subtitle := Paragraph.text_of_runs rfl
  simp only [source?, ht, hl, h₀, h₁, Option.bind_some, Block.paragraph?, Option.bind_eq_bind, Option.pure_def,
    hc, htitle, hsubtitle, closingOf_closingLine]

-- A document can be read back, so two reports have one document only if they say the same.
theorem document_eq_iff (sheet : Sheet) (title subtitle title' subtitle' : String)
    (closing closing' : Option String) (defects defects' : List Defect) :
    source? (assemble sheet title subtitle closing defects).document =
      some { title, subtitle, closing := closing.getD "", defects } ∧
    ((assemble sheet title subtitle closing defects).document =
        (assemble sheet title' subtitle' closing' defects').document ↔
      title = title' ∧ subtitle = subtitle' ∧ closing.getD "" = closing'.getD "" ∧ defects = defects') := by
  refine ⟨source?_assemble .., ?mp, ?mpr⟩
  case mp =>
    intro h
    have hs := congrArg source? h
    rw [source?_assemble, source?_assemble] at hs
    simpa using hs
  case mpr =>
    rintro ⟨rfl, rfl, hc, rfl⟩
    have hl : closingLine defects.length closing = closingLine defects.length closing' := by
      rw [closingLine_eq, closingLine_eq _ closing', hc]
    simp only [assemble, body, ending, hl]

end Report
end DefectLog
