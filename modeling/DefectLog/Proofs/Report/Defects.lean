import DefectLog.Proofs.Report.Sequence
import DefectLog.Proofs.Word.Reading
import DefectLog.Proofs.Word.Shown
import DefectLog.Proofs.Word.Written

-- Each defect of a report is found again in the document, with all that it says.
namespace DefectLog

open Word Success

variable {book : StyleBook} {room : Int}

-- A cell with a paragraph for each line, or with an empty one if there are no lines.
def ShowsLines (lines : List String) (x : Xml) : Prop :=
  ∃ properties ps, x.children = properties :: ps ∧ properties.tag? = some "w:tcPr" ∧
    (lines = [] → ∃ p, ps = [p] ∧ p.tag? = some "w:p" ∧ p.named "w:r" = []) ∧
    (lines ≠ [] → List.Forall₂ Xml.Reads lines ps)

-- A row with a label and lines beside it.
def ShowsNarrative (label : String) (lines : List String) (x : Xml) : Prop :=
  ∃ left right, x.named "w:tc" = [left, right] ∧ ShowsLines [label] left ∧ ShowsLines lines right

structure ShowsDefect (d : Defect) (x : Xml) : Prop where
  tag  : x.tag? = some "w:tbl"
  rows : ∃ top cause fix, x.named "w:tr" = [top, cause, fix] ∧
    (∃ c, top.named "w:tc" = [c] ∧ ShowsLines [s!"Bug #{d.number}: {d.title}"] c) ∧
    ShowsNarrative "Cause" d.cause cause ∧ ShowsNarrative "Fix" d.fix fix

-- A paragraph for each line, each with one run.
theorem reads_of_sequel {look : String → Paragraph} {lines : List String} {content : List Word.Block}
    (hl : ∀ line, (look line).runs.map (·.text) = [line])
    (h : Sequel book room (lines.map fun line => .paragraph (look line)) content) :
    List.Forall₂ Xml.Reads lines (content.map Word.Block.xml) := by
  induction lines generalizing content
  case nil =>
    cases h
    exact .nil
  case cons line lines hi =>
    cases h
    case paragraph p unresolved content hp h =>
      refine .cons ⟨rfl, ?_⟩ (hi h)
      have ht : p.xml.text = ((look line).runs.map (·.text)).flatMap unified := by
        rw [Word.Paragraph.text_of_write hp, List.flatMap_map]
      exact ht.trans (by rw [hl, List.flatMap_singleton])

theorem showsLines_of_holds (look : String → Paragraph) {lines : List String}
    {source : DefectLog.Cell DefectLog.Block} {c : Word.Cell Word.Block}
    (hl : ∀ line, (look line).runs.map (·.text) = [line])
    (hs : source.blocks = lines.map fun line => .paragraph (look line)) (h : Holds book source c) :
    ShowsLines lines c.xml := by
  have hc := h.content
  rw [hs] at hc
  refine ⟨c.properties, c.content.map Word.Block.xml, ?children, rfl, ?empty, ?lines⟩
  case children =>
    rw [← blocksXml_eq_map]
    rfl
  case empty =>
    rintro rfl
    generalize c.content = content at hc
    cases hc
    exact ⟨_, rfl, rfl, rfl⟩
  case lines =>
    intro hn
    cases lines
    case nil => contradiction
    case cons line lines =>
      generalize c.content = content at hc
      cases hc
      case paragraph hc => exact reads_of_sequel hl hc

namespace Defect

variable {sheet : Sheet} {d : Defect} {blank : Int} {cells : List (Word.Cell Word.Block)}

-- Each row asks for both columns.
theorem extent_table (sheet : Sheet) (d : Defect) : ∀ cells ∈ (d.table sheet).rows,
    (∀ c ∈ cells, 1 ≤ c.span) ∧ Table.extent cells = (d.table sheet).columnWidths.length := by
  intro cells hm
  simp only [table, List.mem_cons, List.not_mem_nil, or_false] at hm
  rcases hm with rfl | rfl | rfl <;> simp [titleRow, narrativeRow, Table.extent, table, Sheet.columns]

theorem fits_table (sheet : Sheet) (d : Defect) : (d.table sheet).Fits :=
  fun cells hm => ⟨(extent_table sheet d cells hm).left, (extent_table sheet d cells hm).right.le⟩

theorem shown_titleRow (h : HoldsRow book 2 blank (d.titleRow sheet) cells) :
    ∃ c, (rowXml cells).named "w:tc" = [c] ∧ ShowsLines [s!"Bug #{d.number}: {d.title}"] c := by
  have hc := holds_of_holdsRow rfl h
  cases hc
  case cons c _ hc hn =>
    cases hn
    refine ⟨c.xml, named_tc_rowXml [c], ?_⟩
    exact showsLines_of_holds (fun line => {
      runs := [{ text := line, size := sheet.headerTextSize,
                 color := some sheet.headerTextColor, bold := true }] }) (fun _ => rfl) rfl hc

theorem shown_narrativeRow {label : String} {lines : List String}
    (h : HoldsRow book 2 blank (narrativeRow sheet label lines) cells) :
    ShowsNarrative label lines (rowXml cells) := by
  have hc := holds_of_holdsRow rfl h
  cases hc
  case cons left _ hl hn =>
    cases hn
    case cons right _ hr hn =>
      cases hn
      refine ⟨left.xml, right.xml, named_tc_rowXml [left, right], ?label, ?lines⟩
      case label =>
        exact showsLines_of_holds (fun line => {
          runs := [{ text := line, size := sheet.tableTextSize,
                     color := some sheet.accentColor, bold := true }] }) (fun _ => rfl) rfl hl
      case lines => exact showsLines_of_holds (line sheet) (fun _ => rfl) rfl hr

theorem shown_table {unresolved : List String} {out : Word.Table Word.Block}
    (h : writeTable book room (d.table sheet) = .ok (out, unresolved)) :
    ShowsDefect d (Word.Block.table out).xml := by
  have ⟨_, blank, hg⟩ := holdsRow_of_writeTable (fits_table sheet d) h
  refine { tag := rfl, rows := ?_ }
  rw [Word.Block.named_tr_table]
  generalize out.grid = grid at hg
  cases hg
  case cons top _ ht hg =>
    cases hg
    case cons cause _ hc hg =>
      cases hg
      case cons fix _ hf hg =>
        cases hg
        exact ⟨rowXml top, rowXml cause, rowXml fix, rfl, shown_titleRow ht, shown_narrativeRow hc,
          shown_narrativeRow hf⟩

end Defect

namespace Report

variable {sheet : Sheet} {title subtitle : String} {closing : Option String} {defects : List Defect}

theorem getElem?_body {i : Nat} {d : Defect} (h : defects[i]? = some d) :
    (body sheet title subtitle closing defects)[4 + 3 * i]? = some (.table (d.table sheet)) :=
  Nat.add_comm 4 (3 * i) ▸ (Stands.table h).getElem?

-- The document has nothing but what comes before, between and after the tables, and each table has all
-- that its defect says.
theorem defects_of_render {r : Rendering}
    (h : render (assemble sheet title subtitle closing defects).document = .ok r) :
    r.package.bodyXml.length = 5 + 3 * defects.length ∧ ∀ i d, defects[i]? = some d →
      ∃ x, r.package.bodyXml[4 + 3 * i]? = some x ∧ ShowsDefect d x := by
  simp only [render, bind_eq_ok, pure_eq_ok] at h
  obtain ⟨book, -, pages, -, ⟨written, _⟩, hw, rfl⟩ := h
  have hw := writeBody_eq_ok hw
  rw [Package.bodyXml, blocksXml_eq_map]
  refine ⟨?length, fun i d hd => ?shown⟩
  case length =>
    rw [List.length_map, ← hw.length_eq]
    exact (length_body sheet title subtitle closing defects).trans (Nat.add_comm _ _)
  case shown =>
    obtain ⟨out, ho, more, hb⟩ := getElem?_of_forall₂ hw (getElem?_body hd)
    simp only [writeBlock, bind_eq_ok, pure_eq_ok, Prod.mk.injEq] at hb
    obtain ⟨⟨t, _⟩, ht, rfl, -⟩ := hb
    exact ⟨_, by rw [List.getElem?_map, ho]; rfl, Defect.shown_table ht⟩

-- A defect with a line that has a tab in it, and without a fix.
def single : Defect where
  number := 7
  title  := "Overflow"
  cause  := ["buffer\ttoo small", ""]

def plainSheet : Sheet where
  headings := .ofList []

set_option maxRecDepth 10000 in
theorem defects_of_render_single : ∃ r,
    render (assemble plainSheet "Log" "" none [single]).document = .ok r ∧
    r.package.bodyXml.length = 5 + 3 * [single].length ∧ ∀ i d, [single][i]? = some d →
      ∃ x, r.package.bodyXml[4 + 3 * i]? = some x ∧ ShowsDefect d x := by
  have ⟨r, h⟩ : ∃ r, render (assemble plainSheet "Log" "" none [single]).document = .ok r :=
    exists_of_isOk (by decide +kernel)
  exact ⟨r, h, defects_of_render h⟩

end Report
end DefectLog
