import DefectLog.Defect.RenderX
import DefectLog.Proofs.Report.Defects
import DefectLog.Proofs.Report.Parts
import DefectLog.Proofs.Report.Recovery
import DefectLog.Proofs.Word.Legal
import DefectLog.Proofs.Word.Writable

-- A report is rendered if its sheet can be written and none of its texts has a character that cannot be written.
namespace DefectLog

open Word Success

-- A sheet that every part of a report can be written with.
structure Sheet.Writable (s : Sheet) : Prop where
  styles        : (StyleBook.ofDefaults s.defaults).isOk
  page          : ∃ pages, Section.ofPage s.page = .ok pages ∧ 2 * |Emu.toTwips (pages.room / 2)| ≤ widest
  sizes         : ∀ n ∈ s.sizes, (sizeText n).isOk
  colors        : ∀ c ∈ s.colors, (readColor c).isOk
  fills         : ∀ c ∈ s.fills, (Finish.ofShading { fill := c }).isOk
  spacings      : ∀ x ∈ s.spacings, (lengthText x.before).isOk ∧ (lengthText x.after).isOk
  columns       : ∀ w ∈ s.columns, (lengthText w).isOk
  widths        : ∀ w ∈ s.widths, (widthText (Emu.ofTwips w)).isOk
  cellBorder    : (Finish.ofBorders s.tableBorders).isOk
  dividerBorder : (Rule.ofBorder s.dividerBorder).isOk

theorem Sheet.headings_default : ({} : Sheet).headings.entries = [
    (1, { size := 28, color := Palette.heading1, spacing := { before := 320, after := 120 } }),
    (2, { size := 24, color := Palette.heading2, spacing := { before := 200, after := 80 } })] :=
  List.mergeSort_of_pairwise (by decide)

set_option maxRecDepth 10000 in
theorem Sheet.writable_default : ({} : Sheet).Writable where
  styles        := by
    rw [Sheet.defaults, Sheet.namedStyles, Sheet.headings_default]
    decide +kernel
  page          := ⟨_, rfl, by decide +kernel⟩
  sizes         := by decide +kernel
  colors        := by decide +kernel
  fills         := by decide +kernel
  spacings      := by decide +kernel
  columns       := by decide +kernel
  widths        := by decide +kernel
  cellBorder    := by decide +kernel
  dividerBorder := by decide +kernel

variable {sheet : Sheet}

theorem Plain.writable {p : Paragraph} (hs : sheet.Writable) (h : Plain sheet Legal p) : Word.Writable p := by
  cases h
  case run run spacing _ ht hsize hc hf hp =>
    have ⟨size, hsize⟩ := exists_of_isOk (hs.sizes _ hsize)
    have ⟨color, hcolor⟩ : ∃ color, (nonempty? run.color).mapM readColor = .ok color :=
      exists_of_mapM_option fun color h =>
        exists_of_isOk (hs.colors color (hc color (Option.filter_eq_some_iff.mp h).left))
    exact {
      style  := rfl
      rule   := nofun
      before := (hs.spacings _ hp).left
      after  := (hs.spacings _ hp).right
      indent := rfl
      runs   := List.forall_mem_singleton.mpr ⟨_, by rw [Run.ofTree, ht, hsize, hcolor, hf]; rfl⟩ }
  case blank hp hr => exact {
    style  := rfl
    rule   := fun border h => hr border h ▸ hs.dividerBorder
    before := (hs.spacings _ hp).left
    after  := (hs.spacings _ hp).right
    indent := rfl
    runs   := List.forall_mem_nil _ }

theorem PlainCell.writable {c : Cell Block} (hs : sheet.Writable) (h : PlainCell sheet Legal c) : WritableCell c where
  span     := by rcases h.span with h | h <;> omega
  width    := hs.widths _ h.width
  finishes := by
    have ⟨borders, hb⟩ := exists_of_isOk hs.cellBorder
    have ⟨shading, hshading⟩ : ∃ shading, c.shading.mapM Finish.ofShading = .ok shading :=
      exists_of_mapM_option fun s hm => by
        obtain ⟨fill, hf, rfl⟩ := h.shading s hm
        exact exists_of_isOk (hs.fills fill hf)
    have hborders : c.borders.mapM Finish.ofBorders = .ok (some borders) := by
      rw [h.borders]
      exact map_eq_ok.mpr ⟨borders, hb, rfl⟩
    simp only [Finish.ofCell, hborders, hshading]
    rfl
  blocks   := fun b hb => have ⟨p, he, hp⟩ := h.blocks b hb; ⟨p, he, hp.writable hs⟩

namespace Report

variable {title subtitle : String} {closing : Option String} {defects : List Defect}

-- What is added to the texts of a report can be written.
theorem tells_legal (ht : Legal title) (hsubtitle : Legal subtitle) (hc : Legal (closing.getD ""))
    (hd : ∀ d ∈ defects, Legal d.title ∧ ∀ line ∈ d.cause ++ d.fix, Legal line) :
    Tells Legal title subtitle closing defects where
  title     := ht
  subtitle  := hsubtitle
  closing   := by
    have hcount (n : Int) : Legal (closingLine n none) := by
      have he : closingLine n none = toString n ++ " " ++ (if n = 1 then "bug" else "bugs") ++ " fixed" := rfl
      have hnoun : Legal (if n = 1 then "bug" else "bugs") := by
        split <;> exact legal_ofList (by decide)
      simp only [he, legal_append]
      exact ⟨⟨⟨legal_toString n, legal_ofList (by decide)⟩, hnoun⟩, legal_ofList (by decide)⟩
    rw [closingLine_eq]
    split
    case isTrue  => exact hcount _
    case isFalse => exact legal_append.mpr ⟨legal_append.mpr ⟨hcount _, legal_ofList (by decide)⟩, hc⟩
  labels    := ⟨legal_ofList (by decide), legal_ofList (by decide)⟩
  headlines := fun d hm => by
    simp only [Defect.headline_eq, legal_append]
    exact ⟨legal_ofList (by decide), legal_toString d.number, legal_ofList (by decide), (hd d hm).left⟩
  lines     := fun d hm => (hd d hm).right

theorem exists_render (hs : sheet.Writable) (h : Tells Legal title subtitle closing defects) :
    ∃ r, render (assemble sheet title subtitle closing defects).document = .ok r := by
  have ⟨pages, hpages, hroom⟩ := hs.page
  refine Word.exists_render hs.styles hpages fun b hb => ?_
  obtain ⟨p, rfl, hp⟩ | ⟨d, hd, rfl⟩ := plain_body h b hb
  case inl => exact hp.writable hs
  case inr =>
    have hcells := Defect.plainCell_table sheet (h.headlines d hd) h.labels (h.lines d hd)
    exact {
      widths := hs.columns
      cells  := fun cells hm c hc => (hcells cells hm c hc).writable hs
      fits   := fun cells hm => (Defect.fits_table sheet d cells hm).right
      places := by simp [Defect.table, Sheet.columns]
      room   := hroom }

end Report

namespace RenderX

theorem legal_defects : ∀ d ∈ defects, Legal d.title ∧ ∀ line ∈ d.cause ++ d.fix, Legal line := by
  simp only [defects, List.cons_append, List.nil_append, List.forall_mem_cons, List.not_mem_nil, false_implies,
    implies_true, and_true, legal_append]
  repeat' apply And.intro
  all_goals exact legal_ofList (by decide +kernel)

theorem exists_render : ∃ r, render (report {}).document = .ok r :=
  Report.exists_render Sheet.writable_default
    (Report.tells_legal (legal_ofList (by decide)) (legal_ofList (by decide)) (legal_ofList (by decide)) legal_defects)

end RenderX
end DefectLog
