import DefectLog.Defect.RenderX
import DefectLog.Proofs.Preview.Moderate
import DefectLog.Proofs.Report.Parts
import DefectLog.Proofs.Report.Widths

-- A report has a preview if the numbers and colors of its sheet are not strange. Its texts do not matter.
namespace DefectLog

open Preview Preview.Markup

-- A sheet that every part of a report can be set with.
structure Sheet.Settable (s : Sheet) : Prop where
  sizes         : ∀ n ∈ s.sizes, Moderate n
  colors        : ∀ c ∈ s.colors, Text.Numeral.IsHex c.toList
  fills         : ∀ c ∈ s.fills, IsColor c
  spacings      : ∀ x ∈ s.spacings, SettableSpacing x
  columns       : ∀ w ∈ s.columns, Moderate w
  cellBorder    : SettableEdge s.cellBorder
  dividerBorder : SettableEdge s.dividerBorder
  headerMargins : SettableMargins s.headerMargins
  cellMargins   : SettableMargins s.cellMargins
  page          : SettablePage s.page

theorem Sheet.settable_default : ({} : Sheet).Settable where
  sizes         := by decide
  colors        := by decide
  fills         := by decide
  spacings      := by decide
  columns       := by decide
  cellBorder    := by decide
  dividerBorder := by decide
  headerMargins := by decide
  cellMargins   := by decide
  page          := { width := by decide, height := by decide, margins := by decide }

variable {sheet : Sheet} {T : String → Prop}

theorem Plain.settable {p : Paragraph} (hs : sheet.Settable) (h : Plain sheet T p) : Preview.Settable p := by
  cases h
  case run hsize hc hf hp => exact {
    sizes   := List.forall_mem_singleton.mpr (hs.sizes _ hsize)
    colors  := List.forall_mem_singleton.mpr fun color h => hs.colors color (hc color h)
    spacing := hs.spacings _ hp
    indent  := (by decide : Moderate 0)
    rule    := nofun }
  case blank hp hr => exact {
    sizes   := List.forall_mem_nil _
    colors  := List.forall_mem_nil _
    spacing := hs.spacings _ hp
    indent  := (by decide : Moderate 0)
    rule    := fun border h => hr border h ▸ hs.dividerBorder }

theorem PlainCell.settable {c : Cell Block} (hs : sheet.Settable) (h : PlainCell sheet T c) : SettableCell c where
  span    := by rcases h.span with h | h <;> rw [h] <;> decide
  shading := fun s hm => by
    obtain ⟨fill, hf, rfl⟩ := h.shading s hm
    exact hs.fills fill hf
  borders := fun b hm => Option.some.inj (h.borders.symm.trans hm) ▸ hs.cellBorder
  margins := h.margins.elim (· ▸ hs.headerMargins) (· ▸ hs.cellMargins)

namespace Report

variable {title subtitle : String} {closing : Option String} {defects : List Defect}

-- The texts are of any kind.
theorem tells_true : Tells (fun _ => True) title subtitle closing defects where
  title     := trivial
  subtitle  := trivial
  closing   := trivial
  labels    := ⟨trivial, trivial⟩
  headlines := fun _ _ => trivial
  lines     := fun _ _ _ _ => trivial

theorem exists_preview (hs : sheet.Settable) (title subtitle : String) (closing : Option String)
    (defects : List Defect) : ∃ r, Preview.render (assemble sheet title subtitle closing defects).document = .ok r := by
  have ht : Tells (fun _ => True) title subtitle closing defects := tells_true
  have hcells {d : Defect} (hd : d ∈ defects) :=
    Defect.plainCell_table sheet (ht.headlines d hd) ht.labels (ht.lines d hd)
  refine exists_render (hs.sizes sheet.bodySize (by simp [Sheet.sizes])) hs.page (fun p hp => ?paragraphs) ?tables
  case paragraphs =>
    rw [Document.allParagraphs, blocksParagraphs_eq_flatMap] at hp
    obtain ⟨b, hb, hp⟩ := List.mem_flatMap.mp hp
    obtain ⟨q, rfl, hq⟩ | ⟨d, hd, rfl⟩ := plain_body ht b hb
    case inl => exact List.mem_singleton.mp hp ▸ hq.settable hs
    case inr =>
      obtain ⟨cells, hm, c, hc, b, hb, hp⟩ := mem_rowsParagraphs.mp hp
      obtain ⟨q, rfl, hq⟩ := (hcells hd cells hm c hc).blocks b hb
      exact List.mem_singleton.mp hp ▸ hq.settable hs
  case tables =>
    rw [allTables_assemble]
    exact List.forall_mem_map.mpr fun d hd => {
      rows    := List.cons_ne_nil _ _
      columns := List.cons_ne_nil _ _
      widths  := hs.columns
      cells   := fun cells hm c hc => (hcells hd cells hm c hc).settable hs }

end Report

theorem RenderX.exists_preview : ∃ r, Preview.render (report {}).document = .ok r :=
  Report.exists_preview Sheet.settable_default title subtitle (some closing) defects

end DefectLog
