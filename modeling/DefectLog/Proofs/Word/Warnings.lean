import DefectLog.Proofs.Word.Preorder
import DefectLog.Proofs.Word.Properties
import DefectLog.Proofs.Word.Registered
import DefectLog.Proofs.Word.Unresolved

-- Which paragraphs of a document are reported for their style, and which refer to one.
namespace DefectLog

namespace Defaults

variable (defaults : Defaults)

-- The style id of a paragraph that has one which is not registered.
def missing? (p : Paragraph) : Option String :=
  (Word.nonempty? p.styleId).filter fun styleId => defaults.styleName? styleId = none

-- The name of the style of a paragraph.
def resolved? (p : Paragraph) : Option String :=
  (Word.nonempty? p.styleId).bind defaults.styleName?

end Defaults

namespace Word

open Xml Success

theorem StyleBook.unknowns_ofDefaults {defaults : Defaults} {book : StyleBook} (h : ofDefaults defaults = .ok book)
    (sources : List DefectLog.Paragraph) : book.unknowns sources = sources.filterMap defaults.missing? := by
  simp only [unknowns, unknown, nameOf?_ofDefaults h, List.filterMap_eq_flatMap_toList]
  rfl

-- The elements of a paragraph that refer to a style.
def Xml.styleReferences (x : Xml) : List Xml :=
  (x.named "w:pPr").flatMap (named "w:pStyle")

-- The element of a paragraph of the tree, which refers to no style but the one that is registered for it.
structure Styled (book : StyleBook) (defaults : Defaults) (source : DefectLog.Paragraph) (x : Xml) : Prop where
  tag       : x.tag? = some "w:p"
  reported  : x.styleReferences ≠ [] → defaults.missing? source = none ∧ (nonempty? source.styleId).isSome
  reference : ∀ name, defaults.resolved? source = some name → ∃ reference, book.reference? name = .ok reference ∧
    x.styleReferences = (reference.map (value "pStyle")).toList

variable {book : StyleBook} {defaults : Defaults} {source : DefectLog.Paragraph}

theorem Paragraph.styleReferences_xml (p : Paragraph) :
    p.xml.styleReferences = (p.style.map (value "pStyle")).toList := by
  simp [styleReferences, flatMap_pPr, named_properties]

-- A paragraph that is new refers to the style that is registered for it, or to none.
theorem Paragraph.reference_of_restyle {styleId style : Option String} {unresolved : List String}
    (h : restyle book styleId none = .ok (style, unresolved)) :
    (style = none ∧ (nonempty? styleId).bind book.nameOf? = none) ∨
      ∃ name, (nonempty? styleId).bind book.nameOf? = some name ∧ book.reference? name = .ok style := by
  unfold restyle at h
  split at h
  case h_1 hs =>
    cases h
    exact .inl ⟨rfl, by rw [hs]; rfl⟩
  case h_2 id hs =>
    split at h
    case h_1 name hn =>
      have ⟨reference, hr, he⟩ := map_eq_ok.mp h
      cases he
      exact .inr ⟨name, by rw [hs]; exact hn, hr⟩
    case h_2 hn =>
      cases h
      exact .inl ⟨rfl, by rw [hs]; exact hn⟩

theorem resolved_eq (hb : StyleBook.ofDefaults defaults = .ok book) :
    (nonempty? source.styleId).bind book.nameOf? = defaults.resolved? source :=
  congrArg _ (funext (StyleBook.nameOf?_ofDefaults hb))

-- A paragraph whose style is registered is not reported.
theorem missing_of_resolved {name : String} (h : defaults.resolved? source = some name) :
    defaults.missing? source = none ∧ (nonempty? source.styleId).isSome := by
  have ⟨id, hid, hn⟩ := Option.bind_eq_some_iff.mp h
  exact ⟨by simp [Defaults.missing?, hid, hn], by rw [hid]; rfl⟩

theorem styled_of_wrote {x : Xml} (hb : StyleBook.ofDefaults defaults = .ok book) (h : WroteXml book source x) :
    Styled book defaults source x := by
  obtain ⟨p, ⟨_, hw⟩, rfl⟩ := h
  have ⟨style, _, _, _, _, hs, _, hp⟩ := Paragraph.write_eq_ok hw
  have hstyle : p.xml.styleReferences = (style.map (value "pStyle")).toList := by
    rw [Paragraph.styleReferences_xml, hp]
  cases Paragraph.reference_of_restyle hs
  case inl h =>
    have ⟨hnone, hr⟩ := h
    rw [resolved_eq hb] at hr
    exact ⟨rfl, fun hne => by simp [hstyle, hnone] at hne, fun name hname => by simp [hr] at hname⟩
  case inr h =>
    have ⟨name, hn, hr⟩ := h
    rw [resolved_eq hb] at hn
    refine ⟨rfl, fun _ => missing_of_resolved hn, fun name' hname => ⟨style, ?_, hstyle⟩⟩
    rwa [← Option.some.inj (hn.symm.trans hname)]

-- A warning for each paragraph whose style is not registered, at whatever depth, in the order of the tree, and then
-- one line with the size of the document. Where the rows of all tables fit, each paragraph has an element of its own,
-- which refers to a style only if there is no warning for it.
theorem warnings_of_render {d : Document} {r : Rendering} (h : render d = .ok r) :
    r.entries = (d.allParagraphs.filterMap d.defaults.missing?).map unresolvedEntry ++ [builtEntry d] ∧
    ((∀ t ∈ d.allTables, t.Fits) →
      List.Forall₂ (Styled r.package.book d.defaults) d.allParagraphs (allFilled r.package.bodyXml)) := by
  have hb := (render_eq_ok h).left
  refine ⟨?entries, fun hf => ?styled⟩
  case entries => rw [entries_of_render h, StyleBook.unknowns_ofDefaults hb]
  case styled  => exact (ordered_of_render hf h).imp fun _ _ => styled_of_wrote hb

def plainStyle (styleId name : String) : NamedStyle where
  styleId      := styleId
  name         := name
  size         := 24
  color        := "1F3864"
  spacing      := { before := 0, after := 0 }
  outlineLevel := 0

-- A style id whose last entry has no name, and paragraphs on both sides of a table within a table.
def referring : Document where
  defaults := {
    font        := "Arial"
    size        := 22
    namedStyles := [plainStyle "Top" "Heading 1", plainStyle "Gone" "Heading 2", plainStyle "Gone" ""] }
  page     := { width := 12240, height := 15840, margins := {} }
  body     := [.paragraph { styleId := some "Top" }, .table {
    columnWidths := [1000, 1000]
    rows         := [
      [{ width := 1000, blocks := [.paragraph { styleId := some "Gone" }, .table {
          columnWidths := [500]
          rows         := [[{ width := 500, blocks := [.paragraph { styleId := some "Lost" }, .paragraph {}] }]] },
          .paragraph { styleId := some "Late" }] },
        { width := 1000, blocks := [.paragraph { styleId := some "" }] }],
      [{ width := 2000, span := 2, blocks := [.paragraph { styleId := some "Top" }] }]] }]

set_option maxRecDepth 10000 in
theorem warnings_of_render_referring : ∃ r, render referring = .ok r ∧
    (r.entries = (referring.allParagraphs.filterMap referring.defaults.missing?).map unresolvedEntry ++
        [builtEntry referring] ∧
      ((∀ t ∈ referring.allTables, t.Fits) → List.Forall₂ (Styled r.package.book referring.defaults)
        referring.allParagraphs (allFilled r.package.bodyXml))) ∧
    referring.allParagraphs.filterMap referring.defaults.missing? = ["Gone", "Lost", "Late"] ∧
    ∀ t ∈ referring.allTables, t.Fits := by
  have ⟨r, h⟩ : ∃ r, render referring = .ok r := exists_of_isOk (by decide +kernel)
  exact ⟨r, h, warnings_of_render h, by decide +kernel, by decide⟩

end Word
end DefectLog
