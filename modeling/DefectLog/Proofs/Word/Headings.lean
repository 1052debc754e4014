import DefectLog.Proofs.Word.HeadingStyles
import DefectLog.Proofs.Word.Properties
import DefectLog.Proofs.Word.Spelling
import DefectLog.Proofs.Word.Unresolved

-- The headings of a report keep their style and their place in the outline.
namespace DefectLog

theorem Paragraph.heading_eq_ok {sheet : Sheet} {level : Int} {text : String} {p : Paragraph}
    (h : heading sheet level text = .ok p) : level ∈ sheet.headings.levels ∧
      p.styleId = some (NamedStyle.headingId level) ∧ p.outlineLevel = some (level - 1) := by
  unfold heading at h
  split at h
  case h_1 => cases h
  case h_2 look hl =>
    have ⟨entry, he, _⟩ := Option.map_eq_some_iff.mp hl
    have hlevel : entry.1 = level := by simpa using List.find?_some he
    cases h
    exact ⟨hlevel ▸ List.mem_map_of_mem (List.mem_of_find?_eq_some he), rfl, rfl⟩

namespace Word

open Xml Success

-- A paragraph that refers to the style of a level and has its place in the outline.
def ShowsHeading (level : Int) (x : Xml) : Prop :=
  x.tag? = some "w:p" ∧ ∃ properties, x.named "w:pPr" = [properties] ∧
    (properties.named "w:pStyle").map (attribute? "w:val") = [some (NamedStyle.headingId level)] ∧
    (properties.named "w:outlineLvl").map (attribute? "w:val") = [some (toString (level - 1))]

-- Where several paragraphs went to one element, a heading shows unless one after it has a style or a place in
-- the outline too.
def ShowsHeadings (sheet : Sheet) (sources : List DefectLog.Paragraph) (x : Xml) : Prop :=
  ∀ before p after level text, sources = before ++ p :: after → DefectLog.Paragraph.heading sheet level text = .ok p →
    (∀ q ∈ after, nonempty? q.styleId = none ∧ q.outlineLevel = none) → ShowsHeading level x

variable {book : StyleBook} {level : Int} {p : Paragraph}

theorem showsHeading_xml (hs : p.style = some (NamedStyle.headingId level)) (ho : p.outlineLevel = some (level - 1)) :
    ShowsHeading level p.xml := by
  have hne : p.properties ≠ [] := by simp [Paragraph.properties, hs]
  have hp : p.xml.named "w:pPr" = [w "pPr" [] p.properties] := by
    rw [Paragraph.named_pPr, unlessEmpty, if_neg (by simpa using hne)]
  refine ⟨rfl, _, hp, ?style, ?outline⟩
  case style   => rw [Paragraph.named_properties, hs]; rfl
  case outline => rw [Paragraph.named_properties, ho]; rfl

theorem heading_of_gathers {sources before after : List DefectLog.Paragraph} {source : DefectLog.Paragraph}
    (hb : NamesHeadings book.styles) (hl : book.HasHeading level)
    (hid : source.styleId = some (NamedStyle.headingId level)) (ho : source.outlineLevel = some (level - 1))
    (hs : sources = before ++ source :: after)
    (hafter : ∀ q ∈ after, nonempty? q.styleId = none ∧ q.outlineLevel = none)
    (h : Paragraph.Gathers book sources p) :
    p.style = some (NamedStyle.headingId level) ∧ p.outlineLevel = some (level - 1) := by
  subst hs
  induction after using List.reverseRecOn generalizing p
  case nil =>
    have ⟨_, _, _, hw⟩ := h.last
    have ⟨_, _, _, _, _, hr, _, hp⟩ := Paragraph.write_eq_ok hw
    rw [hid] at hr
    rw [hp]
    exact ⟨hl.restyle_eq hb hr, by simp [ho]⟩
  case append_singleton after last hi =>
    rw [← List.cons_append, ← List.append_assoc] at h
    have ⟨q, _, hg, hw⟩ := h.last
    have ⟨hstyle, hlevel⟩ := hafter last (List.mem_append_right _ (List.mem_singleton_self last))
    have ⟨hqs, hqo⟩ := hi (fun s hs => hafter s (List.mem_append_left _ hs)) hg
    have ⟨_, _, _, _, _, hr, _, hp⟩ := Paragraph.write_eq_ok hw
    rw [Paragraph.restyle, hstyle] at hr
    cases hr
    rw [hp]
    exact ⟨hqs, by simp [hlevel, hqo]⟩

theorem showsHeadings_of_gathers {sheet : Sheet} {sources : List DefectLog.Paragraph}
    (hb : NamesHeadings book.styles) (hl : ∀ level ∈ sheet.headings.levels, book.HasHeading level)
    (h : Paragraph.Gathers book sources p) : ShowsHeadings sheet sources p.xml := by
  intro before source after level text hs hh hafter
  have ⟨hm, hid, ho⟩ := Paragraph.heading_eq_ok hh
  have ⟨hstyle, houtline⟩ := heading_of_gathers hb (hl level hm) hid ho hs hafter h
  exact showsHeading_xml hstyle houtline

theorem unresolvedEntry_inj {styleId styleId' : String} (h : unresolvedEntry styleId = unresolvedEntry styleId') :
    styleId = styleId' := by
  have h : "DOCX: unknown paragraph style '" ++ styleId ++ "', using Normal" =
      "DOCX: unknown paragraph style '" ++ styleId' ++ "', using Normal" := congrArg (·.message) h
  exact (String.append_right_inj _).mp ((String.append_left_inj _).mp h)

-- A style id that is registered is not reported.
theorem unresolvedEntry_not_mem {d : Document} {r : Rendering} {styleId : String} (h : render d = .ok r)
    (hn : (r.package.book.nameOf? styleId).isSome) : unresolvedEntry styleId ∉ r.entries := by
  rw [entries_of_render h]
  intro hm
  cases List.mem_append.mp hm
  case inl hm =>
    have ⟨id, hid, he⟩ := List.mem_map.mp hm
    have ⟨source, _, hsource⟩ := List.mem_flatMap.mp hid
    cases unresolvedEntry_inj he
    have ⟨_, hf⟩ := Option.filter_eq_some_iff.mp (Option.mem_toList.mp hsource)
    simp [of_decide_eq_true hf] at hn
  case inr hm =>
    have hlevel := congrArg (·.level) (List.mem_singleton.mp hm)
    cases hlevel

-- The headings of a sheet in a document with the styles of that sheet.
theorem headings_of_render {sheet : Sheet} {d : Document} {r : Rendering} (hd : d.defaults = sheet.defaults)
    (h : render d = .ok r) : r.Spells (ShowsHeadings sheet) d ∧
      ∀ level ∈ sheet.headings.levels, unresolvedEntry (NamedStyle.headingId level) ∉ r.entries := by
  have ⟨hb, hl⟩ := hasHeading_of_defaults (hd ▸ (render_eq_ok h).left)
  exact ⟨spells_of_render (showsHeadings_of_gathers hb hl) h,
    fun level hm => unresolvedEntry_not_mem h (by rw [(hl level hm).nameOf?_eq]; rfl)⟩

-- A sheet with levels beyond those of the template and with one level twice.
def outlined : Sheet where
  headings := {
    entries := [
      (-2, { size := 20, color := "000000", spacing := { before := 0, after := 0 } }),
      (0, { size := 36, color := "1F3864", spacing := { before := 400, after := 160 } }),
      (1, { size := 28, color := "1F3864", spacing := { before := 320, after := 120 } }),
      (1, { size := 24, color := "2E75B6", spacing := { before := 200, after := 80 } }),
      (10, { size := 20, color := "888888", spacing := { before := 40, after := 40 } })]
    sorted  := by decide }

-- A heading of each level.
def titles : List DefectLog.Block :=
  [-2, 0, 1, 10].filterMap fun level =>
    (DefectLog.Paragraph.heading outlined level "Title").toOption.map .paragraph

-- The headings in the body, in a cell, and in a cell of a table in it.
def titled : Document where
  defaults := outlined.defaults
  page     := outlined.page
  body     := titles ++ [.table {
    columnWidths := [1000]
    rows         := [[{ width := 1000, blocks := titles ++ [
      .table { columnWidths := [500], rows := [[{ width := 500, blocks := titles }]] },
      .paragraph {}] }]] }]

set_option maxRecDepth 10000 in
theorem exists_render_titled : ∃ r, render titled = .ok r :=
  exists_of_isOk (by decide +kernel)

theorem headings_of_render_titled : titled.defaults = outlined.defaults ∧ ∃ r, render titled = .ok r ∧
    (r.Spells (ShowsHeadings outlined) titled ∧
      ∀ level ∈ outlined.headings.levels, unresolvedEntry (NamedStyle.headingId level) ∉ r.entries) ∧
    titles.length = 4 ∧ titled.allTables.length = 2 ∧ ∀ t ∈ titled.allTables, t.SpillFree := by
  have ⟨r, h⟩ := exists_render_titled
  exact ⟨rfl, r, h, headings_of_render rfl h, by decide, by decide, by decide⟩

end Word
end DefectLog
