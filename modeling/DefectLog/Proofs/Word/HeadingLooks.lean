import DefectLog.Proofs.Sheet.Headings
import DefectLog.Proofs.Word.Color
import DefectLog.Proofs.Word.Headings

-- The style of a heading level and the headings of that level each tell how they look.
namespace DefectLog

open Word Success Number

namespace Word

-- What the look of a heading is written as.
structure WrittenLook where
  size    : Int
  color   : Rgb
  spacing : Int × Int
deriving DecidableEq

namespace Xml

-- The elements for the place of a paragraph, among its properties, and those for its letters, among theirs.
def lookOf (paragraph letters : List Xml) : List (List Xml) :=
  ["w:spacing", "w:outlineLvl"].map (fun tag => paragraph.flatMap (named tag)) ++
    ["w:color", "w:sz"].map fun tag => letters.flatMap (named tag)

def styleLook (x : Xml) : List (List Xml) :=
  lookOf (x.named "w:pPr") (x.named "w:rPr")

def paragraphLook (x : Xml) : List (List Xml) :=
  lookOf (x.named "w:pPr") ((x.named "w:r").flatMap (named "w:rPr"))

end Xml

open Xml

def WrittenLook.elements (written : WrittenLook) (level : Int) : List (List Xml) := [
  [Xml.spacing written.spacing], [outline (level - 1)],
  [Xml.color written.color], [value "sz" (toString written.size)]]

end Word

def HeadingLook.written (look : HeadingLook) : Except Fault WrittenLook := do
  let size ← sizeText look.size
  let color ← readColor look.color
  let before ← lengthText look.spacing.before
  let after ← lengthText look.spacing.after
  return { size, color, spacing := (before, after) }

-- A look of a level is all that the elements tell.
def HeadingLook.ToldBy (look : HeadingLook) (level : Int) (elements : List (List Xml)) : Prop :=
  ∃ written, look.written = .ok written ∧ elements = written.elements level

theorem HeadingLook.written_eq_ok {look : HeadingLook} {written : WrittenLook} :
    look.written = .ok written ↔
      sizeText look.size = .ok written.size ∧ readColor look.color = .ok written.color ∧
      lengthText look.spacing.before = .ok written.spacing.1 ∧
      lengthText look.spacing.after = .ok written.spacing.2 := by
  simp only [HeadingLook.written, bind_eq_ok, pure_eq_ok]
  constructor
  case mp =>
    rintro ⟨_, hs, _, hc, _, hb, _, ha, rfl⟩
    exact ⟨hs, hc, hb, ha⟩
  case mpr =>
    intro ⟨hs, hc, hb, ha⟩
    exact ⟨_, hs, _, hc, _, hb, _, ha, rfl⟩

namespace Word

open Xml

theorem WrittenLook.elements_inj {written written' : WrittenLook} {level : Int}
    (h : written.elements level = written'.elements level) : written = written' := by
  obtain ⟨size, color, before, after⟩ := written
  obtain ⟨size', color', before', after'⟩ := written'
  simp only [elements, Xml.spacing, Xml.color, value, leaf, w, List.map_cons, List.map_nil, List.cons.injEq,
    and_true, Xml.element.injEq, Prod.mk.injEq, true_and] at h
  obtain ⟨⟨hb, ha⟩, hc, hs⟩ := h
  rw [toString_inj hb, toString_inj ha, toString_inj hs, upperHex_inj (String.ofList_inj.mp hc)]

namespace Style

variable {style style' : Style} {written : WrittenLook} {level : Int}

-- What has to be set in a style so that it tells a look.
structure Wears (style : Style) (written : WrittenLook) (level : Int) : Prop where
  size         : style.size = some written.size
  color        : style.color = some written.color
  spacing      : style.spacing = some written.spacing
  outlineLevel : style.outlineLevel = some (level - 1)

theorem Wears.styleLook_eq (h : style.Wears written level) : style.xml.styleLook = written.elements level := by
  simp [styleLook, lookOf, flatMap_pPr, flatMap_rPr, named_paragraphProperties, named_runProperties,
    WrittenLook.elements, h.size, h.color, h.spacing, h.outlineLevel]

-- A named style that gives a level its look.
structure Sets (level : Int) (look : HeadingLook) (heading : NamedStyle) : Prop where
  isHeading    : StyleBook.IsHeading level heading
  size         : heading.size = look.size
  color        : heading.color = look.color
  spacing      : heading.spacing = look.spacing
  outlineLevel : heading.outlineLevel = level - 1

theorem wears_of_configure {font : String} {heading : NamedStyle} {look : HeadingLook} (hh : Sets level look heading)
    (h : configure font heading style = .ok style') : ∃ written, look.written = .ok written ∧ style'.Wears written level := by
  simp only [configure, bind_eq_ok, pure_eq_ok, hh.size, hh.color, hh.spacing, hh.outlineLevel] at h
  obtain ⟨_, -, size, hs, color, hc, before, hbefore, after, hafter, rfl⟩ := h
  exact ⟨⟨size, color, (before, after)⟩, HeadingLook.written_eq_ok.mpr ⟨hs, hc, hbefore, hafter⟩, rfl, rfl, rfl, rfl⟩

theorem storedName_headingName_inj {level level' : Int}
    (h : storedName (headingName level) = storedName (headingName level')) : level = level' :=
  level_of_storedName (by rw [drop_storedName, toList_headingName]; rfl) h

end Style

section

variable {p : α → Bool} {xs : List α} {x y : α} {i : Nat}

theorem find?_set_of_findIdx? (h : xs.findIdx? p = some i) (hy : p y = true) : (xs.set i y).find? p = some y := by
  have ⟨hl, _, hn⟩ := List.findIdx?_eq_some_iff_getElem.mp h
  refine List.find?_eq_some_iff_getElem.mpr ⟨hy, i, by simpa using hl, by simp, fun j hj => ?_⟩
  rw [List.getElem_set_ne (Nat.ne_of_gt hj)]
  simpa using hn j hj

theorem find?_set_of_not (hi : xs[i]? = some x) (hx : p x = false) (hy : p y = false) :
    (xs.set i y).find? p = xs.find? p := by
  induction xs generalizing i
  case nil => rfl
  case cons z zs ih =>
    cases i
    case zero =>
      cases hi
      simp [hx, hy]
    case succ i =>
      simp only [List.set_cons_succ, List.find?_cons]
      rw [ih (by simpa using hi)]

end

namespace StyleBook

variable {book book' : StyleBook} {level : Int} {font : String} {heading : NamedStyle} {look : HeadingLook}

-- The style that carries the name of a level.
def headingStyle? (book : StyleBook) (level : Int) : Option Style :=
  book.styles.find? (·.name == Style.storedName (headingName level))

theorem name_of_headingStyle? {style : Style} (h : book.headingStyle? level = some style) :
    style ∈ book.styles ∧ style.name = Style.storedName (headingName level) := by
  rw [headingStyle?] at h
  have hname := List.find?_some h
  exact ⟨List.mem_of_find?_eq_some h, beq_iff_eq.mp hname⟩

-- The style of a level is there and tells a look.
def Shows (book : StyleBook) (level : Int) (look : HeadingLook) : Prop :=
  ∃ style written, book.headingStyle? level = some style ∧ look.written = .ok written ∧ style.Wears written level

theorem shows_of_register (hb : NamesHeadings book.styles) (hh : Style.Sets level look heading)
    (h : register font book heading = .ok book') : book'.Shows level look := by
  have ⟨_, h⟩ := register_eq_ok hb hh.isHeading.right h
  cases h
  case inl h =>
    have ⟨i, style, style', hfind, _, hname, hs, hstyles⟩ := h
    have ⟨_, hname', _⟩ := Style.names_of_configure hs
    have ⟨written, hw, hwears⟩ := Style.wears_of_configure hh hs
    refine ⟨style', written, ?_, hw, hwears⟩
    rw [headingStyle?, hstyles]
    exact find?_set_of_findIdx? hfind (beq_iff_eq.mpr (hname'.trans hname))
  case inr h =>
    have ⟨hm, style', hs, hstyles⟩ := h
    have ⟨_, hname, _⟩ := Style.names_of_configure hs
    have ⟨written, hw, hwears⟩ := Style.wears_of_configure hh hs
    have hnone : book.styles.find? (·.name == Style.storedName (headingName level)) = none :=
      List.find?_eq_none.mpr fun s hs he => hm (beq_iff_eq.mp he ▸ List.mem_map_of_mem hs)
    refine ⟨style', written, ?_, hw, hwears⟩
    rw [headingStyle?, hstyles, List.find?_append, hnone, Option.none_or, hb.storedName_eq hm]
    simp [hname, Style.ofName]

theorem headingStyle?_of_register {level' : Int} (hb : NamesHeadings book.styles) (hh : IsHeading level heading)
    (h : register font book heading = .ok book') (hne : level' ≠ level) :
    book'.headingStyle? level' = book.headingStyle? level' := by
  have hother : ∀ {style : Style}, style.name = Style.storedName (headingName level) →
      (style.name == Style.storedName (headingName level')) = false := fun hs =>
    beq_eq_false_iff_ne.mpr fun he => hne (Style.storedName_headingName_inj (he.symm.trans hs))
  have ⟨_, h⟩ := register_eq_ok hb hh.right h
  cases h
  case inl h =>
    have ⟨i, style, style', _, hi, hname, hs, hstyles⟩ := h
    have ⟨_, hname', _⟩ := Style.names_of_configure hs
    rw [headingStyle?, hstyles]
    exact find?_set_of_not hi (hother hname) (hother (hname'.trans hname))
  case inr h =>
    have ⟨hm, style', hs, hstyles⟩ := h
    have ⟨_, hname, _⟩ := Style.names_of_configure hs
    have hnew := hother (hname.trans (hb.storedName_eq hm).symm)
    rw [headingStyle?, hstyles, List.find?_append]
    simp [hnew, headingStyle?]

end StyleBook

end Word

-- The named style of an entry of the headings.
def NamedStyle.ofEntry (font : String) (entry : Int × HeadingLook) : NamedStyle where
  styleId      := NamedStyle.headingId entry.1
  name         := s!"Heading {entry.1}"
  size         := entry.2.size
  color        := entry.2.color
  spacing      := entry.2.spacing
  outlineLevel := entry.1 - 1
  font         := some font

namespace Word

open Xml

theorem Style.sets_ofEntry (font : String) (entry : Int × HeadingLook) :
    Sets entry.1 entry.2 (NamedStyle.ofEntry font entry) :=
  ⟨⟨rfl, rfl⟩, rfl, rfl, rfl, rfl⟩

-- The last entry of a level is the one that its style shows. The induction takes the entries from the end.
theorem StyleBook.shows_foldlM {book book' : StyleBook} {font font' : String} {entries : List (Int × HeadingLook)}
    (hb : NamesHeadings book.styles)
    (h : (entries.map (NamedStyle.ofEntry font')).foldlM (register font) book = .ok book') :
    (∀ entry ∈ entries, ∃ written, entry.2.written = .ok written) ∧
      ∀ level look, entries.reverse.find? (·.1 == level) = some (level, look) → book'.Shows level look := by
  induction entries using List.reverseRecOn generalizing book'
  case nil => exact ⟨List.forall_mem_nil _, fun _ _ hf => nomatch hf⟩
  case append_singleton entries last hi =>
    rw [List.map_append, List.foldlM_append, bind_eq_ok] at h
    obtain ⟨before, hbefore, h⟩ := h
    simp only [List.map_cons, List.map_nil, List.foldlM_cons, List.foldlM_nil, bind_eq_ok, pure_eq_ok] at h
    obtain ⟨_, h, rfl⟩ := h
    have hh : ∀ heading ∈ entries.map (NamedStyle.ofEntry font'), ∃ level, IsHeading level heading :=
      List.forall_mem_map.mpr fun entry _ => ⟨entry.1, rfl, rfl⟩
    have ⟨hnames, _⟩ := hasHeading_foldlM hb hh hbefore
    have ⟨hwritten, hshows⟩ := hi hbefore
    have hlast := shows_of_register hnames (Style.sets_ofEntry font' last) h
    refine ⟨List.forall_mem_append.mpr ⟨hwritten, ?written⟩, fun level look hf => ?shows⟩
    case written =>
      have ⟨_, written, _, hw, _⟩ := hlast
      exact List.forall_mem_singleton.mpr ⟨written, hw⟩
    case shows =>
      rw [List.reverse_append, List.reverse_singleton, List.singleton_append, List.find?_cons] at hf
      split at hf
      case h_1 =>
        cases hf
        exact hlast
      case h_2 hne =>
        have ⟨style, written, hs, hw, hwears⟩ := hshows level look hf
        have hne : level ≠ last.1 := fun he => by simp [he] at hne
        refine ⟨style, written, ?_, hw, hwears⟩
        rw [headingStyle?_of_register hnames ⟨rfl, rfl⟩ h hne, hs]

-- Every look of a sheet can be written, and the last one of each level is shown.
theorem shows_of_defaults {sheet : Sheet} {book : StyleBook} (h : StyleBook.ofDefaults sheet.defaults = .ok book) :
    (∀ entry ∈ sheet.headings.entries, ∃ written, entry.2.written = .ok written) ∧
      ∀ level look, sheet.headings.lastLook? level = some look → book.Shows level look := by
  simp only [StyleBook.ofDefaults, bind_eq_ok] at h
  obtain ⟨_, _, size, _, h⟩ := h
  obtain ⟨hwritten, hshows⟩ := StyleBook.shows_foldlM (StyleBook.namesHeadings_template _ size) h
  refine ⟨hwritten, fun level look hl => ?_⟩
  obtain ⟨entry, he, hlook⟩ := Option.map_eq_some_iff.mp hl
  have hlevel : entry.1 = level := by simpa using List.find?_some he
  exact hshows level look (by rw [he, ← hlevel, ← hlook])

-- A color that can be read is not empty, so that a run gets it.
theorem nonempty?_of_readColor {text : String} {color : Rgb} (h : readColor text = .ok color) :
    nonempty? (some text) = some text :=
  nonempty?_some fun he => ne_empty_of_readColor h (String.toList_eq_nil_iff.mp he)

theorem Run.look_of_ofTree {source : DefectLog.Run} {r : Run} {text : String} {size : Int} {color : Rgb}
    (h : ofTree source = .ok r) (hs : sizeText source.size = .ok size) (ht : source.color = some text)
    (hc : readColor text = .ok color) : r.size = size ∧ r.color = some color := by
  simp only [ofTree, bind_eq_ok, pure_eq_ok, ht, nonempty?_of_readColor hc, hs] at h
  obtain ⟨_, -, _, hsize, _, hcolor, _, -, rfl⟩ := h
  obtain ⟨_, hread, he⟩ := map_eq_ok.mp hcolor
  rw [hc] at hread
  cases hsize
  cases hread
  exact ⟨rfl, he.symm⟩

-- What has to be written in a paragraph so that it tells a look.
structure Paragraph.Wears (p : Paragraph) (written : WrittenLook) (level : Int) : Prop where
  letters      : ∃ r, p.runs = [r] ∧ r.size = written.size ∧ r.color = some written.color
  spacing      : p.spacing = some written.spacing
  outlineLevel : p.outlineLevel = some (level - 1)

theorem Paragraph.Wears.paragraphLook_eq {p : Paragraph} {written : WrittenLook} {level : Int}
    (h : p.Wears written level) : p.xml.paragraphLook = written.elements level := by
  have ⟨r, hr, hsize, hcolor⟩ := h.letters
  have hletters : (p.xml.named "w:r").flatMap (named "w:rPr") = [w "rPr" [] r.properties] := by
    rw [Paragraph.named_r, hr, List.map_singleton, List.flatMap_singleton, Run.named_rPr]
  rw [paragraphLook, hletters]
  simp [lookOf, Paragraph.flatMap_pPr, Paragraph.named_properties, Run.named_properties, WrittenLook.elements, hsize,
    hcolor, h.spacing, h.outlineLevel]

-- A heading that is written on its own looks as the first entry of its level says.
theorem Paragraph.wears_of_write {book : StyleBook} {sheet : Sheet} {source : DefectLog.Paragraph} {p : Paragraph}
    {level : Int} {text : String} {unresolved : List String} {look : HeadingLook} {written : WrittenLook}
    (hh : DefectLog.Paragraph.heading sheet level text = .ok source) (hl : sheet.headings.look? level = some look)
    (hw : look.written = .ok written) (h : write book source {} = .ok (p, unresolved)) : p.Wears written level := by
  have ⟨hsize, hcolor, hbefore, hafter⟩ := HeadingLook.written_eq_ok.mp hw
  simp only [DefectLog.Paragraph.heading, hl, Except.ok.injEq] at hh
  subst hh
  refine ⟨?letters, ?spacing, ?outline⟩
  case letters =>
    have ⟨runs, hruns, hp⟩ := runs_of_write h
    simp only [List.mapM_cons, List.mapM_nil, bind_eq_ok, pure_eq_ok] at hruns
    obtain ⟨r, hr, _, rfl, rfl⟩ := hruns
    exact ⟨r, hp, Run.look_of_ofTree hr hsize rfl hcolor⟩
  case spacing =>
    have ⟨spacing, hb, ha, hspacing⟩ := spacing_of_write h
    rw [hspacing, Prod.ext (Except.ok.inj (hb.symm.trans hbefore)) (Except.ok.inj (ha.symm.trans hafter))]
  case outline =>
    have ⟨_, _, _, _, _, _, _, hp⟩ := write_eq_ok h
    simp [hp]

-- A level has a style in the document that tells the look of its last entry.
structure StyleTells (sheet : Sheet) (book : StyleBook) (level : Int) (first last : HeadingLook) (style : Style) :
    Prop where
  hasFirst : sheet.headings.look? level = some first
  hasLast  : sheet.headings.lastLook? level = some last
  hasStyle : book.headingStyle? level = some style
  hasId    : style.id = NamedStyle.headingId level
  tells    : last.ToldBy level style.xml.styleLook

-- A heading that has an element of its own tells the look of the first entry of its level. That is what its
-- style tells just in case both entries are written as the same look.
def TellsLook (sheet : Sheet) (book : StyleBook) (sources : List DefectLog.Paragraph) (x : Xml) : Prop :=
  ∀ source level text, sources = [source] → DefectLog.Paragraph.heading sheet level text = .ok source →
    ∃ first last style, StyleTells sheet book level first last style ∧ first.ToldBy level x.paragraphLook ∧
      (x.paragraphLook = style.xml.styleLook ↔ first.written = last.written)

section

variable {sheet : Sheet} {book : StyleBook} {level : Int} (h : StyleBook.ofDefaults sheet.defaults = .ok book)
include h

theorem exists_styleTells (hl : level ∈ sheet.headings.levels) : ∃ first last style,
    StyleTells sheet book level first last style ∧ ∃ written, first.written = .ok written := by
  have ⟨hwritten, hshows⟩ := shows_of_defaults h
  have ⟨hb, _⟩ := hasHeading_of_defaults h
  have ⟨first, hm, hfirst⟩ := Headings.exists_look? hl
  have ⟨last, _, hlast⟩ := Headings.exists_lastLook? hl
  have ⟨style, written, hs, hw, hwears⟩ := hshows level last hlast
  have ⟨hmem, hname⟩ := StyleBook.name_of_headingStyle? hs
  have hfirstWritten := hwritten (level, first) hm
  refine ⟨first, last, style, ⟨hfirst, hlast, hs, ?id, ?look⟩, hfirstWritten⟩
  case id   => exact (hb.heading style hmem level hname).left
  case look => exact ⟨written, hw, hwears.styleLook_eq⟩

theorem tellsLook_of_gathers {sources : List DefectLog.Paragraph} {p : Paragraph}
    (hg : Paragraph.Gathers book sources p) : TellsLook sheet book sources p.xml := by
  intro source level text hs hh
  have ⟨hm, _⟩ := DefectLog.Paragraph.heading_eq_ok hh
  have ⟨first, last, style, hstyle, written, hw⟩ := exists_styleTells h hm
  have ⟨written', hw', hlook⟩ := hstyle.tells
  have ⟨_, hwrite⟩ := Paragraph.Gathers.written (hs ▸ hg)
  have hp := (Paragraph.wears_of_write hh hstyle.hasFirst hw hwrite).paragraphLook_eq
  refine ⟨first, last, style, hstyle, ⟨written, hw, hp⟩, ?_⟩
  rw [hp, hlook, hw, hw', Except.ok.injEq]
  exact ⟨WrittenLook.elements_inj, fun he => he ▸ rfl⟩

end

-- The styles of headings and the headings of a sheet, in a document with the styles of that sheet. A level that
-- has one entry only, as every level of a sheet has that is given by assignments, looks the same in both.
theorem looks_of_render {sheet : Sheet} {d : Document} {r : Rendering} (hd : d.defaults = sheet.defaults)
    (h : render d = .ok r) :
    (∀ level ∈ sheet.headings.levels, ∃ first last style, StyleTells sheet r.package.book level first last style) ∧
    r.Spells (TellsLook sheet r.package.book) d ∧
    ((sheet.headings.levels.Nodup ∨ ∃ entries, sheet.headings = .ofAssignments entries) →
      ∀ level ∈ sheet.headings.levels, sheet.headings.lastLook? level = sheet.headings.look? level) := by
  have hb := hd ▸ (render_eq_ok h).left
  refine ⟨fun level hl => ?styles, spells_of_render (tellsLook_of_gathers hb) h, fun hn level hl => ?unique⟩
  case styles =>
    have ⟨first, last, style, hs, _⟩ := exists_styleTells hb hl
    exact ⟨first, last, style, hs⟩
  case unique =>
    refine Headings.lastLook?_eq_look? ?_ hl
    cases hn
    case inl hn => exact hn
    case inr hn =>
      have ⟨entries, he⟩ := hn
      exact he ▸ Headings.nodup_levels_ofAssignments entries

theorem looks_of_render_titled : titled.defaults = outlined.defaults ∧ ∃ r, render titled = .ok r ∧
    ((∀ level ∈ outlined.headings.levels, ∃ first last style,
      StyleTells outlined r.package.book level first last style) ∧
    r.Spells (TellsLook outlined r.package.book) titled ∧
    ((outlined.headings.levels.Nodup ∨ ∃ entries, outlined.headings = .ofAssignments entries) →
      ∀ level ∈ outlined.headings.levels, outlined.headings.lastLook? level = outlined.headings.look? level)) ∧
    outlined.headings.look? 1 ≠ outlined.headings.lastLook? 1 := by
  have ⟨r, h⟩ := exists_render_titled
  exact ⟨rfl, r, h, looks_of_render rfl h, by decide⟩

end Word
end DefectLog
