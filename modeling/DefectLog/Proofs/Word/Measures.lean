import DefectLog.Proofs.Word.Places
import DefectLog.Proofs.Word.Properties
import DefectLog.Proofs.Word.Spelling
import DefectLog.Proofs.Word.Widths

-- Sizes and lengths of at most 53 bits in EMU are written as they are given.
namespace DefectLog

-- A size or a length that is a number of EMU of at most 53 bits.
def HalfPoints.Exact (n : HalfPoints) : Prop :=
  |n * 6350| ≤ 2 ^ 53

def Twips.Exact (n : Twips) : Prop :=
  |n * 635| ≤ 2 ^ 53

instance (n : HalfPoints) : Decidable (HalfPoints.Exact n) :=
  inferInstanceAs (Decidable (_ ≤ _))

instance (n : Twips) : Decidable (Twips.Exact n) :=
  inferInstanceAs (Decidable (_ ≤ _))

def Spacing.Exact (s : Spacing) : Prop :=
  Twips.Exact s.before ∧ Twips.Exact s.after

instance (s : Spacing) : Decidable s.Exact :=
  inferInstanceAs (Decidable (_ ∧ _))

def Paragraph.Exact (p : Paragraph) : Prop :=
  (∀ run ∈ p.runs, HalfPoints.Exact run.size) ∧ p.spacing.Exact

instance (p : Paragraph) : Decidable p.Exact :=
  inferInstanceAs (Decidable (_ ∧ _))

-- The other lengths are the indents, the widths of cells, and the margins at the top and the bottom. No document that
-- has one of more bits can be rendered.
structure Document.Exact (d : Document) : Prop where
  size       : HalfPoints.Exact d.defaults.size
  styles     : ∀ heading ∈ d.defaults.namedStyles, HalfPoints.Exact heading.size ∧ heading.spacing.Exact
  page       : ∀ n ∈ [d.page.width, d.page.height, d.page.margins.left, d.page.margins.right], Twips.Exact n
  paragraphs : ∀ p ∈ d.allParagraphs, p.Exact
  columns    : ∀ t ∈ d.allTables, ∀ width ∈ t.columnWidths, Twips.Exact width

namespace Word

open Xml Success

namespace Xml

-- The size of the letters of a run or a style.
def letterSizes (x : Xml) : List Xml :=
  (x.named "w:rPr").flatMap (named "w:sz")

-- The spacing and the indent of a paragraph or a style.
def spacings (x : Xml) : List Xml :=
  (x.named "w:pPr").flatMap (named "w:spacing")

def indents (x : Xml) : List Xml :=
  (x.named "w:pPr").flatMap (named "w:ind")

def ofSize (size : HalfPoints) : Xml :=
  value "sz" (toString size)

def ofSpacing (s : Spacing) : Xml :=
  Xml.spacing (s.before, s.after)

def ofIndent (indent : Twips) : Xml :=
  leaf "ind" [("left", toString indent)]

end Xml

-- An element tells the sizes of all runs that went to it, the spacing of the last paragraph, and the last indent that
-- is not zero.
structure Measures (sources : List DefectLog.Paragraph) (x : Xml) : Prop where
  sizes   : List.Forall₂ (fun run y => y.letterSizes = [ofSize run.size]) (sources.flatMap (·.runs)) (x.named "w:r")
  spacing : x.spacings = (sources.getLast?.map fun p => ofSpacing p.spacing).toList
  indent  : x.indents = ((sources.filter (·.indent ≠ 0)).getLast?.map fun p => ofIndent p.indent).toList

variable {book : StyleBook}

theorem Run.letterSizes_xml (r : Run) : r.xml.letterSizes = [ofSize r.size] := by
  simp [letterSizes, Run.named_rPr, Run.named_properties, ofSize]

theorem Paragraph.spacings_xml (p : Paragraph) : p.xml.spacings = (p.spacing.map Xml.spacing).toList := by
  simp [spacings, flatMap_pPr, named_properties]

theorem Paragraph.indents_xml (p : Paragraph) : p.xml.indents = (p.indent.map ofIndent).toList := by
  simp [indents, flatMap_pPr, named_properties]
  rfl

theorem Style.letterSizes_xml (s : Style) : s.xml.letterSizes = (s.size.map ofSize).toList := by
  simp [letterSizes, flatMap_rPr, named_runProperties]
  rfl

theorem Style.spacings_xml (s : Style) : s.xml.spacings = (s.spacing.map Xml.spacing).toList := by
  simp [spacings, flatMap_pPr, named_paragraphProperties]

theorem Run.size_of_ofTree {source : DefectLog.Run} {r : Run} (hn : HalfPoints.Exact source.size)
    (h : ofTree source = .ok r) : r.size = source.size := by
  simp only [ofTree, bind_eq_ok, pure_eq_ok] at h
  obtain ⟨_, -, size, hsize, _, -, _, -, rfl⟩ := h
  exact eq_of_sizeText hn hsize

theorem Paragraph.indent_of_write {source : DefectLog.Paragraph} {p p' : Paragraph} {unresolved : List String}
    (h : write book source p = .ok (p', unresolved)) :
    p'.indent = if source.indent = 0 then p.indent else some source.indent := by
  simp only [write, bind_eq_ok] at h
  obtain ⟨_, -, _, -, _, -, _, -, h⟩ := h
  split at h <;> simp only [bind_eq_ok, pure_eq_ok, Prod.mk.injEq] at h
  case isTrue hzero =>
    obtain ⟨_, rfl, _, -, rfl, -⟩ := h
    rw [if_pos hzero]
    rfl
  case isFalse hne =>
    obtain ⟨_, hi, _, -, rfl, -⟩ := h
    obtain ⟨n, hn, rfl⟩ := map_eq_ok.mp hi
    rw [if_neg hne, eq_of_offsetText hn]
    rfl

theorem eq_of_spacing {s : Spacing} {written : Int × Int} (hs : s.Exact) (hbefore : lengthText s.before = .ok written.1)
    (hafter : lengthText s.after = .ok written.2) : written = (s.before, s.after) :=
  Prod.ext (eq_of_lengthText hs.left hbefore) (eq_of_lengthText hs.right hafter)

namespace Paragraph.Gathers

variable {sources : List DefectLog.Paragraph} {p : Paragraph}

theorem spacing_eq (h : Gathers book sources p) (hs : ∀ source ∈ sources, source.Exact) :
    p.spacing = sources.getLast?.map fun source => (source.spacing.before, source.spacing.after) := by
  cases h
  case empty => rfl
  case next source _ _ _ hw =>
    have ⟨spacing, hbefore, hafter, hp⟩ := spacing_of_write hw
    have hexact := hs source (List.mem_append_right _ (List.mem_singleton_self source))
    rw [hp, eq_of_spacing hexact.right hbefore hafter, List.getLast?_concat]
    rfl

theorem indent_eq (h : Gathers book sources p) :
    p.indent = (sources.filter (·.indent ≠ 0)).getLast?.map (·.indent) := by
  induction h
  case empty => rfl
  case next source _ _ _ _ hw hi =>
    rw [indent_of_write hw, List.filter_append, hi]
    split
    case isTrue hzero => simp [hzero]
    case isFalse hne  => simp [hne]

theorem measures (h : Gathers book sources p) (hs : ∀ source ∈ sources, source.Exact) : Measures sources p.xml := by
  refine ⟨?sizes, ?spacing, ?indent⟩
  case sizes =>
    rw [Paragraph.named_r, List.forall₂_map_right_iff]
    have hruns : ∀ run ∈ sources.flatMap (·.runs), HalfPoints.Exact run.size := fun run hm =>
      have ⟨source, hsource, hrun⟩ := List.mem_flatMap.mp hm
      (hs source hsource).left run hrun
    refine ((List.forall₂_and_left _ _).mpr ⟨hruns, h.runs⟩).imp fun run r ⟨hn, hr⟩ => ?_
    rw [r.letterSizes_xml, Run.size_of_ofTree hn hr]
  case spacing =>
    rw [spacings_xml, h.spacing_eq hs, Option.map_map]
    rfl
  case indent =>
    rw [indents_xml, h.indent_eq, Option.map_map]
    rfl

end Paragraph.Gathers

-- An element tells the width of a cell of the tree. Each paragraph of the cell has an element of its own there.
structure MeasuresCell (source : DefectLog.Cell DefectLog.Block) (x : Xml) : Prop where
  width      : x.property? "w:tcW" = some (cellWidth source.width)
  paragraphs : List.Forall₂ (fun p y => Measures [p] y) source.paragraphs x.filled

-- The elements of the cells of a row of the tree. Nothing is in the other cells of the row.
def MeasuresRow (sources : List (DefectLog.Cell DefectLog.Block)) (x : Xml) : Prop :=
  ∃ shown rest, (x.named "w:tc").Perm (shown ++ rest) ∧ List.Forall₂ MeasuresCell sources shown ∧
    ∀ y ∈ rest, y.filled = []

-- A table has its columns and all its paragraphs. Its cells tell their widths as long as none of them spills.
structure MeasuresTable (t : DefectLog.Table DefectLog.Block) (x : Xml) : Prop where
  columns    : (x.named "w:tblGrid").flatMap (named "w:gridCol") = t.columnWidths.map columnXml
  paragraphs : Shares Measures t x
  rows       : t.SpillFree → List.Forall₂ MeasuresRow t.rows (x.named "w:tr")

theorem measuresCell_of_keeps {source : DefectLog.Cell DefectLog.Block} {c : Cell Block}
    (hs : ∀ p ∈ source.paragraphs, p.Exact) (h : Keeps book source c) : MeasuresCell source c.xml where
  width      := by rw [c.tcW_xml, h.width]
  paragraphs := by
    have hp := filled_of_keeps (R := fun sources x => (∀ p ∈ sources, p.Exact) → Measures sources x)
      (fun hg hs => hg.measures hs) h
    refine ((List.forall₂_and_left _ _).mpr ⟨hs, hp⟩).imp fun p y ⟨hp, hm⟩ => hm ?_
    exact List.forall_mem_singleton.mpr hp

theorem measuresRow_of_confinedRow {sources : List (DefectLog.Cell DefectLog.Block)} {cells : List (Cell Block)}
    (hs : ∀ source ∈ sources, ∀ p ∈ source.paragraphs, p.Exact) (h : ConfinedRow book sources cells) :
    MeasuresRow sources (rowXml cells) := by
  have ⟨shown, rest, hp, hshown, hrest⟩ := shown_of_confinedRow h
  refine ⟨shown, rest, hp, ?_, hrest⟩
  refine ((List.forall₂_and_left _ _).mpr ⟨hs, hshown⟩).imp fun source x ⟨hs, h⟩ => ?_
  obtain ⟨c, hkeeps, rfl⟩ := h
  exact measuresCell_of_keeps hs hkeeps

theorem measuresTable_of_writeTable {t : DefectLog.Table DefectLog.Block} {out : Table Block} {room : Int}
    {unresolved : List String} (hc : ∀ width ∈ t.columnWidths, Twips.Exact width) (hp : ∀ p ∈ t.paragraphs, p.Exact)
    (h : writeTable book room t = .ok (out, unresolved)) : MeasuresTable t (Block.table out).xml where
  columns := by
    have ⟨columns, _, hcolumns, _, hout⟩ := writeTable_eq_ok h
    rw [Block.gridCols_table, hout, eq_of_mapM (fun width hm n hn => eq_of_lengthText (hc width hm) hn) hcolumns]
  paragraphs := by
    have hshares := shares_of_writeTable (R := fun sources x => (∀ p ∈ sources, p.Exact) → Measures sources x)
      (fun hg hs => hg.measures hs) h
    exact hshares.imp fun hsub hm => hm fun p hm => hp p (hsub hm)
  rows hs := by
    rw [Block.named_tr_table, List.forall₂_map_right_iff]
    have hrows : ∀ cells ∈ t.rows, ∀ source ∈ cells, ∀ p ∈ source.paragraphs, p.Exact :=
      fun cells hcells source hsource p hm => hp p (Table.mem_paragraphs.mpr ⟨cells, hcells, source, hsource, hm⟩)
    refine ((List.forall₂_and_left _ _).mpr ⟨hrows, confined_of_spillFree hs h⟩).imp fun _ _ ⟨hs, h⟩ => ?_
    exact measuresRow_of_confinedRow hs h

-- A style tells the size and the spacing of a heading style.
structure MeasuresStyle (heading : NamedStyle) (x : Xml) : Prop where
  size    : x.letterSizes = [ofSize heading.size]
  spacing : x.spacings = [ofSpacing heading.spacing]

-- A style of the template is left as it is. Only the default style, which is the first, tells a size of the tree.
structure MeasuresPlain (defaults : Defaults) (i : Nat) (x : Xml) : Prop where
  template : FromTemplate defaults i x
  size     : i = 0 → x.letterSizes = [ofSize defaults.size]

theorem Style.measures_of_configure {font : String} {heading : NamedStyle} {old style : Style}
    (hn : HalfPoints.Exact heading.size) (hs : heading.spacing.Exact) (h : configure font heading old = .ok style) :
    MeasuresStyle heading style.xml := by
  simp only [configure, bind_eq_ok, pure_eq_ok] at h
  obtain ⟨_, -, size, hsize, _, -, before, hbefore, after, hafter, rfl⟩ := h
  have hspacing : (before, after) = _ := eq_of_spacing hs hbefore hafter
  refine ⟨?size, ?spacing⟩
  case size =>
    rw [letterSizes_xml, eq_of_sizeText hn hsize]
    rfl
  case spacing =>
    rw [spacings_xml, hspacing]
    rfl

theorem measuresPlain_of_fromTemplate {defaults : Defaults} {i : Nat} {x : Xml} (hn : HalfPoints.Exact defaults.size)
    (h : FromTemplate defaults i x) : MeasuresPlain defaults i x where
  template := h
  size hi  := by
    obtain ⟨size, style, hsize, hs, rfl⟩ := h
    rw [hi, StyleBook.styles_template] at hs
    cases hs
    rw [Style.letterSizes_xml, eq_of_sizeText hn hsize]
    rfl

-- An element tells the size and the margins of the pages.
structure MeasuresPage (page : Page) (x : Xml) : Prop where
  size    : (x.named "w:pgSz").map (fun y => ["w:w", "w:h"].map y.attribute?) =
    [[page.width, page.height].map (some <| toString ·)]
  margins : (x.named "w:pgMar").map (fun y => ["w:top", "w:bottom", "w:left", "w:right"].map y.attribute?) =
    [[page.margins.top, page.margins.bottom, page.margins.left, page.margins.right].map (some <| toString ·)]

theorem Section.measures_of_ofPage {page : Page} {s : Section}
    (hp : ∀ n ∈ [page.width, page.height, page.margins.left, page.margins.right], Twips.Exact n)
    (h : ofPage page = .ok s) : MeasuresPage page s.xml := by
  simp only [List.forall_mem_cons] at hp
  obtain ⟨hwidth, hheight, hleft, hright, -⟩ := hp
  simp only [ofPage, bind_eq_ok, pure_eq_ok] at h
  obtain ⟨_, hw, _, hh, _, ht, _, hb, _, hl, _, hr, rfl⟩ := h
  rw [eq_of_lengthText hwidth hw, eq_of_lengthText hheight hh, eq_of_offsetText ht, eq_of_offsetText hb,
    eq_of_lengthText hleft hl, eq_of_lengthText hright hr]
  refine ⟨?size, ?margins⟩
  all_goals
    simp [Section.xml, named, children, tag?, w, leaf, attribute?, List.lookup_cons]

variable {d : Document} {r : Rendering}

-- Every number that is written for a size or a length of the tree is that number, whether or not a size is odd or a
-- length is negative.
theorem measures_of_render (hd : d.Exact) (h : render d = .ok r) :
    List.Forall₂ (fun b x => ∀ p, b.paragraph? = some p → Measures [p] x) d.body r.package.bodyXml ∧
    r.Pairs d MeasuresTable ∧
    StylesTell d.defaults r.package.book MeasuresStyle (MeasuresPlain d.defaults) ∧
    MeasuresPage d.page r.package.pages.xml := by
  refine ⟨?body, ?tables, ?styles, Section.measures_of_ofPage hd.page (pages_of_render h)⟩
  case body =>
    have hspells := spells_of_render (R := fun sources x => (∀ p ∈ sources, p.Exact) → Measures sources x)
      (fun hg hs => hg.measures hs) h
    have hbody : ∀ b ∈ d.body, ∀ p, b.paragraph? = some p → p.Exact := by
      intro b hb p hp
      refine hd.paragraphs p ?_
      rw [Document.allParagraphs, blocksParagraphs_eq_flatMap, List.mem_flatMap]
      cases b
      case table     => cases hp
      case paragraph => exact ⟨_, hb, List.mem_singleton.mpr (Option.some.inj hp).symm⟩
    refine ((List.forall₂_and_left _ _).mpr ⟨hbody, hspells.left⟩).imp fun b x ⟨hs, hm⟩ p hp => hm p hp ?_
    exact List.forall_mem_singleton.mpr (hs p hp)
  case tables =>
    have hpairs : r.Pairs d fun t x => (∀ width ∈ t.columnWidths, Twips.Exact width) → (∀ p ∈ t.paragraphs, p.Exact) →
        MeasuresTable t x :=
      pairs_of_render h fun ⟨_, _, ht⟩ hc hp => measuresTable_of_writeTable hc hp ht
    exact hpairs.imp fun t ht _ hm =>
      hm (hd.columns t ht) fun p hp => hd.paragraphs p (Document.paragraphs_subset ht hp)
  case styles =>
    refine stylesTell_of_defaults (render_eq_ok h).left (fun hm hc => ?_) (measuresPlain_of_fromTemplate hd.size)
    exact Style.measures_of_configure (hd.styles _ hm).left (hd.styles _ hm).right hc

-- Numbers up to the bounds, odd sizes, and lengths below zero, also in a table in a cell.
def extreme : Document where
  defaults := { font := "Arial", size := 1418456575549, namedStyles := [
    { styleId := "Heading1", name := "Heading 1", size := 29, color := "000000"
      spacing := { before := 14184565755497, after := 1 }, outlineLevel := 0 }] }
  page     :=
    { width := 14184565755497, height := 15840, margins := { top := -1440, bottom := -1, left := 1133, right := 0 } }
  body     := [
    .paragraph { runs := [{ text := "a", size := 1418456575549 }], spacing := { before := 1, after := 14184565755497 }
                 indent := -3381858 },
    .table {
      columnWidths := [14184565755497, 1]
      rows         := [[{ width := 2147483647, blocks := [.table {
        columnWidths := [501]
        rows         := [[{ width := -7, blocks := [.paragraph { runs := [{ text := "b", size := 21 }] }] }]] }] }]] }]

set_option maxRecDepth 10000 in
theorem exists_render_extreme : ∃ r, render extreme = .ok r :=
  exists_of_isOk (by decide +kernel)

theorem exact_extreme : extreme.Exact where
  size       := by decide
  styles     := by decide
  page       := by decide
  paragraphs := by decide
  columns    := by decide

theorem measures_of_render_extreme : extreme.Exact ∧ ∃ r, render extreme = .ok r ∧
    (List.Forall₂ (fun b x => ∀ p, b.paragraph? = some p → Measures [p] x) extreme.body r.package.bodyXml ∧
    r.Pairs extreme MeasuresTable ∧
    StylesTell extreme.defaults r.package.book MeasuresStyle (MeasuresPlain extreme.defaults) ∧
    MeasuresPage extreme.page r.package.pages.xml) ∧
    ∀ t ∈ extreme.allTables, t.SpillFree := by
  have ⟨r, h⟩ := exists_render_extreme
  exact ⟨exact_extreme, r, h, measures_of_render exact_extreme h, by decide⟩

end Word
end DefectLog
