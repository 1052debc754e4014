import DefectLog.Proofs.Word.Normalized
import DefectLog.Proofs.Word.Places
import DefectLog.Proofs.Word.Properties
import DefectLog.Proofs.Word.Spelling

-- All colors of a document are written in their normal form.
namespace DefectLog.Word

open Xml Success

-- An element with some color.
def IsColor (x : Xml) : Prop :=
  ∃ color, x = Xml.color color

theorem allIn_color (color : Option Rgb) :
    allIn "w:color" (color.map Xml.color).toList = (color.map Xml.color).toList := by
  cases color <;> simp [Xml.color, value]

theorem isColor_of_mem {color : Option Rgb} : ∀ x ∈ (color.map Xml.color).toList, IsColor x := by
  cases color
  case none       => exact List.forall_mem_nil _
  case some color => exact List.forall_mem_singleton.mpr ⟨color, rfl⟩

theorem Piece.all_color (p : Piece) : all "w:color" p.xml = [] := by
  cases p <;> simp [Piece.xml, all, allIn]

theorem Run.all_color (r : Run) : all "w:color" r.xml = (r.color.map Xml.color).toList := by
  have hp := allIn_map r.pieces Piece.all_color
  simp [Run.xml, hp, allIn_color, allIn_option, allIn_flag, fonts, value]

theorem Style.all_color (s : Style) : all "w:color" s.xml = (s.color.map Xml.color).toList := by
  have hb : ∀ on, all "w:color" (boldXml on) = [] := fun on => by cases on <;> simp [boldXml, value]
  simp [Style.xml, paragraphProperties, runProperties, hb, allIn_color, allIn_option, allIn_flag, allIn_unlessEmpty,
    fonts, value, Xml.spacing, outline]

theorem Paragraph.isColor_of_mem (p : Paragraph) : ∀ x ∈ all "w:color" p.xml, IsColor x := by
  have hx : all "w:color" p.xml = allIn "w:color" (p.runs.map Run.xml) := by
    simp [Paragraph.xml, allIn_unlessEmpty, allIn_option, allIn_map, value, Rule.xml, Xml.spacing, outline]
  rw [hx]
  induction p.runs
  case nil           => exact List.forall_mem_nil _
  case cons r rs hi =>
    rw [List.map_cons, allIn_cons, Run.all_color]
    exact List.forall_mem_append.mpr ⟨Word.isColor_of_mem, hi⟩

theorem Finish.all_color (f : Finish) : all "w:color" f.xml = [] := by
  cases f <;> simp [Finish.xml, Rule.xml]

theorem Cell.all_color (c : Cell Block) : all "w:color" c.properties = [] := by
  have hf := allIn_map c.finishes Finish.all_color
  have hs := allIn_option c.stacking fun s => show all "w:color" s.xml = [] by cases s <;> simp [Stacking.xml, value]
  by_cases hc : c.span = 1 <;> simp [Cell.properties, hf, hs, hc, value]

-- One case for each part of a document. The colors are all in the runs of its paragraphs.
mutual
theorem isColor_block (b : Block) : ∀ x ∈ all "w:color" b.xml, IsColor x := by
  cases b
  case paragraph p => exact p.isColor_of_mem
  case table t     =>
    have hx : all "w:color" (Block.table t).xml = allIn "w:color" (rowsXml t.grid) := by
      simp [Block.xml, tableProperties, allIn_map]
    rw [hx]
    exact isColor_rows t.grid
theorem isColor_rows (g : List (List (Cell Block))) : ∀ x ∈ allIn "w:color" (rowsXml g), IsColor x := by
  cases g
  case nil             => simp [rowsXml]
  case cons cells rows =>
    rw [rowsXml, allIn_cons, all_w, if_neg (by simp), List.nil_append]
    exact List.forall_mem_append.mpr ⟨isColor_cells cells, isColor_rows rows⟩
termination_by structural g
theorem isColor_cells (cells : List (Cell Block)) : ∀ x ∈ allIn "w:color" (cellsXml cells), IsColor x := by
  cases cells
  case nil          => simp [cellsXml]
  case cons c cells =>
    rw [cellsXml, allIn_cons, all_w, if_neg (by simp), List.nil_append, allIn_cons, c.all_color, List.nil_append]
    exact List.forall_mem_append.mpr ⟨isColor_blocks c.content, isColor_cells cells⟩
termination_by structural cells
theorem isColor_blocks (bs : List Block) : ∀ x ∈ allIn "w:color" (blocksXml bs), IsColor x := by
  cases bs
  case nil       => simp [blocksXml]
  case cons b bs =>
    rw [blocksXml, allIn_cons]
    exact List.forall_mem_append.mpr ⟨isColor_block b, isColor_blocks bs⟩
termination_by structural bs
end

theorem StyleBook.isColor_of_mem (book : StyleBook) : ∀ x ∈ all "w:color" book.xml, IsColor x := by
  rw [StyleBook.xml, all_w, if_neg (by simp), List.nil_append]
  induction book.styles
  case nil         => exact List.forall_mem_nil _
  case cons s _ hi =>
    rw [List.map_cons, allIn_cons, s.all_color]
    exact List.forall_mem_append.mpr ⟨Word.isColor_of_mem, hi⟩

-- An element with the normal form of a color. Six digits are only brought to upper case.
structure ShowsColor (text : String) (x : Xml) : Prop where
  written : x = value "color" (normalColor text)
  normal  : IsNormalColor (normalColor text)
  digits  : IsSixDigits text → normalColor text = text.toUpper

-- The colors of the letters of a run or a style.
def Xml.letterColors (x : Xml) : List Xml :=
  (x.named "w:rPr").flatMap (named "w:color")

-- A run has a color if it is given one that is not empty.
def ColorsRuns (sources : List DefectLog.Paragraph) (x : Xml) : Prop :=
  List.Forall₂ (fun run y => List.Forall₂ ShowsColor (nonempty? run.color).toList y.letterColors)
    (sources.flatMap (·.runs)) (x.named "w:r")

variable {book : StyleBook}

theorem showsColor_of_readColor {text : String} {color : Rgb} (h : readColor text = .ok color) :
    ShowsColor text (Xml.color color) where
  written := by rw [normalColor_of_readColor h]; rfl
  normal  := isNormalColor_of_readColor h
  digits  := normalColor_of_digits

theorem Run.letterColors_xml (r : Run) : r.xml.letterColors = (r.color.map Xml.color).toList := by
  simp [letterColors, Run.named_rPr, Run.named_properties]

theorem Style.letterColors_xml (s : Style) : s.xml.letterColors = (s.color.map Xml.color).toList := by
  simp [letterColors, Style.flatMap_rPr, Style.named_runProperties]

theorem Run.showsColor_of_ofTree {source : DefectLog.Run} {r : Run} (h : ofTree source = .ok r) :
    List.Forall₂ ShowsColor (nonempty? source.color).toList r.xml.letterColors := by
  simp only [ofTree, bind_eq_ok, pure_eq_ok] at h
  obtain ⟨_, -, _, -, color, hcolor, _, -, rfl⟩ := h
  rw [letterColors_xml]
  cases ht : nonempty? source.color
  case none =>
    rw [ht] at hcolor
    cases pure_eq_ok.mp hcolor
    exact .nil
  case some text =>
    rw [ht] at hcolor
    obtain ⟨c, hread, rfl⟩ := map_eq_ok.mp hcolor
    exact .cons (showsColor_of_readColor hread) .nil

theorem colorsRuns_of_gathers {sources : List DefectLog.Paragraph} {p : Paragraph}
    (h : Paragraph.Gathers book sources p) : ColorsRuns sources p.xml := by
  rw [ColorsRuns, Paragraph.named_r, List.forall₂_map_right_iff]
  exact h.runs.imp fun _ _ => Run.showsColor_of_ofTree

theorem Style.showsColor_of_configure {font : String} {heading : NamedStyle} {old style : Style}
    (h : configure font heading old = .ok style) : List.Forall₂ ShowsColor [heading.color] style.xml.letterColors := by
  simp only [configure, bind_eq_ok, pure_eq_ok] at h
  obtain ⟨_, -, _, -, _, hcolor, _, -, _, -, rfl⟩ := h
  rw [letterColors_xml]
  exact .cons (showsColor_of_readColor hcolor) .nil

variable {d : Document} {r : Rendering}

-- Every element for a color has a normal form. The runs and the heading styles have the elements for their own
-- colors, and a document in which each of these has its normal form already is the same when it is rendered.
theorem colors_of_render (h : render d = .ok r) :
    (∀ x ∈ allIn "w:color" (r.package.bodyXml ++ [r.package.book.xml]),
      ∃ text, IsNormalColor text ∧ x = value "color" text) ∧
    r.Spells ColorsRuns d ∧
    StylesTell d.defaults r.package.book (fun heading x => List.Forall₂ ShowsColor [heading.color] x.letterColors)
      (FromTemplate d.defaults) ∧
    render d.normalized = .ok r := by
  refine ⟨?normal, spells_of_render colorsRuns_of_gathers h, ?styles, (render_normalized d).trans h⟩
  case normal =>
    intro x hx
    rw [allIn_append, allIn_cons, allIn_nil, List.append_nil] at hx
    have hcolor := List.forall_mem_append.mpr ⟨isColor_blocks r.package.body, r.package.book.isColor_of_mem⟩
    have ⟨color, hx⟩ := hcolor x hx
    exact ⟨_, isNormalColor_upperHex color, hx⟩
  case styles => exact stylesTell_of_defaults (render_eq_ok h).left (fun _ => Style.showsColor_of_configure) id

-- Colors that are spelled in various ways, in the body, in a table in a cell, and in a style that is set twice.
def colored : Document where
  defaults := { font := "Arial", size := 22, namedStyles := [
    { styleId := "Heading1", name := "Heading 1", size := 28, color := "1f3864", spacing := {}, outlineLevel := 0 },
    { styleId := "Note", name := "Note", size := 20, color := "12345", spacing := {}, outlineLevel := 1 },
    { styleId := "Heading1", name := "Heading 1", size := 24, color := "٠f001_2", spacing := {}, outlineLevel := 0 }] }
  page     := { width := 12240, height := 15840, margins := {} }
  body     := [
    .paragraph { runs := [{ text := "a", size := 20, color := some "aBcDe0" }, { text := "b", size := 20 }] },
    .table {
      columnWidths := [1000]
      rows         := [[{ width := 1000, blocks := [.table {
        columnWidths := [500]
        rows         := [[{ width := 500, blocks := [.paragraph { runs := [
          { text := "c", size := 20, color := some "+1 f0x2" },
          { text := "d", size := 20, color := some "" }] }] }]] }] }]] }]

set_option maxRecDepth 10000 in
theorem exists_render_colored : ∃ r, render colored = .ok r :=
  exists_of_isOk (by decide +kernel)

theorem colors_of_render_colored : ∃ r, render colored = .ok r ∧
    ((∀ x ∈ allIn "w:color" (r.package.bodyXml ++ [r.package.book.xml]),
      ∃ text, IsNormalColor text ∧ x = value "color" text) ∧
    r.Spells ColorsRuns colored ∧
    StylesTell colored.defaults r.package.book
      (fun heading x => List.Forall₂ ShowsColor [heading.color] x.letterColors) (FromTemplate colored.defaults) ∧
    render colored.normalized = .ok r) ∧
    ["aBcDe0", "+1 f0x2", "12345", "٠f001_2"].map normalColor = ["ABCDE0", "010F02", "123405", "0F0012"] ∧
    colored.defaults.places.map (·.1) = [1, 10, 1] := by
  have ⟨r, h⟩ := exists_render_colored
  exact ⟨r, h, colors_of_render h, by decide +kernel, by decide +kernel⟩

end DefectLog.Word
