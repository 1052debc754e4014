import DefectLog.Proofs.Document.Paragraphs
import DefectLog.Proofs.Document.Tables
import DefectLog.Report.Assembly

-- The parts that a report is made of. They have their numbers and colors from the sheet.
namespace DefectLog

namespace Sheet

def sizes (s : Sheet) : List HalfPoints :=
  [s.bodySize, s.titleSize, s.captionSize, s.headerTextSize, s.tableTextSize]

def colors (s : Sheet) : List String :=
  [s.titleColor, s.subtitleColor, s.captionColor, s.headerTextColor, s.accentColor]

def fills (s : Sheet) : List String :=
  [s.headerFill, s.labelFill]

def widths (s : Sheet) : List Twips :=
  [s.labelWidth, s.contentWidth, s.fullWidth]

-- The last four are the same for all sheets.
def spacings (s : Sheet) : List Spacing :=
  [s.lineSpacing, s.dividerSpacing, s.spacerSpacing, {}, { before := 0, after := 80 }, { before := 0, after := 320 },
    { before := 200, after := 0 }]

end Sheet

-- A paragraph of one run, or without runs. Its text, if it has one, is of a kind that is given.
inductive Plain (sheet : Sheet) (T : String → Prop) : Paragraph → Prop
  | run {run : Run} {spacing : Spacing} {alignment : Option Alignment} :
    (T run.text) → (run.size ∈ sheet.sizes) → (∀ color, run.color = some color → color ∈ sheet.colors) →
    (run.font = none) → (spacing ∈ sheet.spacings) → Plain sheet T { runs := [run], spacing, alignment }
  | blank {spacing : Spacing} {rule : Option Border} :
    (spacing ∈ sheet.spacings) → (∀ border, rule = some border → border = sheet.dividerBorder) →
    Plain sheet T { spacing, rule }

-- A cell of such paragraphs.
structure PlainCell (sheet : Sheet) (T : String → Prop) (c : Cell Block) : Prop where
  span    : c.span = 1 ∨ c.span = 2
  width   : c.width ∈ sheet.widths
  margins : c.margins = sheet.headerMargins ∨ c.margins = sheet.cellMargins
  shading : ∀ s, c.shading = some s → ∃ fill ∈ sheet.fills, s = { fill }
  borders : c.borders = some sheet.tableBorders
  blocks  : ∀ b ∈ c.blocks, ∃ p, b = .paragraph p ∧ Plain sheet T p

-- All texts of a report are of a kind.
structure Report.Tells (T : String → Prop) (title subtitle : String) (closing : Option String)
    (defects : List Defect) : Prop where
  title     : T title
  subtitle  : T subtitle
  closing   : T (closingLine defects.length closing)
  labels    : T "Cause" ∧ T "Fix"
  headlines : ∀ d ∈ defects, T d.headline
  lines     : ∀ d ∈ defects, ∀ line ∈ d.cause ++ d.fix, T line

variable {sheet : Sheet} {T : String → Prop}

namespace Paragraph

variable {text : String}

theorem plain_title (h : T text) : Plain sheet T (title sheet text) :=
  .run h (by simp [Sheet.sizes]) (by simp [Sheet.colors]) rfl (by simp [Sheet.spacings])

theorem plain_subtitle (h : T text) : Plain sheet T (subtitle sheet text) :=
  .run h (by simp [Sheet.sizes]) (by simp [Sheet.colors]) rfl (by simp [Sheet.spacings])

theorem plain_closing (h : T text) : Plain sheet T (closing sheet text) :=
  .run h (by simp [Sheet.sizes]) (by simp [Sheet.colors]) rfl (by simp [Sheet.spacings])

theorem plain_divider : Plain sheet T (divider sheet) :=
  .blank (by simp [Sheet.spacings]) fun _ h => (Option.some.inj h).symm

theorem plain_spacer : Plain sheet T (spacer sheet) :=
  .blank (by simp [Sheet.spacings]) nofun

end Paragraph

namespace Defect

variable {d : Defect}

theorem plain_line {text : String} (h : T text) : Plain sheet T (line sheet text) :=
  .run h (by simp [Sheet.sizes]) nofun rfl (by simp [Sheet.spacings])

-- The headline of a table, and the labels of its rows.
theorem plain_bold {text color : String} {size : HalfPoints} (h : T text) (hs : size ∈ sheet.sizes)
    (hc : color ∈ sheet.colors) : Plain sheet T { runs := [{ text, size, color := some color, bold := true }] } :=
  .run h hs (fun _ he => Option.some.inj he ▸ hc) rfl (by simp [Sheet.spacings])

theorem plainCell_titleRow (h : T d.headline) : ∀ c ∈ d.titleRow sheet, PlainCell sheet T c := by
  have hsize : sheet.headerTextSize ∈ sheet.sizes := by simp [Sheet.sizes]
  have hcolor : sheet.headerTextColor ∈ sheet.colors := by simp [Sheet.colors]
  exact List.forall_mem_singleton.mpr {
    span    := .inr rfl
    width   := by simp [Sheet.widths]
    margins := .inl rfl
    shading := by simp [Sheet.fills]
    borders := rfl
    blocks  := List.forall_mem_singleton.mpr ⟨_, rfl, plain_bold h hsize hcolor⟩ }

theorem plainCell_narrativeRow {name : String} {lines : List String} (hn : T name) (hl : ∀ line ∈ lines, T line) :
    ∀ c ∈ narrativeRow sheet name lines, PlainCell sheet T c := by
  have hsize : sheet.tableTextSize ∈ sheet.sizes := by simp [Sheet.sizes]
  have hcolor : sheet.accentColor ∈ sheet.colors := by simp [Sheet.colors]
  refine List.forall_mem_cons.mpr ⟨?label, List.forall_mem_singleton.mpr ?lines⟩
  case label => exact {
    span    := .inl rfl
    width   := by simp [Sheet.widths]
    margins := .inr rfl
    shading := by simp [Sheet.fills]
    borders := rfl
    blocks  := List.forall_mem_singleton.mpr ⟨_, rfl, plain_bold hn hsize hcolor⟩ }
  case lines => exact {
    span    := .inl rfl
    width   := by simp [Sheet.widths]
    margins := .inr rfl
    shading := nofun
    borders := rfl
    blocks  := List.forall_mem_map.mpr fun line hm => ⟨_, rfl, plain_line (hl line hm)⟩ }

theorem plainCell_table (sheet : Sheet) (hh : T d.headline) (hlabels : T "Cause" ∧ T "Fix")
    (hl : ∀ line ∈ d.cause ++ d.fix, T line) : ∀ cells ∈ (d.table sheet).rows, ∀ c ∈ cells, PlainCell sheet T c := by
  have ⟨hcause, hfix⟩ := List.forall_mem_append.mp hl
  simp only [table, List.forall_mem_cons]
  exact ⟨plainCell_titleRow hh, plainCell_narrativeRow hlabels.left hcause, plainCell_narrativeRow hlabels.right hfix,
    List.forall_mem_nil _⟩

end Defect

-- Every block of the body is a plain paragraph or a table of plain cells.
theorem Report.plain_body {title subtitle : String} {closing : Option String} {defects : List Defect}
    (h : Tells T title subtitle closing defects) : ∀ b ∈ body sheet title subtitle closing defects,
      (∃ p, b = .paragraph p ∧ Plain sheet T p) ∨ ∃ d ∈ defects, b = .table (d.table sheet) := by
  have hspacer : Plain sheet T (.spacer sheet) := Paragraph.plain_spacer
  have hdivider : Plain sheet T (.divider sheet) := Paragraph.plain_divider
  simp only [body, opening, entryBlocks, ending, List.forall_mem_append, List.forall_mem_flatMap, List.forall_mem_cons]
  refine ⟨⟨⟨?title, ?subtitle, .inl ⟨_, rfl, hdivider⟩, List.forall_mem_nil _⟩, fun d hd => ?entry⟩,
    .inl ⟨_, rfl, hdivider⟩, ?closing, List.forall_mem_nil _⟩
  case title    => exact .inl ⟨_, rfl, Paragraph.plain_title h.title⟩
  case subtitle => exact .inl ⟨_, rfl, Paragraph.plain_subtitle h.subtitle⟩
  case entry    => exact ⟨.inl ⟨_, rfl, hspacer⟩, .inr ⟨d, hd, rfl⟩, .inl ⟨_, rfl, hspacer⟩, List.forall_mem_nil _⟩
  case closing  => exact .inl ⟨_, rfl, Paragraph.plain_closing h.closing⟩

end DefectLog
