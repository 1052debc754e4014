import DefectLog.Proofs.Word.Confined
import DefectLog.Proofs.Word.Rendered
import DefectLog.Proofs.Word.Tracing

-- How the paragraphs of the tree are spelled, in the body and in the cells at any depth.
namespace DefectLog.Word

open Xml Success

namespace Xml

-- The paragraphs of a cell that something was written to.
def filled (x : Xml) : List Xml :=
  (x.named "w:p").filter (!·.children.isEmpty)

-- The paragraphs that stand directly in the cells of a table, row by row.
def cellParagraphs (x : Xml) : List Xml :=
  (x.named "w:tr").flatMap fun row => (row.named "w:tc").flatMap (named "w:p")

end Xml

section

-- What holds of an element that some paragraphs of the tree went to, one after the other.
variable (R : List DefectLog.Paragraph → Xml → Prop)

-- Every paragraph in a cell of the table has an element in a cell there, which it may share with others. Those
-- that have no runs may be missing.
def Shares (t : DefectLog.Table DefectLog.Block) (x : Xml) : Prop :=
  ∃ groups lost, List.Forall₂ R groups x.cellParagraphs ∧ (groups.flatten ++ lost).Perm t.paragraphs ∧
    ∀ p ∈ lost, p.runs = []

-- The cells of a row of the tree have elements of their own, with an element for each paragraph. Nothing is in
-- the other cells of the row.
def SeparatesRow (sources : List (DefectLog.Cell DefectLog.Block)) (x : Xml) : Prop :=
  ∃ shown rest, (x.named "w:tc").Perm (shown ++ rest) ∧
    List.Forall₂ (fun c y => List.Forall₂ (fun p z => R [p] z) c.paragraphs y.filled) sources shown ∧
    ∀ y ∈ rest, y.filled = []

def Separates (t : DefectLog.Table DefectLog.Block) (x : Xml) : Prop :=
  List.Forall₂ (SeparatesRow R) t.rows (x.named "w:tr")

-- Each paragraph of the body has an element of its own, and so has each paragraph in a cell as long as no cell
-- of its table spills.
def Rendering.Spells (r : Rendering) (d : Document) : Prop :=
  List.Forall₂ (fun b x => ∀ p, b.paragraph? = some p → R [p] x) d.body r.package.bodyXml ∧
  r.Pairs d fun t x => Shares R t x ∧ (t.SpillFree → Separates R t x)

end

variable {book : StyleBook} {room : Int} {p : Paragraph} {c : Cell Block}
  {R : List DefectLog.Paragraph → Xml → Prop}

-- Only a paragraph that nothing was written to has no children.
theorem Paragraph.isEmpty_children (p : Paragraph) : p.xml.children.isEmpty ↔ p = {} := by
  obtain ⟨style, rules, spacing, indent, alignment, outlineLevel, runs⟩ := p
  simp [xml, unlessEmpty, and_assoc]

theorem Paragraph.ne_empty_of_write {source : DefectLog.Paragraph} {unresolved : List String}
    (h : write book source {} = .ok (p, unresolved)) : p ≠ {} := by
  obtain ⟨_, _, _, _, _, -, -, rfl⟩ := write_eq_ok h
  simp

theorem Cell.named_p (c : Cell Block) : c.xml.named "w:p" = (paragraphs c.content).map Paragraph.xml := by
  rw [xml, named_cons, if_neg (by simp [Cell.properties]), blocksXml_eq_map]
  induction c.content
  case nil => rfl
  case cons b bs hi =>
    rw [List.map_cons, named_cons, hi]
    cases b
    case paragraph => rfl
    case table     => rfl

theorem Cell.filled_xml (c : Cell Block) :
    c.xml.filled = ((paragraphs c.content).filter (· ≠ {})).map Paragraph.xml := by
  rw [filled, named_p, List.filter_map]
  congr 1
  refine List.filter_congr fun p _ => ?_
  have := p.isEmpty_children
  by_cases hp : p = {} <;> simp_all

theorem Row.cellParagraphs_eq (cells : List (Cell Block)) :
    ((rowXml cells).named "w:tc").flatMap (named "w:p") = (paragraphs (Row.blocks cells)).map Paragraph.xml := by
  rw [named_tc_rowXml]
  induction cells
  case nil       => rfl
  case cons _ hi => rw [List.map_cons, List.flatMap_cons, hi, Cell.named_p, Row.blocks_cons, paragraphs_append, List.map_append]

theorem cellParagraphs_table (t : Table Block) :
    (Block.table t).xml.cellParagraphs = (paragraphs (Grid.blocks t.grid)).map Paragraph.xml := by
  rw [cellParagraphs, Block.named_tr_table]
  induction t.grid
  case nil       => rfl
  case cons _ hi =>
    rw [List.map_cons, List.flatMap_cons, hi, Row.cellParagraphs_eq, Grid.blocks_cons, paragraphs_append, List.map_append]

variable {blocks : List DefectLog.Block} {content : List Block}

-- A paragraph of a cell of the tree and what it is written as.
def Wrote (book : StyleBook) (source : DefectLog.Paragraph) (p : Paragraph) : Prop :=
  ∃ unresolved, Paragraph.write book source {} = .ok (p, unresolved)

theorem wrote_of_sequel (h : Sequel book room blocks content) :
    List.Forall₂ (Wrote book) (blocks.filterMap DefectLog.Block.paragraph?)
      ((paragraphs content).filter (· ≠ {})) := by
  induction h
  case nil => exact .nil
  case paragraph hw _ hi =>
    have hp := Paragraph.ne_empty_of_write hw
    simpa [paragraphs, Block.paragraph?, DefectLog.Block.paragraph?, List.filterMap_cons, hp] using
      And.intro ⟨_, hw⟩ hi
  case table hi =>
    simpa [paragraphs, Block.paragraph?, DefectLog.Block.paragraph?, List.filterMap_cons, Block.empty] using hi

theorem wrote_of_content (h : Content book room blocks content) :
    List.Forall₂ (Wrote book) (blocks.filterMap DefectLog.Block.paragraph?)
      ((paragraphs content).filter (· ≠ {})) := by
  cases h
  case empty => exact .nil
  case paragraph hs => exact wrote_of_sequel hs
  case table hs =>
    have hw := wrote_of_sequel hs
    simpa [paragraphs, Block.paragraph?, Block.empty] using hw

variable {sources : List (DefectLog.Cell DefectLog.Block)} {cells : List (Cell Block)}

-- The elements of the cells of a row of the tree, and those of the other cells of the row.
theorem shown_of_confinedRow (h : ConfinedRow book sources cells) : ∃ shown rest,
    ((rowXml cells).named "w:tc").Perm (shown ++ rest) ∧
    List.Forall₂ (fun source x => ∃ c, Keeps book source c ∧ x = c.xml) sources shown ∧ ∀ y ∈ rest, y.filled = [] := by
  have ⟨held, hheld, hp, hrest⟩ := h
  refine ⟨held.map Cell.xml, (cells.filter fun c => !decide (c.finishes ≠ [])).map Cell.xml, ?perm, ?shown, ?rest⟩
  case perm =>
    rw [named_tc_rowXml, ← List.map_append]
    exact ((List.filter_append_perm _ cells).symm.trans (hp.append_right _)).map _
  case shown =>
    rw [List.forall₂_map_right_iff]
    exact hheld.imp fun _ c h => ⟨c, h, rfl⟩
  case rest =>
    intro y hy
    have ⟨c, hc, hy⟩ := List.mem_map.mp hy
    have ⟨hc, hf⟩ := List.mem_filter.mp hc
    rw [← hy, Cell.filled_xml, hrest c hc (by simpa using hf)]
    rfl

section

variable (hR : ∀ {sources p}, Paragraph.Gathers book sources p → R sources p.xml)
include hR

theorem filled_of_keeps {source : DefectLog.Cell DefectLog.Block} (h : Keeps book source c) :
    List.Forall₂ (fun p z => R [p] z) source.paragraphs c.xml.filled := by
  rw [Cell.filled_xml, List.forall₂_map_right_iff]
  exact (wrote_of_content h.content).imp fun _ _ ⟨_, hw⟩ => hR (.single hw)

theorem separatesRow_of_confinedRow (h : ConfinedRow book sources cells) : SeparatesRow R sources (rowXml cells) := by
  have ⟨shown, rest, hp, hshown, hrest⟩ := shown_of_confinedRow h
  refine ⟨shown, rest, hp, hshown.imp fun _ _ h => ?_, hrest⟩
  obtain ⟨c, hkeeps, rfl⟩ := h
  exact filled_of_keeps hR hkeeps

theorem shares_of_writeTable {t : DefectLog.Table DefectLog.Block} {out : Table Block} {unresolved : List String}
    (h : writeTable book room t = .ok (out, unresolved)) : Shares R t (Block.table out).xml := by
  have ⟨groups, lost, hg, hp, hl⟩ := traced_writeTable h
  refine ⟨groups, lost, ?_, hp, hl⟩
  rw [cellParagraphs_table, List.forall₂_map_right_iff]
  exact hg.imp fun _ _ => hR

theorem separates_of_confined {t : DefectLog.Table DefectLog.Block} {out : Table Block} (h : Confined book t out) :
    Separates R t (Block.table out).xml := by
  rw [Separates, Block.named_tr_table, List.forall₂_map_right_iff]
  exact h.imp fun _ _ => separatesRow_of_confinedRow hR

end

theorem spells_of_render {d : Document} {r : Rendering}
    (hR : ∀ {sources p}, Paragraph.Gathers r.package.book sources p → R sources p.xml) (h : render d = .ok r) :
    r.Spells R d := by
  constructor
  case left =>
    obtain ⟨room, unresolved, hw, _⟩ := (render_eq_ok h).right
    rw [Package.bodyXml, blocksXml_eq_map, List.forall₂_map_right_iff]
    refine (writeBody_eq_ok hw).imp ?_
    rintro b out ⟨_, hb⟩ p hp
    cases b
    case table => cases hp
    case paragraph =>
      cases hp
      simp only [writeBlock, bind_eq_ok, pure_eq_ok, Prod.mk.injEq] at hb
      obtain ⟨_, hw, rfl, -⟩ := hb
      exact hR (.single hw)
  case right =>
    refine pairs_of_render h ?_
    rintro _ _ ⟨_, _, ht⟩
    exact ⟨shares_of_writeTable hR ht, fun hs => separates_of_confined hR (confined_of_spillFree hs ht)⟩

theorem Shares.imp {S : List DefectLog.Paragraph → Xml → Prop} {t : DefectLog.Table DefectLog.Block} {x : Xml}
    (h : Shares R t x) (hS : ∀ {sources x}, sources ⊆ t.paragraphs → R sources x → S sources x) : Shares S t x := by
  have ⟨groups, lost, hg, hp, hl⟩ := h
  have hsub : ∀ group ∈ groups, group ⊆ t.paragraphs := fun group hm p hp' =>
    hp.subset (List.mem_append_left _ (List.mem_flatten_of_mem hm hp'))
  have hg := (List.forall₂_and_left groups _).mpr ⟨hsub, hg⟩
  exact ⟨groups, lost, hg.imp fun _ _ ⟨hsub, h⟩ => hS hsub h, hp, hl⟩

end DefectLog.Word
