import DefectLog.Proofs.Word.Nesting
import DefectLog.Word.Markup
import Mathlib.Data.List.Basic

-- The elements of what is written, and how the tables and the cells of a document are found among them.
namespace DefectLog.Word

open Xml

namespace Xml

def tag? : Xml → Option String
  | element tag _ _ => some tag
  | chars _         => none

def children : Xml → List Xml
  | element _ _ children => children
  | chars _              => []

def attribute? (name : String) : Xml → Option String
  | element _ attributes _ => attributes.lookup name
  | chars _                => none

-- The children with a tag.
def named (tag : String) (x : Xml) : List Xml :=
  x.children.filter (·.tag? = some tag)

-- The element that is a child of the properties of a cell.
def property? (tag : String) (x : Xml) : Option Xml :=
  ((x.named "w:tcPr").flatMap (named tag)).head?

-- A cell covers one column if it does not say otherwise.
def gridSpan (x : Xml) : Nat :=
  (((x.property? "w:gridSpan").bind (attribute? "w:val")).bind String.toNat?).getD 1

section

variable {tag own : String} {attributes : List (String × String)} {f : α → Xml}

@[simp] theorem tag?_w (inner : List Xml) : (w own attributes inner).tag? = some ("w:" ++ own) :=
  rfl

@[simp] theorem children_w (inner : List Xml) : (w own attributes inner).children = inner :=
  rfl

theorem named_cons (x : Xml) (xs : List Xml) :
    (w own attributes (x :: xs)).named tag =
      if x.tag? = some tag then x :: (w own attributes xs).named tag else (w own attributes xs).named tag := by
  simp only [named, children_w, List.filter_cons, decide_eq_true_eq]

theorem named_unlessEmpty {other : String} (h : "w:" ++ other ≠ tag) (inner xs : List Xml) :
    (w own attributes (unlessEmpty other inner ++ xs)).named tag = (w own attributes xs).named tag := by
  unfold unlessEmpty
  split
  case isTrue  => rfl
  case isFalse => rw [List.singleton_append, named_cons, tag?_w, if_neg (by simpa using h)]

theorem named_map (h : ∀ a, (f a).tag? = some tag) (xs : List α) :
    (w own attributes (xs.map f)).named tag = xs.map f := by
  refine List.filter_eq_self.mpr fun x hx => ?_
  obtain ⟨a, -, rfl⟩ := List.mem_map.mp hx
  exact decide_eq_true (h a)

theorem named_map_of_ne (h : ∀ a, (f a).tag? ≠ some tag) (xs : List α) :
    (w own attributes (xs.map f)).named tag = [] := by
  refine List.filter_eq_nil_iff.mpr fun x hx => ?_
  obtain ⟨a, -, rfl⟩ := List.mem_map.mp hx
  simpa using h a

end

-- The elements with a tag at any depth, in the order in which they begin.
mutual
def all (tag : String) : Xml → List Xml
  | .chars _                      => []
  | .element own attributes inner =>
    (if own = tag then [.element own attributes inner] else []) ++ allIn tag inner
def allIn (tag : String) : List Xml → List Xml
  | []      => []
  | x :: xs => all tag x ++ allIn tag xs
end

@[simp] theorem allIn_nil (tag : String) : allIn tag [] = [] :=
  rfl

@[simp] theorem allIn_cons (tag : String) (x : Xml) (xs : List Xml) :
    allIn tag (x :: xs) = all tag x ++ allIn tag xs :=
  rfl

@[simp] theorem allIn_append (tag : String) (xs ys : List Xml) :
    allIn tag (xs ++ ys) = allIn tag xs ++ allIn tag ys := by
  induction xs <;> simp_all

@[simp] theorem all_w (tag own : String) (attributes : List (String × String)) (inner : List Xml) :
    all tag (w own attributes inner) =
      (if "w:" ++ own = tag then [w own attributes inner] else []) ++ allIn tag inner :=
  rfl

@[simp] theorem all_leaf (tag own : String) (attributes : List (String × String)) :
    all tag (leaf own attributes) = if "w:" ++ own = tag then [leaf own attributes] else [] :=
  List.append_nil _

theorem allIn_map {tag : String} {f : α → Xml} (xs : List α) (h : ∀ a, all tag (f a) = []) :
    allIn tag (xs.map f) = [] := by
  induction xs <;> simp_all

theorem allIn_option {tag : String} {f : α → Xml} (x : Option α) (h : ∀ a, all tag (f a) = []) :
    allIn tag (x.map f).toList = [] := by
  cases x <;> simp [h]

theorem allIn_flag {tag own : String} (h : "w:" ++ own ≠ tag) (on : Bool) : allIn tag (flag own on) = [] := by
  cases on <;> simp [flag, h]

theorem allIn_unlessEmpty {tag own : String} (h : "w:" ++ own ≠ tag) (inner : List Xml) :
    allIn tag (unlessEmpty own inner) = allIn tag inner := by
  cases inner <;> simp [unlessEmpty, h]

end Xml

-- How the parts of a table are spelled.

def Cell.xml (c : Cell Block) : Xml :=
  w "tc" [] (c.properties :: blocksXml c.content)

def rowXml (cells : List (Cell Block)) : Xml :=
  w "tr" [] (cells.map Cell.xml)

def columnXml (n : Int) : Xml :=
  leaf "gridCol" [("w", toString n)]

theorem cellsXml_eq_map (cells : List (Cell Block)) : cellsXml cells = cells.map Cell.xml := by
  induction cells
  case nil       => rfl
  case cons _ hi => simp [cellsXml, hi, Cell.xml]

theorem rowsXml_eq_map (g : Grid) : rowsXml g = g.map rowXml := by
  induction g
  case nil       => rfl
  case cons _ hi => simp [rowsXml, hi, cellsXml_eq_map, rowXml]

theorem blocksXml_eq_map (bs : List Block) : blocksXml bs = bs.map Block.xml := by
  induction bs
  case nil       => rfl
  case cons _ hi => simp [blocksXml, hi]

theorem Block.xml_empty : Block.empty.xml = w "p" [] [] :=
  rfl

theorem Block.xml_table (t : Table Block) : (Block.table t).xml =
    w "tbl" [] (tableProperties t.width :: w "tblGrid" [] (t.columns.map columnXml) :: t.grid.map rowXml) := by
  rw [← rowsXml_eq_map]
  rfl

theorem Block.tag?_xml (b : Block) : b.xml.tag? = some "w:p" ∨ b.xml.tag? = some "w:tbl" := by
  cases b
  case paragraph => exact .inl rfl
  case table     => exact .inr rfl

-- Neither a paragraph nor the properties of a table or a cell hold tables, cells or other paragraphs.
section Plain

variable {tag : String} (ht : tag = "w:tbl" ∨ tag = "w:tc" ∨ tag = "w:p")
include ht

theorem Piece.all_xml (p : Piece) : all tag p.xml = [] := by
  rcases ht with rfl | rfl | rfl <;> cases p <;> simp [Piece.xml, all, allIn]

theorem Run.all_xml (r : Run) : all tag r.xml = [] := by
  have hp := allIn_map r.pieces (Piece.all_xml ht)
  rcases ht with rfl | rfl | rfl <;>
    simp [Run.xml, hp, allIn_option, allIn_flag, fonts, Xml.color, value]

theorem Paragraph.all_xml (p : Paragraph) : all tag p.xml = if "w:p" = tag then [p.xml] else [] := by
  have hr := allIn_map p.runs (Run.all_xml ht)
  rcases ht with rfl | rfl | rfl <;>
    simp [Paragraph.xml, hr, allIn_unlessEmpty, allIn_option, allIn_map, value, Rule.xml, Xml.spacing, outline]

theorem Finish.all_xml (f : Finish) : all tag f.xml = [] := by
  rcases ht with rfl | rfl | rfl <;> cases f <;> simp [Finish.xml, Rule.xml]

theorem Stacking.all_xml (s : Stacking) : all tag s.xml = [] := by
  rcases ht with rfl | rfl | rfl <;> cases s <;> simp [Stacking.xml, value]

theorem Cell.all_properties (c : Cell Block) : all tag c.properties = [] := by
  have hf := allIn_map c.finishes (Finish.all_xml ht)
  have hs := allIn_option c.stacking (Stacking.all_xml ht)
  rcases ht with rfl | rfl | rfl <;> by_cases hc : c.span = 1 <;> simp [Cell.properties, hf, hs, hc, value]

theorem all_tableProperties (width : Int) : all tag (tableProperties width) = [] := by
  rcases ht with rfl | rfl | rfl <;> simp [tableProperties]

end Plain

-- The tables of a document in the order in which they begin.
mutual
theorem all_tbl_block (b : Block) :
    all "w:tbl" b.xml = b.allTables.map fun t => (Block.table t).xml := by
  cases b
  case paragraph p => exact Paragraph.all_xml (.inl rfl) p
  case table t     =>
    have ht := all_tableProperties (.inl rfl) t.width
    simp [Block.xml, Block.allTables, ht, allIn_map, all_tbl_rows t.grid]
termination_by structural b
theorem all_tbl_rows (g : List (List (Cell Block))) :
    allIn "w:tbl" (rowsXml g) = (rowsTables g).map fun t => (Block.table t).xml := by
  cases g
  case nil             => rfl
  case cons cells rows => simp [rowsXml, rowsTables, all_tbl_cells cells, all_tbl_rows rows]
termination_by structural g
theorem all_tbl_cells (cells : List (Cell Block)) :
    allIn "w:tbl" (cellsXml cells) = (cellsTables cells).map fun t => (Block.table t).xml := by
  cases cells
  case nil          => rfl
  case cons c cells =>
    have hp := Cell.all_properties (.inl rfl) c
    simp [cellsXml, cellsTables, hp, all_tbl_blocks c.content, all_tbl_cells cells]
termination_by structural cells
theorem all_tbl_blocks (bs : List Block) :
    allIn "w:tbl" (blocksXml bs) = (blocksTables bs).map fun t => (Block.table t).xml := by
  cases bs
  case nil       => rfl
  case cons b bs => simp [blocksXml, blocksTables, all_tbl_block b, all_tbl_blocks bs]
termination_by structural bs
end

-- A cell stands in one of the tables.
def CellOf (ts : List (Table Block)) (x : Xml) : Prop :=
  ∃ t ∈ ts, ∃ cells ∈ t.grid, ∃ c ∈ cells, x = c.xml

theorem CellOf.mono {ts us : List (Table Block)} {x : Xml} (h : CellOf ts x) (hs : ts ⊆ us) : CellOf us x :=
  have ⟨t, ht, hc⟩ := h
  ⟨t, hs ht, hc⟩

mutual
theorem cellOf_block (b : Block) : ∀ x ∈ all "w:tc" b.xml, CellOf b.allTables x := by
  cases b
  case paragraph p => simp [Block.xml, Paragraph.all_xml (.inr (.inl rfl)) p]
  case table t     =>
    intro x hx
    have ht := all_tableProperties (.inr (.inl rfl)) t.width
    have hx : x ∈ allIn "w:tc" (rowsXml t.grid) := by simpa [Block.xml, ht, allIn_map] using hx
    cases cellOf_rows t.grid x hx
    case inl h => exact ⟨t, List.mem_cons_self, h⟩
    case inr h => exact h.mono (List.subset_cons_self t _)
theorem cellOf_rows (g : List (List (Cell Block))) : ∀ x ∈ allIn "w:tc" (rowsXml g),
    (∃ cells ∈ g, ∃ c ∈ cells, x = c.xml) ∨ CellOf (rowsTables g) x := by
  cases g
  case nil             => simp [rowsXml]
  case cons cells rows =>
    intro x hx
    simp only [rowsXml, allIn_cons, all_w, String.reduceAppend, String.reduceEq, ↓reduceIte,
      List.nil_append, List.mem_append] at hx
    cases hx
    case inl hx =>
      cases cellOf_cells cells x hx
      case inl h => exact .inl ⟨cells, List.mem_cons_self, h⟩
      case inr h => exact .inr (h.mono (List.subset_append_left _ _))
    case inr hx =>
      cases cellOf_rows rows x hx
      case inl h =>
        have ⟨cells', hm, hc⟩ := h
        exact .inl ⟨cells', List.mem_cons_of_mem _ hm, hc⟩
      case inr h => exact .inr (h.mono (List.subset_append_right _ _))
termination_by structural g
theorem cellOf_cells (cells : List (Cell Block)) : ∀ x ∈ allIn "w:tc" (cellsXml cells),
    (∃ c ∈ cells, x = c.xml) ∨ CellOf (cellsTables cells) x := by
  cases cells
  case nil          => simp [cellsXml]
  case cons c cells =>
    intro x hx
    have hp := Cell.all_properties (.inr (.inl rfl)) c
    simp only [cellsXml, allIn_cons, all_w, String.reduceAppend, ↓reduceIte, hp, List.nil_append,
      List.mem_append, List.mem_singleton] at hx
    obtain (rfl | hx) | hx := hx
    case inl.inl => exact .inl ⟨c, List.mem_cons_self, rfl⟩
    case inl.inr => exact .inr ((cellOf_blocks c.content x hx).mono (List.subset_append_left _ _))
    case inr =>
      cases cellOf_cells cells x hx
      case inl h =>
        have ⟨c', hm, hc⟩ := h
        exact .inl ⟨c', List.mem_cons_of_mem _ hm, hc⟩
      case inr h => exact .inr (h.mono (List.subset_append_right _ _))
termination_by structural cells
-- Every cell of a document is a cell of one of its tables.
theorem cellOf_blocks (bs : List Block) : ∀ x ∈ allIn "w:tc" (blocksXml bs), CellOf (blocksTables bs) x := by
  cases bs
  case nil       => simp [blocksXml]
  case cons b bs =>
    intro x hx
    simp only [blocksXml, allIn_cons, List.mem_append] at hx
    cases hx
    case inl hx => exact (cellOf_block b x hx).mono (List.subset_append_left _ _)
    case inr hx => exact (cellOf_blocks bs x hx).mono (List.subset_append_right _ _)
termination_by structural bs
end

end DefectLog.Word
