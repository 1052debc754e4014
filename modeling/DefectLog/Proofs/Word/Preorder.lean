import DefectLog.Proofs.Document.Paragraphs
import DefectLog.Proofs.Word.Spelling

-- Where the rows of all tables fit, the paragraphs of a document come in the order of the tree.
namespace DefectLog.Word

open Xml Success

-- The paragraphs at any depth that something was written to, in the order in which they begin.
def Xml.allFilled (xs : List Xml) : List Xml :=
  (allIn "w:p" xs).filter (!·.children.isEmpty)

section Filled

theorem Xml.allFilled_append (xs ys : List Xml) : allFilled (xs ++ ys) = allFilled xs ++ allFilled ys := by
  rw [allFilled, allIn_append, List.filter_append]
  rfl

theorem Xml.allFilled_cons (x : Xml) (xs : List Xml) : allFilled (x :: xs) = allFilled [x] ++ allFilled xs :=
  allFilled_append [x] xs

@[simp] theorem allFilled_empty : allFilled [Block.empty.xml] = [] :=
  rfl

theorem allFilled_paragraph {p : Paragraph} (h : p ≠ {}) : allFilled [(Block.paragraph p).xml] = [p.xml] := by
  have hp : all "w:p" p.xml = [p.xml] := Paragraph.all_xml (.inr (.inr rfl)) p
  have hc : p.xml.children.isEmpty = false := by simpa using fun he => h (p.isEmpty_children.mp he)
  simp [allFilled, Block.xml, hp, hc]

theorem allFilled_table (t : Table Block) :
    allFilled [(Block.table t).xml] = allFilled (t.grid.map rowXml) := by
  have ht : all "w:p" (tableProperties t.width) = [] := all_tableProperties (.inr (.inr rfl)) t.width
  simp [allFilled, Block.xml_table, ht, allIn_map, columnXml]

theorem allFilled_row (cells : List (Cell Block)) : allFilled [rowXml cells] = allFilled (cells.map Cell.xml) := by
  simp [allFilled, rowXml]

theorem allFilled_cell (c : Cell Block) : allFilled [c.xml] = allFilled (c.content.map Block.xml) := by
  have hc : all "w:p" c.properties = [] := Cell.all_properties (.inr (.inr rfl)) c
  simp [allFilled, Cell.xml, hc, blocksXml_eq_map]

theorem allFilled_blank (n : Nat) (width : Int) :
    allFilled ((List.replicate n (Cell.blank width)).map Cell.xml) = [] := by
  induction n
  case zero      => rfl
  case succ n hi => rw [List.replicate_succ, List.map_cons, allFilled_cons, hi, allFilled_cell]; rfl

end Filled

-- A paragraph of the tree and the element that it is written as.
def WroteXml (book : StyleBook) (source : DefectLog.Paragraph) (x : Xml) : Prop :=
  ∃ p, Wrote book source p ∧ x = p.xml

variable {book : StyleBook}

-- The empty paragraphs of a cell do not count.
theorem sequel_of_content {room : Int} {blocks : List DefectLog.Block} {content : List Block}
    (h : Content book room blocks content) : ∃ sequel, Sequel book room blocks sequel ∧
      allFilled (content.map Block.xml) = allFilled (sequel.map Block.xml) := by
  cases h
  case empty        => exact ⟨[], .nil, rfl⟩
  case paragraph hs => exact ⟨content, hs, rfl⟩
  case table hs     => exact ⟨_, hs, by rw [List.map_cons, allFilled_cons, allFilled_empty, List.nil_append]⟩

theorem Sequel.uncons {room : Int} {b : DefectLog.Block} {blocks : List DefectLog.Block} {content : List Block}
    (h : Sequel book room (b :: blocks) content) :
    ∃ first rest, Sequel book room [b] first ∧ Sequel book room blocks rest ∧ content = first ++ rest := by
  cases h
  case paragraph hw h => exact ⟨[_], _, .paragraph hw .nil, h, rfl⟩
  case table ht h     => exact ⟨[_, _], _, .table ht .nil, h, rfl⟩

-- One case for each level of the tree.
mutual
theorem ordered_table {room : Int} {t : DefectLog.Table DefectLog.Block} {out : Table Block} {unresolved : List String}
    (hf : ∀ t' ∈ (DefectLog.Block.table t).allTables, t'.Fits) (h : writeTable book room t = .ok (out, unresolved)) :
    List.Forall₂ (WroteXml book) (rowsParagraphs t.rows) (allFilled [(Block.table out).xml]) := by
  have ⟨ht, hrows⟩ := List.forall_mem_cons.mp hf
  have ⟨_, _, hg⟩ := holdsRow_of_writeTable ht h
  rw [allFilled_table]
  exact ordered_rows hrows hg
termination_by structural t
theorem ordered_rows {columns : Nat} {blank : Int} {rows : List (List (DefectLog.Cell DefectLog.Block))} {grid : Grid}
    (hf : ∀ t ∈ DefectLog.rowsTables rows, t.Fits) (h : List.Forall₂ (HoldsRow book columns blank) rows grid) :
    List.Forall₂ (WroteXml book) (rowsParagraphs rows) (allFilled (grid.map rowXml)) := by
  cases rows
  case nil =>
    cases h
    exact .nil
  case cons cells rows =>
    cases h
    case cons hr hrows =>
      obtain ⟨held, hheld, rfl⟩ := hr
      have ⟨hcells, hrest⟩ := List.forall_mem_append.mp hf
      rw [List.map_cons, allFilled_cons, allFilled_row, List.map_append, allFilled_append, allFilled_blank,
        List.append_nil]
      exact List.rel_append (ordered_cells hcells hheld) (ordered_rows hrest hrows)
termination_by structural rows
theorem ordered_cells {cells : List (DefectLog.Cell DefectLog.Block)} {held : List (Cell Block)}
    (hf : ∀ t ∈ DefectLog.cellsTables cells, t.Fits) (h : List.Forall₂ (Holds book) cells held) :
    List.Forall₂ (WroteXml book) (cellsParagraphs cells) (allFilled (held.map Cell.xml)) := by
  cases cells
  case nil =>
    cases h
    exact .nil
  case cons c cells =>
    cases h
    case cons hc hcells =>
      have ⟨hblocks, hrest⟩ := List.forall_mem_append.mp hf
      have ⟨_, hs, he⟩ := sequel_of_content hc.content
      rw [List.map_cons, allFilled_cons, allFilled_cell, he]
      exact List.rel_append (ordered_blocks hblocks hs) (ordered_cells hrest hcells)
termination_by structural cells
theorem ordered_blocks {room : Int} {blocks : List DefectLog.Block} {sequel : List Block}
    (hf : ∀ t ∈ DefectLog.blocksTables blocks, t.Fits) (h : Sequel book room blocks sequel) :
    List.Forall₂ (WroteXml book) (blocksParagraphs blocks) (allFilled (sequel.map Block.xml)) := by
  cases blocks
  case nil =>
    cases h
    exact .nil
  case cons b blocks =>
    have ⟨hb, hrest⟩ := List.forall_mem_append.mp hf
    obtain ⟨_, _, hfirst, hsequel, rfl⟩ := h.uncons
    rw [List.map_append, allFilled_append]
    exact List.rel_append (ordered_block hb hfirst) (ordered_blocks hrest hsequel)
termination_by structural blocks
theorem ordered_block {room : Int} {b : DefectLog.Block} {sequel : List Block}
    (hf : ∀ t ∈ b.allTables, t.Fits) (h : Sequel book room [b] sequel) :
    List.Forall₂ (WroteXml book) b.allParagraphs (allFilled (sequel.map Block.xml)) := by
  cases b
  case paragraph source =>
    cases h
    case paragraph hw h =>
      cases h
      rw [List.map_singleton, allFilled_paragraph (Paragraph.ne_empty_of_write hw)]
      exact .cons ⟨_, ⟨_, hw⟩, rfl⟩ .nil
  case table t =>
    cases h
    case table ht h =>
      cases h
      rw [List.map_cons, List.map_singleton, allFilled_cons, allFilled_empty, List.append_nil]
      exact ordered_table hf ht
termination_by structural b
end

theorem ordered_body {room : Int} {blocks : List DefectLog.Block} {body : List Block} {unresolved : List String}
    (hf : ∀ t ∈ DefectLog.blocksTables blocks, t.Fits) (h : writeBody book room blocks = .ok (body, unresolved)) :
    List.Forall₂ (WroteXml book) (blocksParagraphs blocks) (allFilled (blocksXml body)) := by
  have hw := writeBody_eq_ok h
  rw [blocksXml_eq_map]
  clear h
  induction hw
  case nil => exact .nil
  case cons b block _ _ hb _ hi =>
    have ⟨hblock, hrest⟩ := List.forall_mem_append.mp hf
    obtain ⟨_, hb⟩ := hb
    rw [List.map_cons, allFilled_cons]
    refine List.rel_append ?_ (hi hrest)
    cases b <;> simp only [writeBlock, bind_eq_ok, pure_eq_ok, Prod.mk.injEq] at hb
    case paragraph =>
      obtain ⟨_, hw, rfl, -⟩ := hb
      rw [allFilled_paragraph (Paragraph.ne_empty_of_write hw)]
      exact .cons ⟨_, ⟨_, hw⟩, rfl⟩ .nil
    case table =>
      obtain ⟨_, ht, rfl, -⟩ := hb
      exact ordered_table hblock ht

-- Each paragraph of the tree has an element of its own, at whatever depth, and no other element is written to.
theorem ordered_of_render {d : Document} {r : Rendering} (hf : ∀ t ∈ d.allTables, t.Fits) (h : render d = .ok r) :
    List.Forall₂ (WroteXml r.package.book) d.allParagraphs (allFilled r.package.bodyXml) := by
  have ⟨_, _, hw, _⟩ := (render_eq_ok h).right
  exact ordered_body hf hw

end DefectLog.Word
