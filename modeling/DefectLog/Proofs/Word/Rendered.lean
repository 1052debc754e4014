import DefectLog.Proofs.Word.Ending
import DefectLog.Proofs.Word.Shown
import DefectLog.Proofs.Word.Written

-- What the tables and the cells of a rendered document look like.
namespace DefectLog.Word

open Xml Success

variable {d : Document} {r : Rendering}

-- The tables of the document as elements, each of which is what a table of the tree is written as.
def Rendering.Pairs (r : Rendering) (d : Document) (R : DefectLog.Table DefectLog.Block → Xml → Prop) : Prop :=
  ∃ xs, xs.Perm (allIn "w:tbl" r.package.bodyXml) ∧ List.Forall₂ (fun t x =>
    (∃ out, WrittenAs r.package.book t out ∧ x = (Block.table out).xml) ∧ R t x) d.allTables xs

theorem pairs_of_render {R : DefectLog.Table DefectLog.Block → Xml → Prop} (h : render d = .ok r)
    (hR : ∀ {t out}, WrittenAs r.package.book t out → R t (Block.table out).xml) : r.Pairs d R := by
  have ⟨outs, hw, hp⟩ := tables_of_render h
  refine ⟨outs.map fun out => (Block.table out).xml, ?perm, ?related⟩
  case perm =>
    rw [Package.bodyXml, all_tbl_blocks]
    exact hp.map _
  case related =>
    rw [List.forall₂_map_right_iff]
    exact hw.imp fun _ out h => ⟨⟨out, h, rfl⟩, hR h⟩

theorem Rendering.Pairs.imp {R S : DefectLog.Table DefectLog.Block → Xml → Prop} (h : r.Pairs d R)
    (hS : ∀ t ∈ d.allTables, ∀ {x}, R t x → S t x) : r.Pairs d S := by
  have ⟨xs, hp, hxs⟩ := h
  refine ⟨xs, hp, ?_⟩
  have hxs := (List.forall₂_and_left d.allTables xs).mpr ⟨hS, hxs⟩
  exact hxs.imp fun _ _ ⟨hS, hw, hR⟩ => ⟨hw, hS hR⟩

-- Each table whose rows fit, at any depth, has its columns and its rows in the document.
theorem shown_of_render (h : render d = .ok r) :
    r.Pairs d fun t x => t.Fits → ShowsTable r.package.book t x :=
  pairs_of_render h fun ⟨_, _, ht⟩ hf => showsTable_of_writeTable hf ht

-- A table with a cell across two columns that holds another table, and with cells that hold nothing.
def nested : Document where
  defaults := { font := "Arial", size := 22 }
  page     := { width := 12240, height := 15840, margins := {} }
  body     := [.table {
    columnWidths := [1000, 1000, 1000]
    rows         := [
      [{ width := 2000, span := 2, blocks := [
        .table { columnWidths := [500], rows := [[{ width := 500, blocks := [] }]] },
        .paragraph { runs := [{ text := "a", size := 20 }] }] }],
      [{ width := 1000, blocks := [] }, { width := 2000, span := 2, blocks := [.paragraph {}, .paragraph {}] }]] }]

set_option maxRecDepth 10000 in
theorem exists_render_nested : ∃ r, render nested = .ok r :=
  exists_of_isOk (by decide +kernel)

theorem shown_of_render_nested : ∃ r, render nested = .ok r ∧
    (r.Pairs nested fun t x => t.Fits → ShowsTable r.package.book t x) ∧
    nested.allTables.length = 2 ∧ ∀ t ∈ nested.allTables, t.Fits := by
  have ⟨r, h⟩ := exists_render_nested
  exact ⟨r, h, shown_of_render h, by decide, by decide⟩

-- An element whose children after the properties are the blocks of one cell of the tree.
def MapsCell (book : StyleBook) (source : DefectLog.Cell DefectLog.Block) (x : Xml) : Prop :=
  ∃ properties content, properties.tag? = some "w:tcPr" ∧
    Content book (Emu.ofTwips source.width) source.blocks content ∧
    x.children = properties :: content.map Block.xml

-- The cells of one row of the tree come first.
def MapsRow (book : StyleBook) (sources : List (DefectLog.Cell DefectLog.Block)) (x : Xml) : Prop :=
  ∃ shown rest, List.Forall₂ (MapsCell book) sources shown ∧ x.named "w:tc" = shown ++ rest

theorem mapsRow_of_holdsRow {book : StyleBook} {columns : Nat} {blank : Int}
    {sources : List (DefectLog.Cell DefectLog.Block)} {cells : List (Cell Block)}
    (h : HoldsRow book columns blank sources cells) : MapsRow book sources (rowXml cells) := by
  obtain ⟨held, hheld, rfl⟩ := h
  refine ⟨held.map Cell.xml, _, ?_, by rw [named_tc_rowXml, List.map_append]⟩
  rw [List.forall₂_map_right_iff]
  refine hheld.imp fun source c h => ⟨c.properties, c.content, rfl, h.content, ?_⟩
  rw [← blocksXml_eq_map]
  rfl

theorem last_of_endsInParagraph {c : Cell Block} (h : EndsInParagraph c.content) :
    ∃ last, c.xml.children.getLast? = some last ∧ last.tag? = some "w:p" := by
  have ⟨p, hp⟩ := h
  refine ⟨p.xml, ?_, rfl⟩
  rw [Cell.xml, children_w, blocksXml_eq_map, List.getLast?_cons, List.getLast?_map, hp]
  rfl

-- The blocks of a cell stay together and in order. Whatever the rows are, no cell ends in a table.
theorem mapped_of_render (h : render d = .ok r) :
    (r.Pairs d fun t x => t.Fits → List.Forall₂ (MapsRow r.package.book) t.rows (x.named "w:tr")) ∧
    ∀ x ∈ allIn "w:tc" r.package.bodyXml, ∃ last, x.children.getLast? = some last ∧ last.tag? = some "w:p" := by
  constructor
  case left =>
    refine pairs_of_render h fun ⟨_, _, ht⟩ hf => ?_
    have ⟨_, _, hg⟩ := holdsRow_of_writeTable hf ht
    rw [Block.named_tr_table, List.forall₂_map_right_iff]
    exact hg.imp fun _ _ => mapsRow_of_holdsRow
  case right =>
    intro x hx
    have ⟨outs, hw, hp⟩ := tables_of_render h
    obtain ⟨t, ht, cells, hcells, c, hc, rfl⟩ := cellOf_blocks r.package.body x hx
    have ⟨_, _, _, hwritten⟩ := forall_mem_of_forall₂ hw (P := fun out => ∃ t, WrittenAs r.package.book t out)
      (fun h => ⟨_, h⟩) t (hp.mem_iff.mpr ht)
    exact last_of_endsInParagraph (ended_writeTable hwritten cells hcells c hc)

theorem mapped_of_render_nested : ∃ r, render nested = .ok r ∧
    (r.Pairs nested fun t x => t.Fits → List.Forall₂ (MapsRow r.package.book) t.rows (x.named "w:tr")) ∧
    ∀ x ∈ allIn "w:tc" r.package.bodyXml, ∃ last, x.children.getLast? = some last ∧ last.tag? = some "w:p" := by
  have ⟨r, h⟩ := exists_render_nested
  exact ⟨r, h, mapped_of_render h⟩

end DefectLog.Word
