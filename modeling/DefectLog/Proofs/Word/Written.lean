import DefectLog.Proofs.Document.Tables
import DefectLog.Proofs.Word.Content
import DefectLog.Proofs.Word.Nesting

-- Every table of the tree is written once, at whatever depth it stands and however its rows fit.
namespace DefectLog.Word

open Success

def WrittenAs (book : StyleBook) (t : DefectLog.Table DefectLog.Block) (out : Table Block) : Prop :=
  ∃ room unresolved, writeTable book room t = .ok (out, unresolved)

-- Blocks that have been added to a document are the tables that some tables of the tree are written as.
def Adds (book : StyleBook) (sources : List (DefectLog.Table DefectLog.Block))
    (old new : List (Table Block)) : Prop :=
  ∃ outs, List.Forall₂ (WrittenAs book) sources outs ∧ new.Perm (old ++ outs)

variable {book : StyleBook} {sources sources' : List (DefectLog.Table DefectLog.Block)}
  {old mid new : List (Table Block)}

namespace Adds

theorem nil (h : new.Perm old) : Adds book [] old new :=
  ⟨[], .nil, by simpa using h⟩

theorem trans (h₁ : Adds book sources old mid) (h₂ : Adds book sources' mid new) :
    Adds book (sources ++ sources') old new := by
  have ⟨outs₁, hw₁, hp₁⟩ := h₁
  have ⟨outs₂, hw₂, hp₂⟩ := h₂
  refine ⟨outs₁ ++ outs₂, List.rel_append hw₁ hw₂, hp₂.trans ?_⟩
  rw [← List.append_assoc]
  exact hp₁.append_right outs₂

theorem append {new' : List (Table Block)} (h₁ : Adds book sources [] new)
    (h₂ : Adds book sources' [] new') : Adds book (sources ++ sources') [] (new ++ new') := by
  have ⟨outs₁, hw₁, hp₁⟩ := h₁
  have ⟨outs₂, hw₂, hp₂⟩ := h₂
  exact ⟨outs₁ ++ outs₂, List.rel_append hw₁ hw₂, hp₁.append hp₂⟩

end Adds

theorem tables_writeFirst_go {source : DefectLog.Paragraph} {bs cs : List Block} {unresolved : List String}
    (h : Cell.writeFirst.go book source bs = .ok (cs, unresolved)) : blocksTables cs = blocksTables bs := by
  obtain ⟨tables, p, p', rest, -, rfl, rfl⟩ := Cell.writeFirst_go_eq_ok h
  simp [blocksTables, Block.allTables]

theorem rowsTables_blank (rows columns : Nat) (width : Int) :
    rowsTables (Grid.blank rows columns width) = [] := by
  have hc : cellsTables (List.replicate columns (Cell.blank width)) = [] := by
    induction columns
    case zero       => rfl
    case succ n hi  => simpa [List.replicate_succ, cellsTables, Cell.blank] using hi
  unfold Grid.blank
  induction rows
  case zero      => rfl
  case succ n hi => simpa [List.replicate_succ, rowsTables, hi, Cell.blank] using hc

-- One case for each function of the writer.
mutual
theorem adds_writeTable {room : Int} {t : DefectLog.Table DefectLog.Block} {out : Table Block}
    {unresolved : List String} (h : writeTable book room t = .ok (out, unresolved)) :
    Adds book (DefectLog.rowsTables t.rows) [] (rowsTables out.grid) := by
  have ⟨_, _, _, hg, _⟩ := writeTable_eq_ok h
  have hr := adds_writeRows hg
  rwa [rowsTables_blank] at hr
termination_by structural t
theorem adds_writeRows {columns row : Nat} {rows : List (List (DefectLog.Cell DefectLog.Block))}
    {g g' : Grid} {unresolved : List String} (h : writeRows book columns row rows g = .ok (g', unresolved)) :
    Adds book (DefectLog.rowsTables rows) (rowsTables g) (rowsTables g') := by
  cases rows
  case nil => exact .nil (by rw [(writeRows_nil_eq_ok h).left])
  case cons cells rows =>
    have ⟨_, _, _, hcells, hrows, _⟩ := writeRows_cons_eq_ok h
    exact (adds_writeCells hcells).trans (adds_writeRows hrows)
termination_by structural rows
theorem adds_writeCells {columns row : Nat} {column : Int} {cells : List (DefectLog.Cell DefectLog.Block)}
    {g g' : Grid} {unresolved : List String}
    (h : writeCells book columns row column cells g = .ok (g', unresolved)) :
    Adds book (DefectLog.cellsTables cells) (rowsTables g) (rowsTables g') := by
  cases cells
  case nil => exact .nil (by rw [(writeCells_nil_eq_ok h).left])
  case cons source cells =>
    obtain ⟨_, _, c, _, d, _, _, hg, hc, hdress, hd, hcells, -⟩ := writeCells_cons_eq_ok h
    obtain ⟨_, _, -, -, rfl⟩ := Cell.dress_eq_ok hdress
    have ⟨outs, hw, hp⟩ := adds_writeBlocks hd
    have hset := (tables_setCell hc hp).trans ((tables_placed hg).append_right outs)
    exact Adds.trans ⟨outs, hw, hset⟩ (adds_writeCells hcells)
termination_by structural cells
theorem adds_writeBlocks {first : Bool} {blocks : List DefectLog.Block} {c d : Cell Block}
    {unresolved : List String} (h : writeBlocks book first blocks c = .ok (d, unresolved)) :
    Adds book (DefectLog.blocksTables blocks) (blocksTables c.content) (blocksTables d.content) := by
  cases blocks
  case nil => exact .nil (by rw [(writeBlocks_nil_eq_ok h).left])
  case cons b blocks =>
    have ⟨_, _, _, hb, hbs, _⟩ := writeBlocks_cons_eq_ok h
    exact (adds_writeInCell hb).trans (adds_writeBlocks hbs)
termination_by structural blocks
theorem adds_writeInCell {first : Bool} {b : DefectLog.Block} {c d : Cell Block} {unresolved : List String}
    (h : writeInCell book first b c = .ok (d, unresolved)) :
    Adds book b.allTables (blocksTables c.content) (blocksTables d.content) := by
  cases b
  case paragraph source =>
    refine .nil ?_
    cases first
    case false =>
      obtain ⟨p, -, rfl⟩ := writeInCell_next_eq_ok h
      simp [Cell.append, blocksTables, Block.allTables]
    case true =>
      obtain ⟨_, hgo, rfl⟩ := writeInCell_first_eq_ok h
      rw [tables_writeFirst_go hgo]
  case table t =>
    obtain ⟨out, ht, rfl⟩ := writeInCell_table_eq_ok h
    have ⟨outs, hw, hp⟩ := adds_writeTable ht
    refine ⟨out :: outs, .cons ⟨_, _, ht⟩ hw, ?_⟩
    simpa [Cell.append, blocksTables, Block.allTables] using (hp.cons out).append_left _
termination_by structural b
end

-- The body is written block by block.
theorem writeBody_eq_ok {room : Int} {blocks : List DefectLog.Block} {body : List Block}
    {unresolved : List String} (h : writeBody book room blocks = .ok (body, unresolved)) :
    List.Forall₂ (fun b out => ∃ more, writeBlock book room b = .ok (out, more)) blocks body := by
  induction blocks generalizing body unresolved
  case nil =>
    simp only [writeBody, Except.ok.injEq, Prod.mk.injEq] at h
    exact h.left ▸ .nil
  case cons b blocks hi =>
    simp only [writeBody, bind_eq_ok, pure_eq_ok, Prod.mk.injEq] at h
    obtain ⟨⟨out, more⟩, hb, ⟨body, _⟩, hbs, rfl, -⟩ := h
    exact .cons ⟨more, hb⟩ (hi hbs)

-- The tables of the body and all that stand in them.
theorem adds_writeBody {room : Int} {blocks : List DefectLog.Block} {body : List Block}
    {unresolved : List String} (h : writeBody book room blocks = .ok (body, unresolved)) :
    Adds book (DefectLog.blocksTables blocks) [] (blocksTables body) := by
  have hw := writeBody_eq_ok h
  clear h
  induction hw
  case nil => exact .nil .nil
  case cons b block _ _ h _ hi =>
    have ⟨more, hb⟩ := h
    refine Adds.append ?_ hi
    cases b <;> simp only [writeBlock, bind_eq_ok, pure_eq_ok, Prod.mk.injEq] at hb
    case paragraph =>
      obtain ⟨_, -, rfl, -⟩ := hb
      exact .nil .nil
    case table t =>
      obtain ⟨⟨out, _⟩, ht, rfl, -⟩ := hb
      have ⟨outs, hw, hp⟩ := adds_writeTable ht
      exact ⟨out :: outs, .cons ⟨_, _, ht⟩ hw, hp.cons out⟩

theorem render_eq_ok {d : Document} {r : Rendering} (h : render d = .ok r) :
    StyleBook.ofDefaults d.defaults = .ok r.package.book ∧ ∃ room unresolved,
      writeBody r.package.book room d.body = .ok (r.package.body, unresolved) ∧
      r.entries = unresolved.map unresolvedEntry ++ [builtEntry d] := by
  simp only [render, bind_eq_ok, pure_eq_ok] at h
  obtain ⟨_, hbook, _, -, ⟨_, _⟩, hb, rfl⟩ := h
  exact ⟨hbook, _, _, hb, rfl⟩

theorem pages_of_render {d : Document} {r : Rendering} (h : render d = .ok r) :
    Section.ofPage d.page = .ok r.package.pages := by
  simp only [render, bind_eq_ok, pure_eq_ok] at h
  obtain ⟨_, -, _, hpages, _, -, rfl⟩ := h
  exact hpages

-- Each table of the tree has one table in the document, and no other table is there.
theorem tables_of_render {d : Document} {r : Rendering} (h : render d = .ok r) :
    ∃ outs, List.Forall₂ (WrittenAs r.package.book) d.allTables outs ∧
      outs.Perm (blocksTables r.package.body) := by
  have ⟨_, _, hb, _⟩ := (render_eq_ok h).right
  have ⟨outs, hw, hp⟩ := adds_writeBody hb
  exact ⟨outs, hw, hp.symm⟩

end DefectLog.Word
