import DefectLog.Proofs.Word.Writing

-- What the blocks of a cell of the tree come to in a cell of a document.
namespace DefectLog.Word

open Success

-- The blocks after the first. A table brings an empty paragraph with it. `room` is the width of the
-- cell in EMU.
inductive Sequel (book : StyleBook) (room : Int) : List DefectLog.Block → List Block → Prop
  | nil : Sequel book room [] []
  | paragraph {source p unresolved blocks content} :
    (Paragraph.write book source {} = .ok (p, unresolved)) → (Sequel book room blocks content) →
    Sequel book room (.paragraph source :: blocks) (.paragraph p :: content)
  | table {t out unresolved blocks content} :
    (writeTable book room t = .ok (out, unresolved)) → (Sequel book room blocks content) →
    Sequel book room (.table t :: blocks) (.table out :: .empty :: content)

-- The empty paragraph of a new cell goes to the first block if that is a paragraph, and stays otherwise.
inductive Content (book : StyleBook) (room : Int) : List DefectLog.Block → List Block → Prop
  | empty : Content book room [] [.empty]
  | paragraph {source blocks content} :
    (Sequel book room (.paragraph source :: blocks) content) →
    Content book room (.paragraph source :: blocks) content
  | table {t blocks content} :
    (Sequel book room (.table t :: blocks) content) →
    Content book room (.table t :: blocks) (.empty :: content)

variable {book : StyleBook} {blocks : List DefectLog.Block} {content : List Block} {c c' : Cell Block}
  {unresolved : List String}

-- Writing blocks changes nothing about a cell but its content.
theorem writeInCell_eq_ok {first : Bool} {b : DefectLog.Block}
    (h : writeInCell book first b c = .ok (c', unresolved)) : ∃ content, c' = { c with content } := by
  cases b
  case paragraph source =>
    cases first
    case false =>
      have ⟨_, _, hc⟩ := writeInCell_next_eq_ok h
      exact ⟨_, hc⟩
    case true =>
      have ⟨_, _, hc⟩ := writeInCell_first_eq_ok h
      exact ⟨_, hc⟩
  case table t =>
    have ⟨_, _, hc⟩ := writeInCell_table_eq_ok h
    exact ⟨_, hc⟩

theorem writeBlocks_eq_ok {first : Bool} (h : writeBlocks book first blocks c = .ok (c', unresolved)) :
    ∃ content, c' = { c with content } := by
  induction blocks generalizing first c unresolved
  case nil => exact ⟨c.content, (writeBlocks_nil_eq_ok h).left⟩
  case cons b bs hi =>
    have ⟨_, _, _, hb, hbs, _⟩ := writeBlocks_cons_eq_ok h
    obtain ⟨_, rfl⟩ := writeInCell_eq_ok hb
    have ⟨content, hc⟩ := hi hbs
    exact ⟨content, hc⟩

theorem writeBlocks_eq_sequel (h : writeBlocks book false blocks c = .ok (c', unresolved)) :
    ∃ content, Sequel book (Emu.ofTwips c.width) blocks content ∧
      c' = { c with content := c.content ++ content } := by
  induction blocks generalizing c c' unresolved
  case nil => exact ⟨[], .nil, by simp [writeBlocks_nil_eq_ok h]⟩
  case cons b bs hi =>
    have ⟨_, _, _, hb, hbs, _⟩ := writeBlocks_cons_eq_ok h
    obtain ⟨content, hc, rfl⟩ := hi hbs
    cases b
    case paragraph source =>
      obtain ⟨p, hp, rfl⟩ := writeInCell_next_eq_ok hb
      exact ⟨.paragraph p :: content, .paragraph hp hc, by simp [Cell.append]⟩
    case table t =>
      obtain ⟨out, ht, rfl⟩ := writeInCell_table_eq_ok hb
      exact ⟨.table out :: .empty :: content, .table ht hc, by simp [Cell.append]⟩

theorem writeBlocks_eq_content (hc : c.content = [.empty])
    (h : writeBlocks book true blocks c = .ok (c', unresolved)) :
    ∃ content, Content book (Emu.ofTwips c.width) blocks content ∧ c' = { c with content } := by
  cases blocks
  case nil => exact ⟨[.empty], .empty, by simp [writeBlocks_nil_eq_ok h, ← hc]⟩
  case cons b bs =>
    have ⟨_, _, _, hb, hbs, _⟩ := writeBlocks_cons_eq_ok h
    obtain ⟨content, hs, rfl⟩ := writeBlocks_eq_sequel hbs
    cases b
    case paragraph source =>
      obtain ⟨_, hgo, rfl⟩ := writeInCell_first_eq_ok hb
      simp only [hc, Block.empty, Cell.writeFirst.go, bind_eq_ok, pure_eq_ok, Prod.mk.injEq] at hgo
      obtain ⟨⟨p, _⟩, hp, rfl, rfl⟩ := hgo
      exact ⟨.paragraph p :: content, .paragraph (.paragraph hp hs), by simp⟩
    case table t =>
      obtain ⟨out, ht, rfl⟩ := writeInCell_table_eq_ok hb
      exact ⟨.empty :: .table out :: .empty :: content, .table (.table ht hs), by simp [Cell.append, hc]⟩

end DefectLog.Word
