import DefectLog.Proofs.Document.Paragraphs
import DefectLog.Proofs.Word.Reading
import DefectLog.Proofs.Word.Written

-- The writer comes to each paragraph of the tree once, in the order of the tree.
namespace DefectLog.Word

open Success

-- Paragraphs that are written one after the other, with the style ids that resolve to nothing.
inductive Visits (book : StyleBook) : List DefectLog.Paragraph → List String → Prop
  | nil : Visits book [] []
  | cons {source sources p p' here more} :
    (Paragraph.write book source p = .ok (p', here)) → (Visits book sources more) →
    Visits book (source :: sources) (here ++ more)

variable {book : StyleBook} {unresolved : List String}

theorem Visits.single {source : DefectLog.Paragraph} {p p' : Paragraph}
    (h : Paragraph.write book source p = .ok (p', unresolved)) : Visits book [source] unresolved :=
  List.append_nil unresolved ▸ .cons h .nil

theorem Visits.append {sources sources' : List DefectLog.Paragraph} {more : List String}
    (h : Visits book sources unresolved) (h' : Visits book sources' more) :
    Visits book (sources ++ sources') (unresolved ++ more) := by
  induction h
  case nil          => exact h'
  case cons hw _ hi => exact List.append_assoc .. ▸ .cons hw hi

-- One case for each function of the writer.
mutual
theorem visits_writeTable {room : Int} {t : DefectLog.Table DefectLog.Block} {out : Table Block}
    {unresolved : List String} (h : writeTable book room t = .ok (out, unresolved)) :
    Visits book (rowsParagraphs t.rows) unresolved := by
  have ⟨_, _, _, hg, _⟩ := writeTable_eq_ok h
  exact visits_writeRows hg
termination_by structural t
theorem visits_writeRows {columns row : Nat} {rows : List (List (DefectLog.Cell DefectLog.Block))}
    {g g' : Grid} {unresolved : List String} (h : writeRows book columns row rows g = .ok (g', unresolved)) :
    Visits book (rowsParagraphs rows) unresolved := by
  cases rows
  case nil => exact (writeRows_nil_eq_ok h).right ▸ .nil
  case cons cells rows =>
    have ⟨_, _, _, hcells, hrows, hu⟩ := writeRows_cons_eq_ok h
    exact hu ▸ (visits_writeCells hcells).append (visits_writeRows hrows)
termination_by structural rows
theorem visits_writeCells {columns row : Nat} {column : Int} {cells : List (DefectLog.Cell DefectLog.Block)}
    {g g' : Grid} {unresolved : List String}
    (h : writeCells book columns row column cells g = .ok (g', unresolved)) :
    Visits book (cellsParagraphs cells) unresolved := by
  cases cells
  case nil => exact (writeCells_nil_eq_ok h).right ▸ .nil
  case cons source cells =>
    have ⟨_, _, _, _, _, _, _, _, _, _, hb, hcells, hu⟩ := writeCells_cons_eq_ok h
    exact hu ▸ (visits_writeBlocks hb).append (visits_writeCells hcells)
termination_by structural cells
theorem visits_writeBlocks {first : Bool} {blocks : List DefectLog.Block} {c d : Cell Block}
    {unresolved : List String} (h : writeBlocks book first blocks c = .ok (d, unresolved)) :
    Visits book (blocksParagraphs blocks) unresolved := by
  cases blocks
  case nil => exact (writeBlocks_nil_eq_ok h).right ▸ .nil
  case cons b blocks =>
    have ⟨_, _, _, hb, hbs, hu⟩ := writeBlocks_cons_eq_ok h
    exact hu ▸ (visits_writeInCell hb).append (visits_writeBlocks hbs)
termination_by structural blocks
theorem visits_writeInCell {first : Bool} {b : DefectLog.Block} {c d : Cell Block} {unresolved : List String}
    (h : writeInCell book first b c = .ok (d, unresolved)) : Visits book b.allParagraphs unresolved := by
  cases b
  case paragraph source =>
    cases first
    case false =>
      have ⟨_, hw, _⟩ := writeInCell_next_eq_ok h
      exact .single hw
    case true =>
      have ⟨_, hgo, _⟩ := writeInCell_first_eq_ok h
      have ⟨_, _, _, _, hw, _⟩ := Cell.writeFirst_go_eq_ok hgo
      exact .single hw
  case table t =>
    have ⟨_, ht, _⟩ := writeInCell_table_eq_ok h
    exact visits_writeTable ht
termination_by structural b
end

theorem visits_writeBody {room : Int} {blocks : List DefectLog.Block} {body : List Block}
    (h : writeBody book room blocks = .ok (body, unresolved)) : Visits book (blocksParagraphs blocks) unresolved := by
  induction blocks generalizing body unresolved
  case nil =>
    simp only [writeBody, Except.ok.injEq, Prod.mk.injEq] at h
    exact h.right ▸ .nil
  case cons b blocks hi =>
    simp only [writeBody, bind_eq_ok, pure_eq_ok, Prod.mk.injEq] at h
    obtain ⟨_, hb, _, hbs, -, rfl⟩ := h
    refine Visits.append ?_ (hi hbs)
    cases b <;> simp only [writeBlock, bind_eq_ok, pure_eq_ok] at hb
    case paragraph =>
      obtain ⟨_, hw, rfl⟩ := hb
      exact .single hw
    case table =>
      obtain ⟨_, ht, rfl⟩ := hb
      exact visits_writeTable ht

theorem visits_of_render {d : Document} {r : Rendering} (h : render d = .ok r) :
    ∃ unresolved, Visits r.package.book d.allParagraphs unresolved ∧
      r.entries = unresolved.map unresolvedEntry ++ [builtEntry d] := by
  have ⟨_, unresolved, hb, he⟩ := (render_eq_ok h).right
  exact ⟨unresolved, visits_writeBody hb, he⟩

end DefectLog.Word
