import DefectLog.Proofs.Word.Content
import DefectLog.Proofs.Word.Surviving

-- No cell ends in a table, however the rows of its table fit.
namespace DefectLog.Word

open Success

-- The last block of a cell is a paragraph.
def EndsInParagraph (bs : List Block) : Prop :=
  ∃ p, bs.getLast? = some (.paragraph p)

-- The last block of each cell is a paragraph.
def Grid.Ended (g : Grid) : Prop :=
  ∀ cells ∈ g, ∀ c ∈ cells, EndsInParagraph c.content

variable {book : StyleBook} {g g' : Grid} {c d : Cell Block} {bs : List Block} {unresolved : List String}

theorem endsInParagraph_append (bs : List Block) (p : Paragraph) : EndsInParagraph (bs ++ [.paragraph p]) :=
  ⟨p, List.getLast?_concat⟩

theorem endsInParagraph_cons {b : Block} :
    EndsInParagraph (b :: bs) ↔ (bs = [] ∧ ∃ p, b = .paragraph p) ∨ EndsInParagraph bs := by
  cases bs <;> simp [EndsInParagraph]

theorem endsInParagraph_empty : EndsInParagraph [.empty] :=
  ⟨{}, rfl⟩

theorem endsInParagraph_receive (c : Cell Block) (h : EndsInParagraph bs) :
    EndsInParagraph (c.receive bs).content := by
  have ⟨p, hp⟩ := h
  refine ⟨p, ?_⟩
  rw [Cell.receive, List.getLast?_append, hp, Option.some_or]

-- Content that moves takes its last paragraph along.
theorem survives_endsInParagraph : Survives fun c => EndsInParagraph c.content where
  frame   := id
  receive := fun _ => endsInParagraph_receive _
  empty   := fun _ => endsInParagraph_empty

theorem endsInParagraph_writeFirst_go {source : DefectLog.Paragraph} {cs : List Block}
    (hb : EndsInParagraph bs) (h : Cell.writeFirst.go book source bs = .ok (cs, unresolved)) :
    EndsInParagraph cs := by
  obtain ⟨tables, p, p', rest, -, rfl, rfl⟩ := Cell.writeFirst_go_eq_ok h
  rw [EndsInParagraph, List.getLast?_append_cons] at hb ⊢
  cases endsInParagraph_cons.mp hb
  case inl h => exact endsInParagraph_cons.mpr (.inl ⟨h.left, p', rfl⟩)
  case inr h => exact endsInParagraph_cons.mpr (.inr h)

theorem endsInParagraph_writeInCell {first : Bool} {b : DefectLog.Block} (hc : EndsInParagraph c.content)
    (h : writeInCell book first b c = .ok (d, unresolved)) : EndsInParagraph d.content := by
  cases b
  case paragraph source =>
    cases first
    case false =>
      obtain ⟨p, -, rfl⟩ := writeInCell_next_eq_ok h
      exact endsInParagraph_append c.content p
    case true =>
      obtain ⟨_, hgo, rfl⟩ := writeInCell_first_eq_ok h
      exact endsInParagraph_writeFirst_go hc hgo
  case table t =>
    obtain ⟨out, -, rfl⟩ := writeInCell_table_eq_ok h
    exact endsInParagraph_append (c.content ++ [.table out]) {}

theorem endsInParagraph_writeBlocks {first : Bool} {blocks : List DefectLog.Block}
    (hc : EndsInParagraph c.content) (h : writeBlocks book first blocks c = .ok (d, unresolved)) :
    EndsInParagraph d.content := by
  induction blocks generalizing first c unresolved
  case nil => exact (writeBlocks_nil_eq_ok h).left ▸ hc
  case cons b bs hi =>
    have ⟨_, _, _, hb, hbs, _⟩ := writeBlocks_cons_eq_ok h
    exact hi (endsInParagraph_writeInCell hc hb) hbs

theorem ended_advance {columns : Nat} {s : Step DefectLog.Block} (hg : g.Ended) (h : Advance book columns s g g') :
    g'.Ended := by
  obtain ⟨g₁, p, c, d, d', _, hp, hc, hd, hw, rfl⟩ := h
  obtain ⟨_, _, -, -, rfl⟩ := Cell.dress_eq_ok hd
  have hg₁ : g₁.All fun c => EndsInParagraph c.content := survives_endsInParagraph.placed hg hp
  have hcell : EndsInParagraph c.content := hg₁.cell hc
  have hdone : EndsInParagraph d'.content := endsInParagraph_writeBlocks (by exact hcell) hw
  exact hg₁.setCell hc hdone

theorem ended_advances {columns : Nat} {ss : List (Step DefectLog.Block)} (hg : g.Ended)
    (h : Advances book columns ss g g') : g'.Ended := by
  induction h
  case nil          => exact hg
  case cons h _ hi  => exact hi (ended_advance hg h)

theorem ended_writeTable {room : Int} {t : DefectLog.Table DefectLog.Block} {out : Table Block}
    (h : writeTable book room t = .ok (out, unresolved)) : Grid.Ended out.grid := by
  have ⟨_, ha⟩ := advances_of_writeTable h
  exact ended_advances (Grid.all_blank endsInParagraph_empty _ _) ha

end DefectLog.Word
