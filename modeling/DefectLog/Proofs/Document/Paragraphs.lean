import DefectLog.Proofs.Document.Tables

-- The paragraphs of a document, in the order in which the tree is walked.
namespace DefectLog

mutual
def Block.allParagraphs : Block → List Paragraph
  | .paragraph p => [p]
  | .table t     => rowsParagraphs t.rows
def rowsParagraphs : List (List (Cell Block)) → List Paragraph
  | []            => []
  | cells :: rows => cellsParagraphs cells ++ rowsParagraphs rows
def cellsParagraphs : List (Cell Block) → List Paragraph
  | []         => []
  | c :: cells => blocksParagraphs c.blocks ++ cellsParagraphs cells
def blocksParagraphs : List Block → List Paragraph
  | []      => []
  | b :: bs => b.allParagraphs ++ blocksParagraphs bs
end

theorem blocksParagraphs_eq_flatMap (bs : List Block) : blocksParagraphs bs = bs.flatMap Block.allParagraphs := by
  induction bs
  case nil       => rfl
  case cons _ hi => rw [blocksParagraphs, hi, List.flatMap_cons]

theorem cellsParagraphs_eq_flatMap (cells : List (Cell Block)) :
    cellsParagraphs cells = cells.flatMap fun c => blocksParagraphs c.blocks := by
  induction cells
  case nil       => rfl
  case cons _ hi => rw [cellsParagraphs, hi, List.flatMap_cons]

theorem rowsParagraphs_eq_flatMap (rows : List (List (Cell Block))) :
    rowsParagraphs rows = rows.flatMap cellsParagraphs := by
  induction rows
  case nil       => rfl
  case cons _ hi => rw [rowsParagraphs, hi, List.flatMap_cons]

-- A paragraph of a table lies in a block of one of its cells.
theorem mem_rowsParagraphs {p : Paragraph} {rows : List (List (Cell Block))} : p ∈ rowsParagraphs rows ↔
    ∃ cells ∈ rows, ∃ c ∈ cells, ∃ b ∈ c.blocks, p ∈ b.allParagraphs := by
  simp only [rowsParagraphs_eq_flatMap, cellsParagraphs_eq_flatMap, blocksParagraphs_eq_flatMap, List.mem_flatMap]

def Document.allParagraphs (d : Document) : List Paragraph :=
  blocksParagraphs d.body

-- The paragraphs of a table are among those of what it stands in.
mutual
theorem Block.rowsParagraphs_subset {t : Table Block} (b : Block) (h : t ∈ b.allTables) :
    rowsParagraphs t.rows ⊆ b.allParagraphs := by
  cases b
  case paragraph => cases h
  case table u   =>
    cases h
    case head   => exact List.Subset.refl _
    case tail h => exact rowsParagraphs_subset u.rows h
theorem rowsParagraphs_subset {t : Table Block} (rows : List (List (Cell Block))) (h : t ∈ rowsTables rows) :
    rowsParagraphs t.rows ⊆ rowsParagraphs rows := by
  cases rows
  case nil             => cases h
  case cons cells rows =>
    cases List.mem_append.mp h
    case inl h => exact List.subset_append_of_subset_left _ (cellsParagraphs_subset cells h)
    case inr h => exact List.subset_append_of_subset_right _ (rowsParagraphs_subset rows h)
termination_by structural rows
theorem cellsParagraphs_subset {t : Table Block} (cells : List (Cell Block)) (h : t ∈ cellsTables cells) :
    rowsParagraphs t.rows ⊆ cellsParagraphs cells := by
  cases cells
  case nil          => cases h
  case cons c cells =>
    cases List.mem_append.mp h
    case inl h => exact List.subset_append_of_subset_left _ (blocksParagraphs_subset c.blocks h)
    case inr h => exact List.subset_append_of_subset_right _ (cellsParagraphs_subset cells h)
termination_by structural cells
theorem blocksParagraphs_subset {t : Table Block} (bs : List Block) (h : t ∈ blocksTables bs) :
    rowsParagraphs t.rows ⊆ blocksParagraphs bs := by
  cases bs
  case nil       => cases h
  case cons b bs =>
    cases List.mem_append.mp h
    case inl h => exact List.subset_append_of_subset_left _ (b.rowsParagraphs_subset h)
    case inr h => exact List.subset_append_of_subset_right _ (blocksParagraphs_subset bs h)
termination_by structural bs
end

end DefectLog
