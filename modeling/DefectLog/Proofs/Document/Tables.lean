import DefectLog.Document.Basic

-- The tables of a document, and how the spans of a table go together with its columns.
namespace DefectLog

-- The number of columns that a row asks for.
def Table.extent : List (Cell β) → Int
  | []         => 0
  | c :: cells => c.span + extent cells

@[simp] theorem Table.extent_cons (c : Cell β) (cells : List (Cell β)) :
    Table.extent (c :: cells) = c.span + Table.extent cells :=
  rfl

theorem Table.extent_nonneg {cells : List (Cell β)} (h : ∀ c ∈ cells, 1 ≤ c.span) : 0 ≤ Table.extent cells := by
  induction cells
  case nil => simp [Table.extent]
  case cons c cells hi =>
    have := h c List.mem_cons_self
    have := hi fun c hc => h c (List.mem_cons_of_mem _ hc)
    rw [Table.extent_cons]
    omega

-- Each cell spans at least one column, and no row asks for more columns than there are.
def Table.Fits (t : Table β) : Prop :=
  ∀ cells ∈ t.rows, (∀ c ∈ cells, 1 ≤ c.span) ∧ extent cells ≤ t.columnWidths.length

instance (t : Table β) : Decidable t.Fits :=
  inferInstanceAs (Decidable (∀ cells ∈ t.rows, _ ∧ _))

-- The tables of a block at any depth, in the order in which they begin.
mutual
def Block.allTables : Block → List (Table Block)
  | .paragraph _ => []
  | .table t     => t :: rowsTables t.rows
def rowsTables : List (List (Cell Block)) → List (Table Block)
  | []            => []
  | cells :: rows => cellsTables cells ++ rowsTables rows
def cellsTables : List (Cell Block) → List (Table Block)
  | []         => []
  | c :: cells => blocksTables c.blocks ++ cellsTables cells
def blocksTables : List Block → List (Table Block)
  | []      => []
  | b :: bs => b.allTables ++ blocksTables bs
end

theorem blocksTables_eq_flatMap (bs : List Block) : blocksTables bs = bs.flatMap Block.allTables := by
  induction bs
  case nil       => rfl
  case cons _ hi => rw [blocksTables, hi, List.flatMap_cons]

def Document.allTables (d : Document) : List (Table Block) :=
  blocksTables d.body

end DefectLog
