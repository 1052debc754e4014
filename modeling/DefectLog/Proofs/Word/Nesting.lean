import DefectLog.Proofs.Word.Rearranging

-- The tables of a document at any depth, and that merging cells loses none of them.
namespace DefectLog.Word

mutual
-- The tables of a block at any depth, in the order in which they begin.
def Block.allTables : Block → List (Table Block)
  | .paragraph _ => []
  | .table t     => t :: rowsTables t.grid
def rowsTables : List (List (Cell Block)) → List (Table Block)
  | []            => []
  | cells :: rows => cellsTables cells ++ rowsTables rows
def cellsTables : List (Cell Block) → List (Table Block)
  | []         => []
  | c :: cells => blocksTables c.content ++ cellsTables cells
def blocksTables : List Block → List (Table Block)
  | []      => []
  | b :: bs => b.allTables ++ blocksTables bs
end

variable {g g' : Grid} {c d : Cell Block} {cells : List (Cell Block)} {bs : List Block}

@[simp] theorem blocksTables_append (bs cs : List Block) :
    blocksTables (bs ++ cs) = blocksTables bs ++ blocksTables cs := by
  induction bs <;> simp_all [blocksTables]

@[simp] theorem Block.allTables_empty : Block.empty.allTables = [] := by
  simp [empty, allTables]

@[simp] theorem blocksTables_empty : blocksTables [.empty] = [] := by
  simp [blocksTables]

theorem Block.allTables_of_isVacant {b : Block} (h : b.isVacant) : b.allTables = [] := by
  cases b <;> simp_all [isVacant, allTables]

theorem blocksTables_eq_flatMap (bs : List Block) : blocksTables bs = bs.flatMap Block.allTables := by
  induction bs
  case nil       => rfl
  case cons _ hi => rw [blocksTables, hi, List.flatMap_cons]

theorem cellsTables_eq (cells : List (Cell Block)) : cellsTables cells = blocksTables (Row.blocks cells) := by
  induction cells
  case nil       => rfl
  case cons _ hi => rw [cellsTables, hi, Row.blocks_cons, blocksTables_append]

theorem rowsTables_eq (g : Grid) : rowsTables g = blocksTables g.blocks := by
  induction g
  case nil       => rfl
  case cons _ hi => rw [rowsTables, hi, cellsTables_eq, Grid.blocks_cons, blocksTables_append]

theorem tables_placed {columns row : Nat} {column span : Int} {p : Position}
    (h : g.placed columns row column span = .ok (g', p)) : (rowsTables g').Perm (rowsTables g) := by
  rw [rowsTables_eq, rowsTables_eq, blocksTables_eq_flatMap, blocksTables_eq_flatMap]
  exact (Rearranged.of_placed h).perm_flatMap fun _ => Block.allTables_of_isVacant

-- A cell that is written to adds what is written to it.
theorem tables_setCell {p : Position} {ts : List (Table Block)} (hc : g.cell? p = some c)
    (hd : (blocksTables d.content).Perm (blocksTables c.content ++ ts)) :
    (rowsTables (g.setCell p d)).Perm (rowsTables g ++ ts) := by
  have hperm : ∀ {bs cs : List Block}, bs.Perm cs → (blocksTables bs).Perm (blocksTables cs) := fun h => by
    rw [blocksTables_eq_flatMap, blocksTables_eq_flatMap]
    exact h.flatMap_right _
  have ⟨others, hg, hset⟩ := Grid.blocks_setCell hc
  have hold := hperm hg
  have hnew := hperm (hset d)
  rw [blocksTables_append] at hold hnew
  rw [rowsTables_eq, rowsTables_eq]
  calc List.Perm (blocksTables (g.setCell p d).blocks) (blocksTables d.content ++ blocksTables others) := hnew
    List.Perm _ (blocksTables c.content ++ ts ++ blocksTables others) := hd.append_right _
    List.Perm _ (blocksTables c.content ++ blocksTables others ++ ts) := by
      rw [List.append_assoc, List.append_assoc]
      exact List.perm_append_comm.append_left _
    List.Perm _ (blocksTables g.blocks ++ ts) := hold.symm.append_right ts

end DefectLog.Word
