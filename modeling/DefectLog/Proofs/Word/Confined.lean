import DefectLog.Proofs.Word.Spilling
import DefectLog.Proofs.Word.Written
import Mathlib.Data.List.GetD

-- Which tables keep each cell in its own row and apart from all others.
namespace DefectLog.Word

open Success

variable {book : StyleBook} {t : DefectLog.Table DefectLog.Block} {out : Table Block} {grid : Grid}
  {rows : List (List (DefectLog.Cell DefectLog.Block))} {r : Nat}

theorem written_steps (t : DefectLog.Table DefectLog.Block) (r : Nat) :
    written t.steps r = t.rows.getD r [] := by
  have hf := Table.filter_stepsFrom 0 t.rows r
  rwa [Nat.zero_add] at hf

theorem confinedRows_iff (hl : grid.length = t.rows.length) :
    List.Forall₂ (ConfinedRow book) t.rows grid ↔
      ∀ (r : Nat) cells, grid[r]? = some cells → ConfinedRow book (written t.steps r) cells := by
  constructor
  case mp =>
    intro h r cells hr
    obtain ⟨hlt, rfl⟩ := List.getElem?_eq_some_iff.mp hr
    have hlt' : r < t.rows.length := hl ▸ hlt
    rw [written_steps, List.getD_eq_getElem _ _ hlt']
    exact h.get hlt' hlt
  case mpr =>
    refine fun h => List.forall₂_iff_get.mpr ⟨hl.symm, fun r hlt hlt' => ?_⟩
    have hr := h r _ (List.getElem?_eq_getElem hlt')
    rw [written_steps, List.getD_eq_getElem _ _ hlt] at hr
    exact hr

theorem dressed_of_confinedRows (h : List.Forall₂ (ConfinedRow book) rows grid) :
    grid.dressed = rows.flatten.length := by
  induction h
  case nil         => rfl
  case cons h _ hi => rw [Grid.dressed_cons, dressed_of_confinedRow h, hi, List.flatten_cons, List.length_append]

theorem dressed_blank (rows columns : Nat) (width : Int) : (Grid.blank rows columns width).dressed = 0 := by
  have hd : dressed (List.replicate columns (Cell.blank width)) = 0 :=
    dressed_eq_zero.mpr fun c hc => List.eq_of_mem_replicate hc ▸ rfl
  rw [Grid.blank, Grid.dressed, List.map_replicate]
  exact List.sum_eq_zero fun n hn => List.eq_of_mem_replicate hn ▸ hd

end DefectLog.Word

namespace DefectLog

-- Either no cell steps back, or each cell can be told from all others by its borders, shading and margins.
def Table.Faithful (t : Table Block) : Prop :=
  (∀ cells ∈ t.rows, ∀ c ∈ cells, 0 ≤ c.span) ∨
  t.rows.flatten.Pairwise fun c c' => Word.Finish.own c ≠ Word.Finish.own c'

instance (t : Table Block) : Decidable t.Faithful :=
  inferInstanceAs (Decidable (_ ∨ _))

namespace Word

variable {book : StyleBook} {t : DefectLog.Table DefectLog.Block} {out : Table Block} {unresolved : List String}
  {room : Int}

theorem faithful_steps (h : t.Faithful) : Faithful t.steps := by
  refine h.imp (fun h => Table.before_stepsFrom 0 t.rows fun s hs => ?forward) fun h => ?distinct
  case forward =>
    have hm : s.cell ∈ t.rows.flatten := Table.cells_stepsFrom 0 t.rows ▸ List.mem_map_of_mem hs
    have ⟨cells, hcells, hc⟩ := List.mem_flatten.mp hm
    exact h cells hcells s.cell hc
  case distinct =>
    rw [← Table.cells_stepsFrom 0 t.rows, List.pairwise_map] at h
    exact h

theorem spillFree_iff : t.SpillFree ↔
    (∀ x ∈ t.steps, (x.patch t.rows.length t.columnWidths.length).top = x.row) ∧ t.steps.Pairwise fun y x =>
      (y.patch t.rows.length t.columnWidths.length).Apart (x.patch t.rows.length t.columnWidths.length) := by
  rw [DefectLog.Table.SpillFree, DefectLog.Table.patches, List.forall_mem_map, List.pairwise_map]
  rfl

theorem confined_of_spillFree (hs : t.SpillFree) (h : writeTable book room t = .ok (out, unresolved)) :
    Confined book t out := by
  have ⟨width, ha⟩ := advances_of_writeTable h
  have ⟨htop, hp⟩ := spillFree_iff.mp hs
  have hsettled := settled_blank t.rows.length t.columnWidths.length width |>.advances ha htop
    (Table.pairwise_steps 0 t.rows) hp
  exact (confinedRows_iff hsettled.length).mpr hsettled.row

theorem spillFree_of_confined (hf : t.Faithful) (hc : Confined book t out)
    (h : writeTable book room t = .ok (out, unresolved)) : t.SpillFree := by
  have ⟨width, ha⟩ := advances_of_writeTable h
  have hd : Grid.dressed out.grid = t.steps.length := by
    rw [dressed_of_confinedRows hc, ← Table.cells_stepsFrom 0 t.rows, List.length_map]
    rfl
  have ht : Tight book t.columnWidths.length t.steps (Grid.blank t.rows.length t.columnWidths.length width)
      out.grid := ⟨ha, by rw [dressed_blank, hd, Nat.zero_add]⟩
  have hrows : ∀ s ∈ t.steps, s.row < t.rows.length := fun s hs => by simpa using Table.lt_of_mem_stepsFrom hs
  exact spillFree_iff.mpr <| apart_of_tight (settled_blank _ _ width) ht (Table.pairwise_steps 0 t.rows)
    (faithful_steps hf) hrows ((confinedRows_iff hc.length_eq.symm).mp hc) (List.forall_mem_nil _) .nil

theorem confined_of_fits (hf : t.Fits) (h : writeTable book room t = .ok (out, unresolved)) :
    Confined book t out :=
  confined_of_spillFree (Table.spillFree_of_fits hf) h

-- A row with more cells than there are columns is not noticed, as long as there is a row after it.
theorem not_confined_of_overlong {s : Step DefectLog.Block} (hf : t.Faithful) (hs : s ∈ t.steps)
    (hc : 0 < t.columnWidths.length) (hlong : t.columnWidths.length ≤ s.column)
    (h : writeTable book room t = .ok (out, unresolved)) : ¬Confined book t out :=
  fun hconf => Table.not_spillFree_of_overlong hs hc hlong (spillFree_of_confined hf hconf h)

-- Each table of the document keeps the cells apart as long as none of them spills, and with cells that
-- are not mistaken for each other in no other case. A cell that spills does not make the writer fail.
theorem confined_of_render {d : Document} {r : Rendering} (h : render d = .ok r) :
    ∃ outs, outs.Perm (blocksTables r.package.body) ∧ List.Forall₂ (fun t out =>
      WrittenAs r.package.book t out ∧ (t.SpillFree → Confined r.package.book t out) ∧
      (t.Faithful → (Confined r.package.book t out ↔ t.SpillFree))) d.allTables outs := by
  have ⟨outs, hw, hp⟩ := tables_of_render h
  refine ⟨outs, hp, hw.imp fun t out hout => ?_⟩
  have ⟨_, _, ht⟩ := hout
  exact ⟨hout, fun hs => confined_of_spillFree hs ht,
    fun hf => ⟨fun hc => spillFree_of_confined hf hc ht, fun hs => confined_of_spillFree hs ht⟩⟩

-- A table with a row that has three cells for two columns, and one with a cell that goes on in the next row.
def ragged : Document where
  defaults := { font := "Arial", size := 22 }
  page     := { width := 12240, height := 15840, margins := {} }
  body     := [
    .table {
      columnWidths := [1000, 1000]
      rows         := [
        [{ width := 1000, blocks := [.paragraph { runs := [{ text := "a", size := 20 }] }] },
          { width := 1000, blocks := [.paragraph { runs := [{ text := "b", size := 20 }] }] },
          { width := 1000, blocks := [.paragraph { runs := [{ text := "c", size := 20 }] }] }],
        [{ width := 1000, blocks := [.paragraph { runs := [{ text := "d", size := 20 }] }] }]] },
    .table {
      columnWidths := [1000, 1000]
      rows         := [[{ width := 1000, span := 3, blocks := [] }], []] }]

set_option maxRecDepth 10000 in
theorem exists_render_ragged : ∃ r, render ragged = .ok r :=
  Success.exists_of_isOk (by decide +kernel)

theorem confined_of_render_ragged : ∃ r, render ragged = .ok r ∧
    (∃ outs, outs.Perm (blocksTables r.package.body) ∧ List.Forall₂ (fun t out =>
      WrittenAs r.package.book t out ∧ (t.SpillFree → Confined r.package.book t out) ∧
      (t.Faithful → (Confined r.package.book t out ↔ t.SpillFree))) ragged.allTables outs) ∧
    ragged.allTables.map (fun t => decide t.SpillFree) = [false, true] ∧
    ∀ t ∈ ragged.allTables, t.Faithful := by
  have ⟨r, h⟩ := exists_render_ragged
  exact ⟨r, h, confined_of_render h, by decide, by decide⟩

end Word
end DefectLog
