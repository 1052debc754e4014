import DefectLog.Proofs.Document.Tables
import Mathlib.Data.List.Basic

-- The rectangle of the grid that each cell of a table asks for, and when the cells keep out of each
-- other's way. Only the spans and the number of rows and columns matter.
namespace DefectLog

-- A cell of a table at the time when it is written, with its row and the column at which it starts.
structure Step (β : Type) where
  row    : Nat
  column : Int
  cell   : Cell β

namespace Table

-- Each cell starts where the one before it ends.
def rowSteps (row : Nat) : Int → List (Cell β) → List (Step β)
  | _, []              => []
  | column, c :: cells => ⟨row, column, c⟩ :: rowSteps row (column + c.span) cells

def stepsFrom (row : Nat) : List (List (Cell β)) → List (Step β)
  | []            => []
  | cells :: rows => rowSteps row 0 cells ++ stepsFrom (row + 1) rows

def steps (t : Table β) : List (Step β) :=
  stepsFrom 0 t.rows

end Table

-- A rectangle that a cell of a row asks for. It has a row and a column for each of two opposite corners.
structure Patch where
  row   : Nat
  first : Nat × Nat
  last  : Nat × Nat
deriving DecidableEq

namespace Patch

def top (x : Patch) : Nat := min x.first.1 x.last.1
def bottom (x : Patch) : Nat := max x.first.1 x.last.1
def left (x : Patch) : Nat := min x.first.2 x.last.2
def right (x : Patch) : Nat := max x.first.2 x.last.2

theorem top_le_bottom (x : Patch) : x.top ≤ x.bottom :=
  Nat.le_trans (Nat.min_le_left ..) (Nat.le_max_left ..)

theorem left_le_right (x : Patch) : x.left ≤ x.right :=
  Nat.le_trans (Nat.min_le_left ..) (Nat.le_max_left ..)

def Covers (x : Patch) (r k : Nat) : Prop :=
  x.top ≤ r ∧ r ≤ x.bottom ∧ x.left ≤ k ∧ k ≤ x.right

instance (x : Patch) (r k : Nat) : Decidable (x.Covers r k) :=
  inferInstanceAs (Decidable (_ ∧ _))

-- A cell shares no column with an earlier cell of its row. Of an earlier row it only has to leave alone
-- what hangs down to the two corners.
def Apart (y x : Patch) : Prop :=
  (y.row = x.row → y.right < x.left ∨ x.right < y.left) ∧
  (y.row ≠ x.row → ¬y.Covers x.first.1 x.first.2 ∧ ¬y.Covers x.last.1 x.last.2)

instance (y x : Patch) : Decidable (y.Apart x) :=
  inferInstanceAs (Decidable (_ ∧ _))

theorem Apart.not_covers {y x : Patch} (h : y.Apart x) :
    ¬y.Covers x.first.1 x.first.2 ∧ ¬y.Covers x.last.1 x.last.2 := by
  by_cases hrow : y.row = x.row
  case neg => exact h.right hrow
  case pos =>
    have hside := h.left hrow
    simp only [left, right] at hside
    constructor
    case left =>
      rintro ⟨-, -, hl, hr⟩
      simp only [left, right] at hl hr
      omega
    case right =>
      rintro ⟨-, -, hl, hr⟩
      simp only [left, right] at hl hr
      omega

end Patch

-- Cells are numbered row by row, and below zero from the end.
def wrapped (size : Nat) (number : Int) : Nat :=
  (if number < 0 then number + size else number).toNat

@[simp] theorem wrapped_natCast (size n : Nat) : wrapped size n = n := by
  have hn : ¬(n : Int) < 0 := by omega
  rw [wrapped, if_neg hn, Int.toNat_natCast]

-- The number of a cell tells its row and its column, as long as there are so many columns.
theorem place_of_number {k columns : Nat} (row : Nat) (hk : k < columns) :
    (row * columns + k) / columns = row ∧ (row * columns + k) % columns = k := by
  constructor
  case left  => rw [Nat.mul_comm, Nat.mul_add_div (by omega), Nat.div_eq_of_lt hk, Nat.add_zero]
  case right => rw [Nat.mul_comm, Nat.mul_add_mod, Nat.mod_eq_of_lt hk]

namespace Step

def number (columns : Nat) (s : Step β) : Int :=
  (s.row * columns : Nat) + s.column

-- A cell that spans no column still has a place.
def lastNumber (columns : Nat) (s : Step β) : Int :=
  s.number columns + max 1 s.cell.span - 1

def patch (rows columns : Nat) (s : Step β) : Patch :=
  let first := wrapped (rows * columns) (s.number columns)
  let last  := wrapped (rows * columns) (s.lastNumber columns)
  { row := s.row, first := (first / columns, first % columns), last := (last / columns, last % columns) }

-- The order in which cells that do not step back are written.
def Before (s t : Step β) : Prop :=
  s.row < t.row ∨ s.row = t.row ∧ s.column ≤ t.column ∧ s.column + s.cell.span ≤ t.column

variable {rows columns n : Nat} {s t : Step β}

theorem number_le_lastNumber (columns : Nat) (s : Step β) : s.number columns ≤ s.lastNumber columns := by
  rw [lastNumber]
  omega

theorem wrapped_of_nonneg {size : Nat} {number : Int} (h : 0 ≤ number) :
    wrapped size number = number.toNat := by
  rw [wrapped, if_neg (Int.not_lt.mpr h)]

theorem first_le_last (rows : Nat) (h : 0 ≤ s.number columns) :
    (s.patch rows columns).first.1 ≤ (s.patch rows columns).last.1 := by
  have hle := s.number_le_lastNumber columns
  simp only [patch, wrapped_of_nonneg h, wrapped_of_nonneg (Int.le_trans h hle)]
  exact Nat.div_le_div_right (Int.toNat_le_toNat hle)

theorem first_mono (h : 0 ≤ s.number columns) (hle : s.number columns ≤ t.number columns) :
    (s.patch rows columns).first.1 ≤ (t.patch rows columns).first.1 := by
  simp only [patch, wrapped_of_nonneg h, wrapped_of_nonneg (Int.le_trans h hle)]
  exact Nat.div_le_div_right (Int.toNat_le_toNat hle)

theorem le_first (rows : Nat) (hc : 0 < columns) (h : ((n * columns : Nat) : Int) ≤ s.number columns) :
    n ≤ (s.patch rows columns).first.1 := by
  simp only [patch, wrapped_of_nonneg (Int.le_trans (Int.natCast_nonneg _) h)]
  exact (Nat.le_div_iff_mul_le hc).mpr (Int.le_toNat (Int.le_trans (Int.natCast_nonneg _) h) |>.mpr h)

theorem patch_of_fits (hc : 0 ≤ s.column) (hs : 1 ≤ s.cell.span) (he : s.column + s.cell.span ≤ columns) :
    s.patch rows columns =
      ⟨s.row, (s.row, s.column.toNat), (s.row, (s.column + s.cell.span - 1).toNat)⟩ := by
  have hfirst : s.number columns = (s.row * columns + s.column.toNat : Nat) := by
    rw [number]
    omega
  have hlast : s.lastNumber columns = (s.row * columns + (s.column + s.cell.span - 1).toNat : Nat) := by
    rw [lastNumber, number]
    omega
  have ⟨hd, hm⟩ := place_of_number s.row (show s.column.toNat < columns by omega)
  have ⟨hd', hm'⟩ := place_of_number s.row (show (s.column + s.cell.span - 1).toNat < columns by omega)
  simp only [patch, hfirst, hlast, wrapped_natCast, hd, hm, hd', hm']

-- What comes after a cell that starts below its row starts below that row, too.
theorem lt_first_of_before (hs : 0 ≤ s.column) (ht : 0 ≤ t.column) (hb : s.Before t)
    (h : s.row < (s.patch rows columns).first.1) : s.row < (t.patch rows columns).first.1 := by
  have hc : 0 < columns := by
    rcases Nat.eq_zero_or_pos columns with rfl | hc
    · simp [patch] at h
    · exact hc
  have hn : 0 ≤ s.number columns := Int.add_nonneg (Int.natCast_nonneg _) hs
  cases hb
  case inl hb =>
    refine le_first rows hc ?_
    have hmul := Nat.mul_le_mul_right columns (Nat.succ_le_of_lt hb)
    rw [number]
    omega
  case inr hb =>
    have ⟨hrow, hcol, _⟩ := hb
    refine Nat.lt_of_lt_of_le h (first_mono hn ?_)
    rw [number, number, hrow]
    omega

end Step

namespace Table

def patches (t : Table β) : List Patch :=
  t.steps.map (Step.patch t.rows.length t.columnWidths.length)

-- No cell is put in the row or in the place of another one.
def SpillFree (t : Table β) : Prop :=
  (∀ x ∈ t.patches, x.top = x.row) ∧ t.patches.Pairwise Patch.Apart

instance (t : Table β) : Decidable t.SpillFree :=
  inferInstanceAs (Decidable (_ ∧ _))

theorem row_of_mem_rowSteps {row : Nat} {column : Int} {cells : List (Cell β)} {s : Step β}
    (h : s ∈ rowSteps row column cells) : s.row = row := by
  induction cells generalizing column
  case nil => cases h
  case cons c cells hi =>
    cases h
    case head    => rfl
    case tail hm => exact hi hm

theorem row_of_mem_stepsFrom {row : Nat} {rows : List (List (Cell β))} {s : Step β}
    (h : s ∈ stepsFrom row rows) : row ≤ s.row := by
  induction rows generalizing row
  case nil => cases h
  case cons cells rows hi =>
    cases List.mem_append.mp h
    case inl h => exact Nat.le_of_eq (row_of_mem_rowSteps h).symm
    case inr h => exact Nat.le_of_succ_le (hi h)

theorem cells_rowSteps (row : Nat) (column : Int) (cells : List (Cell β)) :
    (rowSteps row column cells).map (·.cell) = cells := by
  induction cells generalizing column
  case nil          => rfl
  case cons c cs hi => simp [rowSteps, hi]

-- If no cell steps back, no cell starts before the first column or before an earlier one.
theorem before_rowSteps (row : Nat) (column : Int) {cells : List (Cell β)} (h : ∀ c ∈ cells, 0 ≤ c.span) :
    (∀ s ∈ rowSteps row column cells, column ≤ s.column) ∧
    (rowSteps row column cells).Pairwise Step.Before := by
  induction cells generalizing column
  case nil => exact ⟨fun _ hs => absurd hs List.not_mem_nil, .nil⟩
  case cons c cells hi =>
    have ⟨hc, hcells⟩ := List.forall_mem_cons.mp h
    have ⟨hle, hp⟩ := hi (column + c.span) hcells
    refine ⟨List.forall_mem_cons.mpr ⟨Int.le_refl _, fun s hs => ?first⟩,
      List.pairwise_cons.mpr ⟨fun s hs => ?before, hp⟩⟩
    case first =>
      have := hle s hs
      omega
    case before =>
      have := hle s hs
      exact .inr ⟨(row_of_mem_rowSteps hs).symm, by dsimp only; omega, this⟩

theorem before_stepsFrom (row : Nat) (rows : List (List (Cell β)))
    (h : ∀ s ∈ stepsFrom row rows, 0 ≤ s.cell.span) :
    (∀ s ∈ stepsFrom row rows, 0 ≤ s.column) ∧ (stepsFrom row rows).Pairwise Step.Before := by
  induction rows generalizing row
  case nil => exact ⟨fun _ hs => absurd hs List.not_mem_nil, .nil⟩
  case cons cells rows hi =>
    have ⟨hcells, hrows⟩ := List.forall_mem_append.mp h
    have hspan : ∀ c ∈ cells, 0 ≤ c.span := by
      intro c hc
      rw [← cells_rowSteps row 0 cells] at hc
      obtain ⟨s, hs, rfl⟩ := List.mem_map.mp hc
      exact hcells s hs
    have ⟨hle, hp⟩ := before_rowSteps row 0 hspan
    have ⟨hle', hp'⟩ := hi (row + 1) hrows
    refine ⟨List.forall_mem_append.mpr ⟨hle, hle'⟩, List.pairwise_append.mpr ⟨hp, hp', fun s hs s' hs' => ?_⟩⟩
    rw [Step.Before, row_of_mem_rowSteps hs]
    exact .inl (row_of_mem_stepsFrom hs')

-- The cells are written row by row.
theorem pairwise_steps (row : Nat) (rows : List (List (Cell β))) :
    (stepsFrom row rows).Pairwise (·.row ≤ ·.row) := by
  induction rows generalizing row
  case nil => exact .nil
  case cons cells rows hi =>
    refine List.pairwise_append.mpr ⟨?same, hi (row + 1), fun s hs s' hs' => ?later⟩
    case same =>
      refine List.pairwise_iff_forall_sublist.mpr fun {s s'} h => ?_
      have hs : s ∈ rowSteps row 0 cells := h.subset (by simp)
      have hs' : s' ∈ rowSteps row 0 cells := h.subset (by simp)
      exact Nat.le_of_eq ((row_of_mem_rowSteps hs).trans (row_of_mem_rowSteps hs').symm)
    case later =>
      rw [row_of_mem_rowSteps hs]
      exact Nat.le_of_succ_le (row_of_mem_stepsFrom hs')

theorem lt_of_mem_stepsFrom {row : Nat} {rows : List (List (Cell β))} {s : Step β}
    (h : s ∈ stepsFrom row rows) : s.row < row + rows.length := by
  induction rows generalizing row
  case nil => cases h
  case cons cells rows hi =>
    rw [List.length_cons]
    cases List.mem_append.mp h
    case inl h => rw [row_of_mem_rowSteps h]; omega
    case inr h => have hlt := hi h; omega

theorem cells_stepsFrom (row : Nat) (rows : List (List (Cell β))) :
    (stepsFrom row rows).map (·.cell) = rows.flatten := by
  induction rows generalizing row
  case nil             => rfl
  case cons cells rows hi => rw [stepsFrom, List.map_append, cells_rowSteps, hi, List.flatten_cons]

-- The cells of one row.
theorem filter_stepsFrom (row : Nat) (rows : List (List (Cell β))) (i : Nat) :
    ((stepsFrom row rows).filter (·.row = row + i)).map (·.cell) = rows.getD i [] := by
  induction rows generalizing row i
  case nil => rfl
  case cons cells rows hi =>
    rw [stepsFrom, List.filter_append, List.map_append]
    cases i
    case zero =>
      have hcells : (rowSteps row 0 cells).filter (·.row = row + 0) = rowSteps row 0 cells :=
        List.filter_eq_self.mpr fun s hs => by simp [row_of_mem_rowSteps hs]
      have hrows : (stepsFrom (row + 1) rows).filter (·.row = row + 0) = [] :=
        List.filter_eq_nil_iff.mpr fun s hs => by have := row_of_mem_stepsFrom hs; simp; omega
      rw [hcells, hrows, cells_rowSteps]
      simp
    case succ i =>
      have hcells : (rowSteps row 0 cells).filter (·.row = row + (i + 1)) = [] :=
        List.filter_eq_nil_iff.mpr fun s hs => by simp [row_of_mem_rowSteps hs]
      have hi := hi (row + 1) i
      rw [Nat.add_assoc, Nat.add_comm 1 i] at hi
      rw [hcells, hi]
      simp

-- A row that fits asks for places of its own only.
theorem le_of_mem_rowSteps {row : Nat} {column : Int} {cells : List (Cell β)} {s : Step β}
    (hc : ∀ c ∈ cells, 1 ≤ c.span) (h : s ∈ rowSteps row column cells) :
    1 ≤ s.cell.span ∧ s.column + s.cell.span ≤ column + extent cells := by
  induction cells generalizing column
  case nil => cases h
  case cons c cells hi =>
    have ⟨hc, hcells⟩ := List.forall_mem_cons.mp hc
    have hn := extent_nonneg hcells
    rw [extent_cons]
    cases h
    case head    => exact ⟨hc, by dsimp only; omega⟩
    case tail hm =>
      have ⟨hs, hle⟩ := hi hcells hm
      exact ⟨hs, by omega⟩

theorem le_of_mem_stepsFrom {row : Nat} {rows : List (List (Cell β))} {s : Step β} {columns : Int}
    (hf : ∀ cells ∈ rows, (∀ c ∈ cells, 1 ≤ c.span) ∧ extent cells ≤ columns) (h : s ∈ stepsFrom row rows) :
    1 ≤ s.cell.span ∧ s.column + s.cell.span ≤ columns := by
  induction rows generalizing row
  case nil => cases h
  case cons cells rows hi =>
    have ⟨⟨hc, he⟩, hrows⟩ := List.forall_mem_cons.mp hf
    cases List.mem_append.mp h
    case inr h => exact hi hrows h
    case inl h =>
      have ⟨hs, hle⟩ := le_of_mem_rowSteps hc h
      exact ⟨hs, by omega⟩

theorem spillFree_of_fits {t : Table β} (h : t.Fits) : t.SpillFree := by
  have hle : ∀ s ∈ t.steps, 1 ≤ s.cell.span ∧ s.column + s.cell.span ≤ t.columnWidths.length :=
    fun s hs => le_of_mem_stepsFrom h hs
  have ⟨hcol, hp⟩ := before_stepsFrom 0 t.rows fun s hs => by have := (hle s hs).left; omega
  have hpatch : ∀ s ∈ t.steps, s.patch t.rows.length t.columnWidths.length =
      ⟨s.row, (s.row, s.column.toNat), (s.row, (s.column + s.cell.span - 1).toNat)⟩ :=
    fun s hs => Step.patch_of_fits (hcol s hs) (hle s hs).left (hle s hs).right
  refine ⟨fun x hx => ?top, List.pairwise_map.mpr (hp.imp_of_mem fun {y x} hy hx hb => ?apart)⟩
  case top =>
    obtain ⟨s, hs, rfl⟩ := List.mem_map.mp hx
    rw [hpatch s hs]
    exact Nat.min_self _
  case apart =>
    have hyc := hcol y hy
    have hy₁ := (hle y hy).left
    have hx₁ := (hle x hx).left
    rw [hpatch y hy, hpatch x hx]
    simp only [Patch.Apart, Patch.Covers, Patch.top, Patch.bottom, Patch.left, Patch.right]
    cases hb
    case inl hb => omega
    case inr hb =>
      have ⟨hrow, _, hb⟩ := hb
      omega

-- A cell that starts beyond the last column of its row spills.
theorem not_spillFree_of_overlong {t : Table β} {s : Step β} (hs : s ∈ t.steps)
    (hc : 0 < t.columnWidths.length) (h : t.columnWidths.length ≤ s.column) : ¬t.SpillFree := by
  intro ⟨htop, _⟩
  have hn : (((s.row + 1) * t.columnWidths.length : Nat) : Int) ≤ s.number t.columnWidths.length := by
    rw [Step.number, Nat.succ_mul]
    omega
  have hfirst := Step.le_first t.rows.length hc hn
  have hlast := Step.first_le_last t.rows.length (Int.le_trans (Int.natCast_nonneg _) hn)
  have hrow := htop _ (List.mem_map_of_mem hs)
  have hr : (s.patch t.rows.length t.columnWidths.length).row = s.row := rfl
  rw [Patch.top] at hrow
  omega

end Table
end DefectLog
