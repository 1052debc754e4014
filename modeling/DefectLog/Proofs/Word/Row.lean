import DefectLog.Proofs.Success
import DefectLog.Word.Grid

namespace DefectLog.Word

open Success

-- The cell that a table is made of before anything is written to it.
def Cell.blank (width : Int) : Cell Block :=
  { width, content := [.empty] }

theorem Cell.widen_eq_ok {c next wider : Cell Block} (h : c.widen next = .ok wider) :
    ∃ width, wider = { c with width, span := c.span + next.span } := by
  simp only [widen] at h
  split at h <;> simp only [bind_eq_ok, pure_eq_ok] at h
  all_goals
    obtain ⟨w, -, rfl⟩ := h
    exact ⟨w, rfl⟩

namespace Row

-- The number of columns that the cells cover together.
def extent : List (Cell Block) → Nat
  | []         => 0
  | c :: cells => c.span + extent cells

variable {cells before rest vanished stays : List (Cell Block)} {c grown : Cell Block}

@[simp] theorem extent_nil : extent [] = 0 :=
  rfl

@[simp] theorem extent_cons : extent (c :: cells) = c.span + extent cells :=
  rfl

@[simp] theorem extent_append : extent (before ++ rest) = extent before + extent rest := by
  induction before
  case nil          => simp
  case cons b bs hi => simp [hi, Nat.add_assoc]

@[simp] theorem extent_blanks (n : Nat) (width : Int) :
    extent (List.replicate n (Cell.blank width)) = n := by
  induction n
  case zero      => rfl
  case succ n hi => rw [List.replicate_succ, extent_cons, hi, Cell.blank, Nat.add_comm]

theorem covering?_append (column : Nat) :
    covering? (before ++ rest) (extent before + column) =
      (covering? rest column).map (· + before.length) := by
  induction before
  case nil => simp
  case cons b bs hi =>
    have h : b.span + extent bs + column - b.span = extent bs + column := by omega
    have hn : ¬ b.span + extent bs + column < b.span := by omega
    simp only [List.cons_append, covering?, extent_cons, hn, ↓reduceIte, h, hi, Option.map_map]
    rfl

theorem covering?_blanks {n column : Nat} (width : Int) (h : column < n) :
    covering? (List.replicate n (Cell.blank width)) column = some column := by
  induction n generalizing column
  case zero => contradiction
  case succ n hi =>
    cases column
    case zero     => simp [List.replicate_succ, covering?, Cell.blank]
    case succ col =>
      have hs : (Cell.blank width).span = 1 := rfl
      simp [List.replicate_succ, covering?, hs, hi (Nat.lt_of_succ_lt_succ h)]

-- The row around the cell that starts at a column.
theorem startingAt?_eq_some {column place : Nat} (h : startingAt? cells column = some place) :
    ∃ before own after, cells = before ++ own :: after ∧ before.length = place ∧
      extent before = column := by
  induction cells generalizing column place
  case nil => cases h
  case cons c cs hi =>
    cases column
    case zero =>
      cases h
      exact ⟨[], c, cs, rfl, rfl, rfl⟩
    case succ =>
      simp only [startingAt?] at h
      split at h
      case isTrue => cases h
      case isFalse =>
        obtain ⟨n, hn, rfl⟩ := Option.map_eq_some_iff.mp h
        obtain ⟨before, own, after, rfl, rfl, he⟩ := hi hn
        exact ⟨c :: before, own, after, rfl, rfl, by simp; omega⟩

theorem start_append : start (before ++ rest) before.length = extent before := by
  induction before
  case nil       => cases rest <;> rfl
  case cons _ hi => simp [start, hi]

-- What a cell that has grown is made of. Its content, its finishes and its stacking are its own. A cell
-- that is too wide already stays as it is.
theorem absorb_eq_ok {span : Nat} (h : absorb span c cells = .ok (grown, vanished, stays)) :
    cells = vanished ++ stays ∧
    (∃ width, grown = { c with width, span := c.span + extent vanished }) ∧
    (c.span + extent vanished = span ∨ span < c.span ∧ vanished = []) := by
  induction cells generalizing c grown vanished stays
  case nil =>
    simp only [absorb] at h
    split at h
    case isTrue  => contradiction
    case isFalse hs =>
      simp only [Except.ok.injEq, Prod.mk.injEq] at h
      obtain ⟨rfl, rfl, rfl⟩ := h
      exact ⟨rfl, ⟨c.width, by simp⟩, by simp; omega⟩
  case cons next rest hi =>
    simp only [absorb] at h
    split at h
    case isFalse hs =>
      simp only [Except.ok.injEq, Prod.mk.injEq] at h
      obtain ⟨rfl, rfl, rfl⟩ := h
      exact ⟨rfl, ⟨c.width, by simp⟩, by simp; omega⟩
    case isTrue hs =>
      split at h
      case isTrue => contradiction
      case isFalse hn =>
        simp only [bind_eq_ok, pure_eq_ok, Prod.mk.injEq] at h
        obtain ⟨wider, hw, ⟨g, v, s⟩, ha, rfl, rfl, rfl⟩ := h
        obtain ⟨w, rfl⟩ := Cell.widen_eq_ok hw
        obtain ⟨rfl, ⟨w', rfl⟩, hg⟩ := hi ha
        refine ⟨rfl, ⟨w', by simp [Nat.add_assoc]⟩, .inl ?_⟩
        simp only [extent_cons] at hg ⊢
        omega

-- Cells that cover columns are told apart by how far they reach.
theorem append_inj_of_extent {xs xs' ys ys' : List (Cell Block)} (h : xs ++ ys = xs' ++ ys')
    (hp : ∀ c ∈ xs ++ ys, 0 < c.span) (he : extent xs = extent xs') : xs = xs' ∧ ys = ys' := by
  induction xs generalizing xs'
  case nil =>
    cases xs'
    case nil       => exact ⟨rfl, h⟩
    case cons x xs =>
      have hx : 0 < x.span := hp x (h ▸ List.mem_cons_self)
      simp at he
      omega
  case cons x xs hi =>
    have hx : 0 < x.span := hp x List.mem_cons_self
    cases xs'
    case nil         => simp at he; omega
    case cons x' xs' =>
      simp only [List.cons_append, List.cons.injEq] at h
      obtain ⟨rfl, h⟩ := h
      have ⟨h₁, h₂⟩ := hi h (fun c hc => hp c (List.mem_cons_of_mem _ hc)) (by simpa using he)
      exact ⟨h₁ ▸ rfl, h₂⟩

end Row

namespace Grid

variable {g : Grid} {p : Position} {c : Cell Block}

-- A row around one of its cells.
theorem cell?_eq_some (h : g.cell? p = some c) :
    ∃ before rest, g[p.row]? = some (before ++ c :: rest) ∧ before.length = p.place := by
  have ⟨cells, hr, hc⟩ := Option.bind_eq_some_iff.mp h
  obtain ⟨hl, rfl⟩ := List.getElem?_eq_some_iff.mp hc
  refine ⟨cells.take p.place, cells.drop (p.place + 1), ?_, by simp; omega⟩
  rw [hr, List.getElem_cons_drop, List.take_append_drop]

theorem setCell_eq_set {before rest : List (Cell Block)} (hr : g[p.row]? = some (before ++ c :: rest))
    (hp : before.length = p.place) (d : Cell Block) : g.setCell p d = g.set p.row (before ++ d :: rest) := by
  have ⟨hl, hr⟩ := List.getElem?_eq_some_iff.mp hr
  rw [setCell, List.modify_eq_take_cons_drop hl, hr, ← hp]
  simp [List.set_eq_take_append_cons_drop, hl]

end Grid
end DefectLog.Word
