import DefectLog.Proofs.Document.Patches
import DefectLog.Proofs.Word.Merging

-- Where a cell of the tree is put when its row still has room for it.
namespace DefectLog.Word.Grid

open Success Row

variable {g g' : Grid} {p q : Position} {row column columns : Nat} {c : Cell Block}
  {cells before rest : List (Cell Block)}

theorem inRow?_eq_some {place : Nat} (hr : g[row]? = some cells)
    (hp : Row.covering? cells column = some place) (hc : cells[place]? = some c) :
    g.inRow? row column = some (⟨row, place⟩, c) := by
  simp [inRow?, hr, hp, hc]

-- A cell that is not continued stands for itself.
theorem covering?_of_inRow? (h : g.inRow? row column = some (p, c)) (hs : c.stacking ≠ some .continued) :
    g.covering? column row = some p := by
  cases row <;> simp [covering?, h, hs]

-- A number that leads to a cell leads to the one at its place in the grid.
theorem numbered?_eq_ok {number : Int} (h : g.numbered? columns number = .ok p) :
    g.covering? (wrapped (g.length * columns) number % columns)
      (wrapped (g.length * columns) number / columns) = some p := by
  simp only [numbered?] at h
  split at h
  case isTrue => cases h
  case isFalse =>
    split at h
    case h_2 => cases h
    case h_1 hf =>
      cases h
      rw [wrapped, Int.natCast_mul]
      generalize (if number < 0 then number + (g.length * columns : Int) else number) = n at hf ⊢
      split at hf
      case isTrue  => cases hf
      case isFalse => exact hf

theorem covering?_of_numbered? (hc : column < columns)
    (h : g.numbered? columns ((row * columns + column : Nat) : Int) = .ok p) :
    g.covering? column row = some p := by
  have hf := numbered?_eq_ok h
  have ⟨hd, hm⟩ := place_of_number row hc
  rwa [wrapped_natCast, hd, hm] at hf

-- A cell that stands in one row only.
theorem area_of_plain (hr : g[row]? = some (before ++ c :: rest)) (hs : c.stacking = none) :
    g.area ⟨row, before.length⟩ = .ok {
      top := row, bottom := row + 1, left := extent before, right := extent before + c.span } := by
  have hd : g.getD row [] = before ++ c :: rest := by simp [hr]
  simp only [area, hd, start_append, List.getElem?_append_right Nat.le.refl, Nat.sub_self,
    List.getElem?_cons_zero, hs]
  rfl

-- Two cells of a row are merged with the cells between them. If nothing was written to any of them but
-- the first, the first keeps its content.
theorem merge_within_row {between : List (Cell Block)} {d : Cell Block}
    (hr : g[row]? = some (before ++ c :: (between ++ d :: rest)))
    (hp : ∀ b ∈ before ++ c :: (between ++ d :: rest), 0 < b.span)
    (hc : c.stacking = none) (hd : d.stacking = none) (hv : ∀ b ∈ between ++ [d], b.isVacant)
    (h : g.merge ⟨row, before.length⟩ ⟨row, (before ++ c :: between).length⟩ = .ok (g', p)) :
    p = ⟨row, before.length⟩ ∧ ∃ width, g' = g.set row
      (before ++ { c with width, span := c.span + extent between + d.span } :: rest) := by
  have hl : row < g.length := (List.getElem?_eq_some_iff.mp hr).1
  have hr' : g[row]? = some ((before ++ c :: between) ++ d :: rest) := by simpa using hr
  obtain ⟨a, b, _, before', own, vanished, stays, w, top, below, ha, hb, -, hg, hgrown, hbelow, rfl, rfl⟩ :=
    merge_eq_ok h
  rw [area_of_plain hr hc] at ha
  rw [area_of_plain hr' hd] at hb
  cases ha
  cases hb
  have hleft : min (extent before) (extent (before ++ c :: between)) = extent before := by simp
  have hspan : max (extent before + c.span) (extent (before ++ c :: between) + d.span) - extent before =
      c.span + extent between + d.span := by
    simp
    omega
  simp only [Nat.min_self, Nat.max_self, hleft, hspan, Nat.add_sub_cancel_left, Nat.sub_self,
    ↓reduceIte] at hg hgrown hbelow ⊢
  cases hbelow
  obtain rfl := Option.some.inj (hr.symm.trans hg)
  obtain ⟨rfl, htail⟩ := append_inj_of_extent hgrown.row_eq hp hgrown.left.symm
  obtain ⟨rfl, hrest⟩ := List.cons.inj htail
  obtain ⟨rfl, rfl⟩ : between ++ [d] = vanished ∧ rest = stays := by
    refine append_inj_of_extent (by simpa using hrest) (fun b hb => hp b (by simp at hb ⊢; tauto)) ?_
    have := hgrown.extent_eq (by omega)
    simp
    omega
  have hf : (between ++ [d]).filter (!·.isVacant) = [] :=
    List.filter_eq_nil_iff.mpr fun b hb => by simp [hv b hb]
  refine ⟨rfl, w, ?_⟩
  simp [gathered, hf, hc, List.set_eq_take_append_cons_drop, hl, Nat.add_assoc]

-- In a row that nothing was written to from some column on, each column has a cell of its own there.
theorem covering?_of_blanks {n k : Nat} {width : Int}
    (hr : g[row]? = some (before ++ List.replicate n (Cell.blank width))) (hk : k < n) :
    g.covering? (extent before + k) row = some ⟨row, before.length + k⟩ := by
  refine covering?_of_inRow? (c := Cell.blank width) (inRow?_eq_some hr ?_ ?_) (by simp [Cell.blank])
  · rw [covering?_append, covering?_blanks width hk, Option.map_some, Nat.add_comm]
  · simp [hk]

theorem blanks_split (k left : Nat) (width : Int) :
    List.replicate (k + 1 + 1 + left) (Cell.blank width) =
      Cell.blank width :: (List.replicate k (Cell.blank width) ++
        Cell.blank width :: List.replicate left (Cell.blank width)) := by
  rw [← List.replicate_succ, List.replicate_append_replicate, ← List.replicate_succ]
  congr 1
  omega

-- Several of these cells are merged to one.
theorem merge_blanks {k left : Nat} {width : Int}
    (hr : g[row]? = some (before ++ List.replicate (k + 1 + 1 + left) (Cell.blank width)))
    (hb : ∀ b ∈ before, 0 < b.span)
    (h : g.merge ⟨row, before.length⟩ ⟨row, before.length + (k + 1)⟩ = .ok (g', p)) :
    p = ⟨row, before.length⟩ ∧ ∃ w, g' = g.set row
      (before ++ { Cell.blank w with span := k + 1 + 1 } :: List.replicate left (Cell.blank width)) := by
  rw [blanks_split] at hr
  have hlen : (before ++ Cell.blank width :: List.replicate k (Cell.blank width)).length =
      before.length + (k + 1) := by
    simp
  have hpos : ∀ b ∈ before ++ Cell.blank width :: (List.replicate k (Cell.blank width) ++
      Cell.blank width :: List.replicate left (Cell.blank width)), 0 < b.span := by
    intro b hm
    rw [← blanks_split] at hm
    simp only [List.mem_append, List.mem_replicate] at hm
    cases hm
    case inl hm => exact hb b hm
    case inr hm => exact hm.right ▸ Nat.one_pos
  have hv : ∀ b ∈ List.replicate k (Cell.blank width) ++ [Cell.blank width], b.isVacant := by
    intro b hm
    simp only [List.mem_append, List.mem_replicate, List.mem_singleton] at hm
    obtain rfl : b = Cell.blank width := hm.elim And.right id
    rfl
  rw [← hlen] at h
  have hst : (Cell.blank width).stacking = none := rfl
  have ⟨hp, w, hg⟩ := merge_within_row hr hpos hst hst hv h
  have hw : (Cell.blank width).span + extent (List.replicate k (Cell.blank width)) +
      (Cell.blank width).span = k + 1 + 1 := by
    rw [extent_blanks]
    simp only [Cell.blank]
    omega
  exact ⟨hp, w, hw ▸ hg⟩

-- A cell of the tree takes up as many of these cells as it spans columns.
theorem placed_eq_ok {span left : Nat} {width : Int}
    (hr : g[row]? = some (before ++ List.replicate (span + left) (Cell.blank width)))
    (hb : ∀ b ∈ before, 0 < b.span) (hc : extent before + (span + left) = columns) (hs : 0 < span)
    (h : g.placed columns row (extent before) span = .ok (g', p)) :
    p = ⟨row, before.length⟩ ∧ ∃ w, g' = g.set row
      (before ++ { Cell.blank w with span } :: List.replicate left (Cell.blank width)) := by
  simp only [placed, bind_eq_ok] at h
  have ⟨p', hp, h⟩ := h
  obtain rfl : p' = ⟨row, before.length⟩ := by
    have hf : g.covering? (extent before + 0) row = some p' :=
      covering?_of_numbered? (show _ < columns by omega) (by push_cast at hp ⊢; exact hp)
    rw [covering?_of_blanks hr (by omega)] at hf
    exact (Option.some.inj hf).symm
  obtain _ | _ | k := span
  case zero => omega
  case succ.zero =>
    have hle : ¬ (1 : Int) < (0 + 1 : Nat) := by omega
    simp only [hle, ↓reduceIte, pure_eq_ok, Prod.mk.injEq] at h
    obtain ⟨rfl, rfl⟩ := h
    have hl := (List.getElem?_eq_some_iff.mp hr).1
    have he := (List.getElem?_eq_some_iff.mp hr).2
    refine ⟨rfl, width, ?_⟩
    nth_rewrite 1 [← List.set_getElem_self hl]
    rw [he, Nat.add_comm, List.replicate_succ]
    rfl
  case succ.succ =>
    have hgt : (1 : Int) < (k + 1 + 1 : Nat) := by omega
    have hn : ((row * columns : Nat) : Int) + extent before + (k + 1 + 1 : Nat) - 1 =
        ((row * columns + (extent before + (k + 1)) : Nat) : Int) := by
      omega
    simp only [hgt, ↓reduceIte, bind_eq_ok, hn] at h
    have ⟨q, hq, h⟩ := h
    have hf := covering?_of_numbered? (by omega) hq
    rw [covering?_of_blanks hr (by omega)] at hf
    obtain rfl := Option.some.inj hf
    exact merge_blanks hr hb h

end DefectLog.Word.Grid
