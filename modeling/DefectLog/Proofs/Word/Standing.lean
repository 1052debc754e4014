import DefectLog.Proofs.Word.Placing

-- Where the cells of a grid stand, and what becomes of them when one of them grows.
namespace DefectLog.Word

open Success Row

-- A cell stands in a row at the column at which it starts.
def Stands (row : List (Cell Block)) (column : Nat) (c : Cell Block) : Prop :=
  ∃ before rest, row = before ++ c :: rest ∧ extent before = column

variable {row before vanished stays : List (Cell Block)} {c d own grown : Cell Block}
  {k l left span column place r : Nat}

namespace Stands

theorem mem (h : Stands row k c) : c ∈ row := by
  obtain ⟨before, rest, rfl, -⟩ := h
  simp

theorem of_mem (h : c ∈ row) : ∃ k, Stands row k c := by
  obtain ⟨before, rest, rfl⟩ := List.append_of_mem h
  exact ⟨_, before, rest, rfl, rfl⟩

theorem append_left (h : Stands row k c) (rest : List (Cell Block)) : Stands (row ++ rest) k c := by
  obtain ⟨before, after, rfl, he⟩ := h
  exact ⟨before, after ++ rest, by simp, he⟩

theorem append_right (h : Stands row k c) (before : List (Cell Block)) :
    Stands (before ++ row) (extent before + k) c := by
  obtain ⟨front, after, rfl, rfl⟩ := h
  exact ⟨before ++ front, after, by simp, by simp⟩

-- A cell of two rows put together stands in one of them.
theorem of_append {rest : List (Cell Block)} (h : Stands (row ++ rest) k c) :
    Stands row k c ∧ k + c.span ≤ extent row ∨ ∃ l, k = extent row + l ∧ Stands rest l c := by
  obtain ⟨before, after, he, rfl⟩ := h
  cases List.append_eq_append_iff.mp he
  case inl h =>
    obtain ⟨mid, rfl, rfl⟩ := h
    exact .inr ⟨extent mid, by simp, mid, after, rfl, rfl⟩
  case inr h =>
    obtain ⟨mid, rfl, hm⟩ := h
    cases mid
    case nil =>
      obtain rfl : rest = c :: after := by simpa using hm.symm
      exact .inr ⟨0, by simp, [], after, rfl, rfl⟩
    case cons _ mid =>
      obtain ⟨rfl, rfl⟩ := List.cons.inj hm
      exact .inl ⟨⟨before, mid, rfl, rfl⟩, by simp⟩

theorem cons_iff : Stands (d :: row) k c ↔ k = 0 ∧ c = d ∨ ∃ l, k = d.span + l ∧ Stands row l c := by
  constructor
  case mp =>
    rintro ⟨before, after, he, rfl⟩
    cases before
    case nil =>
      obtain ⟨rfl, rfl⟩ := List.cons.inj he
      exact .inl ⟨rfl, rfl⟩
    case cons _ before =>
      obtain ⟨rfl, rfl⟩ := List.cons.inj he
      exact .inr ⟨extent before, by simp, before, after, rfl, rfl⟩
  case mpr =>
    rintro (⟨rfl, rfl⟩ | ⟨l, rfl, before, after, rfl, rfl⟩)
    · exact ⟨[], row, rfl, rfl⟩
    · exact ⟨d :: before, after, rfl, by simp⟩

-- Two cells of a row do not overlap.
theorem apart (h₁ : Stands row k c) (h₂ : Stands row l d) :
    k = l ∧ c = d ∨ k + c.span ≤ l ∨ l + d.span ≤ k := by
  obtain ⟨before, rest, rfl, rfl⟩ := h₁
  cases h₂.of_append
  case inl h => exact .inr (.inr h.right)
  case inr h =>
    obtain ⟨m, rfl, h⟩ := h
    cases cons_iff.mp h
    case inl h =>
      obtain ⟨rfl, rfl⟩ := h
      exact .inl ⟨by simp, rfl⟩
    case inr h =>
      obtain ⟨m, rfl, -⟩ := h
      exact .inr (.inl (by omega))

end Stands

namespace Grid.Grown

-- The cells of a row before one of them grows. The cell that grows takes in those that it reaches over.
theorem stands_of_old (h : Grown left span row before own vanished stays)
    (hs : grown.span = own.span + extent vanished) (ho : Stands row k c) :
    Stands (before ++ grown :: stays) k c ∧ (k + c.span ≤ left ∨ left + grown.span ≤ k) ∨
      c ∈ own :: vanished ∧ left ≤ k ∧ k + c.span ≤ left + grown.span := by
  rw [h.row_eq] at ho
  cases ho.of_append
  case inl hb => exact .inl ⟨hb.left.append_left _, .inl (h.left ▸ hb.right)⟩
  case inr hb =>
    obtain ⟨m, rfl, hm⟩ := hb
    rw [h.left]
    cases Stands.cons_iff.mp hm
    case inl hm =>
      obtain ⟨rfl, rfl⟩ := hm
      exact .inr ⟨List.mem_cons_self, by omega, by omega⟩
    case inr hm =>
      obtain ⟨n, rfl, hn⟩ := hm
      cases hn.of_append
      case inl hv => exact .inr ⟨List.mem_cons_of_mem _ hv.left.mem, by omega, by omega⟩
      case inr hv =>
        obtain ⟨i, rfl, hi⟩ := hv
        have hg := ((Stands.cons_iff (d := grown)).mpr (.inr ⟨i, rfl, hi⟩)).append_right before
        rw [h.left, hs, Nat.add_assoc] at hg
        exact .inl ⟨hg, .inr (by omega)⟩

-- The cells of a row after one of them has grown.
theorem stands_of_new (h : Grown left span row before own vanished stays)
    (hs : grown.span = own.span + extent vanished) (hn : Stands (before ++ grown :: stays) k c) :
    k = left ∧ c = grown ∨ Stands row k c ∧ (k + c.span ≤ left ∨ left + grown.span ≤ k) := by
  rw [h.row_eq]
  cases hn.of_append
  case inl hb => exact .inr ⟨hb.left.append_left _, .inl (h.left ▸ hb.right)⟩
  case inr hb =>
    obtain ⟨m, rfl, hm⟩ := hb
    rw [h.left]
    cases Stands.cons_iff.mp hm
    case inl hm => exact .inl ⟨by omega, hm.right⟩
    case inr hm =>
      obtain ⟨i, rfl, hi⟩ := hm
      have ho := ((Stands.cons_iff (d := own)).mpr (.inr ⟨_, rfl, hi.append_right vanished⟩))
      |>.append_right before
      rw [h.left] at ho
      refine .inr ⟨?_, .inr (by omega)⟩
      rwa [hs, Nat.add_assoc]

end Grid.Grown

namespace Grid

variable {g : Grid} {p : Position}

-- The cell at a position, which starts at a column.
def Locates (g : Grid) (p : Position) (column : Nat) (c : Cell Block) : Prop :=
  ∃ before rest, g[p.row]? = some (before ++ c :: rest) ∧ before.length = p.place ∧ extent before = column

-- The cell that starts at a column of a row.
def Starts (g : Grid) (r column : Nat) (c : Cell Block) : Prop :=
  ∃ row, g[r]? = some row ∧ Stands row column c

-- The cell that covers a column of a row.
def Covers (g : Grid) (r k : Nat) (c : Cell Block) : Prop :=
  ∃ column, g.Starts r column c ∧ column ≤ k ∧ k < column + c.span

theorem Locates.starts (h : g.Locates p column c) : g.Starts p.row column c := by
  obtain ⟨before, rest, hr, -, he⟩ := h
  exact ⟨_, hr, before, rest, rfl, he⟩

theorem Locates.cell? (h : g.Locates p column c) : g.cell? p = some c := by
  obtain ⟨before, rest, hr, hl, -⟩ := h
  simp [Grid.cell?, hr, ← hl]

theorem inRow?_of_covers (h : g.Covers r k c) :
    ∃ p column, g.inRow? r k = some (p, c) ∧ g.Locates p column c ∧ p.row = r ∧ column ≤ k ∧
      k < column + c.span := by
  obtain ⟨_, ⟨row, hr, before, rest, rfl, rfl⟩, hl, hk⟩ := h
  obtain ⟨m, rfl⟩ := Nat.exists_eq_add_of_le hl
  have hc : Row.covering? (before ++ c :: rest) (extent before + m) = some before.length := by
    have hm : m < c.span := by omega
    rw [covering?_append, Row.covering?, if_pos hm, Option.map_some, Nat.zero_add]
  refine ⟨⟨r, before.length⟩, _, inRow?_eq_some hr hc (by simp), ⟨before, rest, hr, rfl, rfl⟩, rfl, hl, hk⟩

end Grid

theorem Row.covering?_eq_some (h : Row.covering? row k = some place) :
    ∃ before c rest, row = before ++ c :: rest ∧ before.length = place ∧ extent before ≤ k ∧
      k < extent before + c.span := by
  induction row generalizing k place
  case nil => cases h
  case cons b bs hi =>
    simp only [covering?] at h
    split at h
    case isTrue hk =>
      cases h
      exact ⟨[], b, bs, rfl, rfl, by simp, by simpa using hk⟩
    case isFalse hk =>
      obtain ⟨n, hn, rfl⟩ := Option.map_eq_some_iff.mp h
      obtain ⟨before, c, rest, rfl, rfl, hl, hr⟩ := hi hn
      exact ⟨b :: before, c, rest, rfl, rfl, by simp; omega, by simp; omega⟩

namespace Grid

variable {g : Grid} {p : Position}

theorem covers_of_inRow? (h : g.inRow? r k = some (p, c)) :
    p.row = r ∧ g.Covers r k c ∧ ∃ column, g.Locates p column c ∧ column ≤ k ∧ k < column + c.span := by
  simp only [inRow?, Option.bind_eq_bind, Option.bind_eq_some_iff, Option.pure_def, Option.some.injEq,
    Prod.mk.injEq] at h
  obtain ⟨row, hr, place, hp, c, hc, rfl, rfl⟩ := h
  obtain ⟨before, d, rest, rfl, rfl, hl, hk⟩ := Row.covering?_eq_some hp
  obtain rfl : d = c := by simpa using hc
  exact ⟨rfl, ⟨_, ⟨_, hr, before, rest, rfl, rfl⟩, hl, hk⟩, _, ⟨before, rest, hr, rfl, rfl⟩, hl, hk⟩

-- A position is looked up in the row itself or in one above it. Only the first row can be left with a
-- cell that is continued.
theorem covering?_eq_some (h : g.covering? k r = some p) :
    ∃ column c, g.Locates p column c ∧ column ≤ k ∧ k < column + c.span ∧ p.row ≤ r ∧
      (c.stacking ≠ some .continued ∨ p.row = 0) := by
  induction r
  case zero =>
    obtain ⟨⟨p, c⟩, hc, rfl⟩ := Option.map_eq_some_iff.mp h
    obtain ⟨hr, _, column, hl, hk⟩ := covers_of_inRow? hc
    exact ⟨column, c, hl, hk.left, hk.right, Nat.le_of_eq hr, .inr hr⟩
  case succ r hi =>
    simp only [covering?] at h
    split at h
    case h_1 => cases h
    case h_2 q c hc =>
      split at h
      case isTrue =>
        obtain ⟨column, d, hl, hk, hk', hr, hs⟩ := hi h
        exact ⟨column, d, hl, hk, hk', by omega, hs⟩
      case isFalse hs =>
        cases h
        obtain ⟨hr, _, column, hl, hk⟩ := covers_of_inRow? hc
        exact ⟨column, c, hl, hk.left, hk.right, by omega, .inl hs⟩

-- A cell that is continued leaves the matter to the row above.
theorem covering?_of_continued (h : g.Covers (r + 1) k c) (hs : c.stacking = some .continued) :
    g.covering? k (r + 1) = g.covering? k r := by
  obtain ⟨p, _, hp, -⟩ := inRow?_of_covers h
  simp [covering?, hp, hs]

theorem locates_of_covers (h : g.Covers r k c) (hs : c.stacking ≠ some .continued)
    (hp : g.covering? k r = some p) :
    p.row = r ∧ ∃ column, g.Locates p column c ∧ column ≤ k ∧ k < column + c.span := by
  have ⟨q, column, hq, hl, hr, hk⟩ := inRow?_of_covers h
  rw [covering?_of_inRow? hq hs] at hp
  obtain rfl := Option.some.inj hp
  exact ⟨hr, column, hl, hk⟩

theorem area_eq_ok {a : Area} (hl : g.Locates p column c) (h : g.area p = .ok a) :
    a.top = p.row ∧ a.left = column ∧ a.right = column + c.span ∧ p.row < a.bottom ∧
      (c.stacking = none → a.bottom = p.row + 1) := by
  obtain ⟨before, rest, hr, hp, rfl⟩ := hl
  have hd : g.getD p.row [] = before ++ c :: rest := by simp [hr]
  simp only [area, hd, ← hp, start_append, List.getElem?_append_right Nat.le.refl, Nat.sub_self,
    List.getElem?_cons_zero] at h
  split at h <;> simp only [bind_eq_ok, pure_eq_ok] at h
  case isTrue =>
    obtain ⟨_, rfl, rfl⟩ := h
    exact ⟨rfl, rfl, rfl, Nat.lt_succ_self _, fun _ => rfl⟩
  case isFalse hs =>
    obtain ⟨more, -, rfl⟩ := h
    exact ⟨rfl, rfl, rfl, Nat.lt_of_lt_of_le (Nat.lt_succ_self _) (Nat.le_add_right _ _), fun hn => absurd hn hs⟩

end Grid
end DefectLog.Word
