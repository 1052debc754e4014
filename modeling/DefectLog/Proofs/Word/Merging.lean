import DefectLog.Proofs.Word.Row

-- What merging the cells of a rectangle does to the rows that it goes through.
namespace DefectLog.Word.Grid

open Success Row

variable {g g' : Grid} {p q pos : Position} {left span rows : Nat} {top top' own : Cell Block}
  {row before vanished stays : List (Cell Block)} {below below' : Grid}

-- A row in which a cell has grown over the cells after it.
structure Grown (left span : Nat) (row before : List (Cell Block)) (own : Cell Block)
    (vanished stays : List (Cell Block)) : Prop where
  row_eq : row = before ++ own :: (vanished ++ stays)
  left   : extent before = left
  reach  : own.span + extent vanished = span ∨ span < own.span ∧ vanished = []

theorem Grown.extent_eq (h : Grown left span row before own vanished stays) (hs : own.span ≤ span) :
    own.span + extent vanished = span := by
  cases h.reach
  case inl hr => exact hr
  case inr hr => omega

-- The content of the cells that vanish, in front of which a cell has its own.
def gathered (vanished : List (Cell Block)) (c : Cell Block) : Cell Block :=
  (vanished.filter (!·.isVacant)).foldl (·.receive ·.content) c

theorem grown_of_absorb {place : Nat} {d grown : Cell Block} (hp : Row.startingAt? row left = some place)
    (ha : Row.absorb span (row.getD place d) (row.drop (place + 1)) = .ok (grown, vanished, stays)) :
    ∃ before own width, Grown left span row before own vanished stays ∧
      before.length = place ∧ row.take place = before ∧ row.getD place d = own ∧
      grown = { own with width, span := own.span + extent vanished } := by
  obtain ⟨before, own, after, rfl, rfl, hl⟩ := startingAt?_eq_some hp
  have ho : (before ++ own :: after).getD before.length d = own := by simp
  have ht : (before ++ own :: after).drop (before.length + 1) = after := by simp
  rw [ho, ht] at ha
  obtain ⟨rfl, ⟨width, rfl⟩, hs⟩ := absorb_eq_ok ha
  exact ⟨before, own, width, ⟨rfl, hl, hs⟩, rfl, by simp, ho, rfl⟩

theorem growBelow_zero (left span : Nat) (top : Cell Block) (below : Grid) :
    growBelow left span 0 top below = .ok (top, below) := by
  cases below <;> rfl

-- The first row below. Its cell hands its content over and is continued from above.
theorem growBelow_cons_eq_ok
    (h : growBelow left span (rows + 1) top (row :: below) = .ok (top', below')) :
    ∃ before own vanished stays width rest, Grown left span row before own vanished stays ∧
      growBelow left span rows (gathered (own :: vanished) top) below = .ok (top', rest) ∧
      below' = (before ++ { own with
        width, span := own.span + extent vanished, stacking := some .continued
        content := if own.isVacant then own.content else [.empty] } :: stays) :: rest := by
  simp only [growBelow] at h
  split at h
  case h_1 => cases h
  case h_2 place hp =>
    simp only [bind_eq_ok, pure_eq_ok, Prod.mk.injEq] at h
    obtain ⟨⟨grown, vanished, stays⟩, ha, ⟨_, rest⟩, hb, rfl, rfl⟩ := h
    obtain ⟨before, own, width, hg, rfl, ht, ho, rfl⟩ := grown_of_absorb hp ha
    rw [ho] at hb
    exact ⟨before, own, vanished, stays, width, rest, hg, hb, by rw [ht, ho]⟩

-- The rows below a cell that has grown over them. The cell of each of these rows hands its content
-- over and is continued from above.
inductive GrownBelow (left span : Nat) : Nat → Cell Block → Grid → Cell Block → Grid → Prop
  | stop {rows : Nat} {top : Cell Block} {below : Grid} :
    (rows = 0 ∨ below = []) → GrownBelow left span rows top below top below
  | row {rows : Nat} {width : Int} {top top' own : Cell Block} {row before vanished stays : List (Cell Block)}
    {below below' : Grid} :
    (Grown left span row before own vanished stays) →
    (GrownBelow left span rows (gathered (own :: vanished) top) below top' below') →
    GrownBelow left span (rows + 1) top (row :: below) top' ((before ++ { own with
      width, span := own.span + extent vanished, stacking := some .continued
      content := if own.isVacant then own.content else [.empty] } :: stays) :: below')

theorem grownBelow_of_growBelow (h : growBelow left span rows top below = .ok (top', below')) :
    GrownBelow left span rows top below top' below' := by
  induction below generalizing rows top top' below'
  case nil =>
    simp only [growBelow, Except.ok.injEq, Prod.mk.injEq] at h
    exact h.left ▸ h.right ▸ .stop (.inr rfl)
  case cons row below hi =>
    cases rows
    case zero =>
      simp only [growBelow_zero, Except.ok.injEq, Prod.mk.injEq] at h
      exact h.left ▸ h.right ▸ .stop (.inl rfl)
    case succ rows =>
      obtain ⟨before, own, vanished, stays, width, rest, hg, hb, rfl⟩ := growBelow_cons_eq_ok h
      exact .row hg (hi hb)

theorem getElem?_of_grown {n : Nat} (h : Grown left span (g.getD n []) before own vanished stays) :
    g[n]? = some (g.getD n []) := by
  cases hn : g[n]?
  case none   => simpa [List.getD, hn] using h.row_eq
  case some r => simp [List.getD, hn]

-- The first row of the rectangle. Its cell grows over the rows below as well.
theorem merge_eq_ok (h : g.merge p q = .ok (g', pos)) :
    ∃ a b row before own vanished stays width top below,
      g.area p = .ok a ∧ g.area q = .ok b ∧ checkCorners a b = .ok () ∧
      g[min a.top b.top]? = some row ∧
      Grown (min a.left b.left) (max a.right b.right - min a.left b.left) row before own vanished stays ∧
      GrownBelow (min a.left b.left) (max a.right b.right - min a.left b.left)
        (max a.bottom b.bottom - min a.top b.top - 1)
        { gathered vanished { own with width, span := own.span + extent vanished } with
          stacking := if max a.bottom b.bottom - min a.top b.top = 1 then none else some .start }
        (g.drop (min a.top b.top + 1)) top below ∧
      g' = g.take (min a.top b.top) ++ (before ++ top :: stays) :: below ∧
      pos = ⟨min a.top b.top, before.length⟩ := by
  simp only [merge, bind_eq_ok] at h
  obtain ⟨a, ha, b, hb, ⟨⟩, hc, h⟩ := h
  split at h
  case h_1 => cases h
  case h_2 place hp =>
    simp only [bind_eq_ok, pure_eq_ok, Prod.mk.injEq] at h
    obtain ⟨⟨grown, vanished, stays⟩, hgrow, ⟨top, below⟩, hbelow, rfl, rfl⟩ := h
    obtain ⟨before, own, width, hg, rfl, ht, -, rfl⟩ := grown_of_absorb hp hgrow
    exact ⟨a, b, _, before, own, vanished, stays, width, top, below, ha, hb, hc, getElem?_of_grown hg, hg,
      grownBelow_of_growBelow hbelow, by rw [ht], rfl⟩

end DefectLog.Word.Grid
