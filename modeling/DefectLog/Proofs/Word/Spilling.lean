import DefectLog.Proofs.Word.Settled

-- Why no cell may spill. A step writes to one more cell at most, so all cells of the tree are told apart
-- in the end only if no step hits a cell that has been written to.
namespace DefectLog.Word

open Success Row

variable {book : StyleBook} {rows columns i r k : Nat} {done ss rest : List (Step DefectLog.Block)}
  {s : Step DefectLog.Block} {x : Patch} {g g' g'' : Grid} {c : Cell Block}

theorem dressed_of_advance (h : Advance book columns s g g') : g'.dressed ≤ g.dressed + 1 := by
  have ⟨l⟩ := landing_of_advance h
  have hloss := l.landed.loss
  omega

theorem dressed_of_advances (h : Advances book columns ss g g') : g'.dressed ≤ g.dressed + ss.length := by
  induction h
  case nil => exact Nat.le_refl _
  case cons h _ hi =>
    have hs := dressed_of_advance h
    rw [List.length_cons]
    omega

-- A run that writes to a new cell at each of its steps.
structure Tight (book : StyleBook) (columns : Nat) (ss : List (Step DefectLog.Block)) (g g' : Grid) : Prop where
  advances : Advances book columns ss g g'
  dressed  : g.dressed + ss.length ≤ g'.dressed

theorem Tight.uncons (h : Tight book columns (s :: ss) g g'') :
    ∃ g', Advance book columns s g g' ∧ g.dressed + 1 ≤ g'.dressed ∧ Tight book columns ss g' g'' := by
  have ⟨ha, hd⟩ := h
  cases ha
  case cons g' hs hss =>
    have hle := dressed_of_advance hs
    have hle' := dressed_of_advances hss
    rw [List.length_cons] at hd
    exact ⟨g', hs, by omega, hss, by omega⟩

theorem Landed.free_of_dressed {source : DefectLog.Cell DefectLog.Block} {top bottom left right : Nat}
    {before vanished stays : List (Cell Block)} {own d : Cell Block}
    (h : Landed book source top bottom left right g g' before own vanished stays d)
    (hd : g.dressed + 1 ≤ g'.dressed) : ∀ c ∈ own :: vanished, c.finishes = [] := by
  have hloss := h.loss
  exact dressed_eq_zero.mp (by omega)

namespace Landing

theorem left_le_right (l : Landing book columns s g g') :
    min l.ka l.kb ≤ max (l.ka + l.a.span) (l.kb + l.b.span) := by
  omega

-- A step to a new cell has nothing at the corner in the first row of its rectangle.
theorem free_first (l : Landing book columns s g g') (hd : g.dressed + 1 ≤ g'.dressed)
    (hrow : l.p.row ≤ l.q.row) : l.a.finishes = [] := by
  have hland := l.landed
  have hleft := l.first.left
  have hright := l.first.right
  rw [Nat.min_eq_left hrow] at hland
  exact hland.free_of_dressed hd _ (hland.mem_of_starts l.first.located.starts (by omega) (by omega) (by omega))

theorem free_last (l : Landing book columns s g g') (hd : g.dressed + 1 ≤ g'.dressed)
    (hrow : l.q.row ≤ l.p.row) : l.b.finishes = [] := by
  have hland := l.landed
  have hleft := l.last.left
  have hright := l.last.right
  rw [Nat.min_eq_right hrow] at hland
  exact hland.free_of_dressed hd _ (hland.mem_of_starts l.last.located.starts (by omega) (by omega) (by omega))

end Landing

-- From below, the rows up to a row are only reached through cells that have been written to.
def Sealed (i : Nat) (g : Grid) : Prop :=
  ∀ k c p, g.Covers (i + 1) k c → c.stacking = some .continued → g.covering? k i = some p →
    ∃ column d, g.Locates p column d ∧ d.finishes ≠ []

theorem Grid.covering?_congr (h : ∀ q ≤ r, g'[q]? = g[q]?) : g'.covering? k r = g.covering? k r := by
  induction r
  case zero => simp only [covering?, inRow?, h 0 (Nat.le_refl 0)]
  case succ r hi =>
    have hr : g'.inRow? (r + 1) k = g.inRow? (r + 1) k := by simp only [inRow?, h (r + 1) (Nat.le_refl _)]
    simp only [covering?, hr, hi fun q hq => h q (Nat.le_succ_of_le hq)]

namespace Sealed

variable {p : Position} {corner : Nat × Nat} {column : Nat}

theorem dressed_of_covering? (h : Sealed i g) (hp : g.covering? k r = some p) (hr : i < r) (hi : p.row ≤ i) :
    ∃ column c, g.Locates p column c ∧ c.finishes ≠ [] := by
  induction r
  case zero => cases hr
  case succ r ih =>
    have ⟨c, hc⟩ := Grid.covers_of_covering? hp
    by_cases hs : c.stacking = some .continued
    case neg =>
      have ⟨hrow, _⟩ := Grid.locates_of_covers hc hs hp
      omega
    case pos =>
      rw [Grid.covering?_of_continued hc hs] at hp
      rcases Nat.eq_or_lt_of_le (Nat.le_of_lt_succ hr) with rfl | hlt
      · exact h k c p hc hs hp
      · exact ih hp hlt

theorem dressed_of_corner (h : Sealed i g) (hc : Corner g corner p column c) (hr : i < corner.1)
    (hi : p.row ≤ i) : c.finishes ≠ [] := by
  have ⟨_, _, hl, hf⟩ := h.dressed_of_covering? hc.found hr hi
  rwa [(hc.located.unique hl).right]

theorem of_landed {source : DefectLog.Cell DefectLog.Block} {top bottom left right : Nat}
    {before vanished stays : List (Cell Block)} {own d : Cell Block} (h : Sealed i g)
    (hland : Landed book source top bottom left right g g' before own vanished stays d) (hlr : left ≤ right)
    (ht : i < top) : Sealed i g' := by
  have habove (r : Nat) (hr : r ≤ i) : g'[r]? = g[r]? := hland.above r (by omega)
  intro k c p ⟨column, hs, hlk, hkr⟩ hc hp
  rw [Grid.covering?_congr habove] at hp
  rcases hland.starts_of_new hlr hs with ⟨rfl, -, rfl⟩ | ⟨e, he, rfl | ⟨hlt, -⟩⟩
  · have hzero := (hland.stacking hc).right
    omega
  · have ⟨column, e, ⟨before, rest, hr, hl⟩, hf⟩ := h k _ p ⟨column, he, hlk, hkr⟩ hc hp
    have ⟨_, _, _, _, _, hpi, _⟩ := Grid.covering?_eq_some hp
    exact ⟨column, e, ⟨before, rest, (habove _ hpi).trans hr, hl⟩, hf⟩
  · omega

-- What comes after leaves these rows as they are.
theorem getElem?_eq (h : Sealed i g) (ht : Tight book columns ss g g')
    (hss : ∀ t ∈ ss, i < (t.patch g.length columns).first.1 ∧ i < (t.patch g.length columns).last.1)
    (hr : r ≤ i) : g'[r]? = g[r]? := by
  induction ss generalizing g
  case nil =>
    have ⟨ha, _⟩ := ht
    cases ha
    rfl
  case cons s ss ih =>
    have ⟨g₁, ha, hd, ht⟩ := ht.uncons
    have ⟨l⟩ := landing_of_advance ha
    have ⟨hs, hss⟩ := List.forall_mem_cons.mp hss
    have htop : i < min l.p.row l.q.row := by
      by_contra hle
      cases Nat.le_total l.p.row l.q.row
      case inl hpq => exact h.dressed_of_corner l.first hs.left (by omega) (l.free_first hd hpq)
      case inr hpq => exact h.dressed_of_corner l.last hs.right (by omega) (l.free_last hd hpq)
    rw [ih (h.of_landed l.landed l.left_le_right htop) ht (by rwa [l.landed.length]),
      l.landed.above r (by omega)]

end Sealed

theorem Settled.sealed (h : Settled book rows columns done g) (i : Nat) : Sealed i g := by
  intro k c p hc hs hp
  by_cases hb : Busy rows columns done (i + 1) k
  case neg =>
    obtain ⟨width, rfl⟩ := h.fresh _ _ _ hc hb
    cases hs
  case pos =>
    have ⟨d, hd, hh⟩ := h.held _ _ hb
    obtain rfl := hc.unique hd
    cases hh
    case inl hh => exact absurd hs hh.right
    case inr hh =>
      have ⟨_, q, hq, hb⟩ := hh
      exact h.dressed_of_busy (Nat.succ.inj hq ▸ hb) hp

section Landing

variable {source : DefectLog.Cell DefectLog.Block} {top bottom left right column : Nat} {corner : Nat × Nat}
  {p : Position} {before vanished stays : List (Cell Block)} {own d : Cell Block} {f : List Finish}

theorem Settled.row_of_corner (h : Settled book rows columns done g) (hr : ∀ y ∈ done, y.row ≤ s.row)
    (hc : Corner g corner p column c) (hb : Busy rows columns done corner.1 corner.2) : p.row ≤ s.row := by
  obtain ⟨y, hy, hyr, -⟩ := h.owned _ _ _ hc.located.starts (h.dressed_of_corner hc hb)
  exact hyr ▸ hr y hy

-- What the cells of a row have been given comes from the cells of the tree that were written to the row.
theorem Landed.finishes_of_new (h : Landed book source top bottom left right g g' before own vanished stays d)
    (hlr : left ≤ right) (hd : g.dressed + 1 ≤ g'.dressed) (hn : g'.Starts r k c) :
    r = top ∧ c.finishes = Finish.own source ∨ ∃ e, g.Starts r k e ∧ c.finishes = e.finishes := by
  rcases h.starts_of_new hlr hn with ⟨rfl, -, rfl⟩ | ⟨e, he, rfl | ⟨-, -, -, hc⟩⟩
  · have ho := h.free_of_dressed hd own List.mem_cons_self
    exact .inl ⟨rfl, by rw [h.finishes, ho, List.nil_append]⟩
  · exact .inr ⟨_, he, rfl⟩
  · exact .inr ⟨e, he, hc.finishes⟩

theorem Tight.finishes_ne (h : Tight book columns ss g g') (hss : ∀ t ∈ ss, Finish.own t.cell ≠ f)
    (hg : ∀ k c, g.Starts r k c → c.finishes ≠ f) : ∀ k c, g'.Starts r k c → c.finishes ≠ f := by
  induction ss generalizing g
  case nil =>
    have ⟨ha, _⟩ := h
    cases ha
    exact hg
  case cons s ss hi =>
    have ⟨g₁, ha, hd, ht⟩ := h.uncons
    have ⟨l⟩ := landing_of_advance ha
    have ⟨hs, hss⟩ := List.forall_mem_cons.mp hss
    refine hi ht hss fun k c hc => ?_
    cases l.landed.finishes_of_new l.left_le_right hd hc
    case inl hn => exact hn.right ▸ hs
    case inr ho =>
      have ⟨e, he, hf⟩ := ho
      exact hf ▸ hg k e he

end Landing

-- A row of which a cell has spilled stays without one.
theorem not_confinedRow_of_spill (h : Settled book rows columns done g)
    (ht : Tight book columns (s :: rest) g g'') (hs : s.row < (s.patch rows columns).first.1)
    (hrows : s.row < rows) (hc : 0 ≤ s.column) (hrest : ∀ t ∈ rest, 0 ≤ t.column ∧ s.Before t) :
    ∃ cells, g''[s.row]? = some cells ∧ ¬ConfinedRow book (written (done ++ s :: rest) s.row) cells := by
  have hlater : ∀ t ∈ s :: rest,
      s.row < (t.patch g.length columns).first.1 ∧ s.row < (t.patch g.length columns).last.1 := by
    intro t hm
    have htc : 0 ≤ t.column ∧ s.row < (t.patch rows columns).first.1 := by
      rcases List.mem_cons.mp hm with rfl | hm
      · exact ⟨hc, hs⟩
      · have ⟨htc, hb⟩ := hrest t hm
        exact ⟨htc, Step.lt_first_of_before hc htc hb hs⟩
    have hn : 0 ≤ t.number columns := Int.add_nonneg (Int.natCast_nonneg _) htc.left
    rw [h.length]
    exact ⟨htc.right, Nat.lt_of_lt_of_le htc.right (Step.first_le_last rows hn)⟩
  have hr := List.getElem?_eq_getElem (h.length ▸ hrows : s.row < g.length)
  refine ⟨_, ((h.sealed s.row).getElem?_eq ht hlater (Nat.le_refl _)).trans hr, fun hf => ?_⟩
  have hlen := (dressed_of_confinedRow (h.row _ _ hr)).symm.trans (dressed_of_confinedRow hf)
  simp [written] at hlen

theorem length_of_advances (h : Advances book columns ss g g') : g'.length = g.length := by
  induction h
  case nil => rfl
  case cons h _ hi =>
    have ⟨l⟩ := landing_of_advance h
    exact hi.trans l.landed.length

theorem finishes_of_confinedRow {sources : List (DefectLog.Cell DefectLog.Block)} {cells : List (Cell Block)}
    {f : List Finish} (h : ConfinedRow book sources cells) (hf : f ≠ []) :
    (∃ c ∈ cells, c.finishes = f) ↔ ∃ source ∈ sources, Finish.own source = f := by
  obtain ⟨held, hheld, hp, -⟩ := h
  have he : held.map (·.finishes) = sources.map Finish.own := by
    clear hp
    induction hheld
    case nil           => rfl
    case cons hk _ hi  => rw [List.map_cons, List.map_cons, hk.finishes, hi]
  have hm : (∃ source ∈ sources, Finish.own source = f) ↔ ∃ c ∈ held, c.finishes = f := by
    rw [← List.mem_map, ← he, List.mem_map]
  rw [hm]
  constructor
  case mp =>
    rintro ⟨c, hc, rfl⟩
    exact ⟨c, hp.mem_iff.mp (List.mem_filter.mpr ⟨hc, by simpa using hf⟩), rfl⟩
  case mpr =>
    rintro ⟨c, hc, rfl⟩
    exact ⟨c, (List.mem_filter.mp (hp.mem_iff.mpr hc)).left, rfl⟩

-- A cell that can be told from all others is missed in its row if it has been written to another one.
theorem not_confinedRow_of_stray {top bottom left right : Nat} {before vanished stays : List (Cell Block)}
    {own d : Cell Block} (h : Settled book rows columns done g) (ht : Tight book columns rest g' g'')
    (hland : Landed book s.cell top bottom left right g g' before own vanished stays d) (hlr : left ≤ right)
    (hd : g.dressed + 1 ≤ g'.dressed) (htop : top ≠ s.row) (hrows : s.row < rows)
    (hdone : ∀ y ∈ done, Finish.own y.cell ≠ Finish.own s.cell)
    (hrest : ∀ y ∈ rest, Finish.own y.cell ≠ Finish.own s.cell) :
    ∃ cells, g''[s.row]? = some cells ∧ ¬ConfinedRow book (written (done ++ s :: rest) s.row) cells := by
  have hne := Finish.own_ne_nil s.cell
  have hg : ∀ k c, g.Starts s.row k c → c.finishes ≠ Finish.own s.cell := by
    intro k c ⟨cells, hr, hs⟩ hf
    obtain ⟨source, hm, he⟩ := (finishes_of_confinedRow (h.row _ _ hr) hne).mp ⟨c, hs.mem, hf⟩
    obtain ⟨y, hy, rfl⟩ := List.mem_map.mp hm
    exact hdone y (List.mem_filter.mp hy).left he
  have hg' : ∀ k c, g'.Starts s.row k c → c.finishes ≠ Finish.own s.cell := by
    intro k c hc
    cases hland.finishes_of_new hlr hd hc
    case inl hn => exact absurd hn.left.symm htop
    case inr ho =>
      have ⟨e, he, hf⟩ := ho
      exact hf ▸ hg k e he
  have hlen : s.row < g''.length := by
    rw [length_of_advances ht.advances, hland.length, h.length]
    exact hrows
  refine ⟨_, List.getElem?_eq_getElem hlen, fun hf => ?_⟩
  obtain ⟨c, hc, hcf⟩ := (finishes_of_confinedRow hf hne).mpr ⟨s.cell, by simp [written], rfl⟩
  obtain ⟨k, hk⟩ := Stands.of_mem hc
  exact ht.finishes_ne hrest hg' k c ⟨_, List.getElem?_eq_getElem hlen, hk⟩ hcf

-- Cells of the tree that do not step back, or that can be told from each other, are not mistaken.
def Faithful (ss : List (Step DefectLog.Block)) : Prop :=
  (∀ s ∈ ss, 0 ≤ s.column) ∧ ss.Pairwise Step.Before ∨
  ss.Pairwise fun s s' => Finish.own s.cell ≠ Finish.own s'.cell

namespace Landing

theorem row_eq (l : Landing book columns s g g') (h : Settled book rows columns done g)
    (ha : Advance book columns s g g') (hx : s.patch rows columns = x) (hd : g.dressed + 1 ≤ g'.dressed)
    (ht : Tight book columns rest g' g'') (hf : Faithful (done ++ s :: rest)) (hrows : s.row < rows)
    (hfinal : ∀ r cells, g''[r]? = some cells → ConfinedRow book (written (done ++ s :: rest) r) cells) :
    min l.p.row l.q.row = s.row := by
  by_contra hne
  have hp := l.first
  have hq := l.last
  rw [h.length, hx] at hp hq
  cases hf
  case inl hf =>
    have ⟨hcol, hb⟩ := hf
    have ⟨hc, hrest⟩ := List.forall_mem_cons.mp (List.forall_mem_append.mp hcol).right
    have ⟨hb, _⟩ := List.pairwise_cons.mp (List.pairwise_append.mp hb).right.left
    have hn : ((s.row * columns : Nat) : Int) ≤ s.number columns := Int.le_add_of_nonneg_right hc
    have hfirst : s.row ≤ x.first.1 := hx ▸ Step.le_first rows (columns_pos_of_advance ha) hn
    have hlast : x.first.1 ≤ x.last.1 :=
      hx ▸ Step.first_le_last rows (Int.le_trans (Int.natCast_nonneg _) hn)
    -- The corner in the first row of the rectangle is free, so that the cell has not gone up from there.
    have hle : s.row ≤ min l.p.row l.q.row := by
      cases Nat.le_total l.p.row l.q.row
      case inl hpq =>
        have ⟨hrow, _⟩ := h.blank_of_corner hp fun hb => h.dressed_of_corner hp hb (l.free_first hd hpq)
        omega
      case inr hpq =>
        have ⟨hrow, _⟩ := h.blank_of_corner hq fun hb => h.dressed_of_corner hq hb (l.free_last hd hpq)
        omega
    have habove := hp.above
    have htight : Tight book columns (s :: rest) g g'' :=
      ⟨.cons ha ht.advances, by have hle := ht.dressed; rw [List.length_cons]; omega⟩
    have ⟨cells, hr, hn⟩ := not_confinedRow_of_spill h htight (by rw [hx]; omega) hrows hc
      fun t ht => ⟨hrest t ht, hb t ht⟩
    exact hn (hfinal _ _ hr)
  case inr hf =>
    have hpair := List.pairwise_append.mp hf
    have ⟨hrest, _⟩ := List.pairwise_cons.mp hpair.right.left
    have ⟨cells, hr, hn⟩ := not_confinedRow_of_stray h ht l.landed l.left_le_right hd hne hrows
      (fun y hy => hpair.right.right y hy s List.mem_cons_self) fun y hy => (hrest y hy).symm
    exact hn (hfinal _ _ hr)

-- A step that stays in its row and writes to a new cell keeps out of the way of all cells before it.
theorem apart (l : Landing book columns s g g') (h : Settled book rows columns done g)
    (hr : ∀ y ∈ done, y.row ≤ s.row) (hx : s.patch rows columns = x) (hd : g.dressed + 1 ≤ g'.dressed)
    (hrow : min l.p.row l.q.row = s.row) : x.top = s.row ∧ ∀ y ∈ done, (y.patch rows columns).Apart x := by
  have hp := l.first
  have hq := l.last
  have hland := l.landed
  rw [h.length, hx] at hp hq
  have hfirst : ¬Busy rows columns done x.first.1 x.first.2 := by
    intro hb
    have hle := h.row_of_corner hr hp hb
    exact h.dressed_of_corner hp hb (l.free_first hd (by omega))
  have hlast : ¬Busy rows columns done x.last.1 x.last.2 := by
    intro hb
    have hle := h.row_of_corner hr hq hb
    exact h.dressed_of_corner hq hb (l.free_last hd (by omega))
  have ⟨hprow, hka, w, hpw⟩ := h.blank_of_corner hp hfirst
  have ⟨hqrow, hkb, w', hqw⟩ := h.blank_of_corner hq hlast
  have hspan (w : Int) : (Cell.blank w).span = 1 := rfl
  rw [hka, hkb, hpw, hqw, hspan, hspan, Nat.add_max_add_right, hrow] at hland
  rw [hprow, hqrow] at hrow
  refine ⟨hrow, fun y hy => ⟨fun hyr => ?_, fun _ => ⟨fun hc => hfirst ⟨y, hy, hc⟩, fun hc => hlast ⟨y, hy, hc⟩⟩⟩⟩
  by_contra hside
  have hylr := (y.patch rows columns).left_le_right
  have ⟨c, hc, hf, hreach⟩ := h.starts y hy
  have hyr : y.row = s.row := Eq.trans hyr (hx ▸ rfl)
  rw [hyr] at hc
  simp only [Patch.left, Patch.right] at hside hylr hc hreach
  rcases hland.starts_own.apart hc with ⟨heq, he⟩ | hbefore | hafter
  · exact hf (he ▸ hland.free_of_dressed hd _ List.mem_cons_self)
  · exact hf (hland.free_of_dressed hd _ (hland.mem_of_starts hc (by omega) (by omega) (by omega)))
  · omega

end Landing

theorem apart_of_tight (h : Settled book rows columns done g) (ht : Tight book columns ss g g'')
    (hr : (done ++ ss).Pairwise (·.row ≤ ·.row)) (hf : Faithful (done ++ ss)) (hrows : ∀ s ∈ ss, s.row < rows)
    (hfinal : ∀ r cells, g''[r]? = some cells → ConfinedRow book (written (done ++ ss) r) cells)
    (htop : ∀ y ∈ done, (y.patch rows columns).top = y.row)
    (hp : done.Pairwise fun y x => (y.patch rows columns).Apart (x.patch rows columns)) :
    (∀ x ∈ done ++ ss, (x.patch rows columns).top = x.row) ∧
    (done ++ ss).Pairwise fun y x => (y.patch rows columns).Apart (x.patch rows columns) := by
  induction ss generalizing done g
  case nil =>
    rw [List.append_nil]
    exact ⟨htop, hp⟩
  case cons s ss hi =>
    have ⟨g', ha, hd, ht⟩ := ht.uncons
    have ⟨l⟩ := landing_of_advance ha
    have ⟨hs, hrest⟩ := List.forall_mem_cons.mp hrows
    have hle : ∀ y ∈ done, y.row ≤ s.row :=
      fun y hy => (List.pairwise_append.mp hr).right.right y hy s List.mem_cons_self
    have hrow := l.row_eq h ha rfl hd ht hf hs hfinal
    have ⟨hstop, hapart⟩ := l.apart h hle rfl hd hrow
    rw [List.append_cons] at hr hf hfinal ⊢
    refine hi (h.advance ha rfl hstop hle hapart) ht hr hf hrest hfinal ?top ?apart
    case top   => exact List.forall_mem_append.mpr ⟨htop, by simpa using hstop⟩
    case apart => exact List.pairwise_append.mpr ⟨hp, List.pairwise_singleton _ _, by simpa using hapart⟩

end DefectLog.Word
