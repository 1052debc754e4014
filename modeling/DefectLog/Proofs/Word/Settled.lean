import DefectLog.Proofs.Word.Landing

-- The grid while the cells of a table are written, as long as they keep out of each other's way.
namespace DefectLog.Word

open Success Row

-- The cells of a row that something was written to are those of one row of the tree, one for each, and
-- nothing is in the others.
def ConfinedRow (book : StyleBook) (sources : List (DefectLog.Cell DefectLog.Block))
    (cells : List (Cell Block)) : Prop :=
  ∃ held, List.Forall₂ (Keeps book) sources held ∧ (cells.filter (·.finishes ≠ [])).Perm held ∧
    ∀ c ∈ cells, c.finishes = [] → c.content = [.empty]

def Confined (book : StyleBook) (t : DefectLog.Table DefectLog.Block) (out : Table Block) : Prop :=
  List.Forall₂ (ConfinedRow book) t.rows out.grid

-- The cells of one row of the tree that have been written.
def written (done : List (Step DefectLog.Block)) (row : Nat) : List (DefectLog.Cell DefectLog.Block) :=
  (done.filter (·.row = row)).map (·.cell)

def Busy (rows columns : Nat) (done : List (Step DefectLog.Block)) (r k : Nat) : Prop :=
  ∃ y ∈ done, (y.patch rows columns).Covers r k

-- A cell that covers a place of a rectangle is the one that was written to, or it is continued from above.
def Held (rows columns : Nat) (done : List (Step DefectLog.Block)) (r k : Nat) (c : Cell Block) : Prop :=
  c.finishes ≠ [] ∧ c.stacking ≠ some .continued ∨
  c.stacking = some .continued ∧ ∃ q, r = q + 1 ∧ Busy rows columns done q k

structure Settled (book : StyleBook) (rows columns : Nat) (done : List (Step DefectLog.Block)) (g : Grid) :
    Prop where
  length : g.length = rows
  spans  : ∀ r k c, g.Starts r k c → 0 < c.span
  fresh  : ∀ r k c, g.Covers r k c → ¬Busy rows columns done r k → ∃ width, c = .blank width
  held   : ∀ r k, Busy rows columns done r k → ∃ c, g.Covers r k c ∧ Held rows columns done r k c
  row    : ∀ (r : Nat) cells, g[r]? = some cells → ConfinedRow book (written done r) cells
  owned  : ∀ r k c, g.Starts r k c → c.finishes ≠ [] → ∃ y ∈ done, y.row = r ∧ (y.patch rows columns).left = k
  starts : ∀ y ∈ done, ∃ c, g.Starts y.row (y.patch rows columns).left c ∧ c.finishes ≠ [] ∧
    (y.patch rows columns).right < (y.patch rows columns).left + c.span

variable {book : StyleBook} {rows columns r k : Nat} {done : List (Step DefectLog.Block)}
  {s : Step DefectLog.Block} {x : Patch} {g g' : Grid} {cells : List (Cell Block)} {c d : Cell Block}

theorem confinedRow_nil_iff :
    ConfinedRow book [] cells ↔ ∀ c ∈ cells, c.finishes = [] ∧ c.content = [.empty] := by
  constructor
  case mp =>
    rintro ⟨held, ⟨⟩, hp, he⟩ c hc
    have hf : c.finishes = [] := by simpa using List.filter_eq_nil_iff.mp hp.eq_nil c hc
    exact ⟨hf, he c hc hf⟩
  case mpr =>
    intro h
    refine ⟨[], .nil, ?_, fun c hc _ => (h c hc).right⟩
    rw [List.filter_eq_nil_iff.mpr fun c hc => by simp [(h c hc).left]]

theorem dressed_of_confinedRow {sources : List (DefectLog.Cell DefectLog.Block)}
    (h : ConfinedRow book sources cells) : dressed cells = sources.length := by
  obtain ⟨held, hheld, hp, -⟩ := h
  rw [dressed, List.countP_eq_length_filter, hp.length_eq, hheld.length_eq]

-- No rectangle reaches into a row from a cell of the tree that has not been written yet.
theorem written_eq_nil (h : ∀ y ∈ done, y.row < r) : written done r = [] := by
  rw [written, List.filter_eq_nil_iff.mpr fun y hy => by simpa using Nat.ne_of_lt (h y hy), List.map_nil]

theorem written_concat_of_ne (h : s.row ≠ r) : written (done ++ [s]) r = written done r := by
  simp [written, h]

theorem written_concat : written (done ++ [s]) s.row = written done s.row ++ [s.cell] := by
  simp [written]

theorem Grid.Starts.lt_length (h : g.Starts r k c) : r < g.length :=
  have ⟨_, hr, _⟩ := h
  (List.getElem?_eq_some_iff.mp hr).1

theorem Grid.Starts.apart {l : Nat} (h₁ : g.Starts r k c) (h₂ : g.Starts r l d) :
    k = l ∧ c = d ∨ k + c.span ≤ l ∨ l + d.span ≤ k := by
  have ⟨_, hr, h₁⟩ := h₁
  have ⟨_, hr', h₂⟩ := h₂
  obtain rfl := Option.some.inj (hr.symm.trans hr')
  exact h₁.apart h₂

theorem Grid.Covers.unique (h₁ : g.Covers r k c) (h₂ : g.Covers r k d) : c = d := by
  have ⟨l, h₁, hl, hk⟩ := h₁
  have ⟨m, h₂, hm, hk'⟩ := h₂
  rcases h₁.apart h₂ with ⟨-, h⟩ | h | h
  · exact h
  · omega
  · omega

theorem Grid.covers_of_covering? {p : Position} (h : g.covering? k r = some p) : ∃ c, g.Covers r k c := by
  cases r
  case zero =>
    obtain ⟨⟨p, c⟩, hc, rfl⟩ := Option.map_eq_some_iff.mp h
    exact ⟨c, (covers_of_inRow? hc).right.left⟩
  case succ r =>
    simp only [covering?] at h
    split at h
    case h_1        => cases h
    case h_2 q c hc => exact ⟨c, (covers_of_inRow? hc).right.left⟩

theorem Grid.Locates.unique {p : Position} {l : Nat} (h₁ : g.Locates p k c) (h₂ : g.Locates p l d) :
    k = l ∧ c = d := by
  obtain ⟨before, rest, hr, hl, rfl⟩ := h₁
  obtain ⟨before', rest', hr', hl', rfl⟩ := h₂
  have ⟨hb, hc⟩ := List.append_inj (Option.some.inj (hr.symm.trans hr')) (hl.trans hl'.symm)
  exact ⟨by rw [hb], (List.cons.inj hc).left⟩

theorem busy_concat (hx : s.patch rows columns = x) :
    Busy rows columns (done ++ [s]) r k ↔ Busy rows columns done r k ∨ x.Covers r k := by
  simp [Busy, or_and_right, exists_or, hx]

namespace Settled

variable {corner : Nat × Nat} {p : Position} {column : Nat}

-- A place that is taken leads to the cell that was written to there.
theorem dressed_of_busy (h : Settled book rows columns done g) (hb : Busy rows columns done r k)
    (hp : g.covering? k r = some p) : ∃ column c, g.Locates p column c ∧ c.finishes ≠ [] := by
  induction r
  case zero =>
    have ⟨c, hc, hh⟩ := h.held _ _ hb
    cases hh
    case inl hd =>
      have ⟨_, column, hl, _⟩ := Grid.locates_of_covers hc hd.right hp
      exact ⟨column, c, hl, hd.left⟩
    case inr hd =>
      obtain ⟨-, q, ⟨⟩, -⟩ := hd
  case succ r hi =>
    have ⟨c, hc, hh⟩ := h.held _ _ hb
    cases hh
    case inl hd =>
      have ⟨_, column, hl, _⟩ := Grid.locates_of_covers hc hd.right hp
      exact ⟨column, c, hl, hd.left⟩
    case inr hd =>
      have ⟨hs, q, hq, hb⟩ := hd
      obtain rfl := Nat.succ.inj hq
      rw [Grid.covering?_of_continued hc hs] at hp
      exact hi hb hp

theorem dressed_of_corner (h : Settled book rows columns done g) (hc : Corner g corner p column c)
    (hb : Busy rows columns done corner.1 corner.2) : c.finishes ≠ [] := by
  have ⟨_, d, hl, hf⟩ := h.dressed_of_busy hb hc.found
  rwa [(hc.located.unique hl).right]

-- A place that is not taken has a cell of its own.
theorem blank_of_corner (h : Settled book rows columns done g) (hc : Corner g corner p column c)
    (hb : ¬Busy rows columns done corner.1 corner.2) :
    p.row = corner.1 ∧ column = corner.2 ∧ ∃ width, c = .blank width := by
  have ⟨e, he⟩ := Grid.covers_of_covering? hc.found
  obtain ⟨width, rfl⟩ := h.fresh _ _ _ he hb
  have ⟨hr, l, hl, hle, hlt⟩ := Grid.locates_of_covers he (by simp [Cell.blank]) hc.found
  obtain ⟨rfl, rfl⟩ := hc.located.unique hl
  have hs : (Cell.blank width).span = 1 := rfl
  exact ⟨hr, by omega, width, rfl⟩

-- If the corners are not taken, the step writes to the rectangle that the cell asks for.
theorem landed_of_fresh (h : Settled book rows columns done g) (ha : Advance book columns s g g')
    (hx : s.patch rows columns = x) (hf : ¬Busy rows columns done x.first.1 x.first.2)
    (hl : ¬Busy rows columns done x.last.1 x.last.2) :
    ∃ before own vanished stays d,
      Landed book s.cell x.top (x.bottom + 1) x.left (x.right + 1) g g' before own vanished stays d ∧
      d.span = x.right + 1 - x.left ∧ x.bottom < rows := by
  obtain ⟨l⟩ := landing_of_advance ha
  have hp := l.first
  have hq := l.last
  have hland := l.landed
  rw [h.length, hx] at hp hq
  obtain ⟨hpr, hka, w, hpw⟩ := h.blank_of_corner hp hf
  obtain ⟨hqr, hkb, w', hqw⟩ := h.blank_of_corner hq hl
  have hw : ∀ w : Int, (Cell.blank w).span = 1 := fun _ => rfl
  rw [l.plain (hpw ▸ rfl) (hqw ▸ rfl), hpr, hqr, hka, hkb, hpw, hqw, hw, hw, Nat.add_max_add_right] at hland
  have hpst := hp.located.starts
  have hqst := hq.located.starts
  rw [hpr, hka, hpw] at hpst
  rw [hqr, hkb, hqw] at hqst
  -- The first row of the rectangle has a corner, whose cell covers one column.
  have hcorner : ∃ kc w, g.Starts x.top kc (Cell.blank w) ∧ x.left ≤ kc ∧ kc ≤ x.right := by
    cases Nat.le_total x.first.1 x.last.1
    case inl hle =>
      rw [Patch.top, Nat.min_eq_left hle]
      exact ⟨_, w, hpst, Nat.min_le_left _ _, Nat.le_max_left _ _⟩
    case inr hle =>
      rw [Patch.top, Nat.min_eq_right hle]
      exact ⟨_, w', hqst, Nat.min_le_right _ _, Nat.le_max_right _ _⟩
  have hown : l.own.span ≤ x.right + 1 - x.left := by
    obtain ⟨kc, w, hkc, hle, hge⟩ := hcorner
    have hw := hw w
    rcases hland.starts_own.apart hkc with ⟨-, he⟩ | h | h
    · rw [he]
      omega
    · rw [Patch.left] at hle ⊢
      omega
    · rw [Patch.left] at hle
      omega
  refine ⟨_, _, _, _, _, hland, hland.span.trans (hland.grown.extent_eq hown), ?_⟩
  have hlen := h.length
  have hplt := hpst.lt_length
  have hqlt := hqst.lt_length
  exact Nat.max_lt.mpr ⟨by omega, by omega⟩

end Settled

-- A step that writes to a rectangle in the row of its cell, in which there is nothing yet.
structure Joins (book : StyleBook) (rows columns : Nat) (done : List (Step DefectLog.Block))
    (s : Step DefectLog.Block) (x : Patch) (g g' : Grid) (before : List (Cell Block)) (own : Cell Block)
    (vanished stays : List (Cell Block)) (d : Cell Block) : Prop where
  patch  : s.patch rows columns = x
  top    : x.top = s.row
  bottom : x.bottom < rows
  landed : Landed book s.cell s.row (x.bottom + 1) x.left (x.right + 1) g g' before own vanished stays d
  span   : d.span = x.right + 1 - x.left
  free   : ∀ c ∈ own :: vanished, c.finishes = [] ∧ c.content = [.empty]
  later  : ∀ y ∈ done, y.row ≤ s.row

theorem Settled.free_of_landed {before vanished stays : List (Cell Block)} {own : Cell Block}
    (h : Settled book rows columns done g) (hx : x.row = s.row)
    (hland : Landed book s.cell s.row (x.bottom + 1) x.left (x.right + 1) g g' before own vanished stays d)
    (hd : d.span = x.right + 1 - x.left) (hp : ∀ y ∈ done, (y.patch rows columns).Apart x) :
    ∀ c ∈ own :: vanished, c.finishes = [] ∧ c.content = [.empty] := by
  intro c hc
  have ⟨k, hk, hlk, hkr⟩ := hland.starts_of_mem hc
  have hpos := h.spans _ _ _ hk
  have hlr := x.left_le_right
  have hf : c.finishes = [] := by
    by_contra hf
    obtain ⟨y, hy, hyr, rfl⟩ := h.owned _ _ _ hk hf
    have hylr := (y.patch rows columns).left_le_right
    have hside := (hp y hy).left (hyr.trans hx.symm)
    omega
  have ⟨cells, hr, hst⟩ := hk
  obtain ⟨_, -, -, he⟩ := h.row _ _ hr
  exact ⟨hf, he c hst.mem hf⟩

namespace Joins

variable {before vanished stays : List (Cell Block)} {own : Cell Block}

theorem left_le : x.left ≤ x.right + 1 :=
  Nat.le_succ_of_le (Patch.left_le_right _)

theorem spans (hj : Joins book rows columns done s x g g' before own vanished stays d)
    (h : Settled book rows columns done g) (hn : g'.Starts r k c) : 0 < c.span := by
  rcases hj.landed.starts_of_new left_le hn with ⟨-, -, rfl⟩ | ⟨e, he, rfl | ⟨-, -, -, hc⟩⟩
  · have hspan := hj.span
    have hlr := x.left_le_right
    omega
  · exact h.spans _ _ _ he
  · exact Nat.lt_of_lt_of_le (h.spans _ _ _ he) hc.grown

theorem fresh (hj : Joins book rows columns done s x g g' before own vanished stays d)
    (h : Settled book rows columns done g) (hc : g'.Covers r k c)
    (hb : ¬Busy rows columns (done ++ [s]) r k) : ∃ width, c = .blank width := by
  have ⟨column, hn, hlk, hkr⟩ := hc
  have ⟨hdone, hs⟩ := not_or.mp ((busy_concat hj.patch).not.mp hb)
  have hlr := x.left_le_right
  have htb := x.top_le_bottom
  have htop := hj.top
  have hspan := hj.span
  rcases hj.landed.starts_of_new left_le hn with ⟨rfl, rfl, rfl⟩ | ⟨e, he, rfl | ⟨ht, hbot, rfl, hc⟩⟩
  · exact absurd ⟨by omega, by omega, by omega, by omega⟩ hs
  · exact h.fresh _ _ _ ⟨column, he, hlk, hkr⟩ hdone
  · rcases hc.reach with hc | ⟨hright, hc⟩
    · exact absurd ⟨by omega, by omega, by omega, by omega⟩ hs
    · obtain ⟨width, rfl⟩ := h.fresh _ _ _ ⟨_, he, hlk, by omega⟩ hdone
      have hone : (Cell.blank width).span = 1 := rfl
      omega

-- In the first row of the grid no cell is continued.
theorem stacking_ne (hj : Joins book rows columns done s x g g' before own vanished stays d)
    (h : Settled book rows columns done g) : d.stacking ≠ some .continued := by
  intro hd
  have ⟨ho, hrow⟩ := hj.landed.stacking hd
  have hown : g.Covers s.row x.left own :=
    ⟨_, hj.landed.starts_own, Nat.le_refl _, Nat.lt_add_of_pos_right (h.spans _ _ _ hj.landed.starts_own)⟩
  by_cases hb : Busy rows columns done s.row x.left
  case neg =>
    obtain ⟨width, rfl⟩ := h.fresh _ _ _ hown hb
    cases ho
  case pos =>
    have ⟨c, hc, hh⟩ := h.held _ _ hb
    obtain rfl := hc.unique hown
    cases hh
    case inl hh => exact hh.left (hj.free c List.mem_cons_self).left
    case inr hh =>
      have ⟨_, q, hq, _⟩ := hh
      omega

theorem finishes_ne (hj : Joins book rows columns done s x g g' before own vanished stays d) :
    d.finishes ≠ [] := by
  rw [hj.landed.finishes]
  exact List.append_ne_nil_of_right_ne_nil _ (Finish.own_ne_nil _)

theorem held (hj : Joins book rows columns done s x g g' before own vanished stays d)
    (h : Settled book rows columns done g) (hb : Busy rows columns (done ++ [s]) r k) :
    ∃ c, g'.Covers r k c ∧ Held rows columns (done ++ [s]) r k c := by
  have htop := hj.top
  have hspan := hj.span
  by_cases hx : x.Covers r k
  case pos =>
    have ⟨ht, hbot, hl, hr⟩ := hx
    have hlen := h.length
    have hbr := hj.bottom
    rcases Nat.eq_or_lt_of_le (hj.top ▸ ht) with rfl | hlt
    · refine ⟨d, ⟨_, hj.landed.starts_landed, hl, by omega⟩, .inl ⟨hj.finishes_ne, hj.stacking_ne h⟩⟩
    · have ⟨c, hc, hs⟩ := hj.landed.covers_of_continued hlt (Nat.lt_succ_of_le hbot) (by omega) hl
        (Nat.lt_succ_of_le hr)
      obtain ⟨q, rfl⟩ := Nat.exists_eq_add_of_lt hlt
      exact ⟨c, hc, .inr ⟨hs, _, rfl, (busy_concat hj.patch).mpr (.inr ⟨by omega, by omega, hl, hr⟩)⟩⟩
  case neg =>
    have ⟨c, ⟨column, hs, hlk, hkr⟩, hh⟩ := h.held _ _ (((busy_concat hj.patch).mp hb).resolve_right hx)
    rcases hj.landed.starts_of_old left_le hs with
      hn | ⟨rfl, -, hl, hr⟩ | ⟨ht, hbot, hl, old, new, -, hn, hc, hr⟩
    · refine ⟨c, ⟨column, hn, hlk, hkr⟩, hh.imp_right fun ⟨hs, q, hq, hb⟩ => ?_⟩
      exact ⟨hs, q, hq, (busy_concat hj.patch).mpr (.inl hb)⟩
    · have htb := x.top_le_bottom
      exact absurd ⟨by omega, by omega, by omega, by omega⟩ hx
    · refine ⟨new, ⟨_, hn, by omega, by omega⟩, .inr ⟨hc.stacking, ?_⟩⟩
      cases hh
      case inl hh =>
        have ⟨y, hy, hyr, _⟩ := h.owned _ _ _ hs hh.left
        have hlater := hj.later y hy
        omega
      case inr hh =>
        have ⟨_, q, hq, hb⟩ := hh
        exact ⟨q, hq, (busy_concat hj.patch).mpr (.inl hb)⟩

theorem owned (hj : Joins book rows columns done s x g g' before own vanished stays d)
    (h : Settled book rows columns done g) (hn : g'.Starts r k c) (hf : c.finishes ≠ []) :
    ∃ y ∈ done ++ [s], y.row = r ∧ (y.patch rows columns).left = k := by
  have hold {e : Cell Block} (he : g.Starts r k e) (hf : e.finishes ≠ []) :
      ∃ y ∈ done ++ [s], y.row = r ∧ (y.patch rows columns).left = k :=
    have ⟨y, hy, hk⟩ := h.owned _ _ _ he hf
    ⟨y, List.mem_append_left _ hy, hk⟩
  rcases hj.landed.starts_of_new left_le hn with ⟨rfl, rfl, rfl⟩ | ⟨e, he, rfl | ⟨-, -, -, hc⟩⟩
  · exact ⟨s, by simp, rfl, by rw [hj.patch]⟩
  · exact hold he hf
  · exact hold he (hc.finishes ▸ hf)

theorem starts (hj : Joins book rows columns done s x g g' before own vanished stays d)
    (h : Settled book rows columns done g) {y : Step DefectLog.Block} (hy : y ∈ done ++ [s]) :
    ∃ c, g'.Starts y.row (y.patch rows columns).left c ∧ c.finishes ≠ [] ∧
      (y.patch rows columns).right < (y.patch rows columns).left + c.span := by
  cases List.mem_append.mp hy
  case inr hy =>
    obtain rfl := List.mem_singleton.mp hy
    have hspan := hj.span
    rw [hj.patch]
    exact ⟨d, hj.landed.starts_landed, hj.finishes_ne, by omega⟩
  case inl hy =>
    have ⟨c, hc, hf, hr⟩ := h.starts y hy
    rcases hj.landed.starts_of_old left_le hc with hn | ⟨-, hm, -⟩ | ⟨ht, -⟩
    · exact ⟨c, hn, hf, hr⟩
    · exact absurd (hj.free c hm).left hf
    · exact absurd (hj.later y hy) (Nat.not_le_of_lt ht)

-- Nothing has been written to the rows that come after.
theorem empty_below (hj : Joins book rows columns done s x g g' before own vanished stays d)
    (h : Settled book rows columns done g) (hr : s.row < r) (hc : g.Starts r k c) :
    c.finishes = [] ∧ c.content = [.empty] := by
  have ⟨cells, hcells, hs⟩ := hc
  have hrow := h.row _ _ hcells
  rw [written_eq_nil fun y hy => Nat.lt_of_le_of_lt (hj.later y hy) hr] at hrow
  exact confinedRow_nil_iff.mp hrow c hs.mem

theorem keeps (hj : Joins book rows columns done s x g g' before own vanished stays d)
    (h : Settled book rows columns done g) : Keeps book s.cell d := by
  refine hj.landed.kept hj.free fun r row hr _ hrow c hc => ?_
  have ⟨k, hk⟩ := Stands.of_mem hc
  exact (hj.empty_below h hr ⟨row, hrow, hk⟩).right

theorem row (hj : Joins book rows columns done s x g g' before own vanished stays d)
    (h : Settled book rows columns done g) (hr : g'[r]? = some cells) :
    ConfinedRow book (written (done ++ [s]) r) cells := by
  rcases Nat.lt_trichotomy r s.row with hlt | rfl | hgt
  · rw [hj.landed.above r hlt] at hr
    rw [written_concat_of_ne (Nat.ne_of_gt hlt)]
    exact h.row _ _ hr
  · obtain rfl := Option.some.inj (hj.landed.newRow.symm.trans hr)
    have ⟨held, hheld, hp, he⟩ := h.row _ _ hj.landed.row
    rw [written_concat]
    refine ⟨held ++ [d], List.rel_append hheld (.cons (hj.keeps h) .nil), ?perm, fun c hc hf => ?empty⟩
    case perm =>
      have hv : (own :: vanished).filter (·.finishes ≠ []) = [] :=
        List.filter_eq_nil_iff.mpr fun c hc => by simp [(hj.free c hc).left]
      rw [← List.cons_append, List.filter_append, List.filter_append, hv, List.nil_append] at hp
      rw [List.filter_append, List.filter_cons_of_pos (by simpa using hj.finishes_ne)]
      exact List.perm_middle.trans ((hp.cons d).trans (List.perm_append_singleton d held).symm)
    case empty =>
      refine he c ?_ hf
      have hd : c ≠ d := fun hd => hj.finishes_ne (hd ▸ hf)
      simp only [List.mem_append, List.mem_cons, hd, false_or] at hc ⊢
      tauto
  · have hlater : ∀ y ∈ done ++ [s], y.row < r := by
      intro y hy
      cases List.mem_append.mp hy
      case inl hy => exact Nat.lt_of_le_of_lt (hj.later y hy) hgt
      case inr hy => exact List.mem_singleton.mp hy ▸ hgt
    rw [written_eq_nil hlater]
    refine confinedRow_nil_iff.mpr fun c hc => ?_
    have ⟨k, hk⟩ := Stands.of_mem hc
    rcases hj.landed.starts_of_new left_le ⟨cells, hr, hk⟩ with ⟨rfl, -⟩ | ⟨e, he, rfl | ⟨-, -, -, hc⟩⟩
    · exact absurd hgt (Nat.lt_irrefl _)
    · exact hj.empty_below h hgt he
    · have ⟨hf, hb⟩ := hj.empty_below h hgt he
      exact ⟨hc.finishes.trans hf, hc.content hb⟩

theorem settled (hj : Joins book rows columns done s x g g' before own vanished stays d)
    (h : Settled book rows columns done g) : Settled book rows columns (done ++ [s]) g' where
  length := hj.landed.length.trans h.length
  spans  := fun _ _ _ => hj.spans h
  fresh  := fun _ _ _ => hj.fresh h
  held   := fun _ _ => hj.held h
  row    := fun _ _ => hj.row h
  owned  := fun _ _ _ => hj.owned h
  starts := fun _ => hj.starts h

end Joins

theorem not_busy_of_apart (hp : ∀ y ∈ done, (y.patch rows columns).Apart x) :
    ¬Busy rows columns done x.first.1 x.first.2 ∧ ¬Busy rows columns done x.last.1 x.last.2 :=
  ⟨fun ⟨y, hy, hc⟩ => (hp y hy).not_covers.left hc, fun ⟨y, hy, hc⟩ => (hp y hy).not_covers.right hc⟩

theorem Settled.advance (h : Settled book rows columns done g) (ha : Advance book columns s g g')
    (hx : s.patch rows columns = x) (ht : x.top = s.row) (hr : ∀ y ∈ done, y.row ≤ s.row)
    (hp : ∀ y ∈ done, (y.patch rows columns).Apart x) : Settled book rows columns (done ++ [s]) g' := by
  have ⟨hf, hl⟩ := not_busy_of_apart hp
  have ⟨before, own, vanished, stays, d, hland, hd, hb⟩ := h.landed_of_fresh ha hx hf hl
  rw [ht] at hland
  have hfree := h.free_of_landed (by rw [← hx]; rfl) hland hd hp
  have hj : Joins book rows columns done s x g g' before own vanished stays d :=
    { patch := hx, top := ht, bottom := hb, landed := hland, span := hd, free := hfree, later := hr }
  exact hj.settled h

theorem Settled.advances {ss : List (Step DefectLog.Block)} (h : Settled book rows columns done g)
    (ha : Advances book columns ss g g') (ht : ∀ x ∈ ss, (x.patch rows columns).top = x.row)
    (hr : (done ++ ss).Pairwise (·.row ≤ ·.row))
    (hp : (done ++ ss).Pairwise fun y x => (y.patch rows columns).Apart (x.patch rows columns)) :
    Settled book rows columns (done ++ ss) g' := by
  induction ha generalizing done
  case nil => rwa [List.append_nil]
  case cons s _ _ ss _ ha _ hi =>
    rw [List.append_cons] at hr hp ⊢
    have hs := List.forall_mem_cons.mp ht
    have hr' := (List.pairwise_append.mp (List.pairwise_append.mp hr).left).right.right
    have hp' := (List.pairwise_append.mp (List.pairwise_append.mp hp).left).right.right
    refine hi (h.advance ha rfl hs.left (fun y hy => ?rising) fun y hy => ?apart) hs.right hr hp
    case rising => exact hr' y hy s (by simp)
    case apart  => exact hp' y hy s (by simp)

theorem settled_blank (rows columns : Nat) (width : Int) :
    Settled book rows columns [] (Grid.blank rows columns width) := by
  have hblank {r k : Nat} {c : Cell Block} (h : (Grid.blank rows columns width).Starts r k c) :
      c = .blank width := by
    obtain ⟨cells, hr, hs⟩ := h
    have hc := hs.mem
    rw [List.eq_of_mem_replicate (List.mem_of_getElem? hr)] at hc
    exact List.eq_of_mem_replicate hc
  refine {
    length := by simp [Grid.blank], spans := fun r k c hc => ?spans, fresh := fun r k c hc _ => ?fresh
    held := fun r k hb => ?held, row := fun r cells hr => ?row, owned := fun r k c hc hf => ?owned
    starts := fun _ hy => absurd hy List.not_mem_nil }
  case spans => exact hblank hc ▸ Nat.one_pos
  case fresh =>
    obtain ⟨_, hs, _⟩ := hc
    exact ⟨width, hblank hs⟩
  case held =>
    obtain ⟨y, hy, -⟩ := hb
    exact absurd hy List.not_mem_nil
  case row =>
    refine confinedRow_nil_iff.mpr fun c hc => ?_
    obtain ⟨k, hk⟩ := Stands.of_mem hc
    obtain rfl := hblank ⟨cells, hr, hk⟩
    exact ⟨rfl, rfl⟩
  case owned =>
    obtain rfl := hblank hc
    exact absurd rfl hf

end DefectLog.Word
