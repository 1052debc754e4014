import DefectLog.Proofs.Word.Filling
import DefectLog.Proofs.Word.Standing

-- What writing one cell of the tree does to a grid, wherever the cell ends up.
namespace DefectLog.Word

open Success Row

variable {book : StyleBook} {columns : Nat} {g g₁ g' : Grid} {unresolved : List String}

-- How many cells something was written to.
def dressed (cells : List (Cell Block)) : Nat :=
  cells.countP (·.finishes ≠ [])

def Grid.dressed (g : Grid) : Nat :=
  (g.map Word.dressed).sum

theorem dressed_append (cs ds : List (Cell Block)) : dressed (cs ++ ds) = dressed cs + dressed ds :=
  List.countP_append

theorem dressed_cons (c : Cell Block) (cs : List (Cell Block)) :
    dressed (c :: cs) = (if c.finishes ≠ [] then 1 else 0) + dressed cs := by
  simp only [dressed, List.countP_cons, decide_eq_true_eq]
  exact Nat.add_comm _ _

theorem dressed_eq_zero {cs : List (Cell Block)} : dressed cs = 0 ↔ ∀ c ∈ cs, c.finishes = [] := by
  simp [dressed, List.countP_eq_zero]

namespace Grid

theorem dressed_cons (row : List (Cell Block)) (g : Grid) :
    Grid.dressed (row :: g) = Word.dressed row + Grid.dressed g := by
  simp [Grid.dressed]

theorem dressed_append (g h : Grid) : Grid.dressed (g ++ h) = Grid.dressed g + Grid.dressed h := by
  simp [Grid.dressed]

theorem dressed_split {row : Nat} {cells : List (Cell Block)} (h : g[row]? = some cells) :
    g.dressed = Grid.dressed (g.take row) + (Word.dressed cells + Grid.dressed (g.drop (row + 1))) := by
  obtain ⟨hl, rfl⟩ := List.getElem?_eq_some_iff.mp h
  rw [← dressed_cons, ← dressed_append, List.getElem_cons_drop, List.take_append_drop]

end Grid

-- A cell that nothing but an empty paragraph is in.
theorem Cell.isVacant_of_empty {c : Cell Block} (h : c.content = [.empty]) : c.isVacant := by
  simp [isVacant, h, Block.isVacant, Block.empty]

namespace Grid

variable {left span rows : Nat} {c d : Cell Block} {vanished : List (Cell Block)} {below below' : Grid}

theorem gathered_eq (vanished : List (Cell Block)) (c : Cell Block) :
    ∃ content, gathered vanished c = { c with content } := by
  unfold gathered
  induction vanished.filter (!·.isVacant) generalizing c
  case nil          => exact ⟨c.content, rfl⟩
  case cons d ds hi => exact hi (c.receive d.content)

theorem gathered_of_empty (h : ∀ d ∈ vanished, d.content = [.empty]) : gathered vanished c = c := by
  have hf : vanished.filter (!·.isVacant) = [] :=
    List.filter_eq_nil_iff.mpr fun d hd => by simp [Cell.isVacant_of_empty (h d hd)]
  rw [gathered, hf, List.foldl_nil]

-- A row below the first one of a rectangle. Its cell grows and is continued from above.
def Hangs (left span : Nat) (row row' : List (Cell Block)) : Prop :=
  ∃ before own vanished stays grown, Grown left span row before own vanished stays ∧
    row' = before ++ grown :: stays ∧ grown.span = own.span + extent vanished ∧
    grown.stacking = some .continued ∧ grown.finishes = own.finishes ∧
    (own.content = [.empty] → grown.content = [.empty])

theorem Grown.hangs {row before stays : List (Cell Block)} {own : Cell Block}
    (h : Grown left span row before own vanished stays) (width : Int) :
    Hangs left span row (before ++ { own with
      width, span := own.span + extent vanished, stacking := some .continued
      content := if own.isVacant then own.content else [.empty] } :: stays) :=
  ⟨before, own, vanished, stays, _, h, rfl, rfl, rfl, rfl, fun ho => by simp [ho]⟩

theorem dressed_of_hangs {row row' : List (Cell Block)} (h : Hangs left span row row') :
    Word.dressed row' ≤ Word.dressed row := by
  obtain ⟨before, own, vanished, stays, grown, hg, rfl, -, -, hf, -⟩ := h
  rw [hg.row_eq]
  simp only [Word.dressed_append, Word.dressed_cons, hf]
  omega

namespace GrownBelow

theorem hangs (h : GrownBelow left span rows c below d below') :
    (∃ content, d = { c with content }) ∧ below'.length = below.length ∧
    ∀ r row, below[r]? = some row → ∃ row', below'[r]? = some row' ∧
      (r < rows → Hangs left span row row') ∧ (rows ≤ r → row' = row) := by
  induction h
  case stop top _ hs =>
    refine ⟨⟨top.content, rfl⟩, rfl, fun r row hr => ⟨row, hr, fun hn => ?_, fun _ => rfl⟩⟩
    cases hs
    case inl hs => omega
    case inr hs => simp [hs] at hr
  case row top _ own first _ vanished _ _ _ hg _ hi =>
    have ⟨⟨content, hd⟩, hl, hrows⟩ := hi
    have ⟨content', hc⟩ := gathered_eq (own :: vanished) top
    refine ⟨⟨content, by rw [hd, hc]⟩, by simp [hl], fun r row hr => ?_⟩
    cases r
    case zero =>
      obtain rfl : first = row := by simpa using hr
      exact ⟨_, rfl, fun _ => hg.hangs _, by simp⟩
    case succ r =>
      have ⟨row', hr', hh, hk⟩ := hrows r row (by simpa using hr)
      exact ⟨row', by simpa using hr', fun hn => hh (by omega), fun hn => hk (by omega)⟩

theorem dressed_le (h : GrownBelow left span rows c below d below') : below'.dressed ≤ below.dressed := by
  induction h
  case stop => exact Nat.le_refl _
  case row hg _ hi =>
    rw [dressed_cons, dressed_cons]
    exact Nat.add_le_add (dressed_of_hangs (hg.hangs _)) hi

-- If nothing is in the rows of the rectangle, nothing is handed over.
theorem eq_of_empty (h : GrownBelow left span rows c below d below')
    (he : ∀ r row, r < rows → below[r]? = some row → ∀ b ∈ row, b.content = [.empty]) : d = c := by
  induction h
  case stop => rfl
  case row rows _ _ _ own first _ vanished _ _ _ hg _ hi =>
    have hfirst := he 0 first (Nat.succ_pos rows) rfl
    rw [hg.row_eq] at hfirst
    have hv : ∀ b ∈ own :: vanished, b.content = [.empty] := fun b hb => hfirst b (by simp at hb ⊢; tauto)
    rw [gathered_of_empty hv] at hi
    exact hi fun r row hn hr => he (r + 1) row (by omega) (by simpa using hr)

end GrownBelow

end Grid

-- The cell that a corner of a rectangle belongs to.
structure Corner (g : Grid) (corner : Nat × Nat) (p : Position) (column : Nat) (c : Cell Block) : Prop where
  found    : g.covering? corner.2 corner.1 = some p
  located  : g.Locates p column c
  left     : column ≤ corner.2
  right    : corner.2 < column + c.span
  above    : p.row ≤ corner.1
  stacking : c.stacking ≠ some .continued ∨ p.row = 0

theorem corner_of_numbered {number : Int} {p : Position} (h : g.numbered? columns number = .ok p) :
    let n := wrapped (g.length * columns) number
    ∃ column c, Corner g (n / columns, n % columns) p column c := by
  have hf := Grid.numbered?_eq_ok h
  have ⟨column, c, hl, hk, hk', hr, hs⟩ := Grid.covering?_eq_some hf
  exact ⟨column, c, hf, hl, hk, hk', hr, hs⟩

theorem columns_pos_of_numbered {number : Int} {p : Position} (h : g.numbered? columns number = .ok p) :
    0 < columns := by
  by_contra hc
  obtain rfl : columns = 0 := by omega
  have hf (n : Int) : n < 0 ∨ 0 ≤ n := by omega
  simp only [Grid.numbered?, Int.natCast_zero, Int.mul_zero, hf, ↓reduceIte] at h
  split at h <;> cases h

theorem columns_pos_of_advance {s : Step DefectLog.Block} (h : Advance book columns s g g') : 0 < columns := by
  obtain ⟨_, _, _, _, _, _, hg, -⟩ := h
  simp only [Grid.placed, bind_eq_ok] at hg
  obtain ⟨_, hp, -⟩ := hg
  exact columns_pos_of_numbered hp

-- What a step does to the rows of a grid. In one row a cell grows over the cells after it and is written
-- to, and in the rows below it is continued.
structure Landed (book : StyleBook) (source : DefectLog.Cell DefectLog.Block) (top bottom left right : Nat)
    (g g' : Grid) (before : List (Cell Block)) (own : Cell Block) (vanished stays : List (Cell Block))
    (d : Cell Block) : Prop where
  row      : g[top]? = some (before ++ own :: (vanished ++ stays))
  grown    : Grid.Grown left (right - left) (before ++ own :: (vanished ++ stays)) before own vanished stays
  newRow   : g'[top]? = some (before ++ d :: stays)
  span     : d.span = own.span + extent vanished
  finishes : d.finishes = own.finishes ++ Finish.own source
  stacking : d.stacking = some .continued → own.stacking = some .continued ∧ top = 0
  length   : g'.length = g.length
  above    : ∀ r, r < top → g'[r]? = g[r]?
  below    : ∀ r row, top < r → g[r]? = some row → ∃ row', g'[r]? = some row' ∧
    (r < bottom → Grid.Hangs left (right - left) row row') ∧ (bottom ≤ r → row' = row)
  loss     : g'.dressed + dressed (own :: vanished) ≤ g.dressed + 1
  kept     : (∀ c ∈ own :: vanished, c.finishes = [] ∧ c.content = [.empty]) →
    (∀ r row, top < r → r < bottom → g[r]? = some row → ∀ c ∈ row, c.content = [.empty]) →
    Keeps book source d

theorem landed_of_single {source : DefectLog.Cell DefectLog.Block} {corner : Nat × Nat} {p : Position}
    {column : Nat} {c d d' : Cell Block} (hc : Corner g corner p column c) (hd : c.dress source = .ok d)
    (hw : writeBlocks book true source.blocks d = .ok (d', unresolved)) :
    ∃ before stays, Landed book source p.row (p.row + 1) column (column + c.span) g (g.setCell p d')
      before c [] stays d' := by
  obtain ⟨before, rest, hr, hp, rfl⟩ := hc.located
  have ⟨hspan, hstacking, hfin⟩ := frame_of_write hd hw
  have hl := (List.getElem?_eq_some_iff.mp hr).1
  rw [Grid.setCell_eq_set hr hp]
  refine ⟨before, rest, {
    row := hr, grown := ⟨rfl, rfl, .inl (by simp)⟩, newRow := by simp [hl], span := by simp [hspan]
    finishes := hfin, stacking := fun hs => ?stacking, length := by simp, above := fun r hr => ?above
    below := fun r row ht hr => ?below, loss := ?loss, kept := fun he _ => ?kept }⟩
  case stacking =>
    rw [hstacking] at hs
    exact ⟨hs, hc.stacking.resolve_left (not_not_intro hs)⟩
  case above => rw [List.getElem?_set_ne (by omega)]
  case below => exact ⟨row, by rw [List.getElem?_set_ne (by omega), hr], by omega, fun _ => rfl⟩
  case loss =>
    have hn : (g.set p.row (before ++ d' :: rest))[p.row]? = some (before ++ d' :: rest) := by simp [hl]
    have ht : (g.set p.row (before ++ d' :: rest)).take p.row = g.take p.row := by
      rw [List.take_set_of_le Nat.le.refl]
    have hd : (g.set p.row (before ++ d' :: rest)).drop (p.row + 1) = g.drop (p.row + 1) := by
      rw [List.drop_set_of_lt (Nat.lt_succ_self _)]
    rw [Grid.dressed_split hn, Grid.dressed_split hr, ht, hd]
    simp only [dressed_append, dressed_cons, dressed_eq_zero.mpr (List.forall_mem_nil _)]
    split <;> omega
  case kept =>
    have ⟨hf, hb⟩ := he c List.mem_cons_self
    exact keeps_of_write hf hb hd hw

-- A grid of which the rows from some row on are new.
section Rebuilt

variable {top r : Nat} {row before stays : List (Cell Block)} {below : Grid} {c d : Cell Block}

theorem Grid.getElem?_rebuilt (h : top < g.length) : (g.take top ++ row :: below)[top]? = some row := by
  have hl : (g.take top).length = top := List.length_take_of_le (Nat.le_of_lt h)
  rw [List.getElem?_append_right (Nat.le_of_eq hl), hl, Nat.sub_self, List.getElem?_cons_zero]

theorem Grid.getElem?_rebuilt_above (h : top < g.length) (hr : r < top) :
    (g.take top ++ row :: below)[r]? = g[r]? := by
  have hl : (g.take top).length = top := List.length_take_of_le (Nat.le_of_lt h)
  rw [List.getElem?_append_left (by omega), List.getElem?_take_of_lt hr]

theorem Grid.getElem?_rebuilt_below (h : top < g.length) (m : Nat) :
    (g.take top ++ row :: below)[top + m + 1]? = below[m]? := by
  have hl : (g.take top).length = top := List.length_take_of_le (Nat.le_of_lt h)
  have hm : top + m + 1 - top = m + 1 := by omega
  rw [List.getElem?_append_right (by omega), hl, hm, List.getElem?_cons_succ]

theorem Grid.setCell_rebuilt (h : top < g.length) :
    setCell (g.take top ++ (before ++ c :: stays) :: below) ⟨top, before.length⟩ d =
      g.take top ++ (before ++ d :: stays) :: below := by
  have hl : (g.take top).length = top := List.length_take_of_le (Nat.le_of_lt h)
  have hr : (g.take top ++ (before ++ c :: stays) :: below)[top]? = some (before ++ c :: stays) :=
    getElem?_rebuilt h
  rw [setCell_eq_set (p := ⟨top, before.length⟩) hr rfl, List.set_append_right _ _ (Nat.le_of_eq hl), hl,
    Nat.sub_self, List.set_cons_zero]

end Rebuilt

-- The first row is written to after the rows below it have handed over what they have.
theorem landed_of_grownBelow {source : DefectLog.Cell DefectLog.Block} {top bottom left right : Nat}
    {width : Int} {before vanished stays : List (Cell Block)} {own c d d' : Cell Block} {stacking : Option Stacking}
    {below : Grid} (hr : g[top]? = some (before ++ own :: (vanished ++ stays))) (hb : top < bottom)
    (hg : Grid.Grown left (right - left) (before ++ own :: (vanished ++ stays)) before own vanished stays)
    (hs : stacking ≠ some .continued)
    (hbelow : Grid.GrownBelow left (right - left) (bottom - top - 1)
      { Grid.gathered vanished { own with width, span := own.span + extent vanished } with stacking }
      (g.drop (top + 1)) c below) (hd : c.dress source = .ok d)
    (hw : writeBlocks book true source.blocks d = .ok (d', unresolved)) :
    Landed book source top bottom left right g (g.take top ++ (before ++ d' :: stays) :: below)
      before own vanished stays d' := by
  have hl : top < g.length := (List.getElem?_eq_some_iff.mp hr).1
  have ⟨hspan, hstacking, hfin⟩ := frame_of_write hd hw
  have ⟨⟨content, hc⟩, hbl, hrows⟩ := hbelow.hangs
  have ⟨content', hgath⟩ := Grid.gathered_eq vanished { own with width, span := own.span + extent vanished }
  rw [hgath] at hc
  refine {
    row := hr, grown := hg, newRow := Grid.getElem?_rebuilt hl, span := by rw [hspan, hc]
    finishes := by rw [hfin, hc], stacking := fun h => ?stacking, length := ?length
    above := fun r => Grid.getElem?_rebuilt_above hl, below := fun r row ht hr => ?below
    loss := ?loss, kept := fun he hempty => ?kept }
  case stacking =>
    rw [hstacking, hc] at h
    exact absurd h hs
  case length =>
    simp only [List.length_append, List.length_cons, List.length_take_of_le (Nat.le_of_lt hl), hbl,
      List.length_drop]
    omega
  case below =>
    obtain ⟨m, rfl⟩ := Nat.exists_eq_add_of_lt ht
    have hm : (g.drop (top + 1))[m]? = some row := by
      rw [List.getElem?_drop, Nat.add_right_comm, hr]
    have ⟨row', hr', hh, hk⟩ := hrows m row hm
    refine ⟨row', ?_, fun hn => hh (by omega), fun hn => hk (by omega)⟩
    rw [Grid.getElem?_rebuilt_below hl, hr']
  case loss =>
    have hle := hbelow.dressed_le
    rw [Grid.dressed_append, Grid.dressed_cons, Grid.dressed_split hr]
    simp only [dressed_append, dressed_cons]
    split <;> split <;> omega
  case kept =>
    have hv : ∀ e ∈ vanished, e.content = [.empty] := fun e hm => (he e (List.mem_cons_of_mem _ hm)).right
    have ⟨hof, hoc⟩ := he own List.mem_cons_self
    rw [Grid.gathered_of_empty hv] at hbelow
    have hc := hbelow.eq_of_empty fun r row hn hr => hempty (top + 1 + r) row (by omega) (by omega)
      (by rwa [List.getElem?_drop] at hr)
    exact keeps_of_write (by rw [hc, hof]) (by rw [hc, hoc]) hd hw

theorem landed_of_merge {source : DefectLog.Cell DefectLog.Block} {p q pos : Position} {ka kb : Nat}
    {a b c d d' : Cell Block} (ha : g.Locates p ka a) (hb : g.Locates q kb b)
    (hm : g.merge p q = .ok (g₁, pos)) (hc : g₁.cell? pos = some c) (hd : c.dress source = .ok d)
    (hw : writeBlocks book true source.blocks d = .ok (d', unresolved)) :
    ∃ bottom before own vanished stays,
      (a.stacking = none → b.stacking = none → bottom = max p.row q.row + 1) ∧
      Landed book source (min p.row q.row) bottom (min ka kb) (max (ka + a.span) (kb + b.span)) g
        (g₁.setCell pos d') before own vanished stays d' := by
  obtain ⟨x, y, row, before, own, vanished, stays, width, top, below, hx, hy, -, hr, hg, hbelow, rfl, rfl⟩ :=
    Grid.merge_eq_ok hm
  have ⟨hxt, hxl, hxr, hxb, hxs⟩ := Grid.area_eq_ok ha hx
  have ⟨hyt, hyl, hyr, hyb, hys⟩ := Grid.area_eq_ok hb hy
  rw [hxl, hyl, hxr, hyr] at hg
  rw [hxt, hyt, hxl, hyl, hxr, hyr] at hbelow
  rw [hxt, hyt] at hr hc ⊢
  have hrow := hg.row_eq
  subst hrow
  have hl : min p.row q.row < g.length := (List.getElem?_eq_some_iff.mp hr).1
  obtain rfl : top = c := by simpa [Grid.cell?, Grid.getElem?_rebuilt hl] using hc
  rw [Grid.setCell_rebuilt hl]
  refine ⟨max x.bottom y.bottom, before, own, vanished, stays, fun h₁ h₂ => ?bottom, ?landed⟩
  case bottom =>
    have := hxs h₁
    have := hys h₂
    omega
  case landed =>
    refine landed_of_grownBelow hr (by omega) hg (fun hs => ?_) hbelow hd hw
    split at hs <;> cases hs

-- The rectangle that a step leads to. The first corner is where the cell starts. A cell across several
-- columns has another one where it ends.
structure Landing (book : StyleBook) (columns : Nat) (s : Step DefectLog.Block) (g g' : Grid) where
  {p q : Position}
  {ka kb bottom : Nat}
  {a b own d : Cell Block}
  {before vanished stays : List (Cell Block)}
  first  : Corner g (s.patch g.length columns).first p ka a
  last   : Corner g (s.patch g.length columns).last q kb b
  plain  : a.stacking = none → b.stacking = none → bottom = max p.row q.row + 1
  landed : Landed book s.cell (min p.row q.row) bottom (min ka kb) (max (ka + a.span) (kb + b.span)) g g'
    before own vanished stays d

theorem landing_of_advance {s : Step DefectLog.Block} (h : Advance book columns s g g') :
    Nonempty (Landing book columns s g g') := by
  obtain ⟨g₁, pos, c, d, d', _, hg, hc, hd, hw, rfl⟩ := h
  simp only [Grid.placed, bind_eq_ok] at hg
  obtain ⟨p, hp, hg⟩ := hg
  obtain ⟨ka, a, ha⟩ := corner_of_numbered hp
  split at hg
  case isTrue hs =>
    simp only [bind_eq_ok] at hg
    obtain ⟨q, hq, hm⟩ := hg
    have hn : s.lastNumber columns = (s.row * columns : Nat) + s.column + s.cell.span - 1 := by
      rw [Step.lastNumber, Step.number, max_eq_right (by omega)]
    rw [← hn] at hq
    obtain ⟨kb, b, hb⟩ := corner_of_numbered hq
    obtain ⟨_, _, _, _, _, hbottom, hland⟩ := landed_of_merge ha.located hb.located hm hc hd hw
    exact ⟨{ first := ha, last := hb, plain := hbottom, landed := hland }⟩
  case isFalse hs =>
    obtain ⟨rfl, rfl⟩ := Prod.mk.inj (pure_eq_ok.mp hg)
    have hn : s.lastNumber columns = s.number columns := by
      rw [Step.lastNumber, max_eq_left (by omega)]
      omega
    have hb : Corner g (s.patch g.length columns).last p ka a := by rwa [Step.patch, hn]
    obtain rfl : a = c := Option.some.inj (ha.located.cell?.symm.trans hc)
    obtain ⟨before, stays, hland⟩ := landed_of_single ha hd hw
    have hland : Landed book s.cell (min p.row p.row) (max p.row p.row + 1) (min ka ka)
        (max (ka + a.span) (ka + a.span)) g (g.setCell p d') before a [] stays d' := by
      simpa using hland
    exact ⟨{ first := ha, last := hb, plain := fun _ _ => rfl, landed := hland }⟩

-- A cell that has grown over the columns of a rectangle in a row below its first one.
structure Continued (left right : Nat) (old new : Cell Block) : Prop where
  stacking : new.stacking = some .continued
  finishes : new.finishes = old.finishes
  content  : old.content = [.empty] → new.content = [.empty]
  grown    : old.span ≤ new.span
  reach    : left + new.span = right ∨ right < left + new.span ∧ new.span = old.span

theorem Grid.Hangs.stands {left right : Nat} {row row' : List (Cell Block)} (hlr : left ≤ right)
    (h : Hangs left (right - left) row row') :
    ∃ old new, Stands row left old ∧ Stands row' left new ∧ Continued left right old new ∧
      (∀ k c, Stands row k c → Stands row' k c ∨ left ≤ k ∧ k + c.span ≤ left + new.span) ∧
      ∀ k c, Stands row' k c → k = left ∧ c = new ∨ Stands row k c := by
  obtain ⟨before, own, vanished, stays, grown, hg, rfl, hs, hc, hf, he⟩ := h
  refine ⟨own, grown, ⟨before, _, hg.row_eq, hg.left⟩, ⟨before, _, rfl, hg.left⟩, ?continued,
    fun k c ho => ?kept, fun k c hn => ?found⟩
  case continued =>
    refine { stacking := hc, finishes := hf, content := he, grown := by omega, reach := ?_ }
    cases hg.reach
    case inl hr => omega
    case inr hr =>
      have ⟨hr, hv⟩ := hr
      rw [hv, extent_nil] at hs
      omega
  case kept  => exact (hg.stands_of_old hs ho).imp And.left And.right
  case found => exact (hg.stands_of_new hs hn).imp_right And.left

namespace Landed

variable {source : DefectLog.Cell DefectLog.Block} {top bottom left right r k : Nat}
  {before vanished stays : List (Cell Block)} {own d c : Cell Block}

-- Where the cells after a step come from.
theorem starts_of_new (h : Landed book source top bottom left right g g' before own vanished stays d)
    (hlr : left ≤ right) (hn : g'.Starts r k c) :
    r = top ∧ k = left ∧ c = d ∨ ∃ e, g.Starts r k e ∧
      (c = e ∨ top < r ∧ r < bottom ∧ k = left ∧ Continued left right e c) := by
  have ⟨cells, hr, hs⟩ := hn
  rcases Nat.lt_trichotomy r top with hlt | rfl | hgt
  · rw [h.above r hlt] at hr
    exact .inr ⟨c, ⟨cells, hr, hs⟩, .inl rfl⟩
  · obtain rfl := Option.some.inj (h.newRow.symm.trans hr)
    cases h.grown.stands_of_new h.span hs
    case inl hn => exact .inl ⟨rfl, hn⟩
    case inr ho => exact .inr ⟨c, ⟨_, h.row, ho.left⟩, .inl rfl⟩
  · have hl : r < g.length := h.length ▸ (List.getElem?_eq_some_iff.mp hr).1
    have hg := List.getElem?_eq_getElem hl
    have ⟨row', hr', hh, hk⟩ := h.below r g[r] hgt hg
    obtain rfl := Option.some.inj (hr'.symm.trans hr)
    refine .inr ?_
    by_cases hb : r < bottom
    case neg => exact ⟨c, ⟨_, hg, hk (by omega) ▸ hs⟩, .inl rfl⟩
    case pos =>
      have ⟨old, new, ho, _, hc, _, hnew⟩ := (hh hb).stands hlr
      cases hnew k c hs
      case inl hn =>
        obtain ⟨rfl, rfl⟩ := hn
        exact ⟨old, ⟨_, hg, ho⟩, .inr ⟨hgt, hb, rfl, hc⟩⟩
      case inr hn => exact ⟨c, ⟨_, hg, hn⟩, .inl rfl⟩

-- What becomes of the cells before a step.
theorem starts_of_old (h : Landed book source top bottom left right g g' before own vanished stays d)
    (hlr : left ≤ right) (ho : g.Starts r k c) :
    g'.Starts r k c ∨ r = top ∧ c ∈ own :: vanished ∧ left ≤ k ∧ k + c.span ≤ left + d.span ∨
      top < r ∧ r < bottom ∧ left ≤ k ∧ ∃ old new, g.Starts r left old ∧ g'.Starts r left new ∧
        Continued left right old new ∧ k + c.span ≤ left + new.span := by
  have ⟨row, hr, hs⟩ := ho
  rcases Nat.lt_trichotomy r top with hlt | rfl | hgt
  · exact .inl ⟨row, (h.above r hlt).trans hr, hs⟩
  · obtain rfl := Option.some.inj (h.row.symm.trans hr)
    cases h.grown.stands_of_old h.span hs
    case inl hn => exact .inl ⟨_, h.newRow, hn.left⟩
    case inr ho => exact .inr (.inl ⟨rfl, ho⟩)
  · have ⟨row', hr', hh, hk⟩ := h.below r row hgt hr
    by_cases hb : r < bottom
    case neg => exact .inl ⟨row', hr', hk (by omega) ▸ hs⟩
    case pos =>
      have ⟨old, new, ho, hn, hc, hold, _⟩ := (hh hb).stands hlr
      cases hold k c hs
      case inl hs => exact .inl ⟨row', hr', hs⟩
      case inr hs =>
        exact .inr (.inr ⟨hgt, hb, hs.left, old, new, ⟨row, hr, ho⟩, ⟨row', hr', hn⟩, hc, hs.right⟩)

theorem mem_of_starts (h : Landed book source top bottom left right g g' before own vanished stays d)
    (ho : g.Starts top k c) (hl : left ≤ k) (hr : k < right) (hs : 0 < c.span) : c ∈ own :: vanished := by
  have ⟨row, hrow, hst⟩ := ho
  obtain rfl := Option.some.inj (h.row.symm.trans hrow)
  have hreach := h.grown.reach
  have hspan := h.span
  rcases h.grown.stands_of_old h.span hst with ⟨-, hk | hk⟩ | ⟨hm, -⟩
  · omega
  · omega
  · exact hm

theorem covers_of_continued (h : Landed book source top bottom left right g g' before own vanished stays d)
    (ht : top < r) (hb : r < bottom) (hr : r < g.length) (hlk : left ≤ k) (hkr : k < right) :
    ∃ c, g'.Covers r k c ∧ c.stacking = some .continued := by
  obtain ⟨row', hr', hh, -⟩ := h.below r g[r] ht (List.getElem?_eq_getElem hr)
  have ⟨_, new, _, hn, hc, _⟩ := (hh hb).stands (by omega)
  have hreach := hc.reach
  exact ⟨new, ⟨left, ⟨row', hr', hn⟩, hlk, by omega⟩, hc.stacking⟩

theorem starts_landed (h : Landed book source top bottom left right g g' before own vanished stays d) :
    g'.Starts top left d :=
  ⟨_, h.newRow, before, stays, rfl, h.grown.left⟩

theorem starts_of_mem (h : Landed book source top bottom left right g g' before own vanished stays d)
    (hm : c ∈ own :: vanished) : ∃ k, g.Starts top k c ∧ left ≤ k ∧ k + c.span ≤ left + d.span := by
  have hs := h.span
  have hl := h.grown.left
  cases List.mem_cons.mp hm
  case inl hm =>
    subst hm
    exact ⟨left, ⟨_, h.row, before, _, rfl, hl⟩, Nat.le_refl _, by omega⟩
  case inr hm =>
    obtain ⟨front, after, rfl⟩ := List.append_of_mem hm
    simp only [extent_append, extent_cons] at hs
    refine ⟨left + own.span + extent front, ⟨_, h.row, before ++ own :: front, after ++ stays, by simp, ?_⟩,
      by omega, by omega⟩
    simp only [extent_append, extent_cons]
    omega

theorem starts_own (h : Landed book source top bottom left right g g' before own vanished stays d) :
    g.Starts top left own :=
  ⟨_, h.row, before, _, rfl, h.grown.left⟩

end Landed
end DefectLog.Word
