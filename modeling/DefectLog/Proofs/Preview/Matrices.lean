import DefectLog.Proofs.Document.Patches
import DefectLog.Proofs.Preview.Mirror
import DefectLog.Proofs.Running

-- Where the cells of a table stand in its matrix, and what is done to the rectangle of each.
namespace DefectLog.Preview

open Running Success

def Flowable.ownMatrix : Flowable → List (Matrix Flowable)
  | .table m => [m]
  | _        => []

-- The matrices of a preview in the order in which they begin.
def Flowable.matrices (f : Flowable) : List (Matrix Flowable) :=
  f.collect ownMatrix

def entryMatrices (fs : List Flowable) : List (Matrix Flowable) :=
  collectEntry Flowable.ownMatrix fs

def Matrix.entry? (m : Matrix φ) (row column : Nat) : Option (List φ) :=
  m.entries[row]?.bind (·[column]?)

def Directive.Covers (x : Directive) (row column : Int) : Prop :=
  x.first.2 ≤ row ∧ row ≤ x.last.2 ∧ x.first.1 ≤ column ∧ column ≤ x.last.1

def Directive.Apart (x y : Directive) : Prop :=
  ∀ row column, ¬(x.Covers row column ∧ y.Covers row column)

-- The backgrounds that a cell has: one if it is shaded.
inductive Shades : Option Shading → List Effect → Prop
  | none : Shades none []
  | some (h : readColor s.fill = .ok color) : Shades (some s) [.background color]

-- The boxes that a cell has: one if it has borders, drawn like the one at the top.
inductive Boxes : Option Borders → List Effect → Prop
  | none : Boxes none []
  | some (ht : ofEighths b.top.thickness = .ok thickness) (hc : readColor b.top.color = .ok color) :
    Boxes (some b) [.box thickness color]

inductive Pads : Margins → List Effect → Prop
  | sides (ht : ofTwips m.top = .ok top) (hb : ofTwips m.bottom = .ok bottom) (hl : ofTwips m.left = .ok left)
    (hr : ofTwips m.right = .ok right) :
    Pads m [.padding .top top, .padding .bottom bottom, .padding .left left, .padding .right right]

-- The directives of one cell. All of them are about its columns in its row.
structure Paints (s : Step Block) (own : List Directive) : Prop where
  area    : ∀ x ∈ own, x.first = (s.column, (s.row : Int)) ∧ x.last = (s.column + s.cell.span - 1, (s.row : Int))
  effects : ∃ backgrounds boxes paddings,
    own.map (·.effect) = (if 1 < s.cell.span then [.span] else []) ++ backgrounds ++ boxes ++ paddings ∧
    Shades s.cell.shading backgrounds ∧ Boxes s.cell.borders boxes ∧ Pads s.cell.margins paddings

-- An entry that is converted from the blocks of a cell, one flowable from each.
def FlowsFrom (defaults : Defaults) (blocks : List Block) (entry : List Flowable) : Prop :=
  List.Forall₂ (fun b f => Yields (flowBlock defaults b) f) blocks entry

-- A matrix that is laid out as its table asks.
structure Lays (defaults : Defaults) (t : Table Block) (m : Matrix Flowable) : Prop where
  rows    : m.entries.length = t.rows.length
  columns : ∀ row ∈ m.entries, row.length = t.columnWidths.length
  starts  : ∀ s ∈ t.steps, ∃ (k : Nat) (entry : List Flowable), s.column = k ∧ m.entry? s.row k = some entry ∧
    FlowsFrom defaults s.cell.blocks entry
  blank   : ∀ row k entry, m.entry? row k = some entry → (∀ s ∈ t.steps, ¬(s.row = row ∧ s.column = k)) → entry = []
  widths  : t.columnWidths.mapM (ofTwips ·) = .ok m.columnWidths
  painted : ∃ groups : List (List Directive),
    m.directives = { first := (0, 0), last := (-1, -1), effect := .alignTop } :: groups.flatten ∧
    List.Forall₂ Paints t.steps groups ∧
    groups.Pairwise (fun own other => ∀ x ∈ own, ∀ y ∈ other, x.Apart y) ∧
    ∀ own ∈ groups, ∀ x ∈ own,
      0 ≤ x.first.1 ∧ x.last.1 < t.columnWidths.length ∧ 0 ≤ x.first.2 ∧ x.last.2 < t.rows.length

-- The entries and the directives of the cells of a row.
inductive LaysCells (defaults : Defaults) (row : Nat) :
    Int → List (Cell Block) → List (List Flowable) → List (List Directive) → Prop
  | nil {column} : LaysCells defaults row column [] [] []
  | cons {column c cells entry entries own groups} (hb : FlowsFrom defaults c.blocks entry)
    (hp : Paints ⟨row, column, c⟩ own) (h : LaysCells defaults row (column + c.span) cells entries groups) :
    LaysCells defaults row column (c :: cells) (entry :: List.replicate (c.span - 1).toNat [] ++ entries) (own :: groups)

inductive LaysRows (defaults : Defaults) (columns : Nat) :
    Nat → List (List (Cell Block)) → List (List (List Flowable)) → List (List Directive) → Prop
  | nil {row} : LaysRows defaults columns row [] [] []
  | cons {row cells entries rows more own groups} (hc : LaysCells defaults row 0 cells entries own)
    (h : LaysRows defaults columns (row + 1) rows more groups) :
    LaysRows defaults columns row (cells :: rows)
      ((entries ++ List.replicate (columns - entries.length) []) :: more) (own ++ groups)

variable {defaults : Defaults} {columns row : Nat} {column : Int} {cells : List (Cell Block)}
  {rows : List (List (Cell Block))} {entries : List (List Flowable)} {more : List (List (List Flowable))}
  {groups : List (List Directive)}

theorem paints_of_directives {c : Cell Block} {own : List Directive} (h : directives c row column = .ok own) :
    Paints ⟨row, column, c⟩ own := by
  simp only [directives, bind_eq_ok, pure_eq_ok] at h
  obtain ⟨background, hbackground, box, hbox, top, ht, bottom, hb, left, hl, right, hr, rfl⟩ := h
  refine ⟨?area, background.toList, box.toList, _, ?effects, ?shades, ?boxes, .sides ht hb hl hr⟩
  case area    => exact List.forall_mem_map.mpr fun _ _ => ⟨rfl, rfl⟩
  case effects => simp [Function.comp_def]
  case shades =>
    cases hs : c.shading
    case none =>
      rw [hs] at hbackground
      cases hbackground
      exact .none
    case some s =>
      rw [hs] at hbackground
      obtain ⟨_, h, rfl⟩ := map_eq_ok.mp hbackground
      obtain ⟨color, hc, rfl⟩ := map_eq_ok.mp h
      exact .some hc
  case boxes =>
    cases hs : c.borders
    case none =>
      rw [hs] at hbox
      cases hbox
      exact .none
    case some b =>
      rw [hs] at hbox
      obtain ⟨_, h, rfl⟩ := map_eq_ok.mp hbox
      simp only [bind_eq_ok, pure_eq_ok] at h
      obtain ⟨thickness, ht, color, hc, rfl⟩ := h
      exact .some ht hc

theorem flowsFrom_of_yields {bs : List Block} {fs : List Flowable} (h : Yields (flowBlocks defaults bs) fs) :
    FlowsFrom defaults bs fs := by
  induction bs generalizing fs
  case nil => exact h.eq_of_pure ▸ .nil
  case cons b bs hi =>
    have ⟨f, hf, h⟩ := h.bind
    have ⟨fs, hfs, h⟩ := h.bind
    exact h.eq_of_pure ▸ .cons hf (hi hfs)

theorem laysCells_of_yields {result : List (List Flowable) × List Directive}
    (h : Yields (flowCells defaults row column cells) result) :
    ∃ groups, result.2 = groups.flatten ∧ LaysCells defaults row column cells result.1 groups := by
  induction cells generalizing column result
  case nil => exact ⟨[], h.eq_of_pure ▸ ⟨rfl, .nil⟩⟩
  case cons c cells hi =>
    have ⟨entry, hentry, h⟩ := h.bind
    have ⟨rest, hrest, h⟩ := h.bind
    have ⟨own, hown, h⟩ := h.bind
    have ⟨⟨entries, more⟩, hcells, h⟩ := h.bind
    have ⟨groups, hg, hl⟩ := hi hcells
    cases eq_of_restOfSpan hrest.eq_ok_of_lift
    have hp := paints_of_directives hown.eq_ok_of_lift
    refine ⟨own :: groups, h.eq_of_pure ▸ ⟨?_, .cons (flowsFrom_of_yields hentry) hp hl⟩⟩
    exact congrArg (own ++ ·) hg

theorem laysRows_of_yields {result : List (List (List Flowable)) × List Directive}
    (h : Yields (flowRows defaults columns row rows) result) :
    ∃ groups, result.2 = groups.flatten ∧ LaysRows defaults columns row rows result.1 groups := by
  induction rows generalizing row result
  case nil => exact ⟨[], h.eq_of_pure ▸ ⟨rfl, .nil⟩⟩
  case cons cells rows hi =>
    have ⟨⟨entries, own⟩, hcells, h⟩ := h.bind
    have ⟨⟨more, others⟩, hrows, h⟩ := h.bind
    have ⟨ownGroups, ho, hc⟩ := laysCells_of_yields hcells
    have ⟨groups, hg, hr⟩ := hi hrows
    refine ⟨ownGroups ++ groups, h.eq_of_pure ▸ ⟨?_, .cons hc hr⟩⟩
    rw [List.flatten_append, ← ho, ← hg]

section

variable (hc : ∀ c ∈ cells, 1 ≤ c.span) (h : LaysCells defaults row column cells entries groups)
include hc h

theorem LaysCells.length_eq : (entries.length : Int) = Table.extent cells := by
  induction h
  case nil => rfl
  case cons hi =>
    have ⟨_, hcells⟩ := List.forall_mem_cons.mp hc
    have hl := hi hcells
    simp only [Table.extent_cons, List.length_append, List.length_cons, List.length_replicate]
    omega

-- The entry at the column where a cell starts.
theorem LaysCells.starts : ∀ s ∈ Table.rowSteps row column cells, ∃ (i : Nat) (entry : List Flowable),
    s.column = column + i ∧ entries[i]? = some entry ∧ FlowsFrom defaults s.cell.blocks entry := by
  induction h
  case nil => exact List.forall_mem_nil _
  case cons column c _ entry _ _ _ hb _ _ hi =>
    have ⟨hspan, hcells⟩ := List.forall_mem_cons.mp hc
    refine List.forall_mem_cons.mpr ⟨⟨0, entry, by simp, rfl, hb⟩, fun s hs => ?_⟩
    have ⟨i, fs, hcol, he, hf⟩ := hi hcells s hs
    refine ⟨c.span.toNat + i, fs, by omega, ?_, hf⟩
    have hl : c.span.toNat = (entry :: List.replicate (c.span - 1).toNat []).length := by
      rw [List.length_cons, List.length_replicate]
      omega
    rw [hl, List.getElem?_append_right (Nat.le_add_right _ _), Nat.add_sub_cancel_left]
    exact he

theorem LaysCells.blank {i : Nat} {entry : List Flowable} (he : entries[i]? = some entry)
    (hs : ∀ s ∈ Table.rowSteps row column cells, s.column ≠ column + i) : entry = [] := by
  induction h generalizing i
  case nil => cases he
  case cons column c _ start _ _ _ _ _ _ hi =>
    have ⟨hspan, hcells⟩ := List.forall_mem_cons.mp hc
    have ⟨hfirst, hrest⟩ := List.forall_mem_cons.mp hs
    have hl : (start :: List.replicate (c.span - 1).toNat []).length = c.span.toNat := by
      rw [List.length_cons, List.length_replicate]
      omega
    by_cases hlt : i < c.span.toNat
    case pos =>
      rw [List.getElem?_append_left (hl ▸ hlt)] at he
      cases i
      case zero   => exact absurd (Int.add_zero column).symm hfirst
      case succ i =>
        rw [List.getElem?_cons_succ] at he
        exact List.eq_of_mem_replicate (List.mem_of_getElem? he)
    case neg =>
      rw [List.getElem?_append_right (by omega), hl] at he
      refine hi hcells he fun s hm => ?_
      have hne := hrest s hm
      omega

omit hc in
theorem LaysCells.paints : List.Forall₂ Paints (Table.rowSteps row column cells) groups := by
  induction h
  case nil             => exact .nil
  case cons hp _ hi => exact .cons hp hi

end

theorem LaysRows.length_eq (h : LaysRows defaults columns row rows more groups) : more.length = rows.length := by
  induction h
  case nil     => rfl
  case cons hi => rw [List.length_cons, List.length_cons, hi]

theorem LaysRows.paints (h : LaysRows defaults columns row rows more groups) :
    List.Forall₂ Paints (Table.stepsFrom row rows) groups := by
  induction h
  case nil        => exact .nil
  case cons hc _ hi => exact List.rel_append hc.paints hi

section

variable (hf : ∀ cells ∈ rows, (∀ c ∈ cells, 1 ≤ c.span) ∧ Table.extent cells ≤ columns)
  (h : LaysRows defaults columns row rows more groups)
include hf h

theorem LaysRows.length_of_mem : ∀ r ∈ more, r.length = columns := by
  induction h
  case nil => exact List.forall_mem_nil _
  case cons hc _ hi =>
    have ⟨⟨hspan, hle⟩, hrows⟩ := List.forall_mem_cons.mp hf
    have hl := hc.length_eq hspan
    refine List.forall_mem_cons.mpr ⟨?_, hi hrows⟩
    rw [List.length_append, List.length_replicate]
    omega

theorem LaysRows.starts : ∀ s ∈ Table.stepsFrom row rows, ∃ (i k : Nat) (entry : List Flowable),
    s.row = row + i ∧ s.column = k ∧ more[i]?.bind (·[k]?) = some entry ∧ FlowsFrom defaults s.cell.blocks entry := by
  induction h
  case nil => exact List.forall_mem_nil _
  case cons hc _ hi =>
    have ⟨⟨hspan, _⟩, hrows⟩ := List.forall_mem_cons.mp hf
    refine List.forall_mem_append.mpr ⟨fun s hs => ?here, fun s hs => ?below⟩
    case here =>
      have ⟨k, entry, hk, he, hb⟩ := hc.starts hspan s hs
      refine ⟨0, k, entry, Table.row_of_mem_rowSteps hs, by omega, ?_, hb⟩
      have hlt := (List.getElem?_eq_some_iff.mp he).choose
      rw [List.getElem?_cons_zero, Option.bind_some, List.getElem?_append_left hlt, he]
    case below =>
      have ⟨i, k, entry, hrow, hcol, he, hb⟩ := hi hrows s hs
      exact ⟨i + 1, k, entry, by omega, hcol, he, hb⟩

theorem LaysRows.blank {i k : Nat} {entry : List Flowable} (he : more[i]?.bind (·[k]?) = some entry)
    (hs : ∀ s ∈ Table.stepsFrom row rows, ¬(s.row = row + i ∧ s.column = k)) : entry = [] := by
  induction h generalizing i
  case nil => cases he
  case cons row cells entries _ _ _ _ hc _ hi =>
    have ⟨⟨hspan, _⟩, hrows⟩ := List.forall_mem_cons.mp hf
    have ⟨hcells, hrest⟩ := List.forall_mem_append.mp hs
    cases i
    case succ i =>
      exact hi hrows he fun s hm hp => hrest s hm ⟨by omega, hp.right⟩
    case zero =>
      rw [List.getElem?_cons_zero, Option.bind_some] at he
      by_cases hlt : k < entries.length
      case pos =>
        rw [List.getElem?_append_left hlt] at he
        exact hc.blank hspan he fun s hm hcol => hcells s hm ⟨Table.row_of_mem_rowSteps hm, by omega⟩
      case neg =>
        rw [List.getElem?_append_right (by omega)] at he
        exact List.eq_of_mem_replicate (List.mem_of_getElem? he)

end

theorem Paints.apart {s s' : Step Block} {own other : List Directive} (h : Paints s own) (h' : Paints s' other)
    (hb : s.Before s') : ∀ x ∈ own, ∀ y ∈ other, x.Apart y := by
  intro x hx y hy r k ⟨hxc, hyc⟩
  have ⟨hxf, hxl⟩ := h.area x hx
  have ⟨hyf, hyl⟩ := h'.area y hy
  simp only [Directive.Covers, hxf, hxl, hyf, hyl] at hxc hyc
  simp only [Step.Before] at hb
  omega

theorem lays_of_laysRows {t : Table Block} {m : Matrix Flowable} (hf : t.Fits)
    (h : LaysRows defaults t.columnWidths.length 0 t.rows m.entries groups)
    (hw : t.columnWidths.mapM (ofTwips ·) = .ok m.columnWidths)
    (hd : m.directives = { first := (0, 0), last := (-1, -1), effect := .alignTop } :: groups.flatten) :
    Lays defaults t m := by
  have hle : ∀ s ∈ t.steps, 1 ≤ s.cell.span ∧ s.column + s.cell.span ≤ t.columnWidths.length :=
    fun s hs => Table.le_of_mem_stepsFrom hf hs
  have ⟨hcol, hbefore⟩ := Table.before_stepsFrom 0 t.rows fun s hs => by have := (hle s hs).left; omega
  refine ⟨h.length_eq, h.length_of_mem hf, ?starts, ?blank, hw, groups, hd, h.paints, ?apart, ?inside⟩
  case starts =>
    intro s hs
    have ⟨i, k, entry, hrow, hcol, he, hb⟩ := h.starts hf s hs
    exact ⟨k, entry, hcol, by rwa [hrow, Nat.zero_add], hb⟩
  case blank =>
    intro row k entry he hs
    exact h.blank hf he fun s hm hp => hs s hm ⟨by omega, hp.right⟩
  case apart => exact pairwise_of_forall₂ h.paints hbefore Paints.apart
  case inside =>
    intro own ho x hx
    have ⟨s, hs, hp⟩ := exists_of_forall₂ h.paints own ho
    have ⟨hfirst, hlast⟩ := hp.area x hx
    have hspan := hle s hs
    have hc := hcol s hs
    have hr := Table.lt_of_mem_stepsFrom hs
    rw [hfirst, hlast]
    dsimp only
    omega

theorem lays_of_flowTable {t : Table Block} {f : Flowable} (h : Yields (flowBlock defaults (.table t)) f) :
    ∃ m directives, f = .table m ∧ Yields (flowRows defaults t.columnWidths.length 0 t.rows) (m.entries, directives) ∧
      (t.Fits → Lays defaults t m) := by
  obtain ⟨⟨entries, directives⟩, hrows, h⟩ := h.bind
  dsimp only at h
  rw [mapM_lift] at h
  obtain ⟨widths, hw, h⟩ := h.bind
  obtain ⟨m, hm, hp⟩ := h.bind
  obtain ⟨rfl, rfl, hd⟩ := matrix_eq_ok hm.eq_ok_of_lift
  obtain ⟨groups, hg, hl⟩ := laysRows_of_yields hrows
  exact ⟨m, directives, hp.eq_of_pure.symm, hrows, fun hf => lays_of_laysRows hf hl hw.eq_ok_of_lift (hg ▸ hd)⟩

theorem matrices_flowParagraph {p : Paragraph} {f : Flowable} (h : Yields (flowParagraph defaults p) f) :
    f.matrices = [] := by
  unfold flowParagraph at h
  split at h
  case h_1 =>
    have ⟨_, hf⟩ := flowRule_eq_ok h.eq_ok_of_lift
    exact hf ▸ rfl
  case h_2 =>
    split at h
    case isTrue =>
      have ⟨_, hf⟩ := flowGap_eq_ok h.eq_ok_of_lift
      exact hf ▸ rfl
    case isFalse =>
      have ⟨_, hf, _⟩ := flowText_yields h
      exact hf ▸ rfl

-- The matrices of a preview belong to the tables of the tree, in the same order.
def LaysAll (defaults : Defaults) : List (Table Block) → List (Matrix Flowable) → Prop :=
  List.Forall₂ fun t m => t.Fits → Lays defaults t m

-- One case for each function of the preview.
mutual
theorem lays_flowBlock {b : Block} {f : Flowable} (h : Yields (flowBlock defaults b) f) :
    LaysAll defaults b.allTables f.matrices := by
  cases b
  case paragraph p =>
    rw [matrices_flowParagraph h]
    exact .nil
  case table t =>
    have ⟨m, _, hf, hrows, hl⟩ := lays_of_flowTable h
    exact hf ▸ .cons hl (lays_flowRows hrows)
termination_by structural b
theorem lays_flowRows {columns row : Nat} {rows : List (List (Cell Block))}
    {result : List (List (List Flowable)) × List Directive} (h : Yields (flowRows defaults columns row rows) result) :
    LaysAll defaults (rowsTables rows) (collectRows Flowable.ownMatrix result.1) := by
  cases rows
  case nil => exact h.eq_of_pure ▸ .nil
  case cons cells rows =>
    have ⟨⟨entries, _⟩, he, h⟩ := h.bind
    have ⟨⟨more, _⟩, hm, h⟩ := h.bind
    rw [← h.eq_of_pure, rowsTables, collectRows_filled]
    exact List.rel_append (lays_flowCells he) (lays_flowRows hm)
termination_by structural rows
theorem lays_flowCells {row : Nat} {column : Int} {cells : List (Cell Block)}
    {result : List (List Flowable) × List Directive} (h : Yields (flowCells defaults row column cells) result) :
    LaysAll defaults (cellsTables cells) (collectRow Flowable.ownMatrix result.1) := by
  cases cells
  case nil => exact h.eq_of_pure ▸ .nil
  case cons c cells =>
    have ⟨flowables, hf, h⟩ := h.bind
    have ⟨rest, hr, h⟩ := h.bind
    have ⟨own, _, h⟩ := h.bind
    have ⟨⟨entries, _⟩, he, h⟩ := h.bind
    cases eq_of_restOfSpan hr.eq_ok_of_lift
    rw [← h.eq_of_pure, cellsTables, collectRow_spanned]
    exact List.rel_append (lays_flowBlocks hf) (lays_flowCells he)
termination_by structural cells
theorem lays_flowBlocks {blocks : List Block} {fs : List Flowable} (h : Yields (flowBlocks defaults blocks) fs) :
    LaysAll defaults (blocksTables blocks) (entryMatrices fs) := by
  cases blocks
  case nil => exact h.eq_of_pure ▸ .nil
  case cons b blocks =>
    have ⟨f, hf, h⟩ := h.bind
    have ⟨fs, hfs, h⟩ := h.bind
    rw [← h.eq_of_pure]
    exact List.rel_append (lays_flowBlock hf) (lays_flowBlocks hfs)
termination_by structural blocks
end

-- Each table that is converted, by itself or in a story, and each table inside of it: if its rows fit then its matrix is
-- laid out as it asks, whatever the other tables are like.
theorem lays_of_flow (d : Document) :
    (∀ count b f, (step d.defaults count b).1 = .ok f → LaysAll d.defaults b.allTables f.matrices) ∧
    ∀ fs, story d = .ok fs → LaysAll d.defaults d.allTables (entryMatrices fs) :=
  ⟨fun count _ _ h => lays_flowBlock ⟨count, _, Prod.ext h rfl⟩, fun _ h => lays_flowBlocks ⟨0, _, Prod.ext h rfl⟩⟩

def inner : Table Block where
  columnWidths := [500, 500]
  rows         := [[], [{ width := 500, blocks := [], borders := some (.uniform {}) }]]

-- A shaded cell that spans two columns, with a table in it, and a row that is too short.
def outer : Table Block where
  columnWidths := [1000, 1000, 1000]
  rows         := [
    [{ width := 1000, blocks := [] },
     { width := 2000, span := 2, shading := some { fill := "FFF2CC" }, blocks := [
       .paragraph { runs := [{ text := "a", size := 20 }] }, .table inner] }],
    [{ width := 1000, blocks := [.paragraph { runs := [{ text := "b", size := 20 }] }] }]]

def framed : Document where
  defaults := { font := "Arial", size := 22 }
  page     := { width := 12240, height := 15840, margins := {} }
  body     := [.table outer]

theorem lays_of_flow_framed : ∃ fs m n, story framed = .ok fs ∧ entryMatrices fs = [m, n] ∧
    outer.Fits ∧ Lays framed.defaults outer m ∧ inner.Fits ∧ Lays framed.defaults inner n := by
  have ⟨fs, h⟩ : ∃ fs, story framed = .ok fs := exists_of_isOk (by decide +kernel)
  have hl : List.Forall₂ _ [outer, inner] _ := (lays_of_flow framed).right fs h
  have ⟨m, _, hm, hl, he⟩ := List.forall₂_cons_left_iff.mp hl
  have ⟨n, _, hn, hl, he'⟩ := List.forall₂_cons_left_iff.mp hl
  have he'' := List.forall₂_nil_left_iff.mp hl
  have houter : outer.Fits := by decide
  have hinner : inner.Fits := by decide
  exact ⟨fs, m, n, h, by rw [he, he', he''], houter, hm houter, hinner, hn hinner⟩

end DefectLog.Preview
