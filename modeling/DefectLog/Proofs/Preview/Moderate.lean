import DefectLog.Proofs.Number.Nearest
import DefectLog.Proofs.Preview.Matrices
import DefectLog.Proofs.Preview.Seen

-- A document without large numbers and strange colors has a preview.
namespace DefectLog.Preview

open Running Success

-- A number that double precision holds as it is.
def Moderate (n : Int) : Prop :=
  |n| ≤ 2 ^ 53

instance (n : Int) : Decidable (Moderate n) :=
  inferInstanceAs (Decidable (|n| ≤ 2 ^ 53))

def IsColor (text : String) : Prop :=
  Text.Numeral.IsHex text.toList ∧ text ≠ ""

instance (text : String) : Decidable (IsColor text) :=
  inferInstanceAs (Decidable (_ ∧ _))

structure SettableSpacing (s : Spacing) : Prop where
  before : Moderate s.before
  after  : Moderate s.after
  both   : Moderate (s.before + s.after)

instance (s : Spacing) : Decidable (SettableSpacing s) :=
  decidable_of_iff (Moderate s.before ∧ Moderate s.after ∧ Moderate (s.before + s.after))
    ⟨fun ⟨before, after, both⟩ => { before, after, both }, fun h => ⟨h.before, h.after, h.both⟩⟩

structure SettableEdge (b : Border) : Prop where
  thickness : Moderate b.thickness
  color     : IsColor b.color

instance (b : Border) : Decidable (SettableEdge b) :=
  decidable_of_iff (Moderate b.thickness ∧ IsColor b.color)
    ⟨fun ⟨thickness, color⟩ => { thickness, color }, fun h => ⟨h.thickness, h.color⟩⟩

structure SettableMargins (m : Margins) : Prop where
  top    : Moderate m.top
  bottom : Moderate m.bottom
  left   : Moderate m.left
  right  : Moderate m.right

instance (m : Margins) : Decidable (SettableMargins m) :=
  decidable_of_iff (Moderate m.top ∧ Moderate m.bottom ∧ Moderate m.left ∧ Moderate m.right)
    ⟨fun ⟨top, bottom, left, right⟩ => { top, bottom, left, right }, fun h => ⟨h.top, h.bottom, h.left, h.right⟩⟩

-- A paragraph that can be set, whatever its texts are.
structure Settable (p : Paragraph) : Prop where
  sizes   : ∀ run ∈ p.runs, Moderate run.size
  colors  : ∀ run ∈ p.runs, Markup.PlainColor run
  spacing : SettableSpacing p.spacing
  indent  : Moderate p.indent
  rule    : ∀ border, p.rule = some border → SettableEdge border

structure SettableCell (c : Cell Block) : Prop where
  span    : Number.isIndex (c.span - 1)
  shading : ∀ s, c.shading = some s → IsColor s.fill
  borders : ∀ b, c.borders = some b → SettableEdge b.top
  margins : SettableMargins c.margins

structure SettableTable (t : Table Block) : Prop where
  rows    : t.rows ≠ []
  columns : t.columnWidths ≠ []
  widths  : ∀ w ∈ t.columnWidths, Moderate w
  cells   : ∀ cells ∈ t.rows, ∀ c ∈ cells, SettableCell c

-- A conversion that does not fail, wherever the count is.
def Succeeds (x : Numbered α) : Prop :=
  ∀ count, ∃ a after, x.run count = (.ok a, after)

namespace Succeeds

variable {x : Numbered α} {f : α → Numbered β}

theorem pure (a : α) : Succeeds (pure a) :=
  fun count => ⟨a, count, rfl⟩

theorem lift {e : Except Fault α} {a : α} (h : e = .ok a) : Succeeds (liftM e) :=
  fun count => ⟨a, count, by rw [run_lift, h]⟩

theorem bind (hx : Succeeds x) (hf : ∀ a, Yields x a → Succeeds (f a)) : Succeeds (x >>= f) := by
  intro count
  have ⟨a, after, hrun⟩ := hx count
  have ⟨b, last, h⟩ := hf a ⟨count, after, hrun⟩ after
  exact ⟨b, last, by rw [run_bind, hrun]; exact h⟩

end Succeeds

theorem quotient_of_moderate {n : Int} (h : Moderate n) (divisor : Rat) : ∃ q, quotient n divisor = .ok q :=
  ⟨_, by rw [quotient, Number.isFinite_nearest h]; rfl⟩

theorem readColor_of_isColor {text : String} (h : IsColor text) : ∃ color, readColor text = .ok color := by
  have ⟨n, hn⟩ := Option.isSome_iff_exists.mp (h.left.parse_isSome (by simpa using h.right))
  exact ⟨_, by rw [readColor, hn]⟩

theorem exists_flowRule {p : Paragraph} {border : Border} (hp : Settable p) (hr : p.rule = some border) :
    ∃ f, flowRule p border = .ok f := by
  have ⟨ht, hc⟩ := hp.rule border hr
  have ⟨thickness, ht⟩ := quotient_of_moderate ht 8
  have ⟨color, hc⟩ := readColor_of_isColor hc
  have ⟨before, hb⟩ := quotient_of_moderate hp.spacing.before 20
  have ⟨after, ha⟩ := quotient_of_moderate hp.spacing.after 20
  exact ⟨_, by simp only [flowRule, ofEighths, ofTwips, ht, hc, hb, ha]; rfl⟩

theorem exists_largestSize {p : Paragraph} (hp : Settable p) : ∃ size, largestSize p.runs = .ok size := by
  have ⟨sizes, hs⟩ := exists_of_mapM fun run hm => quotient_of_moderate (hp.sizes run hm) 2
  exact ⟨_, map_eq_ok.mpr ⟨sizes, hs, rfl⟩⟩

theorem exists_flowGap {p : Paragraph} (hp : Settable p) : ∃ f, flowGap p = .ok f := by
  have ⟨size, hs⟩ := exists_largestSize hp
  have ⟨space, hg⟩ := quotient_of_moderate hp.spacing.both 20
  exact ⟨_, by simp only [flowGap, ofTwips, hs, hg]; rfl⟩

theorem exists_ofRuns (font : String) {p : Paragraph} (hp : Settable p) :
    ∃ markup, Markup.ofRuns font p.runs = .ok markup := by
  have ⟨pieces, hs⟩ : ∃ pieces, p.runs.mapM (Markup.ofRun font) = .ok pieces := exists_of_mapM fun run hm => by
    have ⟨size, hs⟩ := quotient_of_moderate (hp.sizes run hm) 2
    exact ⟨_, by simp only [Markup.ofRun, ofHalfPoints, hs]; rfl⟩
  exact ⟨_, map_eq_ok.mpr ⟨pieces, hs, rfl⟩⟩

theorem succeeds_flowText {defaults : Defaults} {p : Paragraph} (hd : Moderate defaults.size) (hp : Settable p) :
    Succeeds (flowText defaults p) := by
  have ⟨markup, hm⟩ := exists_ofRuns defaults.font hp
  have ⟨size, hs⟩ := exists_largestSize hp
  have ⟨other, ho⟩ := quotient_of_moderate hd 2
  have ⟨before, hb⟩ := quotient_of_moderate hp.spacing.before 20
  have ⟨after, ha⟩ := quotient_of_moderate hp.spacing.after 20
  have ⟨indent, hi⟩ := quotient_of_moderate hp.indent 20
  have hnumber : Succeeds (modifyGet fun n => (n + 1, n + 1)) := fun count => ⟨count + 1, count + 1, rfl⟩
  refine (Succeeds.lift hm).bind fun markup _ => hnumber.bind fun number _ => ?_
  refine (Succeeds.lift ho).bind fun other _ => (Succeeds.lift hs).bind fun largest _ => ?_
  refine (Succeeds.lift hb).bind fun before _ => (Succeeds.lift ha).bind fun after _ => ?_
  have hc := Markup.checkMarkup_of_plainColor hp.colors markup
  exact (Succeeds.lift hi).bind fun indent _ => (Succeeds.lift hc).bind fun _ _ => .pure _

theorem succeeds_flowParagraph {defaults : Defaults} {p : Paragraph} (hd : Moderate defaults.size) (hp : Settable p) :
    Succeeds (flowParagraph defaults p) := by
  unfold flowParagraph
  split
  case h_1 border hr =>
    have ⟨f, hf⟩ := exists_flowRule hp hr
    exact .lift hf
  case h_2 =>
    split
    case isTrue =>
      have ⟨f, hf⟩ := exists_flowGap hp
      exact .lift hf
    case isFalse => exact succeeds_flowText hd hp

theorem exists_directives {c : Cell Block} (hc : SettableCell c) (row : Nat) (column : Int) :
    ∃ own, directives c row column = .ok own := by
  have ⟨top, ht⟩ := quotient_of_moderate hc.margins.top 20
  have ⟨bottom, hb⟩ := quotient_of_moderate hc.margins.bottom 20
  have ⟨left, hl⟩ := quotient_of_moderate hc.margins.left 20
  have ⟨right, hr⟩ := quotient_of_moderate hc.margins.right 20
  have ⟨background, hbackground⟩ : ∃ background,
      c.shading.mapM (fun s => Effect.background <$> readColor s.fill) = .ok background :=
    exists_of_mapM_option fun s hs => by
      have ⟨color, h⟩ := readColor_of_isColor (hc.shading s hs)
      exact ⟨_, map_eq_ok.mpr ⟨color, h, rfl⟩⟩
  have ⟨box, hbox⟩ : ∃ box, c.borders.mapM (fun b => do
      return Effect.box (← ofEighths b.top.thickness) (← readColor b.top.color)) = .ok box :=
    exists_of_mapM_option fun b hb => by
      have ⟨ht, hcolor⟩ := hc.borders b hb
      have ⟨thickness, ht⟩ := quotient_of_moderate ht 8
      have ⟨color, hcolor⟩ := readColor_of_isColor hcolor
      exact ⟨_, by simp only [ofEighths, ht, hcolor]; rfl⟩
  exact ⟨_, by simp only [directives, hbackground, hbox, ofTwips, ht, hb, hl, hr]; rfl⟩

-- A matrix has an entry if its table has a row and a column.
theorem exists_matrix {defaults : Defaults} {columns : Nat} {rows : List (List (Cell Block))}
    {entries : List (List (List Flowable))} {groups : List (List Directive)} {widths : List Rat}
    (h : LaysRows defaults columns 0 rows entries groups) (hr : rows ≠ []) (hc : 0 < columns) (hw : widths ≠ [])
    (ds : List Directive) : ∃ m, matrix entries widths ds = .ok m := by
  have hfull : entries.all (·.isEmpty) = false := by
    cases h
    case nil => contradiction
    case cons cells entries rows more own groups hcells hrows =>
      have hl : 0 < (entries ++ List.replicate (columns - entries.length) []).length := by
        rw [List.length_append, List.length_replicate]
        omega
      refine List.all_eq_false.mpr ⟨_, List.mem_cons_self, ?_⟩
      simpa using List.ne_nil_of_length_pos hl
  exact ⟨_, by rw [matrix, if_neg (by simp [hfull]), if_neg (by simpa using hw)]⟩

section

variable {defaults : Defaults}

-- One case for each function of the preview.
mutual
theorem succeeds_flowBlock (hd : Moderate defaults.size) {b : Block} (hp : ∀ p ∈ b.allParagraphs, Settable p)
    (ht : ∀ t ∈ b.allTables, SettableTable t) : Succeeds (flowBlock defaults b) := by
  cases b
  case paragraph p => exact succeeds_flowParagraph hd (hp p (List.mem_singleton.mpr rfl))
  case table t =>
    have ⟨ht, hts⟩ := List.forall_mem_cons.mp ht
    refine (succeeds_flowRows hd hp hts ht.cells).bind fun (entries, ds) hrows => ?_
    have ⟨widths, hw⟩ : ∃ widths, t.columnWidths.mapM (ofTwips ·) = .ok widths :=
      exists_of_mapM fun w hm => quotient_of_moderate (ht.widths w hm) 20
    have ⟨_, _, hl⟩ := laysRows_of_yields hrows
    have hpos : 0 < t.columnWidths.length := List.length_pos_iff.mpr ht.columns
    have hne : widths ≠ [] := List.ne_nil_of_length_pos (length_eq_of_mapM hw ▸ hpos)
    have ⟨m, hm⟩ := exists_matrix hl ht.rows hpos hne ds
    dsimp only
    rw [mapM_lift]
    refine (Succeeds.lift hw).bind fun widths' hy => ?_
    cases hy.eq_ok_of_lift.symm.trans hw
    exact (Succeeds.lift hm).bind fun _ _ => .pure _
termination_by structural b
theorem succeeds_flowRows (hd : Moderate defaults.size) {columns row : Nat} {rows : List (List (Cell Block))}
    (hp : ∀ p ∈ rowsParagraphs rows, Settable p) (ht : ∀ t ∈ rowsTables rows, SettableTable t)
    (hc : ∀ cells ∈ rows, ∀ c ∈ cells, SettableCell c) : Succeeds (flowRows defaults columns row rows) := by
  cases rows
  case nil => exact .pure _
  case cons cells rows =>
    have ⟨hpcells, hprows⟩ := List.forall_mem_append.mp hp
    have ⟨htcells, htrows⟩ := List.forall_mem_append.mp ht
    have ⟨hccells, hcrows⟩ := List.forall_mem_cons.mp hc
    refine (succeeds_flowCells hd hpcells htcells hccells).bind fun _ _ => ?_
    exact (succeeds_flowRows hd hprows htrows hcrows).bind fun _ _ => .pure _
termination_by structural rows
theorem succeeds_flowCells (hd : Moderate defaults.size) {row : Nat} {column : Int} {cells : List (Cell Block)}
    (hp : ∀ p ∈ cellsParagraphs cells, Settable p) (ht : ∀ t ∈ cellsTables cells, SettableTable t)
    (hc : ∀ c ∈ cells, SettableCell c) : Succeeds (flowCells defaults row column cells) := by
  cases cells
  case nil => exact .pure _
  case cons c cells =>
    have ⟨hpblocks, hpcells⟩ := List.forall_mem_append.mp hp
    have ⟨htblocks, htcells⟩ := List.forall_mem_append.mp ht
    have ⟨hc, hcells⟩ := List.forall_mem_cons.mp hc
    have hspan : restOfSpan c.span = .ok _ := if_pos hc.span
    have ⟨own, hown⟩ := exists_directives hc row column
    refine (succeeds_flowBlocks hd hpblocks htblocks).bind fun _ _ => ?_
    refine (Succeeds.lift hspan).bind fun _ _ => (Succeeds.lift hown).bind fun _ _ => ?_
    exact (succeeds_flowCells hd hpcells htcells hcells).bind fun _ _ => .pure _
termination_by structural cells
theorem succeeds_flowBlocks (hd : Moderate defaults.size) {blocks : List Block}
    (hp : ∀ p ∈ blocksParagraphs blocks, Settable p) (ht : ∀ t ∈ blocksTables blocks, SettableTable t) :
    Succeeds (flowBlocks defaults blocks) := by
  cases blocks
  case nil => exact .pure _
  case cons b blocks =>
    have ⟨hpb, hpbs⟩ := List.forall_mem_append.mp hp
    have ⟨htb, htbs⟩ := List.forall_mem_append.mp ht
    refine (succeeds_flowBlock hd hpb htb).bind fun _ _ => ?_
    exact (succeeds_flowBlocks hd hpbs htbs).bind fun _ _ => .pure _
termination_by structural blocks
end

end

-- The page of a document that can be set.
structure SettablePage (page : Page) : Prop where
  width   : Moderate page.width
  height  : Moderate page.height
  margins : SettableMargins page.margins

theorem exists_render {d : Document} (hd : Moderate d.defaults.size) (hpage : SettablePage d.page)
    (hp : ∀ p ∈ d.allParagraphs, Settable p) (ht : ∀ t ∈ d.allTables, SettableTable t) : ∃ r, render d = .ok r := by
  have ⟨width, hw⟩ := quotient_of_moderate hpage.width 20
  have ⟨height, hh⟩ := quotient_of_moderate hpage.height 20
  have ⟨left, hl⟩ := quotient_of_moderate hpage.margins.left 20
  have ⟨right, hr⟩ := quotient_of_moderate hpage.margins.right 20
  have ⟨top, htop⟩ := quotient_of_moderate hpage.margins.top 20
  have ⟨bottom, hb⟩ := quotient_of_moderate hpage.margins.bottom 20
  have ⟨fs, _, hrun⟩ := succeeds_flowBlocks hd hp ht 0
  have hs : story d = .ok fs := congrArg Prod.fst hrun
  exact ⟨_, by simp only [render, ofTwips, hw, hh, hl, hr, htop, hb, hs]; rfl⟩

end DefectLog.Preview
