import DefectLog.Proofs.Document.Paragraphs
import DefectLog.Proofs.Preview.Reading
import DefectLog.Proofs.Word.Legible

-- The preview has a counterpart for each paragraph of the tree, in the place where the tree has it.
namespace DefectLog.Preview

open Success

-- What a conversion gives, whatever the numbers of the paragraphs are.
def Yields (x : Numbered α) (a : α) : Prop :=
  ∃ before after, x.run before = (.ok a, after)

namespace Yields

variable {x : Numbered α} {a a' : α} {b : β}

theorem bind {f : α → Numbered β} (h : Yields (x >>= f) b) : ∃ a, Yields x a ∧ Yields (f a) b := by
  have ⟨before, after, h⟩ := h
  have h : ExceptT.bindCont f (x.run before).1 (x.run before).2 = (.ok b, after) := h
  cases hx : x.run before
  case mk result between =>
    rw [hx] at h
    cases result
    case error => cases h
    case ok a  => exact ⟨a, ⟨before, between, hx⟩, ⟨between, after, h⟩⟩

theorem eq_of_pure (h : Yields (pure a) a') : a = a' := by
  have ⟨_, _, h⟩ := h
  cases h
  rfl

theorem eq_ok_of_lift {e : Except Fault α} (h : Yields (liftM e) a) : e = .ok a := by
  have ⟨_, _, h⟩ := h
  cases h
  rfl

end Yields

variable {defaults : Defaults} {p : Paragraph} {f : Flowable}

theorem flowRule_eq_ok {border : Border} (h : flowRule p border = .ok f) : ∃ r, f = .rule r := by
  simp only [flowRule, bind_eq_ok, pure_eq_ok] at h
  obtain ⟨_, -, _, -, _, -, _, -, rfl⟩ := h
  exact ⟨_, rfl⟩

theorem flowGap_eq_ok (h : flowGap p = .ok f) : ∃ height, f = .gap height := by
  simp only [flowGap, bind_eq_ok, pure_eq_ok] at h
  obtain ⟨_, -, _, -, rfl⟩ := h
  exact ⟨_, rfl⟩

theorem flowText_yields (h : Yields (flowText defaults p) f) :
    ∃ t, f = .text t ∧ Markup.ofRuns defaults.font p.runs = .ok t.markup.toList := by
  have ⟨markup, hm, h⟩ := h.bind
  have ⟨number, _, h⟩ := h.bind
  have ⟨other, _, h⟩ := h.bind
  have ⟨largest, _, h⟩ := h.bind
  have ⟨before, _, h⟩ := h.bind
  have ⟨after, _, h⟩ := h.bind
  have ⟨indent, _, h⟩ := h.bind
  have ⟨_, _, h⟩ := h.bind
  exact ⟨_, h.eq_of_pure.symm, by rw [hm.eq_ok_of_lift, String.toList_ofList]⟩

-- A text that says what the runs of a paragraph say, one after the other.
def Says (p : Paragraph) (t : TextFlow) : Prop :=
  ∃ parts, Markup.tokens? t.markup.toList = some parts.flatten ∧ List.Forall₂ Markup.SaysRun p.runs parts

-- What stands in a preview for a block. A cell of the tree is an entry of the row, with a blank one for each further
-- column that it spans, and further blank ones fill up the row.
mutual
inductive Mirrors : Block → Flowable → Prop
  | rule {p border r} : (p.rule = some border) → Mirrors (.paragraph p) (.rule r)
  | gap {p height} : (p.rule = none) → (Text.allBlank p.text) → Mirrors (.paragraph p) (.gap height)
  | text {p t} : (p.rule = none) → (Text.allBlank p.text = false) → (Says p t) → Mirrors (.paragraph p) (.text t)
  | table {t m} : (MirrorsRows t.columnWidths.length t.rows m.entries) → Mirrors (.table t) (.table m)
inductive MirrorsRows : Nat → List (List (Cell Block)) → List (List (List Flowable)) → Prop
  | nil {columns} : MirrorsRows columns [] []
  | cons {columns cells entries rows more} :
    (MirrorsCells cells entries) → (MirrorsRows columns rows more) →
    MirrorsRows columns (cells :: rows) ((entries ++ List.replicate (columns - entries.length) []) :: more)
inductive MirrorsCells : List (Cell Block) → List (List Flowable) → Prop
  | nil : MirrorsCells [] []
  | cons {c cells flowables entries} :
    (MirrorsBlocks c.blocks flowables) → (MirrorsCells cells entries) →
    MirrorsCells (c :: cells) (flowables :: List.replicate (c.span - 1).toNat [] ++ entries)
inductive MirrorsBlocks : List Block → List Flowable → Prop
  | nil : MirrorsBlocks [] []
  | cons {b f bs fs} : (Mirrors b f) → (MirrorsBlocks bs fs) → MirrorsBlocks (b :: bs) (f :: fs)
end

-- No color of the paragraph goes on with markup of its own.
def Enclosed (p : Paragraph) : Prop :=
  ∀ run ∈ p.runs, breaksOut run = false

theorem mirrors_flowParagraph (hp : Enclosed p) (h : Yields (flowParagraph defaults p) f) : Mirrors (.paragraph p) f := by
  unfold flowParagraph at h
  split at h
  case h_1 border hr =>
    have ⟨r, hf⟩ := flowRule_eq_ok h.eq_ok_of_lift
    exact hf ▸ .rule hr
  case h_2 hr =>
    split at h
    case isTrue hb =>
      have ⟨height, hf⟩ := flowGap_eq_ok h.eq_ok_of_lift
      exact hf ▸ .gap hr hb
    case isFalse hb =>
      have ⟨t, hf, hm⟩ := flowText_yields h
      have ⟨parts, hs, ht⟩ := Markup.reads_ofRuns hp hm
      exact hf ▸ .text hr (eq_false_of_ne_true hb) ⟨parts, ht, hs.imp fun _ _ => Markup.TellsRun.says⟩

theorem eq_of_restOfSpan {span : Int} {rest : List (List Flowable)} (h : restOfSpan span = .ok rest) :
    rest = List.replicate (span - 1).toNat [] := by
  unfold restOfSpan at h
  split at h
  case isTrue  => exact (Except.ok.inj h).symm
  case isFalse => cases h

theorem matrix_eq_ok {entries : List (List (List Flowable))} {widths : List Rat} {ds : List Directive}
    {m : Matrix Flowable} (h : matrix entries widths ds = .ok m) : m.entries = entries ∧ m.columnWidths = widths ∧
      m.directives = { first := (0, 0), last := (-1, -1), effect := .alignTop } :: ds := by
  unfold matrix at h
  split at h
  case isTrue => cases h
  case isFalse =>
    split at h
    case isTrue  => cases h
    case isFalse => exact Except.ok.inj h ▸ ⟨rfl, rfl, rfl⟩

-- One case for each function of the preview.
mutual
theorem mirrors_flowBlock {b : Block} {f : Flowable} (hb : ∀ p ∈ b.allParagraphs, Enclosed p)
    (h : Yields (flowBlock defaults b) f) : Mirrors b f := by
  cases b
  case paragraph p => exact mirrors_flowParagraph (List.forall_mem_singleton.mp hb) h
  case table t =>
    have ⟨⟨entries, directives⟩, hrows, h⟩ := h.bind
    have ⟨_, _, h⟩ := h.bind
    have ⟨m, hm, h⟩ := h.bind
    have ⟨he, _⟩ := matrix_eq_ok hm.eq_ok_of_lift
    exact h.eq_of_pure ▸ .table (he ▸ mirrors_flowRows hb hrows)
termination_by structural b
theorem mirrors_flowRows {columns row : Nat} {rows : List (List (Cell Block))}
    {result : List (List (List Flowable)) × List Directive} (hb : ∀ p ∈ rowsParagraphs rows, Enclosed p)
    (h : Yields (flowRows defaults columns row rows) result) : MirrorsRows columns rows result.1 := by
  cases rows
  case nil => exact h.eq_of_pure ▸ .nil
  case cons cells rows =>
    have ⟨hcells, hrows⟩ := List.forall_mem_append.mp hb
    have ⟨⟨entries, _⟩, he, h⟩ := h.bind
    have ⟨⟨more, _⟩, hm, h⟩ := h.bind
    exact h.eq_of_pure ▸ .cons (mirrors_flowCells hcells he) (mirrors_flowRows hrows hm)
termination_by structural rows
theorem mirrors_flowCells {row : Nat} {column : Int} {cells : List (Cell Block)}
    {result : List (List Flowable) × List Directive} (hb : ∀ p ∈ cellsParagraphs cells, Enclosed p)
    (h : Yields (flowCells defaults row column cells) result) : MirrorsCells cells result.1 := by
  cases cells
  case nil => exact h.eq_of_pure ▸ .nil
  case cons c cells =>
    have ⟨hblocks, hcells⟩ := List.forall_mem_append.mp hb
    have ⟨flowables, hf, h⟩ := h.bind
    have ⟨rest, hr, h⟩ := h.bind
    have ⟨own, _, h⟩ := h.bind
    have ⟨⟨entries, _⟩, he, h⟩ := h.bind
    cases eq_of_restOfSpan hr.eq_ok_of_lift
    exact h.eq_of_pure ▸ .cons (mirrors_flowBlocks hblocks hf) (mirrors_flowCells hcells he)
termination_by structural cells
theorem mirrors_flowBlocks {blocks : List Block} {fs : List Flowable} (hb : ∀ p ∈ blocksParagraphs blocks, Enclosed p)
    (h : Yields (flowBlocks defaults blocks) fs) : MirrorsBlocks blocks fs := by
  cases blocks
  case nil => exact h.eq_of_pure ▸ .nil
  case cons b blocks =>
    have ⟨hblock, hblocks⟩ := List.forall_mem_append.mp hb
    have ⟨f, hf, h⟩ := h.bind
    have ⟨fs, hfs, h⟩ := h.bind
    exact h.eq_of_pure ▸ .cons (mirrors_flowBlock hblock hf) (mirrors_flowBlocks hblocks hfs)
termination_by structural blocks
end

-- What the flowables of a preview have of their own, in reading order. A table comes before its entries.
mutual
def Flowable.collect (own : Flowable → List α) : Flowable → List α
  | .text t   => own (.text t)
  | .rule r   => own (.rule r)
  | .gap size => own (.gap size)
  | .table m  => own (.table m) ++ collectRows own m.entries
def collectRows (own : Flowable → List α) : List (List (List Flowable)) → List α
  | []          => []
  | row :: rows => collectRow own row ++ collectRows own rows
def collectRow (own : Flowable → List α) : List (List Flowable) → List α
  | []           => []
  | entry :: row => collectEntry own entry ++ collectRow own row
def collectEntry (own : Flowable → List α) : List Flowable → List α
  | []      => []
  | f :: fs => f.collect own ++ collectEntry own fs
end

section

variable (own : Flowable → List α)

theorem collectRow_append (row row' : List (List Flowable)) :
    collectRow own (row ++ row') = collectRow own row ++ collectRow own row' := by
  induction row
  case nil       => rfl
  case cons _ hi => simp only [List.cons_append, collectRow, hi, List.append_assoc]

theorem collectRow_blank (n : Nat) : collectRow own (List.replicate n []) = [] := by
  induction n
  case zero    => rfl
  case succ hi => simp only [List.replicate_succ, collectRow, collectEntry, hi, List.append_nil]

-- A row that is filled up with blank entries has nothing more than before.
theorem collectRows_filled (columns : Nat) (row : List (List Flowable)) (rows : List (List (List Flowable))) :
    collectRows own ((row ++ List.replicate columns []) :: rows) = collectRow own row ++ collectRows own rows := by
  rw [collectRows, collectRow_append, collectRow_blank, List.append_nil]

-- Neither do the columns that a cell spans after its first one.
theorem collectRow_spanned (columns : Nat) (entry : List Flowable) (row : List (List Flowable)) :
    collectRow own (entry :: List.replicate columns [] ++ row) = collectEntry own entry ++ collectRow own row := by
  rw [List.cons_append, collectRow, collectRow_append, collectRow_blank, List.nil_append]

end

def Flowable.ownText : Flowable → List TextFlow
  | .text t => [t]
  | _       => []

-- The texts of a preview in reading order.
def Flowable.texts (f : Flowable) : List TextFlow :=
  f.collect ownText

def entryTexts (fs : List Flowable) : List TextFlow :=
  collectEntry Flowable.ownText fs

@[simp] theorem Flowable.texts_text (t : TextFlow) : (text t).texts = [t] :=
  rfl

@[simp] theorem Flowable.texts_rule (r : RuleFlow) : (rule r).texts = [] :=
  rfl

@[simp] theorem Flowable.texts_gap (height : Rat) : (gap height).texts = [] :=
  rfl

@[simp] theorem Flowable.texts_table (m : Matrix Flowable) : (table m).texts = collectRows ownText m.entries :=
  rfl

@[simp] theorem entryTexts_nil : entryTexts [] = [] :=
  rfl

@[simp] theorem entryTexts_cons (f : Flowable) (fs : List Flowable) :
    entryTexts (f :: fs) = f.texts ++ entryTexts fs :=
  rfl

-- A paragraph that has something to say and no rule in its place.
def showsText (p : Paragraph) : Bool :=
  p.rule.isNone && !Text.allBlank p.text

mutual
theorem Mirrors.texts {b : Block} {f : Flowable} (h : Mirrors b f) :
    List.Forall₂ Says (b.allParagraphs.filter showsText) f.texts := by
  cases h
  case rule hr       => simp [Block.allParagraphs, showsText, hr]
  case gap hr hb     => simp [Block.allParagraphs, showsText, hr, hb]
  case text hr hb hs => simpa [Block.allParagraphs, showsText, hr, hb] using hs
  case table h       => exact h.texts
termination_by structural b
theorem MirrorsRows.texts {columns : Nat} {rows : List (List (Cell Block))} {more : List (List (List Flowable))}
    (h : MirrorsRows columns rows more) :
    List.Forall₂ Says ((rowsParagraphs rows).filter showsText) (collectRows Flowable.ownText more) := by
  cases h
  case nil => exact .nil
  case cons hcells hrows =>
    rw [rowsParagraphs, List.filter_append, collectRows_filled]
    exact List.rel_append hcells.texts hrows.texts
termination_by structural rows
theorem MirrorsCells.texts {cells : List (Cell Block)} {entries : List (List Flowable)} (h : MirrorsCells cells entries) :
    List.Forall₂ Says ((cellsParagraphs cells).filter showsText) (collectRow Flowable.ownText entries) := by
  cases h
  case nil => exact .nil
  case cons hblocks hcells =>
    rw [cellsParagraphs, List.filter_append, collectRow_spanned]
    exact List.rel_append hblocks.texts hcells.texts
termination_by structural cells
theorem MirrorsBlocks.texts {blocks : List Block} {fs : List Flowable} (h : MirrorsBlocks blocks fs) :
    List.Forall₂ Says ((blocksParagraphs blocks).filter showsText) (entryTexts fs) := by
  cases h
  case nil => exact .nil
  case cons hb hbs =>
    rw [blocksParagraphs, List.filter_append, entryTexts_cons]
    exact List.rel_append hb.texts hbs.texts
termination_by structural blocks
end

-- The color of a run that the other document can be written with stays between its quotation marks.
theorem enclosed_of_legible {p : Paragraph} (h : Word.Legible p) : Enclosed p := by
  intro run hm
  have ⟨r, hr⟩ := h run hm
  cases hc : Markup.colorOf run
  case none       => simp [breaksOut, hc]
  case some color => simpa [breaksOut, hc] using Word.Run.quote_not_mem_of_ofTree hr hc

-- The preview of a document that can be written too. A paragraph that is not blank has its text there unless a rule
-- takes its place, and that is the only way in which a text gets lost.
theorem mirrored_of_story {d : Document} {r : Word.Rendering} {fs : List Flowable} (hr : Word.render d = .ok r)
    (h : story d = .ok fs) :
    MirrorsBlocks d.body fs ∧ List.Forall₂ Says (d.allParagraphs.filter showsText) (entryTexts fs) ∧
    ((∀ p ∈ d.allParagraphs, Text.allBlank p.text = false → p.rule = none) ↔
      List.Forall₂ Says (d.allParagraphs.filter (!Text.allBlank ·.text)) (entryTexts fs)) := by
  have hb : ∀ p ∈ d.allParagraphs, Enclosed p := fun p hp => enclosed_of_legible (Word.legible_of_render hr p hp)
  have hm := mirrors_flowBlocks hb ⟨0, _, Prod.ext h rfl⟩
  have ht : List.Forall₂ Says (d.allParagraphs.filter showsText) (entryTexts fs) := hm.texts
  refine ⟨hm, ht, fun hn => ?mp, fun hall p hp hblank => ?mpr⟩
  case mp =>
    have hf : d.allParagraphs.filter (!Text.allBlank ·.text) = d.allParagraphs.filter showsText := by
      refine List.filter_congr fun p hp => ?_
      cases hblank : Text.allBlank p.text
      case true  => simp [showsText, hblank]
      case false => simp [showsText, hblank, hn p hp hblank]
    exact hf ▸ ht
  case mpr =>
    have hl := ht.length_eq.trans hall.length_eq.symm
    have hs : d.allParagraphs.filter showsText =
        (d.allParagraphs.filter (!Text.allBlank ·.text)).filter (·.rule.isNone) := List.filter_filter.symm
    rw [hs, List.length_filter_eq_length_iff] at hl
    exact Option.isNone_iff_eq_none.mp (hl p (List.mem_filter.mpr ⟨hp, by simp [hblank]⟩))

-- Text with blanks and marks in front of a rule, under one, and in a table inside of a cell that spans two columns.
def previewed : Document where
  defaults := { font := "Arial", size := 22 }
  page     := { width := 12240, height := 15840, margins := {} }
  body     := [
    .paragraph { runs := [{ text := "  a & b", size := 22, bold := true, italic := true },
                          { text := "<c>", size := 21, color := some "1F3864", font := some "Courier New" }] },
    .paragraph { runs := [{ text := "hidden", size := 20 }], rule := some {} },
    .paragraph { runs := [{ text := "\t ", size := 20 }] },
    .table {
      columnWidths := [1000, 1000, 1000]
      rows         := [
        [{ width := 2000, span := 2, blocks := [
          .paragraph { runs := [{ text := "d", size := 20 }] },
          .table { columnWidths := [500], rows := [[{ width := 500, blocks := [
            .paragraph { runs := [{ text := "e", size := 20 }] }] }]] }] }],
        [{ width := 1000, blocks := [] }]] }]

set_option maxRecDepth 10000 in
theorem mirrored_of_story_previewed : ∃ r fs, Word.render previewed = .ok r ∧ story previewed = .ok fs ∧
    (MirrorsBlocks previewed.body fs ∧
    List.Forall₂ Says (previewed.allParagraphs.filter showsText) (entryTexts fs) ∧
    ((∀ p ∈ previewed.allParagraphs, Text.allBlank p.text = false → p.rule = none) ↔
      List.Forall₂ Says (previewed.allParagraphs.filter (!Text.allBlank ·.text)) (entryTexts fs))) ∧
    (previewed.allParagraphs.filter showsText).length = 3 ∧
    (previewed.allParagraphs.filter (!Text.allBlank ·.text)).length = 4 := by
  have ⟨r, hr⟩ : ∃ r, Word.render previewed = .ok r := exists_of_isOk (by decide +kernel)
  have ⟨fs, h⟩ : ∃ fs, story previewed = .ok fs := exists_of_isOk (by decide +kernel)
  exact ⟨r, fs, hr, h, mirrored_of_story hr h, by decide, by decide⟩

end DefectLog.Preview
