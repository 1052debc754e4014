import DefectLog.Proofs.Word.Spelling
import Mathlib.Data.List.Chain

-- The text of a run comes back from its elements, however many blanks and breaks it has and wherever they are.
namespace DefectLog.Word

open Xml Success

namespace Piece

def isStretch : Piece → Bool
  | .stretch _ _ => true
  | _            => false

-- What a text is split into. Each stretch is as long as it can be.
structure Tidy (ps : List Piece) : Prop where
  stretch : ∀ {text kept}, .stretch text kept ∈ ps →
    text ≠ [] ∧ (∀ c ∈ text, c ∉ ['\t', '\n', '\r']) ∧ .stretch text kept = ofStretch text
  apart   : ps.IsChain fun p q => ¬(p.isStretch ∧ q.isStretch)

variable {p : Piece} {ps : List Piece}

theorem Tidy.of_cons (h : Tidy (p :: ps)) : Tidy ps where
  stretch hm := h.stretch (List.mem_cons_of_mem p hm)
  apart      := h.apart.tail

-- Neither a tab nor a line break has to keep away from anything.
theorem Tidy.break (h : Tidy ps) (hp : p.isStretch = false) : Tidy (p :: ps) where
  stretch hm := by
    cases hm
    case head   => cases hp
    case tail h' => exact h.stretch h'
  apart      := h.apart.cons fun q _ hpq => by simp [hp] at hpq

theorem Tidy.extend {c : Char} {text : List Char} (h : Tidy ps) (hc : c ∉ ['\t', '\n', '\r'])
    (ht : ∀ c ∈ text, c ∉ ['\t', '\n', '\r']) (hps : ∀ p ∈ ps.head?, p.isStretch = false) :
    Tidy (ofStretch (c :: text) :: ps) where
  stretch hm := by
    cases hm
    case head    => exact ⟨List.cons_ne_nil c text, List.forall_mem_cons.mpr ⟨hc, ht⟩, rfl⟩
    case tail h' => exact h.stretch h'
  apart      := h.apart.cons fun q hq hpq => by simp [hps q hq] at hpq

theorem tidy_cons (c : Char) (h : Tidy ps) : Tidy (cons c ps) := by
  unfold cons
  split
  case isTrue => exact h.break rfl
  case isFalse ht =>
    split
    case isTrue => exact h.break rfl
    case isFalse hb =>
      have hc : c ∉ ['\t', '\n', '\r'] := by simp_all
      split
      case h_1 text kept rest =>
        have htext := (h.stretch List.mem_cons_self).right.left
        have hapart := (List.isChain_cons.mp h.apart).left
        exact h.of_cons.extend hc htext fun q hq => by simpa [isStretch] using hapart q hq
      case h_2 _ hs =>
        refine h.extend hc (List.forall_mem_nil _) fun q hq => ?_
        have ⟨rest, hr⟩ := List.head?_eq_some_iff.mp hq
        cases q
        case stretch text kept => exact (hs text kept rest hr).elim
        case tab               => rfl
        case lineBreak         => rfl

theorem tidy_ofText (text : List Char) : Tidy (ofText text) := by
  induction text
  case nil          => exact ⟨fun hm => absurd hm List.not_mem_nil, .nil⟩
  case cons c _ hi  => exact tidy_cons c hi

end Piece

namespace Xml

-- What a reader takes a child of a run for. The blanks at the ends of a text are dropped unless they are kept.
def read (x : Xml) : List Char :=
  if x.tag? = some "w:t" ∧ x.attribute? "xml:space" ≠ some "preserve" then Text.trim x.said else x.said

end Xml

-- A run that a reader takes for one of the tree.
structure ShowsRun (run : DefectLog.Run) (x : Xml) : Prop where
  tag     : x.tag? = some "w:r"
  text    : x.children.flatMap Xml.read = unified run.text
  stretch : ∀ y ∈ x.named "w:t", ∃ text, y.children = [.chars text] ∧ text ≠ "" ∧
    ∀ c ∈ text.toList, c ∉ ['\t', '\n', '\r']
  apart   : x.children.IsChain fun y z => ¬(y.tag? = some "w:t" ∧ z.tag? = some "w:t")

-- A paragraph with the runs of some of the tree, one after the other.
def ShowsRuns (sources : List DefectLog.Paragraph) (x : Xml) : Prop :=
  x.tag? = some "w:p" ∧ List.Forall₂ ShowsRun (sources.flatMap (·.runs)) (x.named "w:r")

theorem Piece.tag?_xml (p : Piece) : p.xml.tag? = some "w:t" ↔ p.isStretch := by
  cases p <;> simp [xml, isStretch, tag?, leaf, w]

theorem Piece.read_xml {p : Piece} {ps : List Piece} (h : Tidy ps) (hp : p ∈ ps) : p.xml.read = p.said := by
  simp only [Xml.read, said_xml, tag?_xml]
  split
  case isFalse => rfl
  case isTrue hx =>
    cases p
    case tab       => cases hx.left
    case lineBreak => cases hx.left
    case stretch text kept =>
      have hk := (h.stretch hp).right.right
      cases kept
      case true  => simp [xml, attribute?] at hx
      case false =>
        have hl : text.length ≤ (Text.trim text).length := by simpa [ofStretch] using hk
        exact (Text.trim_sublist text).eq_of_length_le hl

theorem Run.read_children (r : Run) (h : Piece.Tidy r.pieces) :
    r.xml.children.flatMap Xml.read = r.pieces.flatMap Piece.said := by
  rw [xml, children_w, List.flatMap_cons, List.flatMap_map]
  exact List.flatMap_congr fun p hp => Piece.read_xml h hp

theorem Run.named_t (r : Run) : r.xml.named "w:t" = (r.pieces.filter (·.isStretch)).map Piece.xml := by
  rw [named, xml, children_w, List.filter_cons_of_neg (by simp), List.filter_map]
  refine congrArg _ (List.filter_congr fun p _ => ?_)
  rw [Function.comp, Bool.eq_iff_iff, decide_eq_true_iff, Piece.tag?_xml]

theorem showsRun_of_ofTree {run : DefectLog.Run} {r : Run} (h : Run.ofTree run = .ok r) : ShowsRun run r.xml := by
  have hp := Run.pieces_of_ofTree h
  have ht : Piece.Tidy r.pieces := hp ▸ Piece.tidy_ofText _
  refine ⟨rfl, ?text, ?stretch, ?apart⟩
  case text => rw [Run.read_children r ht, hp, Piece.said_ofText]
  case stretch =>
    intro y hy
    rw [Run.named_t] at hy
    obtain ⟨p, hf, rfl⟩ := List.mem_map.mp hy
    have ⟨hm, hs⟩ := List.mem_filter.mp hf
    cases p
    case tab       => cases hs
    case lineBreak => cases hs
    case stretch text kept =>
      have ⟨hne, hplain, _⟩ := ht.stretch hm
      exact ⟨String.ofList text, rfl, by simpa using hne, by simpa using hplain⟩
  case apart =>
    rw [Run.xml, children_w, List.isChain_cons, List.isChain_map]
    refine ⟨fun y _ hy => by simp at hy, ?_⟩
    simpa only [Piece.tag?_xml] using ht.apart

theorem showsRuns_of_gathers {book : StyleBook} {sources : List DefectLog.Paragraph} {p : Paragraph}
    (h : Paragraph.Gathers book sources p) : ShowsRuns sources p.xml := by
  refine ⟨rfl, ?_⟩
  rw [Paragraph.named_r, List.forall₂_map_right_iff]
  exact h.runs.imp fun _ _ => showsRun_of_ofTree

-- Every paragraph, at any depth, has the runs of the tree, and their texts come back.
theorem runs_of_render {d : Document} {r : Rendering} (h : render d = .ok r) : r.Spells ShowsRuns d :=
  spells_of_render showsRuns_of_gathers h

-- Blanks and breaks at each end of a text, next to each other and alone, in the body and in a cell of a cell.
def spaced : Document where
  defaults := { font := "Arial", size := 22 }
  page     := { width := 12240, height := 15840, margins := {} }
  body     := [
    .paragraph { runs := [
      { text := "\t a\r\n b ", size := 20 }, { text := "", size := 20 }, { text := "\t \t", size := 20 }] },
    .table {
      columnWidths := [1000]
      rows         := [[{ width := 1000, blocks := [
        .table {
          columnWidths := [500]
          rows         := [[{ width := 500, blocks := [.paragraph { runs := [{ text := " c\n\n", size := 20 }] }] }]] },
        .paragraph { runs := [{ text := "d", size := 20 }] }] }]] }]

set_option maxRecDepth 10000 in
theorem exists_render_spaced : ∃ r, render spaced = .ok r :=
  exists_of_isOk (by decide +kernel)

theorem runs_of_render_spaced : ∃ r, render spaced = .ok r ∧ r.Spells ShowsRuns spaced ∧
    spaced.allTables.length = 2 ∧ ∀ t ∈ spaced.allTables, t.SpillFree := by
  have ⟨r, h⟩ := exists_render_spaced
  exact ⟨r, h, runs_of_render h, by decide, by decide⟩

end DefectLog.Word
