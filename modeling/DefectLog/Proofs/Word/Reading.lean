import DefectLog.Proofs.Success
import DefectLog.Proofs.Word.Elements

-- Reading the text of a paragraph back from its elements.
namespace DefectLog.Word

open Xml Success

-- A carriage return comes back as a line feed.
def unified (text : String) : List Char :=
  text.toList.map fun c => if c = '\r' then '\n' else c

-- What a piece of a run stands for.
def Piece.said : Piece → List Char
  | .stretch text _ => text
  | .tab            => ['\t']
  | .lineBreak      => ['\n']

namespace Xml

-- What a child of a run stands for.
def said (x : Xml) : List Char :=
  if x.tag? = some "w:t" then x.children.flatMap fun
    | .chars text     => text.toList
    | .element _ _ _  => []
  else if x.tag? = some "w:tab" then ['\t']
  else if x.tag? = some "w:br" then ['\n']
  else []

-- The text of a paragraph.
def text (p : Xml) : List Char :=
  (p.named "w:r").flatMap fun run => run.children.flatMap said

-- A paragraph with a text.
def Reads (text : String) (p : Xml) : Prop :=
  p.tag? = some "w:p" ∧ p.text = unified text

end Xml

theorem Piece.said_xml (p : Piece) : p.xml.said = p.said := by
  cases p <;> simp [Piece.xml, Xml.said, Piece.said, leaf, w, tag?, children]

theorem Piece.said_cons (c : Char) (ps : List Piece) :
    (cons c ps).flatMap said = (if c = '\r' then '\n' else c) :: ps.flatMap said := by
  unfold cons
  by_cases ht : c = '\t'
  case pos => simp [ht, said]
  case neg =>
    by_cases hb : c = '\n' ∨ c = '\r'
    case pos =>
      have hc : (if c = '\r' then '\n' else c) = '\n' := by
        cases hb
        case inl h => simp [h]
        case inr h => simp [h]
      simp [ht, hb, hc, said]
    case neg =>
      have hr : c ≠ '\r' := fun h => hb (.inr h)
      rw [if_neg ht, if_neg hb, if_neg hr]
      split
      case h_1 => simp [ofStretch, said]
      case h_2 => simp [ofStretch, said]

theorem Piece.said_ofText (text : String) : (ofText text.toList).flatMap said = unified text := by
  unfold ofText unified
  induction text.toList
  case nil          => rfl
  case cons c cs hi => rw [List.foldr_cons, said_cons, hi, List.map_cons]

-- A run has its properties first, which say nothing.
theorem Run.said_children (r : Run) : r.xml.children.flatMap Xml.said = r.pieces.flatMap Piece.said := by
  rw [Run.xml, children_w, List.flatMap_cons, List.flatMap_map]
  simp only [Piece.said_xml]
  rfl

theorem Run.pieces_of_ofTree {source : DefectLog.Run} {r : Run} (h : ofTree source = .ok r) :
    r.pieces = Piece.ofText source.text.toList := by
  simp only [ofTree, bind_eq_ok, pure_eq_ok] at h
  obtain ⟨_, -, size, -, color, -, _, -, rfl⟩ := h
  rfl

theorem Paragraph.named_r (p : Paragraph) : p.xml.named "w:r" = p.runs.map Run.xml := by
  rw [Paragraph.xml, named_unlessEmpty (by simp), named_map fun _ => rfl]

theorem Paragraph.text_xml (p : Paragraph) :
    p.xml.text = p.runs.flatMap fun r => r.pieces.flatMap Piece.said := by
  rw [text, named_r, List.flatMap_map]
  simp only [Run.said_children]

-- What is written to a paragraph replaces what it holds, or follows it.
theorem Paragraph.write_eq_ok {book : StyleBook} {source : DefectLog.Paragraph} {p p' : Paragraph}
    {unresolved : List String} (h : write book source p = .ok (p', unresolved)) :
    ∃ style rules spacing indent runs, restyle book source.styleId p.style = .ok (style, unresolved) ∧
      source.runs.mapM Run.ofTree = .ok runs ∧ p' = {
        style, indent
        rules        := p.rules ++ rules
        spacing      := some spacing
        alignment    := source.alignment.or p.alignment
        outlineLevel := source.outlineLevel.or p.outlineLevel
        runs         := p.runs ++ runs } := by
  simp only [write, bind_eq_ok] at h
  obtain ⟨_, hs, _, -, _, -, _, -, h⟩ := h
  split at h <;> simp only [bind_eq_ok, pure_eq_ok, Prod.mk.injEq] at h
  all_goals
    obtain ⟨_, -, _, hr, rfl, rfl⟩ := h
    exact ⟨_, _, _, _, _, hs, hr, rfl⟩

-- The runs are written last, one for each run of the tree.
theorem Paragraph.runs_of_write {book : StyleBook} {source : DefectLog.Paragraph} {p p' : Paragraph}
    {unresolved : List String} (h : write book source p = .ok (p', unresolved)) :
    ∃ runs, source.runs.mapM Run.ofTree = .ok runs ∧ p'.runs = p.runs ++ runs := by
  obtain ⟨_, _, _, _, runs, -, hr, rfl⟩ := write_eq_ok h
  exact ⟨runs, hr, rfl⟩

theorem Paragraph.spacing_of_write {book : StyleBook} {source : DefectLog.Paragraph} {p p' : Paragraph}
    {unresolved : List String} (h : write book source p = .ok (p', unresolved)) :
    ∃ spacing, lengthText source.spacing.before = .ok spacing.1 ∧ lengthText source.spacing.after = .ok spacing.2 ∧
      p'.spacing = some spacing := by
  simp only [write, bind_eq_ok] at h
  obtain ⟨_, -, _, -, before, hbefore, after, hafter, h⟩ := h
  split at h <;> simp only [bind_eq_ok, pure_eq_ok, Prod.mk.injEq] at h
  all_goals
    obtain ⟨_, -, _, -, rfl, -⟩ := h
    exact ⟨(before, after), hbefore, hafter, rfl⟩

theorem Run.said_of_forall₂ {sources : List DefectLog.Run} {runs : List Run}
    (h : List.Forall₂ (fun source r => ofTree source = .ok r) sources runs) :
    (runs.flatMap fun r => r.pieces.flatMap Piece.said) = sources.flatMap fun run => unified run.text := by
  induction h
  case nil         => rfl
  case cons h _ hi => rw [List.flatMap_cons, List.flatMap_cons, pieces_of_ofTree h, Piece.said_ofText, hi]

-- What a paragraph says is what its runs are given.
theorem Paragraph.text_of_write {book : StyleBook} {source : DefectLog.Paragraph} {p : Paragraph}
    {unresolved : List String} (h : write book source {} = .ok (p, unresolved)) :
    p.xml.text = source.runs.flatMap fun run => unified run.text := by
  have ⟨runs, hr, hp⟩ := runs_of_write h
  rw [text_xml, hp, List.nil_append]
  exact Run.said_of_forall₂ (mapM_eq_ok.mp hr)

end DefectLog.Word
