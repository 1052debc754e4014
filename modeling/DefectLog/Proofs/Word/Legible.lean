import DefectLog.Proofs.Word.Color
import DefectLog.Proofs.Word.Visiting

-- Every run of a document that is rendered is written, so that its color is one that can be read.
namespace DefectLog

open Success

namespace Text.Numeral

variable {n : Numeral} {s : List Char} {m : Int}

theorem mem_dropWhile_of_not {p : Char → Bool} {c : Char} (hp : p c = false) (h : c ∈ s) : c ∈ s.dropWhile p := by
  induction s
  case nil => exact h
  case cons d s hi =>
    rw [List.dropWhile_cons]
    split
    case isTrue hd =>
      have hne : c ≠ d := fun he => by simp [← he, hp] at hd
      exact hi ((List.mem_cons.mp h).resolve_left hne)
    case isFalse => exact h

theorem quote_not_mem_of_digits {value m : Nat} {afterDigit : Bool} (h : n.digits value afterDigit s = some m) : '"' ∉ s := by
  induction s generalizing value afterDigit
  case nil => exact List.not_mem_nil
  case cons c s hi =>
    rw [digits] at h
    have hq : n.digit? '"' = none := by cases n <;> rfl
    split at h
    case isTrue hc =>
      split at h
      case isTrue  => simp [hc, hi h]
      case isFalse => cases h
    case isFalse =>
      split at h
      case h_1 d hd =>
        have hne : '"' ≠ c := fun he => by simp [← he, hq] at hd
        simp [hne, hi h]
      case h_2 => cases h

theorem quote_not_mem_of_magnitude {m : Nat} (h : n.magnitude s = some m) : '"' ∉ s := by
  unfold magnitude at h
  split at h
  all_goals
    have hs := quote_not_mem_of_digits h
    simpa using hs

theorem quote_not_mem_of_signed (h : n.signed s = some m) : '"' ∉ s := by
  unfold signed at h
  split at h
  case h_1 cs =>
    cases hm : n.magnitude cs
    case none   => simp [hm] at h
    case some m => simp [quote_not_mem_of_magnitude hm]
  case h_2 cs =>
    have ⟨_, hm, _⟩ := Option.map_eq_some_iff.mp h
    simp [quote_not_mem_of_magnitude hm]
  case h_3 =>
    have ⟨_, hm, _⟩ := Option.map_eq_some_iff.mp h
    exact quote_not_mem_of_magnitude hm

-- A quotation mark is no part of a number, and none of the blanks around it.
theorem quote_not_mem_of_parse (h : n.parse s = some m) : '"' ∉ s := by
  intro hs
  refine quote_not_mem_of_signed h (List.mem_reverse.mpr (mem_dropWhile_of_not rfl (List.mem_reverse.mpr ?_)))
  exact mem_dropWhile_of_not rfl (List.mem_map.mpr ⟨'"', hs, rfl⟩)

end Text.Numeral

namespace Word

theorem quote_not_mem_of_channel {text : List Char} {n : Int} (h : channel text = .ok n) : '"' ∉ text := by
  unfold channel at h
  split at h
  case h_1 hp => exact Text.Numeral.quote_not_mem_of_parse hp
  case h_2    => cases h

theorem quote_not_mem_of_readColor {text : String} {color : Rgb} (h : readColor text = .ok color) :
    '"' ∉ text.toList := by
  simp only [readColor, bind_eq_ok] at h
  obtain ⟨_, hred, _, hgreen, _, hblue, _⟩ := h
  have hr := quote_not_mem_of_channel hred
  have hg := quote_not_mem_of_channel hgreen
  have hb := quote_not_mem_of_channel hblue
  rw [← slices_eq text.toList, List.mem_append, List.mem_append]
  exact fun h => h.elim hr fun h => h.elim hg hb

-- A paragraph whose runs can be written.
def Legible (p : DefectLog.Paragraph) : Prop :=
  ∀ run ∈ p.runs, ∃ r, Run.ofTree run = .ok r

variable {book : StyleBook} {unresolved : List String}

theorem Paragraph.legible_of_write {source : DefectLog.Paragraph} {p p' : Paragraph}
    (h : write book source p = .ok (p', unresolved)) : Legible source := by
  have ⟨_, hr, _⟩ := runs_of_write h
  intro run hm
  have ⟨i, hi⟩ := List.getElem?_of_mem hm
  have ⟨r, _, hr⟩ := getElem?_of_forall₂ (mapM_eq_ok.mp hr) hi
  exact ⟨r, hr⟩

theorem Visits.legible {sources : List DefectLog.Paragraph} (h : Visits book sources unresolved) :
    ∀ p ∈ sources, Legible p := by
  induction h
  case nil          => exact List.forall_mem_nil _
  case cons hw _ hi => exact List.forall_mem_cons.mpr ⟨Paragraph.legible_of_write hw, hi⟩

theorem legible_of_render {d : Document} {r : Rendering} (h : render d = .ok r) :
    ∀ p ∈ d.allParagraphs, Legible p := by
  have ⟨_, hv, _⟩ := visits_of_render h
  exact hv.legible

-- The color of a run that can be written has no quotation mark in it.
theorem Run.quote_not_mem_of_ofTree {run : DefectLog.Run} {r : Run} {color : String} (h : ofTree run = .ok r)
    (hc : nonempty? run.color = some color) : '"' ∉ color.toList := by
  simp only [ofTree, bind_eq_ok, hc] at h
  obtain ⟨_, -, _, -, _, hcolor, _⟩ := h
  obtain ⟨_, hread, _⟩ := map_eq_ok.mp hcolor
  exact quote_not_mem_of_readColor hread

end Word

end DefectLog
