import DefectLog.Proofs.Success
import DefectLog.Word.StyleBook

-- Which styles a document has, and which name is registered under a style id.
namespace DefectLog

-- The name under which a style id is registered. The last entry of an id counts, and an empty name is none.
def Defaults.styleName? (defaults : Defaults) (styleId : String) : Option String :=
  Word.nonempty? ((defaults.namedStyles.reverse.find? (·.styleId == styleId)).map (·.name))

namespace Word

open Success

variable {defaults : Defaults} {book book' : StyleBook} {font : String} {heading : NamedStyle}

namespace StyleBook

theorem styles_template (font : String) (size : Int) : (template.withNormal font size).styles =
    { Style.normal with font := some font, size := some size } :: (List.range' 1 9).map Style.templateHeading :=
  rfl

-- A style that is found is configured in its place. Otherwise one is added.
theorem register_cases (h : register font book heading = .ok book') :
    ∃ place style, book.find heading.name = .ok place ∧
      book'.registered = (heading.styleId, heading.name) :: book.registered ∧
      ((∃ i, place = some i ∧ Style.configure font heading (book.styles.getD i Style.normal) = .ok style ∧
          book'.styles = book.styles.set i style) ∨
        (place = none ∧ Style.configure font heading (Style.ofName heading.name) = .ok style ∧
          book'.styles = book.styles ++ [style])) := by
  simp only [register, bind_eq_ok] at h
  obtain ⟨place, hf, h⟩ := h
  cases place
  case some i =>
    simp only [bind_eq_ok, pure_eq_ok] at h
    obtain ⟨style, hs, rfl⟩ := h
    exact ⟨some i, style, hf, rfl, .inl ⟨i, rfl, hs, rfl⟩⟩
  case none =>
    simp only at h
    split at h
    case isTrue  => cases h
    case isFalse =>
      simp only [bind_eq_ok, pure_eq_ok] at h
      obtain ⟨style, hs, rfl⟩ := h
      exact ⟨none, style, hf, rfl, .inr ⟨rfl, hs, rfl⟩⟩

theorem registered_of_foldlM {headings : List NamedStyle} (h : headings.foldlM (register font) book = .ok book') :
    book'.registered = (headings.reverse.map fun s => (s.styleId, s.name)) ++ book.registered := by
  induction headings generalizing book
  case nil =>
    cases pure_eq_ok.mp h
    rfl
  case cons heading headings hi =>
    rw [List.foldlM_cons, bind_eq_ok] at h
    obtain ⟨_, hr, h⟩ := h
    have ⟨_, _, _, hregistered, _⟩ := register_cases hr
    rw [hi h, hregistered, List.reverse_cons, List.map_append, List.append_assoc]
    rfl

end StyleBook

theorem lookup_registered (headings : List NamedStyle) (styleId : String) :
    (headings.map fun s => (s.styleId, s.name)).lookup styleId =
      (headings.find? (·.styleId == styleId)).map (·.name) := by
  induction headings
  case nil             => rfl
  case cons s rest hi =>
    rw [List.map_cons, List.lookup_cons, List.find?_cons, hi, BEq.comm]
    cases s.styleId == styleId <;> rfl

theorem StyleBook.nameOf?_ofDefaults (h : ofDefaults defaults = .ok book) (styleId : String) :
    book.nameOf? styleId = defaults.styleName? styleId := by
  simp only [ofDefaults, bind_eq_ok] at h
  obtain ⟨_, _, _, _, h⟩ := h
  rw [nameOf?, registered_of_foldlM h, Defaults.styleName?, ← lookup_registered]
  exact congrArg (nonempty? <| List.lookup styleId ·) (List.append_nil _)

end Word
end DefectLog
