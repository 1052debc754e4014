import DefectLog.Proofs.Word.HeadingStyles

-- The place of each style, and the heading that it was set by last.
namespace DefectLog

open Success

namespace Word

-- A style under a name, or with it for an id.
def Style.Answers (style : Style) (name : String) : Prop :=
  style.name = storedName name ∨ style.name = name ∨ style.id = name

theorem Style.Answers.congr {style style' : Style} {name : String} (h : style.Answers name) (hid : style'.id = style.id)
    (hname : style'.name = style.name) : style'.Answers name := by
  rwa [Answers, hid, hname]

namespace StyleBook

-- Where a name is registered: at the style that it stands for, or else after all others.
def placeFor (book : StyleBook) (name : String) : Nat :=
  match book.find name with
  | .ok (some i) => i
  | _            => book.styles.length

-- The places of headings that are registered one after the other.
def places (font : String) : StyleBook → List NamedStyle → List (Nat × NamedStyle)
  | _, []                     => []
  | book, heading :: headings =>
    (book.placeFor heading.name, heading) ::
      match register font book heading with
      | .ok book' => places font book' headings
      | .error _  => []

variable {book book' : StyleBook} {font : String} {heading : NamedStyle} {headings : List NamedStyle}
  {style : Style} {i : Nat}

theorem placeFor_of_found (h : book.find heading.name = .ok (some i)) : book.placeFor heading.name = i := by
  rw [placeFor, h]

theorem placeFor_of_new (h : book.find heading.name = .ok none) : book.placeFor heading.name = book.styles.length := by
  rw [placeFor, h]

theorem places_cons (h : register font book heading = .ok book') :
    places font book (heading :: headings) = (book.placeFor heading.name, heading) :: places font book' headings := by
  rw [places, h]

-- A style keeps its place and its names.
theorem names_of_register (h : register font book heading = .ok book') (hs : book.styles[i]? = some style) :
    ∃ style', book'.styles[i]? = some style' ∧ style'.id = style.id ∧ style'.name = style.name := by
  have ⟨_, style', _, _, h⟩ := register_cases h
  cases h
  case inr h =>
    have ⟨_, _, hstyles⟩ := h
    have ⟨hi, _⟩ := List.getElem?_eq_some_iff.mp hs
    exact ⟨style, by rw [hstyles, List.getElem?_append_left hi, hs], rfl, rfl⟩
  case inl h =>
    have ⟨j, _, hc, hstyles⟩ := h
    rw [hstyles, List.getElem?_set]
    split
    case isFalse => exact ⟨style, hs, rfl, rfl⟩
    case isTrue he =>
      have ⟨hi, _⟩ := List.getElem?_eq_some_iff.mp hs
      rw [he, List.getD_eq_getElem?_getD, hs] at hc
      have ⟨hid, hname, _⟩ := Style.names_of_configure hc
      exact ⟨style', by rw [if_pos (he ▸ hi)], hid, hname⟩

-- Only the style at the place of the heading is set.
theorem style_of_register (h : register font book heading = .ok book') (hs : book'.styles[i]? = some style) :
    if i = book.placeFor heading.name then ∃ old, Style.configure font heading old = .ok style
    else book.styles[i]? = some style := by
  have ⟨place, style', hf, _, h⟩ := register_cases h
  cases h
  case inl h =>
    obtain ⟨j, rfl, hc, hstyles⟩ := h
    rw [hstyles, List.getElem?_set] at hs
    rw [placeFor_of_found hf]
    split
    case isFalse hne => rwa [if_neg (Ne.symm hne)] at hs
    case isTrue he =>
      rw [if_pos he.symm] at hs
      split at hs
      case isFalse => cases hs
      case isTrue  => exact ⟨_, Option.some.inj hs ▸ hc⟩
  case inr h =>
    obtain ⟨rfl, hc, hstyles⟩ := h
    rw [hstyles] at hs
    rw [placeFor_of_new hf]
    split
    case isTrue he =>
      rw [he, List.getElem?_concat_length] at hs
      exact ⟨_, Option.some.inj hs ▸ hc⟩
    case isFalse hne =>
      have ⟨hl, _⟩ := List.getElem?_eq_some_iff.mp hs
      rw [List.length_append, List.length_singleton] at hl
      rwa [List.getElem?_append_left (by omega)] at hs

theorem answers_of_find (h : book.find heading.name = .ok (some i)) (hq : '"' ∉ heading.name.toList) :
    ∃ style, book.styles[i]? = some style ∧ style.Answers heading.name := by
  simp only [find, bind_eq_ok, hq, if_false, pure_eq_ok, place?, Option.or_eq_some_iff] at h
  obtain ⟨_, -, h⟩ := h
  cases h
  case inl h =>
    obtain ⟨hl, hname, -⟩ := List.findIdx?_eq_some_iff_getElem.mp h
    exact ⟨_, List.getElem?_eq_getElem hl, .inl (beq_iff_eq.mp hname)⟩
  case inr h =>
    obtain ⟨hl, hid, -⟩ := List.findIdx?_eq_some_iff_getElem.mp h.right
    exact ⟨_, List.getElem?_eq_getElem hl, .inr (.inr (beq_iff_eq.mp hid))⟩

-- A name without a quotation mark is that of the style at its place.
theorem answers_of_register (h : register font book heading = .ok book') (hq : '"' ∉ heading.name.toList) :
    ∃ style, book'.styles[book.placeFor heading.name]? = some style ∧ style.Answers heading.name := by
  have ⟨place, style', hf, _, hcases⟩ := register_cases h
  cases hcases
  case inl hfound =>
    obtain ⟨j, rfl, -⟩ := hfound
    have ⟨style, hs, hanswers⟩ := answers_of_find hf hq
    have ⟨style', hs', hid, hname⟩ := names_of_register h hs
    exact ⟨style', by rw [placeFor_of_found hf, hs'], hanswers.congr hid hname⟩
  case inr hadded =>
    obtain ⟨rfl, hc, hstyles⟩ := hadded
    have ⟨_, hname, _⟩ := Style.names_of_configure hc
    exact ⟨style', by rw [placeFor_of_new hf, hstyles, List.getElem?_concat_length], .inr (.inl hname)⟩

section Folding

variable (h : headings.foldlM (register font) book = .ok book')
include h

theorem map_places : (places font book headings).map (·.2) = headings := by
  induction headings generalizing book
  case nil => rfl
  case cons heading headings hi =>
    rw [List.foldlM_cons, bind_eq_ok] at h
    obtain ⟨_, hr, h⟩ := h
    rw [places_cons hr, List.map_cons, hi h]

theorem names_of_foldlM (hs : book.styles[i]? = some style) :
    ∃ style', book'.styles[i]? = some style' ∧ style'.id = style.id ∧ style'.name = style.name := by
  induction headings generalizing book style
  case nil =>
    cases pure_eq_ok.mp h
    exact ⟨style, hs, rfl, rfl⟩
  case cons heading headings hi =>
    rw [List.foldlM_cons, bind_eq_ok] at h
    obtain ⟨_, hr, h⟩ := h
    have ⟨style₁, hs₁, hid₁, hname₁⟩ := names_of_register hr hs
    have ⟨style', hs', hid, hname⟩ := hi h hs₁
    exact ⟨style', hs', hid.trans hid₁, hname.trans hname₁⟩

theorem answers_of_foldlM (hm : (i, heading) ∈ places font book headings) (hq : '"' ∉ heading.name.toList) :
    ∃ style, book'.styles[i]? = some style ∧ style.Answers heading.name := by
  induction headings generalizing book
  case nil => cases hm
  case cons first headings hi =>
    rw [List.foldlM_cons, bind_eq_ok] at h
    obtain ⟨_, hr, h⟩ := h
    rw [places_cons hr] at hm
    cases hm
    case tail hm => exact hi h hm
    case head =>
      have ⟨style, hs, hanswers⟩ := answers_of_register hr hq
      have ⟨style', hs', hid, hname⟩ := names_of_foldlM h hs
      exact ⟨style', hs', hanswers.congr hid hname⟩

-- Each style is as the last heading at its place sets it, or as it was before all of them.
theorem style_of_foldlM (hs : book'.styles[i]? = some style) :
    match (places font book headings).reverse.lookup i with
    | some heading => ∃ old, Style.configure font heading old = .ok style
    | none         => book.styles[i]? = some style := by
  induction headings generalizing book
  case nil =>
    cases pure_eq_ok.mp h
    exact hs
  case cons heading headings hi =>
    rw [List.foldlM_cons, bind_eq_ok] at h
    obtain ⟨_, hr, h⟩ := h
    have hrest := hi h
    rw [places_cons hr, List.reverse_cons, List.lookup_append]
    cases hl : (places font _ headings).reverse.lookup i
    case some later => simpa [hl] using hrest
    case none =>
      rw [hl] at hrest
      have hset := style_of_register hr hrest
      split at hset
      case isTrue he  => simpa [List.lookup_cons, he] using hset
      case isFalse hne => simpa [List.lookup_cons, beq_eq_false_iff_ne.mpr hne] using hset

end Folding
end StyleBook

end Word

-- The places of the headings of a document.
def Defaults.places (defaults : Defaults) : List (Nat × NamedStyle) :=
  match Word.sizeText defaults.size with
  | .ok size => (Word.StyleBook.template.withNormal defaults.font size).places defaults.font defaults.namedStyles
  | .error _ => []

theorem Defaults.places_eq (defaults : Defaults) {size : Int} (h : Word.sizeText defaults.size = .ok size) :
    defaults.places =
      (Word.StyleBook.template.withNormal defaults.font size).places defaults.font defaults.namedStyles := by
  unfold places
  rw [h]

-- The last heading at a place.
def Defaults.owner? (defaults : Defaults) (i : Nat) : Option NamedStyle :=
  defaults.places.reverse.lookup i

namespace Word

-- An element for a style as the template has it. Only the default style has the font and the size of the document.
def FromTemplate (defaults : Defaults) (i : Nat) (x : Xml) : Prop :=
  ∃ size style, sizeText defaults.size = .ok size ∧
    (StyleBook.template.withNormal defaults.font size).styles[i]? = some style ∧ x = style.xml

-- Each heading has a place, where the style with its name is. A style tells of the last heading at its place, and
-- those that no heading is at are the ones of the template.
structure StylesTell (defaults : Defaults) (book : StyleBook) (R : NamedStyle → Xml → Prop) (P : Nat → Xml → Prop) :
    Prop where
  headings : defaults.places.map (·.2) = defaults.namedStyles
  found    : ∀ i heading, (i, heading) ∈ defaults.places → '"' ∉ heading.name.toList →
    ∃ style, book.styles[i]? = some style ∧ style.Answers heading.name
  last     : ∀ i style heading, book.styles[i]? = some style → defaults.owner? i = some heading → R heading style.xml
  rest     : ∀ i style, book.styles[i]? = some style → defaults.owner? i = none → P i style.xml

theorem stylesTell_of_defaults {defaults : Defaults} {book : StyleBook} {R : NamedStyle → Xml → Prop}
    {P : Nat → Xml → Prop} (h : StyleBook.ofDefaults defaults = .ok book)
    (hR : ∀ {heading old style}, heading ∈ defaults.namedStyles →
      Style.configure defaults.font heading old = .ok style → R heading style.xml)
    (hP : ∀ {i x}, FromTemplate defaults i x → P i x) :
    StylesTell defaults book R P := by
  simp only [StyleBook.ofDefaults, bind_eq_ok] at h
  obtain ⟨_, -, size, hsize, h⟩ := h
  have hplaces := defaults.places_eq hsize
  have hheadings := hplaces ▸ StyleBook.map_places h
  refine ⟨hheadings, fun i heading hm hq => ?found, fun i style heading hs ho => ?last, fun i style hs ho => ?rest⟩
  case found => exact StyleBook.answers_of_foldlM h (hplaces ▸ hm) hq
  case last =>
    have hstyle := StyleBook.style_of_foldlM h hs
    rw [← hplaces, ← Defaults.owner?, ho] at hstyle
    obtain ⟨_, hc⟩ := hstyle
    obtain ⟨before, after, hsplit, -⟩ := List.lookup_eq_some_iff.mp ho
    have hm : (i, heading) ∈ defaults.places := List.mem_reverse.mp (by simp [hsplit])
    exact hR (hheadings ▸ List.mem_map_of_mem hm) hc
  case rest =>
    have hstyle := StyleBook.style_of_foldlM h hs
    rw [← hplaces, ← Defaults.owner?, ho] at hstyle
    exact hP ⟨size, style, hsize, hstyle, rfl⟩

end Word
end DefectLog
