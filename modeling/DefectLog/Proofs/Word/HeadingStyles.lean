import DefectLog.Proofs.Number.Decimal
import DefectLog.Proofs.Word.Registered
import DefectLog.Report.Assembly
import DefectLog.Word.Paragraph

-- The styles of headings, which are found under their names in the template or added to it.
namespace DefectLog.Word

open Number Success

def headingName (level : Int) : String :=
  "Heading " ++ toString level

section

variable {level level' : Int}

theorem toList_headingName (level : Int) :
    (headingName level).toList = 'H' :: ("eading ".toList ++ (toString level).toList) :=
  String.toList_append

theorem quote_not_mem_headingName (level : Int) : '"' ∉ (headingName level).toList := by
  have h : '"' ∉ (toString level).toList := not_mem_of_not_digit (by decide) (by decide)
  simpa [toList_headingName] using h

theorem toList_headingId (level : Int) :
    (NamedStyle.headingId level).toList = "Heading".toList ++ (toString level).toList :=
  String.toList_append

theorem space_not_mem_headingId (level : Int) : ' ' ∉ (NamedStyle.headingId level).toList := by
  have h : ' ' ∉ (toString level).toList := not_mem_of_not_digit (by decide) (by decide)
  simpa [toList_headingId] using h

-- The id is the name without the only space in it.
theorem idOfName_headingName (level : Int) : Style.idOfName (headingName level) = NamedStyle.headingId level := by
  have h : ' ' ∉ (toString level).toList := not_mem_of_not_digit (by decide) (by decide)
  have hf : (toString level).toList.filter (· ≠ ' ') = (toString level).toList :=
    List.filter_eq_self.mpr fun c hc => decide_eq_true fun he => h (he ▸ hc)
  rw [← String.toList_inj, Style.idOfName, String.toList_ofList, toList_headingName, toList_headingId,
    List.filter_cons_of_pos (by decide), List.filter_append, hf]
  rfl

theorem headingId_inj (h : NamedStyle.headingId level = NamedStyle.headingId level') : level = level' :=
  toString_inj (String.append_right_inj _ |>.mp h)

theorem drop_storedName (name : String) : (Style.storedName name).toList.drop 1 = name.toList.drop 1 := by
  unfold Style.storedName
  split
  case isTrue  => rw [String.toList_append]; simp
  case isFalse => rfl

-- Whatever a name is stored as, it tells the level.
theorem level_of_storedName {name : String}
    (hn : name.toList.drop 1 = "eading ".toList ++ (toString level).toList)
    (h : name = Style.storedName (headingName level')) : level = level' := by
  rw [h, drop_storedName, toList_headingName] at hn
  exact (toString_inj (String.toList_inj.mp (List.append_cancel_left hn))).symm

end

theorem Style.names_of_configure {font : String} {heading : NamedStyle} {style style' : Style}
    (h : configure font heading style = .ok style') :
    style'.id = style.id ∧ style'.name = style.name ∧ style'.isDefault = style.isDefault := by
  simp only [configure, bind_eq_ok, pure_eq_ok] at h
  obtain ⟨_, -, _, -, _, -, _, -, _, -, rfl⟩ := h
  exact ⟨rfl, rfl, rfl⟩

-- Whatever style carries the name of a heading has the id that the heading is given. The headings of the
-- template are there.
structure NamesHeadings (styles : List Style) : Prop where
  spaceless : ∀ style ∈ styles, ' ' ∉ style.id.toList
  heading   : ∀ style ∈ styles, ∀ level, style.name = Style.storedName (headingName level) →
    style.id = NamedStyle.headingId level ∧ style.isDefault = false
  template  : ∀ n ∈ List.range' 1 9, Style.storedName (headingName n) ∈ styles.map (·.name)

namespace NamesHeadings

variable {styles : List Style} {style style' : Style} {level : Int} {i : Nat}

theorem storedName_eq (hs : NamesHeadings styles) (h : Style.storedName (headingName level) ∉ styles.map (·.name)) :
    Style.storedName (headingName level) = headingName level := by
  unfold Style.storedName
  split
  case isFalse => rfl
  case isTrue hm =>
    have ⟨n, hn, he⟩ := List.mem_map.mp hm
    have he : headingName level = headingName n := he.symm
    exact (h (he ▸ hs.template n hn)).elim

-- A style may change in all but its names.
theorem set (hs : NamesHeadings styles) (hi : styles[i]? = some style) (hid : style'.id = style.id)
    (hname : style'.name = style.name) (hd : style'.isDefault = style.isDefault) :
    NamesHeadings (styles.set i style') ∧ (styles.set i style').map (·.name) = styles.map (·.name) := by
  have hm := List.mem_of_getElem? hi
  have hnames : (styles.set i style').map (·.name) = styles.map (·.name) := by
    have hn : (styles.map (·.name))[i]? = some style.name := by rw [List.getElem?_map, hi]; rfl
    have ⟨_, hn⟩ := List.getElem?_eq_some_iff.mp hn
    rw [List.map_set, hname, ← hn, List.set_getElem_self]
  refine ⟨⟨fun s h => ?spaceless, fun s h l hl => ?heading, hnames ▸ hs.template⟩, hnames⟩
  case spaceless =>
    cases List.mem_or_eq_of_mem_set h
    case inl h => exact hs.spaceless s h
    case inr h => exact h ▸ hid ▸ hs.spaceless style hm
  case heading =>
    cases List.mem_or_eq_of_mem_set h
    case inl h => exact hs.heading s h l hl
    case inr h =>
      subst h
      rw [hid, hd]
      exact hs.heading style hm l (hname ▸ hl)

theorem concat (hs : NamesHeadings styles) (hid : style.id = Style.idOfName (headingName level))
    (hname : style.name = headingName level) (hd : style.isDefault = false) : NamesHeadings (styles ++ [style]) := by
  rw [idOfName_headingName] at hid
  refine ⟨fun s h => ?spaceless, fun s h l hl => ?heading, fun n hn => ?template⟩
  case spaceless =>
    cases List.mem_append.mp h
    case inl h => exact hs.spaceless s h
    case inr h =>
      rw [List.mem_singleton.mp h, hid]
      exact space_not_mem_headingId level
  case heading =>
    cases List.mem_append.mp h
    case inl h => exact hs.heading s h l hl
    case inr h =>
      cases List.mem_singleton.mp h
      have hl : level = l := level_of_storedName (by rw [hname, toList_headingName]; rfl) hl
      exact ⟨hl ▸ hid, hd⟩
  case template =>
    rw [List.map_append]
    exact List.mem_append_left _ (hs.template n hn)

end NamesHeadings

namespace StyleBook

variable {book book' : StyleBook} {level : Int} {font : String} {heading : NamedStyle} {i : Option Nat}

-- The style of a heading is there and registered.
structure HasHeading (book : StyleBook) (level : Int) : Prop where
  name       : Style.storedName (headingName level) ∈ book.styles.map (·.name)
  registered : book.registered.lookup (NamedStyle.headingId level) = some (headingName level)

theorem findIdx?_name {styles : List Style} {name : String} (h : styles.findIdx? (·.name == name) = none) :
    name ∉ styles.map (·.name) := by
  intro hm
  have ⟨style, hs, he⟩ := List.mem_map.mp hm
  simpa [he] using List.findIdx?_eq_none_iff.mp h style hs

theorem find_headingName (hb : NamesHeadings book.styles) (h : book.find (headingName level) = .ok i) :
    i = book.styles.findIdx? (·.name == Style.storedName (headingName level)) := by
  simp only [find, bind_eq_ok, quote_not_mem_headingName, if_false, pure_eq_ok] at h
  obtain ⟨_, -, rfl⟩ := h
  have hid : book.styles.findIdx? (·.id == headingName level) = none := by
    refine List.findIdx?_eq_none_iff.mpr fun style hs => ?_
    refine beq_eq_false_iff_ne.mpr fun he => hb.spaceless style hs ?_
    simp [he, toList_headingName]
  rw [place?, hid, Option.or_none]

-- Registering a heading configures the style that carries its name, or adds one.
theorem register_eq_ok (hb : NamesHeadings book.styles) (hn : heading.name = headingName level)
    (h : register font book heading = .ok book') :
    book'.registered = (heading.styleId, headingName level) :: book.registered ∧
    ((∃ i style style', book.styles.findIdx? (·.name == Style.storedName (headingName level)) = some i ∧
      book.styles[i]? = some style ∧ style.name = Style.storedName (headingName level) ∧
      Style.configure font heading style = .ok style' ∧ book'.styles = book.styles.set i style') ∨
    (Style.storedName (headingName level) ∉ book.styles.map (·.name) ∧ ∃ style',
      Style.configure font heading (Style.ofName (headingName level)) = .ok style' ∧
      book'.styles = book.styles ++ [style'])) := by
  have ⟨place, style', hf, hr, h⟩ := register_cases h
  rw [hn] at hf hr h
  have hi := find_headingName hb hf
  refine ⟨hr, h.imp (fun ⟨i, hplace, hs, hstyles⟩ => ?found) fun ⟨hplace, hs, hstyles⟩ => ?added⟩
  case found =>
    have hi := hplace ▸ hi
    have ⟨hl, hname, _⟩ := List.findIdx?_eq_some_iff_getElem.mp hi.symm
    rw [List.getD_eq_getElem?_getD, List.getElem?_eq_getElem hl] at hs
    exact ⟨i, _, style', hi.symm, List.getElem?_eq_getElem hl, beq_iff_eq.mp hname, hs, hstyles⟩
  case added => exact ⟨findIdx?_name (hplace ▸ hi).symm, style', hs, hstyles⟩

theorem headings_of_register (hb : NamesHeadings book.styles) (hn : heading.name = headingName level)
    (h : register font book heading = .ok book') :
    NamesHeadings book'.styles ∧ Style.storedName (headingName level) ∈ book'.styles.map (·.name) ∧
      book.styles.map (·.name) ⊆ book'.styles.map (·.name) := by
  have ⟨_, h⟩ := register_eq_ok hb hn h
  cases h
  case inl h =>
    have ⟨i, style, style', _, hi, hname, hs, hstyles⟩ := h
    have ⟨hid, hname', hd⟩ := Style.names_of_configure hs
    have ⟨hb', hnames⟩ := hb.set hi hid hname' hd
    rw [hstyles, hnames]
    exact ⟨hb', hname ▸ List.mem_map_of_mem (List.mem_of_getElem? hi), List.Subset.refl _⟩
  case inr h =>
    have ⟨hm, style', hs, hstyles⟩ := h
    have ⟨hid, hname, hd⟩ := Style.names_of_configure hs
    rw [hstyles, List.map_append]
    refine ⟨hb.concat hid hname hd, ?_, List.subset_append_left _ _⟩
    rw [hb.storedName_eq hm]
    exact List.mem_append_right _ (List.mem_singleton.mpr hname.symm)

-- A heading style that is registered under the id and the name of a level.
def IsHeading (level : Int) (heading : NamedStyle) : Prop :=
  heading.styleId = NamedStyle.headingId level ∧ heading.name = headingName level

theorem hasHeading_register (hb : NamesHeadings book.styles) (hh : IsHeading level heading)
    (h : register font book heading = .ok book') : book'.HasHeading level := by
  have ⟨hr, _⟩ := register_eq_ok hb hh.right h
  have ⟨_, hname, _⟩ := headings_of_register hb hh.right h
  exact ⟨hname, by rw [hr, hh.left, List.lookup_cons_self]⟩

theorem HasHeading.register {level' : Int} (hl : book.HasHeading level') (hb : NamesHeadings book.styles)
    (hh : IsHeading level heading) (h : StyleBook.register font book heading = .ok book') :
    book'.HasHeading level' := by
  by_cases he : level = level'
  case pos => exact he ▸ hasHeading_register hb hh h
  case neg =>
    have ⟨hr, _⟩ := register_eq_ok hb hh.right h
    have ⟨_, _, hsub⟩ := headings_of_register hb hh.right h
    refine ⟨hsub hl.name, ?_⟩
    have hne : (NamedStyle.headingId level' == heading.styleId) = false :=
      beq_eq_false_iff_ne.mpr fun hid => he (headingId_inj (hh.left ▸ hid).symm)
    rw [hr, List.lookup_cons, hne]
    exact hl.registered

-- Registering headings one after the other loses none of them.
theorem hasHeading_foldlM {headings : List NamedStyle} (hb : NamesHeadings book.styles)
    (hh : ∀ heading ∈ headings, ∃ level, IsHeading level heading)
    (h : headings.foldlM (register font) book = .ok book') :
    NamesHeadings book'.styles ∧ (∀ level, book.HasHeading level → book'.HasHeading level) ∧
      ∀ heading ∈ headings, ∀ level, IsHeading level heading → book'.HasHeading level := by
  induction headings generalizing book
  case nil =>
    cases pure_eq_ok.mp h
    exact ⟨hb, fun _ => id, List.forall_mem_nil _⟩
  case cons heading headings hi =>
    have ⟨⟨level, hlevel⟩, hrest⟩ := List.forall_mem_cons.mp hh
    rw [List.foldlM_cons, bind_eq_ok] at h
    obtain ⟨_, hr, h⟩ := h
    have ⟨hb', _⟩ := headings_of_register hb hlevel.right hr
    have ⟨hfinal, hkeep, hnew⟩ := hi hb' hrest h
    refine ⟨hfinal, fun l hl => hkeep l (hl.register hb hlevel hr), List.forall_mem_cons.mpr ⟨?_, hnew⟩⟩
    exact fun l hl => hkeep l (hasHeading_register hb hl hr)

theorem namesHeadings_template (font : String) (size : Int) : NamesHeadings (template.withNormal font size).styles := by
  have hstored : ∀ n ∈ List.range' 1 9, Style.storedName (headingName n) = s!"heading {n}" := by decide +kernel
  have hnormal : ' ' ∉ Style.normal.id.toList := by decide
  rw [styles_template]
  refine ⟨List.forall_mem_cons.mpr ⟨hnormal, ?spaceless⟩, List.forall_mem_cons.mpr ⟨?normal, ?heading⟩, ?template⟩
  case spaceless => exact List.forall_mem_map.mpr fun n _ => space_not_mem_headingId n
  case normal =>
    intro level h
    have hd := drop_storedName (headingName level)
    rw [← h, toList_headingName] at hd
    simp [Style.normal] at hd
  case heading =>
    refine List.forall_mem_map.mpr fun n _ level h => ?_
    have hn : (n : Int) = level := level_of_storedName (congrArg (List.drop 1) String.toList_append) h
    exact ⟨hn ▸ rfl, rfl⟩
  case template =>
    intro n hn
    rw [hstored n hn]
    exact List.mem_cons_of_mem _ (List.mem_map_of_mem (List.mem_map_of_mem hn))

end StyleBook

-- The styles that a document is given for the headings of a sheet.
theorem hasHeading_of_defaults {sheet : Sheet} {book : StyleBook} (h : StyleBook.ofDefaults sheet.defaults = .ok book) :
    NamesHeadings book.styles ∧ ∀ level ∈ sheet.headings.levels, book.HasHeading level := by
  simp only [StyleBook.ofDefaults, bind_eq_ok] at h
  obtain ⟨_, _, size, _, h⟩ := h
  have hh : ∀ heading ∈ sheet.namedStyles, ∃ level, StyleBook.IsHeading level heading :=
    List.forall_mem_map.mpr fun entry _ => ⟨entry.1, rfl, rfl⟩
  obtain ⟨hb, _, hnew⟩ := StyleBook.hasHeading_foldlM (StyleBook.namesHeadings_template _ size) hh h
  exact ⟨hb, List.forall_mem_map.mpr fun entry he => hnew _ (List.mem_map_of_mem he) entry.1 ⟨rfl, rfl⟩⟩

variable {book : StyleBook} {level : Int}

theorem nonempty?_some {s : String} (h : s.toList ≠ []) : nonempty? (some s) = some s := by
  have hs : s ≠ "" := fun he => h (he ▸ rfl)
  simp [nonempty?, Option.filter, hs]

theorem StyleBook.HasHeading.nameOf?_eq (h : book.HasHeading level) :
    book.nameOf? (NamedStyle.headingId level) = some (headingName level) := by
  rw [nameOf?, h.registered]
  exact nonempty?_some (by simp [toList_headingName])

theorem StyleBook.HasHeading.reference?_eq {reference : Option String} (h : book.HasHeading level)
    (hb : NamesHeadings book.styles) (hr : book.reference? (headingName level) = .ok reference) :
    reference = some (NamedStyle.headingId level) := by
  simp only [reference?, bind_eq_ok] at hr
  obtain ⟨place, hf, hr⟩ := hr
  have hi := find_headingName hb hf
  cases place
  case none   => exact (findIdx?_name hi.symm h.name).elim
  case some i =>
    have ⟨hl, hname, _⟩ := List.findIdx?_eq_some_iff_getElem.mp hi.symm
    have ⟨hid, hd⟩ := hb.heading _ (List.getElem_mem hl) level (beq_iff_eq.mp hname)
    rw [Option.bind_some, List.getElem?_eq_getElem hl] at hr
    simp only [hd, hid, Bool.false_eq_true, if_false, pure_eq_ok] at hr
    exact hr.symm

-- A paragraph that names the style of a heading gets a reference to it.
theorem StyleBook.HasHeading.restyle_eq {old style : Option String} {unresolved : List String}
    (h : book.HasHeading level) (hb : NamesHeadings book.styles)
    (hr : Paragraph.restyle book (some (NamedStyle.headingId level)) old = .ok (style, unresolved)) :
    style = some (NamedStyle.headingId level) := by
  have hid : nonempty? (some (NamedStyle.headingId level)) = some (NamedStyle.headingId level) :=
    nonempty?_some (by simp [toList_headingId])
  rw [Paragraph.restyle, hid] at hr
  simp only [h.nameOf?_eq] at hr
  have ⟨reference, hreference, he⟩ := map_eq_ok.mp hr
  cases he
  exact h.reference?_eq hb hreference

end DefectLog.Word
