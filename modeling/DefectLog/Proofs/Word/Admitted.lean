import DefectLog.Proofs.Word.Clean
import DefectLog.Proofs.Word.Reading
import DefectLog.Proofs.Word.Registered
import DefectLog.Proofs.Word.Rendered
import DefectLog.Proofs.Word.Surviving
import DefectLog.Proofs.Word.Visiting

-- A document is written only if all that is written of it consists of characters of XML.
namespace DefectLog

-- The texts of a document that are written as they stand, at whatever depth. Colors of texts are read, and written
-- in another way.

def Border.strings (b : Border) : List String :=
  [b.style, b.color]

def Borders.strings (b : Borders) : List String :=
  [b.top, b.bottom, b.left, b.right].flatMap Border.strings

def Shading.strings (s : Shading) : List String :=
  [s.pattern, s.fill]

def Run.strings (run : Run) : List String :=
  run.text :: (Word.nonempty? run.font).toList

def Paragraph.strings (p : Paragraph) : List String :=
  p.rule.toList.flatMap Border.strings ++ p.runs.flatMap Run.strings

-- Apart from the blocks in the cell.
def Cell.strings (c : Cell Block) : List String :=
  c.borders.toList.flatMap Borders.strings ++ c.shading.toList.flatMap Shading.strings

def NamedStyle.strings (s : NamedStyle) : List String :=
  s.name :: (Word.nonempty? s.font).toList

def Defaults.strings (s : Defaults) : List String :=
  s.font :: s.namedStyles.flatMap NamedStyle.strings

def Document.strings (d : Document) : List String :=
  d.defaults.strings ++ d.allParagraphs.flatMap Paragraph.strings ++
    d.allTables.flatMap fun t => t.rows.flatten.flatMap Cell.strings

namespace Word

open Success

section Parts

variable {b : Border} {run : DefectLog.Run} {source : DefectLog.Cell DefectLog.Block}

theorem Rule.legal_of_ofBorder {r : Rule} (h : ofBorder b = .ok r) : (∀ s ∈ b.strings, Legal s) ∧ r.Clean := by
  simp only [ofBorder, bind_eq_ok, pure_eq_ok] at h
  obtain ⟨_, hs, _, hc, rfl⟩ := h
  exact ⟨List.forall_mem_cons.mpr ⟨hs, List.forall_mem_singleton.mpr hc⟩, hs, hc⟩

theorem Finish.legal_of_ofBorders {bs : Borders} {f : Finish} (h : ofBorders bs = .ok f) :
    (∀ s ∈ bs.strings, Legal s) ∧ f.Clean := by
  simp only [ofBorders, bind_eq_ok, pure_eq_ok] at h
  obtain ⟨_, ht, _, hl, _, hb, _, hr, rfl⟩ := h
  obtain ⟨ht, htop⟩ := Rule.legal_of_ofBorder ht
  obtain ⟨hl, hleft⟩ := Rule.legal_of_ofBorder hl
  obtain ⟨hb, hbottom⟩ := Rule.legal_of_ofBorder hb
  obtain ⟨hr, hright⟩ := Rule.legal_of_ofBorder hr
  refine ⟨?_, htop, hleft, hbottom, hright⟩
  simp only [Borders.strings, List.forall_mem_flatMap, List.forall_mem_cons]
  exact ⟨ht, hb, hl, hr, List.forall_mem_nil _⟩

theorem Finish.legal_of_ofShading {s : Shading} {f : Finish} (h : ofShading s = .ok f) :
    (∀ t ∈ s.strings, Legal t) ∧ f.Clean := by
  simp only [ofShading, bind_eq_ok, pure_eq_ok] at h
  obtain ⟨_, hp, _, hf, rfl⟩ := h
  exact ⟨List.forall_mem_cons.mpr ⟨hp, List.forall_mem_singleton.mpr hf⟩, hp, hf⟩

-- A part that is optional.
theorem legal_of_mapM {α β : Type} {f : α → Except Fault β} {strings : α → List String} {Q : β → Prop} {x : Option α}
    {y : Option β} (hf : ∀ {a b}, f a = .ok b → (∀ s ∈ strings a, Legal s) ∧ Q b) (h : x.mapM f = .ok y) :
    (∀ s ∈ x.toList.flatMap strings, Legal s) ∧ ∀ b ∈ y.toList, Q b := by
  cases x
  case none =>
    cases pure_eq_ok.mp h
    exact ⟨List.forall_mem_nil _, List.forall_mem_nil _⟩
  case some a =>
    obtain ⟨b, hb, rfl⟩ := map_eq_ok.mp h
    have ⟨hs, hq⟩ := hf hb
    exact ⟨by simpa using hs, List.forall_mem_singleton.mpr hq⟩

theorem Finish.legal_of_ofCell {fs : List Finish} (h : ofCell source = .ok fs) :
    (∀ s ∈ source.strings, Legal s) ∧ ∀ f ∈ fs, f.Clean := by
  simp only [ofCell, bind_eq_ok, pure_eq_ok] at h
  obtain ⟨_, hb, _, hs, rfl⟩ := h
  obtain ⟨hb, hborders⟩ := legal_of_mapM legal_of_ofBorders hb
  obtain ⟨hs, hshading⟩ := legal_of_mapM legal_of_ofShading hs
  exact ⟨List.forall_mem_append.mpr ⟨hb, hs⟩, List.forall_mem_append.mpr
    ⟨List.forall_mem_append.mpr ⟨hborders, hshading⟩, List.forall_mem_singleton.mpr trivial⟩⟩

theorem Piece.clean_cons {c : Char} {pieces : List Piece} (hc : isXmlChar c = true) (h : ∀ p ∈ pieces, p.Clean) :
    ∀ p ∈ cons c pieces, p.Clean := by
  unfold cons
  split
  case isTrue  => exact List.forall_mem_cons.mpr ⟨trivial, h⟩
  case isFalse =>
    split
    case isTrue  => exact List.forall_mem_cons.mpr ⟨trivial, h⟩
    case isFalse =>
      split
      case h_1 text _ rest =>
        have ⟨ht, hrest⟩ := List.forall_mem_cons.mp h
        have hs : (c :: text).all isXmlChar = true := Bool.and_eq_true_iff.mpr ⟨hc, ht⟩
        exact List.forall_mem_cons.mpr ⟨hs, hrest⟩
      case h_2 =>
        have hs : [c].all isXmlChar = true := Bool.and_eq_true_iff.mpr ⟨hc, rfl⟩
        exact List.forall_mem_cons.mpr ⟨hs, h⟩

theorem Piece.clean_ofText {text : List Char} (h : text.all isXmlChar = true) : ∀ p ∈ ofText text, p.Clean := by
  induction text
  case nil          => exact List.forall_mem_nil _
  case cons c cs hi =>
    have ⟨hc, hcs⟩ := Bool.and_eq_true_iff.mp h
    exact clean_cons hc (hi hcs)

theorem Run.legal_of_ofTree {r : Run} (h : ofTree run = .ok r) : (∀ s ∈ run.strings, Legal s) ∧ r.Clean := by
  simp only [ofTree, bind_eq_ok, pure_eq_ok] at h
  obtain ⟨_, ht, _, -, _, -, _, hf, rfl⟩ := h
  have hfont := legal_of_forM hf
  refine ⟨List.forall_mem_cons.mpr ⟨ht, fun s hs => hfont s (Option.mem_toList.mp hs)⟩, hfont, ?_⟩
  exact Piece.clean_ofText (legal_iff.mp ht)

end Parts

section Styles

variable {book book' : StyleBook} {font : String} {heading : NamedStyle} {style style' : Style}

def StyleBook.Clean (book : StyleBook) : Prop :=
  ∀ style ∈ book.styles, style.Clean

theorem Style.clean_normal : normal.Clean where
  id       := legal_ofList (by decide)
  name     := legal_ofList (by decide)
  basedOn  := nofun
  next     := nofun
  link     := nofun
  revision := fun _ h => Option.mem_some.mp h ▸ legal_ofList (by decide)
  font     := nofun

theorem Style.clean_templateHeading (n : Nat) : (templateHeading n).Clean where
  id       := legal_append.mpr ⟨legal_ofList (by decide), legal_toString_nat n⟩
  name     := legal_append.mpr ⟨legal_ofList (by decide), legal_toString_nat n⟩
  basedOn  := fun _ h => Option.mem_some.mp h ▸ legal_ofList (by decide)
  next     := fun _ h => Option.mem_some.mp h ▸ legal_ofList (by decide)
  link     := fun _ h => Option.mem_some.mp h ▸
    legal_append.mpr ⟨legal_append.mpr ⟨legal_ofList (by decide), legal_toString_nat n⟩, legal_ofList (by decide)⟩
  revision := fun _ h => Option.mem_some.mp h ▸ legal_ofList (by decide)
  font     := nofun

theorem Style.clean_ofName {name : String} (h : Legal name) : (ofName name).Clean where
  id       := by
    refine legal_ofList (List.all_eq_true.mpr fun c hc => ?_)
    exact List.all_eq_true.mp (legal_iff.mp h) c (List.mem_of_mem_filter hc)
  name     := h
  basedOn  := nofun
  next     := nofun
  link     := nofun
  revision := nofun
  font     := nofun

theorem Style.clean_of_configure (hs : style.Clean) (h : configure font heading style = .ok style') :
    (∀ s ∈ nonempty? heading.font, Legal s) ∧ style'.Clean := by
  simp only [configure, bind_eq_ok, pure_eq_ok] at h
  obtain ⟨_, hf, _, -, _, -, _, -, _, -, rfl⟩ := h
  have hf : Legal ((nonempty? heading.font).getD font) := hf
  refine ⟨fun s hm => by rwa [Option.mem_def.mp hm] at hf, ?_⟩
  exact {
    id       := hs.id
    name     := hs.name
    basedOn  := fun _ h => Option.mem_some.mp h ▸ legal_ofList (by decide)
    next     := fun name h => by
      split at h
      case isTrue  => cases h
      case isFalse => exact Option.mem_some.mp h ▸ legal_ofList (by decide)
    link     := hs.link
    revision := hs.revision
    font     := fun _ h => Option.mem_some.mp h ▸ hf }

theorem StyleBook.clean_withNormal {size : Int} (hf : Legal font) : (template.withNormal font size).Clean := by
  rw [Clean, styles_template]
  refine List.forall_mem_cons.mpr ⟨?normal, List.forall_mem_map.mpr fun n _ => Style.clean_templateHeading n⟩
  case normal => exact { Style.clean_normal with font := fun _ h => Option.mem_some.mp h ▸ hf }

theorem StyleBook.legal_of_find {name : String} {i : Option Nat} (h : book.find name = .ok i) : Legal name := by
  simp only [find, bind_eq_ok] at h
  obtain ⟨_, hn, -⟩ := h
  exact hn

theorem StyleBook.clean_of_register (hb : book.Clean) (h : register font book heading = .ok book') :
    (∀ s ∈ heading.strings, Legal s) ∧ book'.Clean := by
  have ⟨_, style', hf, _, h⟩ := register_cases h
  have hn := legal_of_find hf
  have ⟨hstrings, hstyle, hbook⟩ : (∀ s ∈ nonempty? heading.font, Legal s) ∧ style'.Clean ∧
      ∀ style ∈ book'.styles, style ∈ book.styles ∨ style = style' := by
    cases h
    case inl h =>
      have ⟨i, _, hc, hstyles⟩ := h
      have hold : (book.styles.getD i Style.normal).Clean := by
        rw [List.getD_eq_getElem?_getD]
        cases hi : book.styles[i]?
        case none   => exact Style.clean_normal
        case some s => exact hb s (List.mem_of_getElem? hi)
      have ⟨hfont, hclean⟩ := Style.clean_of_configure hold hc
      exact ⟨hfont, hclean, fun _ hs => List.mem_or_eq_of_mem_set (hstyles ▸ hs)⟩
    case inr h =>
      have ⟨_, hc, hstyles⟩ := h
      have ⟨hfont, hclean⟩ := Style.clean_of_configure (Style.clean_ofName hn) hc
      exact ⟨hfont, hclean, fun _ hs => by simpa [hstyles] using hs⟩
  refine ⟨List.forall_mem_cons.mpr ⟨hn, fun s hs => hstrings s (Option.mem_toList.mp hs)⟩, fun style hs => ?_⟩
  cases hbook style hs
  case inl hs => exact hb style hs
  case inr hs => exact hs ▸ hstyle

theorem StyleBook.clean_foldlM {headings : List NamedStyle} (hb : book.Clean)
    (h : headings.foldlM (register font) book = .ok book') :
    (∀ s ∈ headings.flatMap NamedStyle.strings, Legal s) ∧ book'.Clean := by
  induction headings generalizing book
  case nil =>
    cases pure_eq_ok.mp h
    exact ⟨List.forall_mem_nil _, hb⟩
  case cons heading headings hi =>
    rw [List.foldlM_cons, bind_eq_ok] at h
    obtain ⟨_, hr, h⟩ := h
    have ⟨hstrings, hb⟩ := clean_of_register hb hr
    have ⟨hrest, hb⟩ := hi hb h
    exact ⟨List.forall_mem_append.mpr ⟨hstrings, hrest⟩, hb⟩

theorem StyleBook.clean_ofDefaults {defaults : Defaults} (h : ofDefaults defaults = .ok book) :
    (∀ s ∈ defaults.strings, Legal s) ∧ book.Clean := by
  simp only [ofDefaults, bind_eq_ok] at h
  obtain ⟨_, hf, _, -, h⟩ := h
  obtain ⟨hstrings, hb⟩ := clean_foldlM (clean_withNormal hf) h
  exact ⟨List.forall_mem_cons.mpr ⟨hf, hstrings⟩, hb⟩

theorem StyleBook.legal_of_reference {name : String} {reference : Option String} (hb : book.Clean)
    (h : book.reference? name = .ok reference) : ∀ id ∈ reference, Legal id := by
  simp only [reference?, bind_eq_ok] at h
  obtain ⟨place, -, h⟩ := h
  split at h
  case h_2 => cases h
  case h_1 style hs =>
    have ⟨i, _, hi⟩ := Option.bind_eq_some_iff.mp hs
    have hstyle := hb style (List.mem_of_getElem? hi)
    cases pure_eq_ok.mp h
    intro id hid
    split at hid
    case isTrue  => cases hid
    case isFalse => exact Option.mem_some.mp hid ▸ hstyle.id

end Styles

section Writing

variable {book : StyleBook} {c d : Cell Block} {g g' : Grid} {unresolved : List String}

theorem Paragraph.legal_of_restyle {styleId old style : Option String} (hb : book.Clean) (ho : ∀ id ∈ old, Legal id)
    (h : restyle book styleId old = .ok (style, unresolved)) : ∀ id ∈ style, Legal id := by
  unfold restyle at h
  split at h
  case h_1 =>
    cases h
    exact ho
  case h_2 =>
    split at h
    case h_1 =>
      have ⟨_, hr, he⟩ := map_eq_ok.mp h
      cases he
      exact StyleBook.legal_of_reference hb hr
    case h_2 =>
      cases h
      exact ho

theorem Paragraph.rules_of_write {source : DefectLog.Paragraph} {p p' : Paragraph}
    (h : write book source p = .ok (p', unresolved)) :
    ∃ rule, source.rule.mapM Rule.ofBorder = .ok rule ∧ p'.rules = p.rules ++ rule.toList := by
  simp only [write, bind_eq_ok] at h
  obtain ⟨_, _, rule, hr, _, _, _, _, h⟩ := h
  split at h <;> simp only [bind_eq_ok, pure_eq_ok, Prod.mk.injEq] at h
  all_goals
    obtain ⟨_, -, _, -, rfl, -⟩ := h
    exact ⟨rule, hr, rfl⟩

theorem Paragraph.legal_of_write {source : DefectLog.Paragraph} {p p' : Paragraph}
    (h : write book source p = .ok (p', unresolved)) : ∀ s ∈ source.strings, Legal s := by
  have ⟨_, hrule, _⟩ := rules_of_write h
  have ⟨_, hr, _⟩ := runs_of_write h
  refine List.forall_mem_append.mpr ⟨(legal_of_mapM Rule.legal_of_ofBorder hrule).left, ?_⟩
  refine List.forall_mem_flatMap.mpr fun run hm => ?_
  have ⟨_, _, hrun⟩ := exists_of_forall₂ (mapM_eq_ok.mp hr).flip run hm
  exact (Run.legal_of_ofTree hrun).left

-- What stood in a paragraph stays there.
theorem Paragraph.Clean.write {source : DefectLog.Paragraph} {p p' : Paragraph} (hp : p.Clean) (hb : book.Clean)
    (h : Paragraph.write book source p = .ok (p', unresolved)) : p'.Clean := by
  have ⟨_, hrule, hrules⟩ := rules_of_write h
  have ⟨_, _, _, _, _, hs, hr, hp'⟩ := write_eq_ok h
  refine ⟨?style, ?rules, ?runs⟩
  case style => exact hp' ▸ legal_of_restyle hb hp.style hs
  case rules => exact hrules ▸ List.forall_mem_append.mpr ⟨hp.rules, (legal_of_mapM Rule.legal_of_ofBorder hrule).right⟩
  case runs =>
    subst hp'
    exact List.forall_mem_append.mpr
      ⟨hp.runs, forall_mem_of_forall₂ (mapM_eq_ok.mp hr) fun h => (Run.legal_of_ofTree h).right⟩

theorem Paragraph.clean_empty : ({} : Paragraph).Clean :=
  ⟨nofun, nofun, nofun⟩

theorem survives_clean : Survives Cell.Clean where
  frame h := ⟨h.finishes, h.content⟩
  empty h := ⟨h.finishes, List.forall_mem_singleton.mpr Paragraph.clean_empty⟩
  receive := by
    intro c d hc hd
    refine ⟨hc.finishes, List.forall_mem_append.mpr ⟨fun b hb => hc.content b ?_, hd.content⟩⟩
    split at hb
    case h_2 => exact hb
    case h_1 =>
      split at hb
      case isTrue  => exact List.dropLast_subset _ hb
      case isFalse => exact hb

theorem Cell.clean_blank (width : Int) : (Cell.Clean { width, content := [.empty] }) :=
  ⟨List.forall_mem_nil _, List.forall_mem_singleton.mpr Paragraph.clean_empty⟩

theorem Cell.Clean.append (h : c.Clean) {b : Block} (hb : b.Clean) : (c.append b).Clean :=
  ⟨h.finishes, List.forall_mem_append.mpr ⟨h.content, List.forall_mem_singleton.mpr hb⟩⟩

theorem Cell.clean_of_dress {source : DefectLog.Cell DefectLog.Block} (hc : c.Clean) (h : c.dress source = .ok d) :
    (∀ s ∈ source.strings, Legal s) ∧ d.Clean := by
  obtain ⟨_, _, _, hf, rfl⟩ := dress_eq_ok h
  have ⟨hs, hf⟩ := Finish.legal_of_ofCell hf
  exact ⟨hs, List.forall_mem_append.mpr ⟨hc.finishes, hf⟩, hc.content⟩

-- One case for each function of the writer.
mutual
theorem clean_writeTable {room : Int} {t : DefectLog.Table DefectLog.Block} {out : Table Block}
    {unresolved : List String} (hb : book.Clean) (h : writeTable book room t = .ok (out, unresolved)) :
    (Block.table out).Clean := by
  have ⟨_, _, _, hg, _⟩ := writeTable_eq_ok h
  exact Block.clean_table (clean_writeRows hb (Grid.all_blank (Cell.clean_blank _) _ _) hg)
termination_by structural t
theorem clean_writeRows {columns row : Nat} {rows : List (List (DefectLog.Cell DefectLog.Block))} {g g' : Grid}
    {unresolved : List String} (hb : book.Clean) (hg : g.All Cell.Clean)
    (h : writeRows book columns row rows g = .ok (g', unresolved)) : g'.All Cell.Clean := by
  cases rows
  case nil => exact (writeRows_nil_eq_ok h).left ▸ hg
  case cons cells rows =>
    have ⟨_, _, _, hcells, hrows, _⟩ := writeRows_cons_eq_ok h
    exact clean_writeRows hb (clean_writeCells hb hg hcells) hrows
termination_by structural rows
theorem clean_writeCells {columns row : Nat} {column : Int} {cells : List (DefectLog.Cell DefectLog.Block)}
    {g g' : Grid} {unresolved : List String} (hb : book.Clean) (hg : g.All Cell.Clean)
    (h : writeCells book columns row column cells g = .ok (g', unresolved)) : g'.All Cell.Clean := by
  cases cells
  case nil => exact (writeCells_nil_eq_ok h).left ▸ hg
  case cons source cells =>
    have ⟨_, _, _, _, _, _, _, hp, hc, hdress, hw, hcells, _⟩ := writeCells_cons_eq_ok h
    have hg := survives_clean.placed hg hp
    have ⟨_, hd⟩ := Cell.clean_of_dress (hg.cell hc) hdress
    exact clean_writeCells hb (hg.setCell hc (clean_writeBlocks hb hd hw)) hcells
termination_by structural cells
theorem clean_writeBlocks {first : Bool} {blocks : List DefectLog.Block} {c d : Cell Block} {unresolved : List String}
    (hb : book.Clean) (hc : c.Clean) (h : writeBlocks book first blocks c = .ok (d, unresolved)) : d.Clean := by
  cases blocks
  case nil => exact (writeBlocks_nil_eq_ok h).left ▸ hc
  case cons b blocks =>
    have ⟨_, _, _, hblock, hblocks, _⟩ := writeBlocks_cons_eq_ok h
    exact clean_writeBlocks hb (clean_writeInCell hb hc hblock) hblocks
termination_by structural blocks
theorem clean_writeInCell {first : Bool} {b : DefectLog.Block} {c d : Cell Block} {unresolved : List String}
    (hb : book.Clean) (hc : c.Clean) (h : writeInCell book first b c = .ok (d, unresolved)) : d.Clean := by
  cases b
  case paragraph source =>
    cases first
    case false =>
      obtain ⟨_, hw, rfl⟩ := writeInCell_next_eq_ok h
      exact hc.append (Paragraph.clean_empty.write hb hw)
    case true =>
      obtain ⟨_, hgo, rfl⟩ := writeInCell_first_eq_ok h
      obtain ⟨_, _, _, _, hw, hold, rfl⟩ := Cell.writeFirst_go_eq_ok hgo
      have hcontent := hc.content
      rw [hold, List.forall_mem_append, List.forall_mem_cons] at hcontent
      have ⟨htables, hp, hrest⟩ := hcontent
      exact ⟨hc.finishes, List.forall_mem_append.mpr
        ⟨htables, List.forall_mem_cons.mpr ⟨hp.write hb hw, hrest⟩⟩⟩
  case table t =>
    obtain ⟨_, ht, rfl⟩ := writeInCell_table_eq_ok h
    exact (hc.append (clean_writeTable hb ht)).append Paragraph.clean_empty
termination_by structural b
end

theorem clean_writeBody {room : Int} {blocks : List DefectLog.Block} {body : List Block} (hb : book.Clean)
    (h : writeBody book room blocks = .ok (body, unresolved)) : ∀ b ∈ body, b.Clean := by
  refine forall_mem_of_forall₂ (writeBody_eq_ok h) ?_
  rintro b out ⟨_, hblock⟩
  cases b <;> simp only [writeBlock, bind_eq_ok, pure_eq_ok, Prod.mk.injEq] at hblock
  case paragraph =>
    obtain ⟨_, hw, rfl, -⟩ := hblock
    exact Paragraph.clean_empty.write hb hw
  case table =>
    obtain ⟨_, ht, rfl, -⟩ := hblock
    exact clean_writeTable hb ht

-- Each paragraph of the tree is written, and each cell is dressed.
theorem Visits.legal {sources : List DefectLog.Paragraph} (h : Visits book sources unresolved) :
    ∀ s ∈ sources.flatMap DefectLog.Paragraph.strings, Legal s := by
  induction h
  case nil          => exact List.forall_mem_nil _
  case cons hw _ hi => exact List.forall_mem_append.mpr ⟨Paragraph.legal_of_write hw, hi⟩

theorem legal_of_advances {columns : Nat} {ss : List (Step DefectLog.Block)} (h : Advances book columns ss g g') :
    ∀ s ∈ ss.flatMap fun step => step.cell.strings, Legal s := by
  induction h
  case nil => exact List.forall_mem_nil _
  case cons h _ hi =>
    have ⟨_, _, _, _, _, _, _, _, hd, _⟩ := h
    have ⟨_, _, _, hf, _⟩ := Cell.dress_eq_ok hd
    exact List.forall_mem_append.mpr ⟨(Finish.legal_of_ofCell hf).left, hi⟩

theorem legal_of_writtenAs {t : DefectLog.Table DefectLog.Block} {out : Table Block} (h : WrittenAs book t out) :
    ∀ s ∈ t.rows.flatten.flatMap DefectLog.Cell.strings, Legal s := by
  have ⟨_, _, hw⟩ := h
  have ⟨_, ha⟩ := advances_of_writeTable hw
  have hs := legal_of_advances ha
  rwa [← List.flatMap_map, Table.steps, Table.cells_stepsFrom] at hs

end Writing

variable {d : Document} {r : Rendering}

theorem strings_of_render (h : render d = .ok r) : ∀ s ∈ d.strings, Legal s := by
  have ⟨hbook, _⟩ := render_eq_ok h
  have ⟨_, hv, _⟩ := visits_of_render h
  have ⟨_, hw, _⟩ := tables_of_render h
  refine List.forall_mem_append.mpr
    ⟨List.forall_mem_append.mpr ⟨(StyleBook.clean_ofDefaults hbook).left, hv.legal⟩, ?_⟩
  refine List.forall_mem_flatMap.mpr fun t ht => ?_
  have ⟨_, _, ht⟩ := exists_of_forall₂ hw.flip t ht
  exact legal_of_writtenAs ht

theorem clean_of_render (h : render d = .ok r) :
    ∀ x ∈ r.package.bodyXml ++ r.package.stylesXml d.defaults ++ [r.package.book.xml, r.package.pages.xml], x.Clean := by
  obtain ⟨hbook, _, _, hw, _⟩ := render_eq_ok h
  obtain ⟨_, hb⟩ := StyleBook.clean_ofDefaults hbook
  simp only [List.forall_mem_append, List.forall_mem_cons]
  refine ⟨⟨?body, ?styles⟩, ?book, r.package.pages.clean_xml, List.forall_mem_nil _⟩
  case body =>
    rw [Package.bodyXml, blocksXml_eq_map]
    exact List.forall_mem_map.mpr fun b hm => (clean_writeBody hb hw b hm).xml
  case styles =>
    refine List.forall_mem_map.mpr fun style hs => ?_
    obtain ⟨_, _, hf⟩ := List.mem_filterMap.mp hs
    exact (hb style (List.mem_of_find?_eq_some hf)).xml
  case book => exact Xml.clean_inner.mpr (List.forall_mem_map.mpr fun style hs => (hb style hs).xml)

theorem legal_iff_forall {s : String} : Legal s ↔ ∀ c ∈ s.toList, isXmlChar c = true :=
  legal_iff.trans List.all_eq_true

-- The body, the styles and the pages of a document that is written have no text and no value of an attribute with
-- a character that is not one of XML. So a document with such a character in a text that would be written is refused.
theorem legal_of_render (d : Document) :
    (∀ r, render d = .ok r →
      ∀ x ∈ r.package.bodyXml ++ r.package.stylesXml d.defaults ++ [r.package.book.xml, r.package.pages.xml],
        ∀ s ∈ x.strings, ∀ c ∈ s.toList, isXmlChar c = true) ∧
    ((∃ s ∈ d.strings, ∃ c ∈ s.toList, isXmlChar c = false) → ∃ fault, render d = .error fault) := by
  refine ⟨fun r h x hx s hs => legal_iff_forall.mp (clean_of_render h x hx s hs), ?refused⟩
  case refused =>
    rintro ⟨s, hs, c, hc, hn⟩
    cases h : render d
    case error fault => exact ⟨fault, rfl⟩
    case ok r        => simp [legal_iff_forall.mp (strings_of_render h s hs) c hc] at hn

-- A font with a control character in it, for a run in a table within a table.
def smuggled : Document where
  defaults := nested.defaults
  page     := nested.page
  body     := [.table {
    columnWidths := [1000]
    rows         := [[{ width := 1000, blocks := [.table {
      columnWidths := [500]
      rows         := [[{ width := 500, blocks := [
        .paragraph { runs := [{ text := "a", size := 20, font := some "Arial\x0b" }] }] }]] }] }]] }]

theorem legal_of_render_nested :
    (∃ r, render nested = .ok r ∧
      ∀ x ∈ r.package.bodyXml ++ r.package.stylesXml nested.defaults ++ [r.package.book.xml, r.package.pages.xml],
        ∀ s ∈ x.strings, ∀ c ∈ s.toList, isXmlChar c = true) ∧
    (∃ s ∈ smuggled.strings, ∃ c ∈ s.toList, isXmlChar c = false) ∧ ∃ fault, render smuggled = .error fault := by
  have ⟨r, h⟩ := exists_render_nested
  have hs : ∃ s ∈ smuggled.strings, ∃ c ∈ s.toList, isXmlChar c = false :=
    ⟨"Arial\x0b", by decide, '\x0b', by decide, by decide⟩
  exact ⟨⟨r, h, (legal_of_render nested).left r h⟩, hs, (legal_of_render smuggled).right hs⟩

end Word
end DefectLog
