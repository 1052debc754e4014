import DefectLog.Proofs.Document.Paragraphs
import DefectLog.Proofs.Word.Content
import DefectLog.Proofs.Word.Reading
import DefectLog.Proofs.Word.Rearranging
import Mathlib.Data.List.Perm.Basic

-- Which paragraphs of the tree were written to each paragraph that stands directly in a cell of a table.
-- Where the cells keep apart it is at most one. Where one spills over another, it may be several.
namespace DefectLog

-- The paragraphs that stand directly in the cells of a table, row by row.
def Table.paragraphs (t : Table Block) : List Paragraph :=
  t.rows.flatten.flatMap Cell.paragraphs

theorem Table.mem_paragraphs {t : Table Block} {p : Paragraph} :
    p ∈ t.paragraphs ↔ ∃ cells ∈ t.rows, ∃ c ∈ cells, p ∈ c.paragraphs := by
  simp only [paragraphs, List.mem_flatMap, List.mem_flatten, ← exists_and_right, ← exists_and_left, and_assoc]
  exact exists_comm

theorem Document.paragraphs_subset {d : Document} {t : Table Block} (h : t ∈ d.allTables) :
    t.paragraphs ⊆ d.allParagraphs := by
  refine fun p hp => blocksParagraphs_subset d.body h (mem_rowsParagraphs.mpr ?_)
  have ⟨cells, hcells, c, hc, hp⟩ := Table.mem_paragraphs.mp hp
  have ⟨b, hb, hp⟩ := List.mem_filterMap.mp hp
  refine ⟨cells, hcells, c, hc, b, hb, ?_⟩
  cases b
  case table     => cases hp
  case paragraph => exact List.mem_singleton.mpr (Option.some.inj hp).symm

namespace Word

open Success

def Block.paragraph? : Block → Option Paragraph
  | .paragraph p => some p
  | .table _     => none

def paragraphs (bs : List Block) : List Paragraph :=
  bs.filterMap Block.paragraph?

@[simp] theorem paragraphs_append (bs cs : List Block) : paragraphs (bs ++ cs) = paragraphs bs ++ paragraphs cs :=
  List.filterMap_append

theorem paragraphs_perm {bs cs : List Block} (h : bs.Perm cs) : (paragraphs bs).Perm (paragraphs cs) :=
  h.filterMap _

theorem paragraphs_tables (ts : List (Table Block)) : paragraphs (ts.map .table) = [] := by
  rw [paragraphs, List.filterMap_map]
  exact List.filterMap_eq_nil_iff.mpr fun _ _ => rfl

-- The paragraphs of the tree that were written to a paragraph, one after the other.
inductive Paragraph.Gathers (book : StyleBook) : List DefectLog.Paragraph → Paragraph → Prop
  | empty : Gathers book [] {}
  | next {sources source p p' unresolved} :
    (Gathers book sources p) → (write book source p = .ok (p', unresolved)) → Gathers book (sources ++ [source]) p'

-- Each paragraph of a document gathers some of the tree, and each of the tree went to one of them. Those
-- that have no runs may be lost.
def Traced (book : StyleBook) (sources : List DefectLog.Paragraph) (ps : List Paragraph) : Prop :=
  ∃ groups lost, List.Forall₂ (Paragraph.Gathers book) groups ps ∧ (groups.flatten ++ lost).Perm sources ∧
    ∀ s ∈ lost, s.runs = []

variable {book : StyleBook} {sources : List DefectLog.Paragraph} {source : DefectLog.Paragraph}
  {p p' : Paragraph} {ps qs : List Paragraph} {unresolved : List String}

namespace Paragraph.Gathers

theorem single (h : write book source {} = .ok (p, unresolved)) : Gathers book [source] p :=
  .next .empty h

theorem last (h : Gathers book (sources ++ [source]) p') :
    ∃ p unresolved, Gathers book sources p ∧ write book source p = .ok (p', unresolved) := by
  generalize hs : sources ++ [source] = written at h
  cases h
  case empty => simp at hs
  case next hg hw =>
    have ⟨hsources, hsource⟩ := List.append_inj' hs rfl
    cases hsources
    cases hsource
    exact ⟨_, _, hg, hw⟩

theorem written (h : Gathers book [source] p) : ∃ unresolved, write book source {} = .ok (p, unresolved) := by
  have ⟨q, unresolved, hq, hw⟩ := last (List.nil_append [source] ▸ h)
  generalize hn : ([] : List DefectLog.Paragraph) = none at hq
  cases hq
  case empty => exact ⟨unresolved, hw⟩
  case next  => simp at hn

-- The runs of all that was written come one after the other.
theorem runs (h : Gathers book sources p) :
    List.Forall₂ (fun run r => Run.ofTree run = .ok r) (sources.flatMap (·.runs)) p.runs := by
  induction h
  case empty => exact .nil
  case next hw hi =>
    have ⟨runs, hr, hp⟩ := runs_of_write hw
    rw [hp, List.flatMap_append, List.flatMap_singleton]
    exact List.rel_append hi (mapM_eq_ok.mp hr)

theorem runs_eq_nil (h : Gathers book sources p) (hp : p.runs = []) : ∀ s ∈ sources, s.runs = [] := by
  have hr := h.runs
  rw [hp, List.forall₂_nil_right_iff] at hr
  exact List.flatMap_eq_nil_iff.mp hr

end Paragraph.Gathers

namespace Traced

theorem perm (h : Traced book sources ps) (hp : ps.Perm qs) : Traced book sources qs := by
  obtain ⟨groups, lost, hg, hs, hl⟩ := h
  have ⟨groups', hg', hp⟩ := List.perm_comp_forall₂ hp.symm hg.flip
  exact ⟨groups', lost, hg'.flip, (hp.flatten.append_right lost).trans hs, hl⟩

theorem empty (h : Traced book sources ps) (hq : ∀ q ∈ qs, q = {}) : Traced book sources (ps ++ qs) := by
  obtain ⟨groups, lost, hg, hs, hl⟩ := h
  have hnew : List.Forall₂ (Paragraph.Gathers book) (qs.map fun _ => []) qs := by
    rw [List.forall₂_map_left_iff, List.forall₂_same]
    exact fun q hm => hq q hm ▸ .empty
  exact ⟨groups ++ qs.map fun _ => [], lost, List.rel_append hg hnew, by simpa using hs, hl⟩

theorem fresh (h : Traced book sources ps) : Traced book sources ({} :: ps) :=
  have h : Traced book sources (ps ++ [({} : Paragraph)]) := h.empty (by simp)
  h.perm (List.perm_append_singleton {} ps)

theorem forget (h : Traced book sources (ps ++ qs)) (hq : ∀ q ∈ qs, q.runs = []) : Traced book sources ps := by
  obtain ⟨groups, lost, hg, hs, hl⟩ := h
  have hps := List.forall₂_take_append groups ps qs hg
  have hqs := List.forall₂_drop_append groups ps qs hg
  have hgone : ∀ group ∈ groups.drop ps.length, ∀ s ∈ group, s.runs = [] :=
    forall_mem_of_forall₂ ((List.forall₂_and_left qs _).mpr ⟨hq, hqs.flip⟩) fun h => h.right.runs_eq_nil h.left
  refine ⟨groups.take ps.length, (groups.drop ps.length).flatten ++ lost, hps, ?perm, ?silent⟩
  case perm => rwa [← List.append_assoc, ← List.flatten_append, List.take_append_drop]
  case silent =>
    intro s hm
    cases List.mem_append.mp hm
    case inl hm =>
      have ⟨group, hgroup, hm⟩ := List.mem_flatten.mp hm
      exact hgone group hgroup s hm
    case inr hm => exact hl s hm

theorem write (h : Traced book sources (p :: ps)) (hw : p.write book source = .ok (p', unresolved)) :
    Traced book (sources ++ [source]) (p' :: ps) := by
  obtain ⟨groups, lost, hg, hs, hl⟩ := h
  cases hg
  case cons group groups hp hg =>
    refine ⟨(group ++ [source]) :: groups, lost, .cons (.next hp hw) hg, ?_, hl⟩
    refine List.perm_iff_count.mpr fun s => ?_
    have hc := List.perm_iff_count.mp hs s
    simp only [List.flatten_cons, List.count_append] at hc ⊢
    omega

theorem rearranged {old new : List Block} (h : Traced book sources (paragraphs old)) (hr : Rearranged old new) :
    Traced book sources (paragraphs new) := by
  have ⟨kept, lost, fresh, hold, hnew, hlost, hfresh⟩ := hr.split
  have hl : ∀ p ∈ paragraphs lost, p.runs = [] := by
    intro p hp
    have ⟨b, hb, hp⟩ := List.mem_filterMap.mp hp
    have hv := hlost b hb
    cases b
    case paragraph => cases hp; exact List.isEmpty_iff.mp hv
    case table     => cases hp
  have hf : ∀ p ∈ paragraphs fresh, p = {} := by
    intro p hp
    have ⟨b, hb, hp⟩ := List.mem_filterMap.mp hp
    rw [hfresh b hb] at hp
    exact (Option.some.inj hp).symm
  have h := h.perm (paragraphs_perm hold)
  have hnew := paragraphs_perm hnew
  rw [paragraphs_append] at h hnew
  exact ((h.forget hl).empty hf).perm hnew.symm

end Traced

variable {others : List Paragraph} {c d : Cell Block} {g g' : Grid}

theorem traced_writeInCell {first : Bool} {b : DefectLog.Block} (ht : Traced book sources (paragraphs c.content ++ others))
    (h : writeInCell book first b c = .ok (d, unresolved)) :
    Traced book (sources ++ b.paragraph?.toList) (paragraphs d.content ++ others) := by
  cases b
  case paragraph source =>
    cases first
    case false =>
      obtain ⟨p, hw, rfl⟩ := writeInCell_next_eq_ok h
      refine (ht.fresh.write hw).perm (List.perm_middle.symm.trans ?_)
      rw [Cell.append, paragraphs_append, List.append_assoc]
      rfl
    case true =>
      obtain ⟨_, hgo, rfl⟩ := writeInCell_first_eq_ok h
      obtain ⟨tables, p, p', rest, hw, hold, rfl⟩ := Cell.writeFirst_go_eq_ok hgo
      rw [hold, paragraphs_append, paragraphs_tables] at ht
      rw [paragraphs_append, paragraphs_tables]
      exact ht.write hw
  case table t =>
    obtain ⟨out, -, rfl⟩ := writeInCell_table_eq_ok h
    rw [DefectLog.Block.paragraph?, Option.toList_none, List.append_nil]
    refine ht.fresh.perm (List.perm_middle.symm.trans ?_)
    rw [Cell.append, Cell.append, paragraphs_append, paragraphs_append, List.append_assoc, List.append_assoc]
    rfl

theorem traced_writeBlocks {first : Bool} {blocks : List DefectLog.Block}
    (ht : Traced book sources (paragraphs c.content ++ others))
    (h : writeBlocks book first blocks c = .ok (d, unresolved)) :
    Traced book (sources ++ blocks.filterMap DefectLog.Block.paragraph?) (paragraphs d.content ++ others) := by
  induction blocks generalizing sources first c unresolved
  case nil => simpa [writeBlocks_nil_eq_ok h] using ht
  case cons b bs hi =>
    have ⟨_, _, _, hb, hbs, _⟩ := writeBlocks_cons_eq_ok h
    have hrest := hi (traced_writeInCell ht hb) hbs
    cases b
    case paragraph => simpa [DefectLog.Block.paragraph?] using hrest
    case table     => simpa [DefectLog.Block.paragraph?, List.filterMap_cons] using hrest

-- The paragraphs of a cell go to the cell that it is placed on. Those of the other cells stay what they are.
theorem traced_advance {columns : Nat} {s : Step DefectLog.Block} (ht : Traced book sources (paragraphs g.blocks))
    (h : Advance book columns s g g') : Traced book (sources ++ s.cell.paragraphs) (paragraphs g'.blocks) := by
  obtain ⟨g₁, p, c, d, d', _, hp, hc, hd, hw, rfl⟩ := h
  obtain ⟨_, _, -, -, rfl⟩ := Cell.dress_eq_ok hd
  have ⟨others, hold, hnew⟩ := Grid.blocks_setCell hc
  have ht := (ht.rearranged (.of_placed hp)).perm (paragraphs_perm hold)
  rw [paragraphs_append] at ht
  have hwritten := traced_writeBlocks (by exact ht) hw
  rw [← paragraphs_append] at hwritten
  exact hwritten.perm (paragraphs_perm (hnew d')).symm

theorem traced_advances {columns : Nat} {ss : List (Step DefectLog.Block)}
    (ht : Traced book sources (paragraphs g.blocks)) (h : Advances book columns ss g g') :
    Traced book (sources ++ ss.flatMap (·.cell.paragraphs)) (paragraphs g'.blocks) := by
  induction h generalizing sources
  case nil => simpa using ht
  case cons h _ hi =>
    rw [List.flatMap_cons, ← List.append_assoc]
    exact hi (traced_advance ht h)

theorem paragraphs_blank (rows columns : Nat) (width : Int) :
    ∀ p ∈ paragraphs (Grid.blank rows columns width).blocks, p = {} := by
  intro p hp
  simp only [paragraphs, Grid.blank, Grid.blocks, Row.blocks, List.mem_filterMap, List.mem_flatMap,
    List.mem_replicate] at hp
  obtain ⟨b, ⟨_, ⟨-, rfl⟩, _, hc, hb⟩, hp⟩ := hp
  rw [(List.mem_replicate.mp hc).right] at hb
  cases List.mem_singleton.mp hb
  exact (Option.some.inj hp).symm

theorem traced_writeTable {room : Int} {t : DefectLog.Table DefectLog.Block} {out : Table Block}
    (h : writeTable book room t = .ok (out, unresolved)) :
    Traced book t.paragraphs (paragraphs (Grid.blocks out.grid)) := by
  have ⟨_, ha⟩ := advances_of_writeTable h
  have hnil : Traced book [] [] := ⟨[], [], .nil, .nil, List.forall_mem_nil _⟩
  have ht := traced_advances (hnil.empty (paragraphs_blank _ _ _)) ha
  rwa [List.nil_append, ← List.flatMap_map, Table.steps, Table.cells_stepsFrom] at ht

end Word
end DefectLog
