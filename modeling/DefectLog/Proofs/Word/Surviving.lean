import DefectLog.Proofs.Word.Merging

-- What holds of each cell of a grid, and still does when cells have been merged.
namespace DefectLog.Word

open Success Row

-- A property of cells that does not depend on their place, and that content takes with it to another cell.
structure Survives (P : Cell Block → Prop) : Prop where
  frame   : ∀ {c width span stacking}, P c → P { c with width, span, stacking }
  receive : ∀ {c d}, P c → P d → P (c.receive d.content)
  empty   : ∀ {c}, P c → P { c with content := [.empty] }

def Grid.All (P : Cell Block → Prop) (g : Grid) : Prop :=
  ∀ cells ∈ g, ∀ c ∈ cells, P c

variable {P : Cell Block → Prop} {g g' : Grid} {c d : Cell Block} {vanished : List (Cell Block)}

namespace Survives

variable (hP : Survives P)
include hP

theorem gathered (hc : P c) (hv : ∀ d ∈ vanished, P d) : P (Grid.gathered vanished c) := by
  unfold Grid.gathered
  induction vanished generalizing c
  case nil => exact hc
  case cons d ds hi =>
    have ⟨hd, hs⟩ := List.forall_mem_cons.mp hv
    by_cases h : d.isVacant
    case pos => simpa [h] using hi hc hs
    case neg => simpa [h] using hi (hP.receive hc hd) hs

theorem grownBelow {left span rows : Nat} {below below' : Grid} (h : Grid.GrownBelow left span rows c below d below')
    (hc : P c) (hb : below.All P) : P d ∧ below'.All P := by
  induction h
  case stop => exact ⟨hc, hb⟩
  case row own row _ vanished _ _ _ hg _ hi =>
    have ⟨hrow, hbelow⟩ := List.forall_mem_cons.mp hb
    simp only [hg.row_eq, List.forall_mem_append, List.forall_mem_cons] at hrow
    have ⟨hbefore, hown, hvanished, hstays⟩ := hrow
    have ⟨hd, hrest⟩ := hi (hP.gathered hc (List.forall_mem_cons.mpr ⟨hown, hvanished⟩)) hbelow
    have hk : P { own with content := if own.isVacant then own.content else [.empty] } := by
      split
      case isTrue  => exact hown
      case isFalse => exact hP.empty hown
    exact ⟨hd, List.forall_mem_cons.mpr
      ⟨List.forall_mem_append.mpr ⟨hbefore, List.forall_mem_cons.mpr ⟨hP.frame hk, hstays⟩⟩, hrest⟩⟩

theorem merge {p q pos : Position} (hg : g.All P) (h : g.merge p q = .ok (g', pos)) : g'.All P := by
  obtain ⟨a, b, row, before, own, vanished, stays, w, top, below, -, -, -, hr, hgrown, hb, rfl, rfl⟩ :=
    Grid.merge_eq_ok h
  have hrow : ∀ e ∈ row, P e := hg row (List.mem_of_getElem? hr)
  simp only [hgrown.row_eq, List.forall_mem_append, List.forall_mem_cons] at hrow
  have ⟨hbefore, hown, hvanished, hstays⟩ := hrow
  have hdrop : Grid.All P (g.drop (min a.top b.top + 1)) := fun cells hm => hg cells (List.mem_of_mem_drop hm)
  have ⟨htop, hbelow⟩ := hP.grownBelow hb (hP.frame (hP.gathered (hP.frame hown) hvanished)) hdrop
  refine List.forall_mem_append.mpr ⟨fun cells hm => hg cells (List.mem_of_mem_take hm), ?_⟩
  exact List.forall_mem_cons.mpr
    ⟨List.forall_mem_append.mpr ⟨hbefore, List.forall_mem_cons.mpr ⟨htop, hstays⟩⟩, hbelow⟩

theorem placed {columns row : Nat} {column span : Int} {p : Position} (hg : g.All P)
    (h : g.placed columns row column span = .ok (g', p)) : g'.All P := by
  simp only [Grid.placed, bind_eq_ok] at h
  obtain ⟨p', -, h⟩ := h
  split at h
  case isTrue =>
    obtain ⟨q, -, h⟩ := bind_eq_ok.mp h
    exact hP.merge hg h
  case isFalse =>
    cases h
    exact hg

end Survives

theorem Grid.All.cell {p : Position} (hg : g.All P) (hp : g.cell? p = some c) : P c := by
  have ⟨before, rest, hr, _⟩ := Grid.cell?_eq_some hp
  exact hg _ (List.mem_of_getElem? hr) c (by simp)

theorem Grid.All.setCell {p : Position} (hg : g.All P) (hp : g.cell? p = some c) (hd : P d) :
    (g.setCell p d).All P := by
  have ⟨before, rest, hr, hl⟩ := Grid.cell?_eq_some hp
  rw [Grid.setCell_eq_set hr hl]
  intro cells hm
  cases List.mem_or_eq_of_mem_set hm
  case inl hm => exact hg cells hm
  case inr he =>
    have hrow := hg _ (List.mem_of_getElem? hr)
    simp only [List.forall_mem_append, List.forall_mem_cons] at hrow
    exact he ▸ List.forall_mem_append.mpr ⟨hrow.left, List.forall_mem_cons.mpr ⟨hd, hrow.right.right⟩⟩

theorem Grid.all_blank {width : Int} (h : P { width, content := [.empty] }) (rows columns : Nat) :
    (Grid.blank rows columns width).All P := by
  intro cells hm c hc
  rw [(List.mem_replicate.mp hm).right] at hc
  rw [(List.mem_replicate.mp hc).right]
  exact h

end DefectLog.Word
