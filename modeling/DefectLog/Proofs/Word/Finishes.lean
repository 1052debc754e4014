import DefectLog.Proofs.Success
import DefectLog.Word.Rendering

-- What is added to the properties of a cell when a cell of the tree is written to it.
namespace DefectLog.Word

open Success

namespace Rule

def ofEdge (b : Border) : Rule where
  style     := b.style
  thickness := b.thickness
  color     := b.color

theorem ofBorder_eq_ok {b : Border} {r : Rule} (h : ofBorder b = .ok r) : r = ofEdge b := by
  simp only [ofBorder, bind_eq_ok, pure_eq_ok] at h
  obtain ⟨_, -, _, -, rfl⟩ := h
  rfl

end Rule

namespace Finish

-- The finishes of a cell of the tree, which are its own borders, shading and margins.
def own (c : DefectLog.Cell DefectLog.Block) : List Finish :=
  (c.borders.map fun b => borders (.ofEdge b.top) (.ofEdge b.left) (.ofEdge b.bottom) (.ofEdge b.right)).toList ++
    (c.shading.map fun s => shading s.pattern s.fill).toList ++ [margins c.margins]

theorem ofBorders_eq_ok {b : Borders} {f : Finish} (h : ofBorders b = .ok f) :
    f = borders (.ofEdge b.top) (.ofEdge b.left) (.ofEdge b.bottom) (.ofEdge b.right) := by
  simp only [ofBorders, bind_eq_ok, pure_eq_ok] at h
  obtain ⟨top, ht, left, hl, bottom, hb, right, hr, rfl⟩ := h
  rw [Rule.ofBorder_eq_ok ht, Rule.ofBorder_eq_ok hl, Rule.ofBorder_eq_ok hb, Rule.ofBorder_eq_ok hr]

theorem ofShading_eq_ok {s : Shading} {f : Finish} (h : ofShading s = .ok f) :
    f = shading s.pattern s.fill := by
  simp only [ofShading, bind_eq_ok, pure_eq_ok] at h
  obtain ⟨_, -, _, -, rfl⟩ := h
  rfl

theorem ofCell_eq_ok {c : DefectLog.Cell DefectLog.Block} {fs : List Finish} (h : ofCell c = .ok fs) :
    fs = own c := by
  simp only [ofCell, bind_eq_ok, pure_eq_ok] at h
  obtain ⟨bs, hb, ss, hs, rfl⟩ := h
  have hb : bs = c.borders.map _ := mapM_option_eq_map ofBorders_eq_ok hb
  have hs : ss = c.shading.map _ := mapM_option_eq_map ofShading_eq_ok hs
  rw [hb, hs]
  rfl

theorem own_ne_nil (c : DefectLog.Cell DefectLog.Block) : own c ≠ [] := by
  simp [own]

end Finish
end DefectLog.Word
