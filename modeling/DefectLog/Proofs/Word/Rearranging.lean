import DefectLog.Proofs.Word.Merging
import Mathlib.Data.List.Count

-- Which blocks a grid holds. Merging cells moves them, and loses nothing but paragraphs without runs.
namespace DefectLog.Word

open Grid

namespace Row

def blocks (cells : List (Cell Block)) : List Block :=
  cells.flatMap (·.content)

@[simp] theorem blocks_nil : blocks [] = [] :=
  rfl

@[simp] theorem blocks_cons (c : Cell Block) (cells : List (Cell Block)) :
    blocks (c :: cells) = c.content ++ blocks cells :=
  List.flatMap_cons

@[simp] theorem blocks_append (cells rest : List (Cell Block)) : blocks (cells ++ rest) = blocks cells ++ blocks rest :=
  List.flatMap_append

end Row

theorem Cell.content_of_isVacant {c : Cell Block} (h : c.isVacant) : ∃ b : Block, c.content = [b] ∧ b.isVacant := by
  unfold isVacant at h
  split at h
  case h_1 b hb => exact ⟨b, hb, h⟩
  case h_2      => cases h


namespace Grid

def blocks (g : Grid) : List Block :=
  g.flatMap Row.blocks

@[simp] theorem blocks_nil : blocks [] = [] :=
  rfl

@[simp] theorem blocks_cons (cells : List (Cell Block)) (g : Grid) : blocks (cells :: g) = Row.blocks cells ++ blocks g :=
  List.flatMap_cons

@[simp] theorem blocks_append (g h : Grid) : blocks (g ++ h) = blocks g ++ blocks h :=
  List.flatMap_append

theorem blocks_set {g : Grid} {row : Nat} (h : row < g.length) (cells : List (Cell Block)) :
    blocks (g.set row cells) = blocks (g.take row) ++ (Row.blocks cells ++ blocks (g.drop (row + 1))) := by
  rw [List.set_eq_take_append_cons_drop, if_pos h, blocks_append, blocks_cons]

theorem blocks_split {g : Grid} {row : Nat} {cells : List (Cell Block)} (h : g[row]? = some cells) :
    blocks g = blocks (g.take row) ++ (Row.blocks cells ++ blocks (g.drop (row + 1))) := by
  obtain ⟨hl, rfl⟩ := List.getElem?_eq_some_iff.mp h
  rw [← blocks_set hl, List.set_getElem_self]

theorem gathered_cons (d : Cell Block) (ds : List (Cell Block)) (c : Cell Block) :
    gathered (d :: ds) c = if d.isVacant then gathered ds c else gathered ds (c.receive d.content) := by
  by_cases h : d.isVacant <;> simp [gathered, h]

end Grid

open Classical in
-- The same blocks in any order. Only paragraphs without runs may be missing, and only empty ones may be new.
def Rearranged (old new : List Block) : Prop :=
  ∀ b, (b.isVacant = false → new.count b = old.count b) ∧ (b ≠ .empty → new.count b ≤ old.count b)

namespace Rearranged

open Classical

variable {g g' : Grid} {old mid new : List Block} {c : Cell Block}

theorem trans (h₁ : Rearranged old mid) (h₂ : Rearranged mid new) : Rearranged old new :=
  fun b => ⟨fun hb => ((h₂ b).left hb).trans ((h₁ b).left hb),
    fun hb => Nat.le_trans ((h₂ b).right hb) ((h₁ b).right hb)⟩

theorem of_count (h : ∀ b, new.count b = old.count b) : Rearranged old new :=
  fun b => ⟨fun _ => h b, fun _ => Nat.le_of_eq (h b)⟩

theorem refl (bs : List Block) : Rearranged bs bs :=
  of_count fun _ => rfl

theorem append (h : Rearranged old new) (rest : List Block) : Rearranged (old ++ rest) (new ++ rest) := by
  intro b
  simp only [List.count_append]
  exact ⟨fun hb => by rw [(h b).left hb], fun hb => Nat.add_le_add_right ((h b).right hb) _⟩

theorem of_isVacant {b : Block} (hb : b.isVacant) (old rest : List Block) :
    Rearranged (old ++ b :: rest) (old ++ rest) := by
  intro b'
  simp only [List.count_append, List.count_cons]
  refine ⟨fun hb' => ?_, fun _ => by omega⟩
  have hn : b ≠ b' := fun h => by simp [← h, hb] at hb'
  simp [hn]

theorem of_receive (c : Cell Block) (bs : List Block) : Rearranged (c.content ++ bs) (c.receive bs).content := by
  simp only [Cell.receive]
  split
  case h_1 b hb =>
    split
    case isTrue hv =>
      have hd : c.content.dropLast ++ [b] = c.content := List.dropLast_append_getLast? b hb
      conv => lhs; rw [← hd, List.append_assoc]
      exact of_isVacant hv _ _
    case isFalse => exact refl _
  case h_2 => exact refl _

theorem of_gathered (vanished : List (Cell Block)) (c : Cell Block) :
    Rearranged (c.content ++ Row.blocks vanished) (Grid.gathered vanished c).content := by
  induction vanished generalizing c
  case nil =>
    rw [Row.blocks_nil, List.append_nil]
    exact refl _
  case cons d ds hi =>
    rw [Row.blocks_cons, gathered_cons]
    split
    case isTrue hv =>
      obtain ⟨b, hb, hv⟩ := Cell.content_of_isVacant hv
      rw [hb, List.singleton_append]
      exact (of_isVacant hv _ _).trans (hi c)
    case isFalse =>
      rw [← List.append_assoc]
      exact ((of_receive c d.content).append _).trans (hi _)

theorem concat_empty (bs : List Block) : Rearranged bs (bs ++ [.empty]) := by
  intro b
  have he : b ≠ .empty → Block.empty ≠ b := Ne.symm
  rw [List.count_append, List.count_singleton]
  refine ⟨fun hb => ?_, fun hb => by simp [he hb]⟩
  have hn : Block.empty ≠ b := fun h => by simp [← h, Block.empty, Block.isVacant] at hb
  simp [hn]

-- A cell that is continued from above hands its content over. If it is vacant, it keeps what it has.
theorem of_continued (own : Cell Block) (vanished : List (Cell Block)) (c : Cell Block) :
    Rearranged (c.content ++ (own.content ++ Row.blocks vanished))
      ((gathered (own :: vanished) c).content ++ if own.isVacant then own.content else [.empty]) := by
  rw [gathered_cons]
  split
  case isTrue hv =>
    have hp : Rearranged (c.content ++ (own.content ++ Row.blocks vanished))
        (c.content ++ Row.blocks vanished ++ own.content) :=
      of_count fun b => by simp only [List.count_append]; omega
    exact hp.trans ((of_gathered vanished c).append _)
  case isFalse =>
    rw [← List.append_assoc]
    exact (((of_receive c own.content).append _).trans (of_gathered vanished _)).trans (concat_empty _)

theorem of_grownBelow {left span rows : Nat} {d : Cell Block} {below below' : Grid}
    (h : Grid.GrownBelow left span rows c below d below') :
    Rearranged (c.content ++ below.blocks) (d.content ++ below'.blocks) := by
  induction h
  case stop => exact refl _
  case row top _ own row before vanished stays below _ hg _ hi =>
    have hown := (of_continued own vanished top).append (Row.blocks before ++ Row.blocks stays ++ below.blocks)
    simp only [hg.row_eq, Grid.blocks_cons, Row.blocks_append, Row.blocks_cons]
    generalize (if own.isVacant then own.content else [.empty]) = kept at hown ⊢
    have hrest := hi.append (Row.blocks before ++ (kept ++ Row.blocks stays))
    refine .trans (of_count fun b => ?start) <| hown.trans <| .trans (of_count fun b => ?middle) <|
      hrest.trans (of_count fun b => ?finish)
    all_goals
      simp only [List.count_append]
      omega

theorem of_merge {p q pos : Position} (h : g.merge p q = .ok (g', pos)) : Rearranged g.blocks g'.blocks := by
  obtain ⟨a, b, row, before, own, vanished, stays, width, top, below, -, -, -, hr, hg, hb, rfl, rfl⟩ :=
    Grid.merge_eq_ok h
  have hown := of_gathered vanished { own with width, span := own.span + Row.extent vanished }
  have hbelow := of_grownBelow hb
  simp only [Grid.blocks_split hr, hg.row_eq, Grid.blocks_append, Grid.blocks_cons, Row.blocks_append,
    Row.blocks_cons] at hown hbelow ⊢
  generalize Grid.blocks (g.take _) = above
  generalize Grid.blocks (g.drop _) = rest at hbelow ⊢
  refine .trans (of_count fun b => ?start) <| (hown.append (above ++ Row.blocks before ++ Row.blocks stays ++ rest)).trans <|
    .trans (of_count fun b => ?middle) <|
    (hbelow.append (above ++ Row.blocks before ++ Row.blocks stays)).trans (of_count fun b => ?finish)
  all_goals
    simp only [List.count_append]
    omega

theorem of_placed {columns row : Nat} {column span : Int} {p : Position}
    (h : g.placed columns row column span = .ok (g', p)) : Rearranged g.blocks g'.blocks := by
  simp only [Grid.placed, Success.bind_eq_ok] at h
  obtain ⟨p', -, h⟩ := h
  split at h
  case isTrue =>
    obtain ⟨q, -, h⟩ := Success.bind_eq_ok.mp h
    exact of_merge h
  case isFalse =>
    cases h
    exact refl _

-- What only blocks that are not vacant contribute to is neither lost nor new.
theorem perm_flatMap {f : Block → List α} (hf : ∀ b, b.isVacant → f b = []) (h : Rearranged old new) :
    (new.flatMap f).Perm (old.flatMap f) := by
  have hs : ∀ bs : List Block, bs.flatMap f = (bs.filter (!·.isVacant)).flatMap f := by
    intro bs
    induction bs
    case nil          => rfl
    case cons b bs hi => by_cases hb : b.isVacant <;> simp [hb, hf, hi]
  have hp : (new.filter (!·.isVacant)).Perm (old.filter (!·.isVacant)) := by
    refine List.perm_iff_count.mpr fun b => ?_
    by_cases hb : b.isVacant
    case pos =>
      have hn : ∀ bs : List Block, (bs.filter (!·.isVacant)).count b = 0 :=
        fun bs => List.count_eq_zero.mpr (by simp [hb])
      rw [hn, hn]
    case neg =>
      have hv : b.isVacant = false := by simpa using hb
      have hn : ∀ bs : List Block, (bs.filter (!·.isVacant)).count b = bs.count b :=
        fun bs => List.count_filter (by simp [hv])
      rw [hn, hn, (h b).left hv]
  rw [hs new, hs old]
  exact hp.flatMap_right f

theorem split (h : Rearranged old new) : ∃ kept lost fresh, old.Perm (kept ++ lost) ∧ new.Perm (kept ++ fresh) ∧
    (∀ b ∈ lost, b.isVacant) ∧ ∀ b ∈ fresh, b = .empty := by
  have hp := (List.filter_append_perm (fun b => decide (b ≠ Block.empty)) new).symm
  generalize hk : new.filter (fun b => decide (b ≠ Block.empty)) = kept at hp
  have hc : ∀ b ∈ kept, kept.count b ≤ old.count b := by
    intro b hb
    have hb : b ≠ .empty := by
      rw [← hk] at hb
      simpa using (List.mem_filter.mp hb).right
    rw [← hk, List.count_filter (by simpa using hb)]
    exact (h b).right hb
  refine ⟨kept, old.diff kept, _, (List.subperm_append_diff_self_of_count_le hc).symm, hp, ?lost, ?fresh⟩
  case fresh =>
    intro b hb
    simpa using (List.mem_filter.mp hb).right
  case lost =>
    intro b hb
    by_contra hv
    have hv : b.isVacant = false := by simpa using hv
    have he : b ≠ .empty := by
      rintro rfl
      simp [Block.empty, Block.isVacant] at hv
    have hd : 0 < (old.diff kept).count b := List.count_pos_iff.mpr hb
    rw [List.count_diff, ← hk, List.count_filter (by simpa using he), (h b).left hv] at hd
    omega

end Rearranged

open Classical in
-- The blocks of a cell and those of all others.
theorem Grid.blocks_setCell {g : Grid} {p : Position} {c : Cell Block} (h : g.cell? p = some c) :
    ∃ others, g.blocks.Perm (c.content ++ others) ∧ ∀ d, (g.setCell p d).blocks.Perm (d.content ++ others) := by
  have ⟨before, rest, hr, hp⟩ := cell?_eq_some h
  have hl := (List.getElem?_eq_some_iff.mp hr).1
  have hperm : ∀ d : Cell Block, (blocks (g.take p.row) ++ (Row.blocks (before ++ d :: rest) ++
      blocks (g.drop (p.row + 1)))).Perm (d.content ++
        (blocks (g.take p.row) ++ Row.blocks before ++ Row.blocks rest ++ blocks (g.drop (p.row + 1)))) := by
    refine fun d => List.perm_iff_count.mpr fun b => ?_
    simp only [Row.blocks_append, Row.blocks_cons, List.count_append]
    omega
  refine ⟨_, blocks_split hr ▸ hperm c, fun d => ?_⟩
  rw [setCell_eq_set hr hp, blocks_set hl]
  exact hperm d

end DefectLog.Word
