import DefectLog.Sheet.Headings
import Mathlib.Data.List.Nodup

-- Which entry of a level counts where a level has more than one.
namespace DefectLog.Headings

variable {hs : Headings} {level : Int}

-- The look that a level has been given last.
def assigned? (entries : List (Int × HeadingLook)) (level : Int) : Option HeadingLook :=
  (entries.reverse.find? (·.1 == level)).map (·.2)

-- The look of the last entry of a level.
def lastLook? (hs : Headings) (level : Int) : Option HeadingLook :=
  assigned? hs.entries level

theorem exists_find? {entries : List (Int × HeadingLook)} (h : level ∈ entries.map (·.1)) :
    ∃ look, (level, look) ∈ entries ∧ entries.find? (·.1 == level) = some (level, look) := by
  have ⟨entry, hm, he⟩ := List.mem_map.mp h
  have hs : (entries.find? (·.1 == level)).isSome := List.find?_isSome.mpr ⟨entry, hm, by simpa using he⟩
  have ⟨found, hf⟩ := Option.isSome_iff_exists.mp hs
  have hl : found.1 = level := by simpa using List.find?_some hf
  exact ⟨found.2, hl ▸ List.mem_of_find?_eq_some hf, hl ▸ hf⟩

theorem exists_look? (h : level ∈ hs.levels) : ∃ look, (level, look) ∈ hs.entries ∧ hs.look? level = some look := by
  have ⟨look, hm, hf⟩ := exists_find? h
  exact ⟨look, hm, by rw [look?, hf]; rfl⟩

theorem exists_lastLook? (h : level ∈ hs.levels) :
    ∃ look, (level, look) ∈ hs.entries ∧ hs.lastLook? level = some look := by
  have hr : level ∈ hs.entries.reverse.map (·.1) := by rwa [List.map_reverse, List.mem_reverse]
  have ⟨look, hm, hf⟩ := exists_find? hr
  exact ⟨look, List.mem_reverse.mp hm, by rw [lastLook?, assigned?, hf]; rfl⟩

-- A level that occurs once has the same entry first and last.
theorem lastLook?_eq_look? (h : hs.levels.Nodup) (hl : level ∈ hs.levels) : hs.lastLook? level = hs.look? level := by
  have ⟨first, hfirst, hlook⟩ := exists_look? hl
  have ⟨last, hlast, hlook'⟩ := exists_lastLook? hl
  have he : last = first := congrArg Prod.snd (List.inj_on_of_nodup_map h hlast hfirst rfl)
  rw [hlook, hlook', he]

theorem nodup_assign {entries : List (Int × HeadingLook)} (entry : Int × HeadingLook) (h : (entries.map (·.1)).Nodup) :
    ((assign entries entry).map (·.1)).Nodup := by
  unfold assign
  split
  case isTrue =>
    have hk : (entries.map fun e => if e.1 = entry.1 then entry else e).map (·.1) = entries.map (·.1) := by
      rw [List.map_map]
      refine List.map_congr_left fun e _ => ?_
      by_cases he : e.1 = entry.1 <;> simp [he]
    rwa [hk]
  case isFalse hn =>
    have hm : entry.1 ∉ entries.map (·.1) := by simpa using hn
    rw [List.map_append]
    exact h.append (List.nodup_singleton _) (by simpa using hm)

theorem nodup_levels_ofAssignments (entries : List (Int × HeadingLook)) : (ofAssignments entries).levels.Nodup := by
  have hn : ∀ start : List (Int × HeadingLook), (start.map (·.1)).Nodup →
      ((entries.foldl assign start).map (·.1)).Nodup := by
    induction entries
    case nil         => exact fun _ h => h
    case cons e _ hi => exact fun start h => hi _ (nodup_assign e h)
  exact ((List.mergeSort_perm _ _).map _).nodup_iff.mpr (hn [] List.nodup_nil)

end DefectLog.Headings
