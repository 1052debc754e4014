import DefectLog.Proofs.Sheet.Headings
import DefectLog.Sheet.Basic
import Mathlib.Data.List.Basic
import Mathlib.Data.List.Induction

-- The entries of a sheet are the entries that it is given, sorted by level and otherwise in their order.
namespace DefectLog.Headings

variable {entries entries' sorted sorted' : List (Int × HeadingLook)} {level : Int}

-- A list next to what it is sorted to: by level, with the entries of one level in the order in which they stood.
structure Sorts (entries sorted : List (Int × HeadingLook)) : Prop where
  perm   : sorted.Perm entries
  rising : sorted.Pairwise (·.1 ≤ ·.1)
  stable : ∀ level, sorted.filter (·.1 == level) = entries.filter (·.1 == level)

-- The entries of one level are a sorted sublist, which sorting keeps, and no other entry comes to the level.
theorem filter_ofList (entries : List (Int × HeadingLook)) (level : Int) :
    (ofList entries).entries.filter (·.1 == level) = entries.filter (·.1 == level) := by
  have hl : (entries.filter (·.1 == level)).Pairwise fun a b => decide (a.1 ≤ b.1) = true := by
    refine List.pairwise_of_forall_mem_list fun a ha b hb => ?_
    have hla : a.1 = level := by simpa using (List.mem_filter.mp ha).2
    have hlb : b.1 = level := by simpa using (List.mem_filter.mp hb).2
    simp [hla, hlb]
  have hs : (entries.filter (·.1 == level)).Sublist (ofList entries).entries :=
    List.sublist_mergeSort (by simp; omega) (by simp; omega) hl List.filter_sublist
  have hf := hs.filter (·.1 == level)
  simp only [List.filter_filter, Bool.and_self] at hf
  have hp : ((ofList entries).entries.filter (·.1 == level)).Perm (entries.filter (·.1 == level)) :=
    (List.mergeSort_perm _ _).filter _
  exact (hf.eq_of_length hp.length_eq.symm).symm

theorem sorts_ofList (entries : List (Int × HeadingLook)) : Sorts entries (ofList entries).entries where
  perm   := List.mergeSort_perm _ _
  rising := (ofList entries).sorted
  stable := filter_ofList entries

theorem head_le_of_mem {a e : Int × HeadingLook} (h : (a :: entries).Pairwise (·.1 ≤ ·.1)) (he : e ∈ a :: entries) :
    a.1 ≤ e.1 := by
  cases List.mem_cons.mp he
  case inl he => exact Int.le_of_eq (by rw [he])
  case inr he => exact List.rel_of_pairwise_cons h he

theorem mem_of_filter_eq {e : Int × HeadingLook}
    (h : ∀ level, entries.filter (·.1 == level) = entries'.filter (·.1 == level)) (he : e ∈ entries) :
    e ∈ entries' := by
  have hf : e ∈ entries.filter (·.1 == e.1) := List.mem_filter.mpr ⟨he, beq_self_eq_true _⟩
  rw [h] at hf
  exact (List.mem_filter.mp hf).1

-- A sorted list is known from what it has at each level.
theorem eq_of_filter_eq (h : entries.Pairwise (·.1 ≤ ·.1)) (h' : entries'.Pairwise (·.1 ≤ ·.1))
    (hf : ∀ level, entries.filter (·.1 == level) = entries'.filter (·.1 == level)) : entries = entries' := by
  induction entries generalizing entries'
  case nil =>
    have hn : ∀ e, e ∉ entries' := fun _ he => List.not_mem_nil (mem_of_filter_eq (fun level => (hf level).symm) he)
    exact (List.eq_nil_iff_forall_not_mem.mpr hn).symm
  case cons a as hi =>
    cases entries'
    case nil => exact absurd (mem_of_filter_eq hf List.mem_cons_self) List.not_mem_nil
    case cons b bs =>
      -- Neither of the two lowest entries is above the other one, so they are the first entries of one level.
      have hab : a.1 ≤ b.1 := head_le_of_mem h (mem_of_filter_eq (fun level => (hf level).symm) List.mem_cons_self)
      have hba : b.1 ≤ a.1 := head_le_of_mem h' (mem_of_filter_eq hf List.mem_cons_self)
      have hl : b.1 = a.1 := Int.le_antisymm hba hab
      have he : a = b := by
        have hc := hf a.1
        simp only [List.filter_cons, hl, beq_self_eq_true, if_true] at hc
        exact (List.cons.inj hc).1
      subst he
      rw [hi h.of_cons h'.of_cons fun level => ?_]
      have hc := hf level
      simp only [List.filter_cons] at hc
      split at hc
      case isTrue  => exact (List.cons.inj hc).2
      case isFalse => exact hc

theorem Sorts.eq (h : Sorts entries sorted) (h' : Sorts entries sorted') : sorted = sorted' :=
  eq_of_filter_eq h.rising h'.rising fun level => (h.stable level).trans (h'.stable level).symm

theorem eq_of_entries {hs hs' : Headings} (h : hs.entries = hs'.entries) : hs = hs' := by
  cases hs
  cases hs'
  cases h
  rfl

theorem ofList_entries (hs : Headings) : ofList hs.entries = hs :=
  eq_of_entries (List.mergeSort_of_pairwise (by simpa using hs.sorted))

theorem look?_ofList (entries : List (Int × HeadingLook)) (level : Int) :
    (ofList entries).look? level = (entries.find? (·.1 == level)).map (·.2) := by
  rw [look?, ← List.head?_filter, filter_ofList, List.head?_filter]

theorem fst_of_find? {entry : Int × HeadingLook} (h : entries.find? (·.1 == level) = some entry) : entry.1 = level := by
  simpa using List.find?_some h

theorem find?_assign (entries : List (Int × HeadingLook)) (entry : Int × HeadingLook) (level : Int) :
    (assign entries entry).find? (·.1 == level) =
      if entry.1 = level then some entry else entries.find? (·.1 == level) := by
  unfold assign
  split
  case isTrue h =>
    have hp : ((·.1 == level) ∘ fun e => if e.1 = entry.1 then entry else e : Int × HeadingLook → Bool) =
        (·.1 == level) := by
      funext e
      by_cases he : e.1 = entry.1 <;> simp [he]
    rw [List.find?_map, hp]
    split
    case isTrue hl =>
      have hm : level ∈ entries.map (·.1) := by simpa [hl] using h
      have ⟨look, _, hf⟩ := exists_find? hm
      rw [hf, Option.map_some, if_pos hl.symm]
    case isFalse hl =>
      cases hf : entries.find? (·.1 == level)
      case none => rfl
      case some e =>
        have hn : e.1 ≠ entry.1 := fun he => hl (he.symm.trans (fst_of_find? hf))
        rw [Option.map_some, if_neg hn]
  case isFalse h =>
    rw [List.find?_append, List.find?_singleton]
    split
    case isTrue hl =>
      have hl : entry.1 = level := by simpa using hl
      have hn : entries.find? (·.1 == level) = none := List.find?_eq_none.mpr fun e he hc =>
        h (List.any_eq_true.mpr ⟨e, he, by rwa [hl]⟩)
      rw [hn, if_pos hl, Option.none_or]
    case isFalse hl => rw [if_neg (by simpa using hl), Option.or_none]

theorem find?_foldl_assign (entries : List (Int × HeadingLook)) (level : Int) :
    (entries.foldl assign []).find? (·.1 == level) = entries.reverse.find? (·.1 == level) := by
  induction entries using List.reverseRecOn
  case nil => rfl
  case append_singleton entries entry hi =>
    rw [List.foldl_append, List.foldl_cons, List.foldl_nil, find?_assign, hi, List.reverse_append,
      List.reverse_singleton, List.singleton_append, List.find?_cons]
    by_cases hl : entry.1 = level
    case pos => simp [hl]
    case neg => rw [if_neg hl, beq_false_of_ne hl]

theorem look?_ofAssignments (entries : List (Int × HeadingLook)) (level : Int) :
    (ofAssignments entries).look? level = assigned? entries level := by
  rw [ofAssignments, look?_ofList, find?_foldl_assign, assigned?]

-- Where no level occurs twice, the look of a level is all that there is at it.
theorem filter_of_nodup (h : (entries.map (·.1)).Nodup) (level : Int) :
    entries.filter (·.1 == level) = ((entries.find? (·.1 == level)).map fun e => (level, e.2)).toList := by
  induction entries
  case nil => rfl
  case cons e es hi =>
    have ⟨hn, hs⟩ := List.nodup_cons.mp h
    by_cases hl : e.1 = level
    case pos =>
      have hf : es.filter (·.1 == level) = [] := List.filter_eq_nil_iff.mpr fun e' he' hc =>
        hn (List.mem_map.mpr ⟨e', he', by simpa [hl] using hc⟩)
      subst hl
      simp [hf]
    case neg => simpa [hl] using hi hs

theorem eq_of_look? {hs hs' : Headings} (h : hs.levels.Nodup) (h' : hs'.levels.Nodup)
    (hl : ∀ level, hs.look? level = hs'.look? level) : hs = hs' := by
  refine eq_of_entries (eq_of_filter_eq hs.sorted hs'.sorted fun level => ?_)
  have he : ∀ entries : List (Int × HeadingLook), (entries.find? (·.1 == level)).map (fun e => (level, e.2)) =
      ((entries.find? (·.1 == level)).map (·.2)).map (level, ·) := fun _ => by rw [Option.map_map]; rfl
  rw [filter_of_nodup h, filter_of_nodup h', he, he]
  exact congrArg (fun o => (Option.map (level, ·) o).toList) (hl level)

theorem ofAssignments_eq_iff :
    ofAssignments entries = ofAssignments entries' ↔ ∀ level, assigned? entries level = assigned? entries' level := by
  refine ⟨fun h level => ?same, fun h => ?known⟩
  case same  => rw [← look?_ofAssignments, h, look?_ofAssignments]
  case known =>
    refine eq_of_look? (nodup_levels_ofAssignments entries) (nodup_levels_ofAssignments entries') fun level => ?_
    rw [look?_ofAssignments, look?_ofAssignments, h]

-- A sheet is made from a list of levels with their looks or from a mapping of levels to looks.
theorem headings_of_sheet (entries entries' : List (Int × HeadingLook)) (level : Int) (hs : Headings) (sheet : Sheet) :
    (∀ sorted, Sorts entries sorted ↔ sorted = (ofList entries).entries) ∧
    (ofList entries).look? level = (entries.find? (·.1 == level)).map (·.2) ∧
    ofList hs.entries = hs ∧
    ({ sheet with headings := ofAssignments entries } = { sheet with headings := ofAssignments entries' } ↔
      ∀ level, assigned? entries level = assigned? entries' level) := by
  refine ⟨fun sorted => ⟨fun h => ?unique, fun h => ?sorts⟩, look?_ofList entries level, ofList_entries hs, ?mapping⟩
  case unique  => exact h.eq (sorts_ofList entries)
  case sorts   => exact h ▸ sorts_ofList entries
  case mapping =>
    refine ⟨fun h => ofAssignments_eq_iff.mp (congrArg Sheet.headings h), fun h => ?_⟩
    rw [ofAssignments_eq_iff.mpr h]

end DefectLog.Headings
