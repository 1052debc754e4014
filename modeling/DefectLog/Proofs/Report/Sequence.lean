import DefectLog.Proofs.Report.Recovery

-- The order of the blocks in a report.
namespace DefectLog.Report

section

variable (sheet : Sheet) (title subtitle : String) (closing : Option String) (defects : List Defect)

-- Which block stands at which place of the body: three for each defect, between the opening and the ending.
inductive Stands : Nat → Block → Prop
  | title                                         : Stands 0 (.paragraph (.title sheet title))
  | subtitle                                      : Stands 1 (.paragraph (.subtitle sheet subtitle))
  | upper                                         : Stands 2 (.paragraph (.divider sheet))
  | before {k d} : defects[k]? = some d → Stands (3 * k + 3) (.paragraph (.spacer sheet))
  | table  {k d} : defects[k]? = some d → Stands (3 * k + 4) (.table (d.table sheet))
  | after  {k d} : defects[k]? = some d → Stands (3 * k + 5) (.paragraph (.spacer sheet))
  | lower        : Stands (3 * defects.length + 3) (.paragraph (.divider sheet))
  | closing      : Stands (3 * defects.length + 4) (.paragraph (.closing sheet (closingLine defects.length closing)))

end

variable {sheet : Sheet} {title subtitle : String} {closing : Option String} {defects : List Defect}
  {i n : Nat} {b : Block}

theorem getElem?_entries (sheet : Sheet) (defects : List Defect) (n : Nat) :
    (defects.flatMap (entryBlocks sheet))[n]? = (defects[n / 3]?).bind fun d => (entryBlocks sheet d)[n % 3]? := by
  induction defects generalizing n
  case nil => rfl
  case cons d ds hi =>
    have hl : (entryBlocks sheet d).length = 3 := rfl
    rw [List.flatMap_cons]
    by_cases hn : n < 3
    case pos =>
      rw [List.getElem?_append_left (by omega), Nat.div_eq_of_lt hn, Nat.mod_eq_of_lt hn]
      rfl
    case neg =>
      have hd : n / 3 = (n - 3) / 3 + 1 := by omega
      have hm : n % 3 = (n - 3) % 3 := by omega
      rw [List.getElem?_append_right (by omega), hl, hi, hd, hm, List.getElem?_cons_succ]

theorem getElem?_body_entries (h : n < 3 * defects.length) :
    (body sheet title subtitle closing defects)[n + 3]? =
      (defects[n / 3]?).bind fun d => (entryBlocks sheet d)[n % 3]? := by
  have hl := length_entries sheet defects
  have ho : (opening sheet title subtitle).length = 3 := rfl
  rw [body, List.append_assoc, List.getElem?_append_right (by omega), List.getElem?_append_left (by omega), ho,
    Nat.add_sub_cancel, getElem?_entries]

theorem getElem?_body_ending (n : Nat) :
    (body sheet title subtitle closing defects)[n + (3 * defects.length + 3)]? =
      (ending sheet defects.length closing)[n]? := by
  have hl := length_entries sheet defects
  have ho : (opening sheet title subtitle).length = 3 := rfl
  rw [body, List.getElem?_append_right (by rw [List.length_append]; omega), List.length_append, ho, hl]
  congr 1
  omega

theorem stands_of_getElem? (h : (body sheet title subtitle closing defects)[i]? = some b) :
    Stands sheet title subtitle closing defects i b := by
  rcases Nat.lt_or_ge i 3 with hi | hi
  case inl =>
    match i with
    | 0 => cases h; exact .title
    | 1 => cases h; exact .subtitle
    | 2 => cases h; exact .upper
  case inr =>
    obtain ⟨n, rfl⟩ := Nat.exists_eq_add_of_le' hi
    rcases Nat.lt_or_ge n (3 * defects.length) with hn | hn
    case inl =>
      rw [getElem?_body_entries hn] at h
      have ⟨d, hd, hb⟩ := Option.bind_eq_some_iff.mp h
      have hk : n = 3 * (n / 3) + n % 3 := by omega
      have hm : n % 3 < 3 := Nat.mod_lt _ (by decide)
      rw [hk]
      generalize n % 3 = m at hb hm
      match m with
      | 0 => cases hb; exact .before hd
      | 1 => cases hb; exact .table hd
      | 2 => cases hb; exact .after hd
    case inr =>
      obtain ⟨m, rfl⟩ := Nat.exists_eq_add_of_le' hn
      rw [Nat.add_assoc, getElem?_body_ending] at h
      match m with
      | 0     => cases h; rw [Nat.zero_add]; exact .lower
      | 1     => cases h; rw [Nat.add_comm 1]; exact .closing
      | _ + 2 => cases h

theorem Stands.getElem? (h : Stands sheet title subtitle closing defects i b) :
    (body sheet title subtitle closing defects)[i]? = some b := by
  have he : ∀ {k d m}, defects[k]? = some d → m < 3 →
      (body sheet title subtitle closing defects)[3 * k + m + 3]? = (entryBlocks sheet d)[m]? := by
    intro k d m hd hm
    have hk := (List.getElem?_eq_some_iff.mp hd).1
    have hdiv : (3 * k + m) / 3 = k := by omega
    have hmod : (3 * k + m) % 3 = m := by omega
    rw [getElem?_body_entries (by omega), hdiv, hmod, hd, Option.bind_some]
  cases h
  case title        => rfl
  case subtitle     => rfl
  case upper        => rfl
  case before k d h => exact he h (m := 0) (by decide)
  case table k d h  => exact he h (m := 1) (by decide)
  case after k d h  => exact he h (m := 2) (by decide)
  case lower        => exact Nat.zero_add (3 * _ + 3) ▸ getElem?_body_ending 0
  case closing      => exact Nat.add_comm 1 (3 * _ + 3) ▸ getElem?_body_ending 1

theorem getElem?_body_iff :
    (body sheet title subtitle closing defects)[i]? = some b ↔ Stands sheet title subtitle closing defects i b :=
  ⟨stands_of_getElem?, Stands.getElem?⟩

-- No text and no choice of a sheet makes another block of the body an empty paragraph without a rule.
theorem stands_spacer_iff : Stands sheet title subtitle closing defects i (.paragraph (.spacer sheet)) ↔
    ∃ k < defects.length, i = 3 * k + 3 ∨ i = 3 * k + 5 := by
  refine ⟨fun h => ?place, ?spacer⟩
  case place =>
    generalize hb : Block.paragraph (.spacer sheet) = b at h
    cases h
    case before k d h => exact ⟨k, (List.getElem?_eq_some_iff.mp h).1, .inl rfl⟩
    case after k d h  => exact ⟨k, (List.getElem?_eq_some_iff.mp h).1, .inr rfl⟩
    case table        => cases hb
    case upper        => simp [Paragraph.spacer, Paragraph.divider] at hb
    case lower        => simp [Paragraph.spacer, Paragraph.divider] at hb
    all_goals simp [Paragraph.spacer, Paragraph.title, Paragraph.subtitle, Paragraph.closing] at hb
  case spacer =>
    rintro ⟨k, hk, rfl | rfl⟩
    case inl => exact .before (List.getElem?_eq_getElem hk)
    case inr => exact .after (List.getElem?_eq_getElem hk)

theorem stands_divider_iff : Stands sheet title subtitle closing defects i (.paragraph (.divider sheet)) ↔
    i = 2 ∨ i = 3 * defects.length + 3 := by
  refine ⟨fun h => ?place, ?divider⟩
  case place =>
    generalize hb : Block.paragraph (.divider sheet) = b at h
    cases h
    case upper  => exact .inl rfl
    case lower  => exact .inr rfl
    case table  => cases hb
    case before => simp [Paragraph.spacer, Paragraph.divider] at hb
    case after  => simp [Paragraph.spacer, Paragraph.divider] at hb
    all_goals simp [Paragraph.divider, Paragraph.title, Paragraph.subtitle, Paragraph.closing] at hb
  case divider =>
    rintro (rfl | rfl)
    case inl => exact .upper
    case inr => exact .lower

theorem stands_table_iff {t : Table Block} : Stands sheet title subtitle closing defects i (.table t) ↔
    ∃ k d, defects[k]? = some d ∧ i = 3 * k + 4 ∧ t = d.table sheet := by
  refine ⟨fun h => ?place, ?table⟩
  case place =>
    cases h
    case table k d h => exact ⟨k, d, h, rfl, rfl⟩
  case table =>
    rintro ⟨k, d, h, rfl, rfl⟩
    exact .table h

theorem count_spacer_entries (sheet : Sheet) (defects : List Defect) :
    (defects.flatMap (entryBlocks sheet)).count (.paragraph (.spacer sheet)) = 2 * defects.length := by
  have he : ∀ d : Defect, (entryBlocks sheet d).count (.paragraph (.spacer sheet)) = 2 := fun d => by
    simp [entryBlocks]
  induction defects
  case nil          => rfl
  case cons d ds hi => rw [List.flatMap_cons, List.count_append, he, hi, List.length_cons]; omega

theorem count_spacer_body : (body sheet title subtitle closing defects).count (.paragraph (.spacer sheet)) =
    2 * defects.length := by
  have ho : (opening sheet title subtitle).count (.paragraph (.spacer sheet)) = 0 := by
    simp [opening, Paragraph.spacer, Paragraph.title, Paragraph.subtitle, Paragraph.divider]
  have hc : (ending sheet defects.length closing).count (.paragraph (.spacer sheet)) = 0 := by
    simp [ending, Paragraph.spacer, Paragraph.closing, Paragraph.divider]
  rw [body, List.count_append, List.count_append, ho, hc, count_spacer_entries, Nat.zero_add, Nat.add_zero]

-- What a report is made of, block by block, with where each kind of block stands.
structure Arranged (sheet : Sheet) (title subtitle : String) (closing : Option String) (defects : List Defect)
    (r : Report) : Prop where
  body     : r.document.body =
    [.paragraph (.title sheet title), .paragraph (.subtitle sheet subtitle), .paragraph (.divider sheet)] ++
    defects.flatMap (fun d => [.paragraph (.spacer sheet), .table (d.table sheet), .paragraph (.spacer sheet)]) ++
    [.paragraph (.divider sheet), .paragraph (.closing sheet (closingLine defects.length closing))]
  tables   : r.document.tables = defects.map (·.table sheet)
  places   : ∀ i t, r.document.body[i]? = some (.table t) ↔
    ∃ k d, defects[k]? = some d ∧ i = 3 * k + 4 ∧ t = d.table sheet
  framed   : ∀ i t, r.document.body[i]? = some (.table t) → ∃ j, i = j + 1 ∧
    r.document.body[j]? = some (.paragraph (.spacer sheet)) ∧
    r.document.body[i + 1]? = some (.paragraph (.spacer sheet))
  apart    : ∀ i t t', r.document.body[i]? = some (.table t) → r.document.body[i + 1]? ≠ some (.table t')
  spacers  : ∀ i, r.document.body[i]? = some (.paragraph (.spacer sheet)) ↔
    ∃ k < defects.length, i = 3 * k + 3 ∨ i = 3 * k + 5
  count    : r.document.body.count (.paragraph (.spacer sheet)) = 2 * defects.length
  dividers : ∀ i, r.document.body[i]? = some (.paragraph (.divider sheet)) ↔ i = 2 ∨ i + 2 = r.document.body.length
  entries  : r.entries = defects.map Defect.tableEntry ++ [{
    level   := Journal.Level.debug
    source  := "BugDoc.DocumentBuilder"
    message := s!"Assembled document: {defects.length} bugs, {3 * defects.length + 5} blocks" }]

theorem arranged_assemble (sheet : Sheet) (title subtitle : String) (closing : Option String) (defects : List Defect) :
    Arranged sheet title subtitle closing defects (assemble sheet title subtitle closing defects) where
  body     := rfl
  tables   := tables_body
  places i t := getElem?_body_iff.trans stands_table_iff
  framed i t h := by
    have ⟨k, d, hd, hi, _⟩ := stands_table_iff.mp (stands_of_getElem? h)
    subst hi
    exact ⟨3 * k + 3, rfl, (Stands.before hd).getElem?, (Stands.after hd).getElem?⟩
  apart i t t' h h' := by
    have ⟨k, _, _, hi, _⟩ := stands_table_iff.mp (stands_of_getElem? h)
    have ⟨k', _, _, hi', _⟩ := stands_table_iff.mp (stands_of_getElem? h')
    omega
  spacers i := getElem?_body_iff.trans stands_spacer_iff
  count    := count_spacer_body
  dividers i := by
    have hl : (assemble sheet title subtitle closing defects).document.body.length = 3 * defects.length + 5 :=
      length_body ..
    rw [hl]
    refine getElem?_body_iff.trans (stands_divider_iff.trans ?_)
    omega
  entries  := by
    rw [assemble, length_body]

end DefectLog.Report
