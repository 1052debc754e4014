import DefectLog.Proofs.Word.Visiting

-- What rendering a document adds to the log.
namespace DefectLog.Word

open Success

-- The style id of a paragraph that has one, unless it is registered.
def StyleBook.unknown (book : StyleBook) (styleId : Option String) : List String :=
  ((nonempty? styleId).filter fun id => book.nameOf? id = none).toList

-- The style ids that are not registered, one for each paragraph that names one.
def StyleBook.unknowns (book : StyleBook) (sources : List DefectLog.Paragraph) : List String :=
  sources.flatMap fun source => book.unknown source.styleId

variable {book : StyleBook} {unresolved : List String}

@[simp] theorem StyleBook.unknowns_append (sources sources' : List DefectLog.Paragraph) :
    book.unknowns (sources ++ sources') = book.unknowns sources ++ book.unknowns sources' :=
  List.flatMap_append

theorem Paragraph.unresolved_of_restyle {styleId old style : Option String}
    (h : restyle book styleId old = .ok (style, unresolved)) : unresolved = book.unknown styleId := by
  unfold restyle at h
  unfold StyleBook.unknown
  split at h
  case h_1 hs =>
    cases h
    rw [hs]
    rfl
  case h_2 id hs =>
    split at h
    case h_1 name hn =>
      have ⟨_, _, heq⟩ := map_eq_ok.mp h
      cases heq
      simp [hs, hn, Option.filter]
    case h_2 hn =>
      cases h
      simp [hs, hn, Option.filter]

theorem Paragraph.unresolved_of_write {source : DefectLog.Paragraph} {p p' : Paragraph}
    (h : write book source p = .ok (p', unresolved)) : unresolved = book.unknowns [source] := by
  have ⟨_, _, _, _, _, hs, _⟩ := write_eq_ok h
  rw [unresolved_of_restyle hs]
  exact (List.flatMap_singleton ..).symm

theorem Visits.unresolved_eq {sources : List DefectLog.Paragraph} (h : Visits book sources unresolved) :
    unresolved = book.unknowns sources := by
  induction h
  case nil          => rfl
  case cons hw _ hi =>
    rw [Paragraph.unresolved_of_write hw, hi]
    exact (StyleBook.unknowns_append [_] _).symm

-- A warning for each paragraph whose style is unknown, in the order of the tree, and then one line at the end.
theorem entries_of_render {d : Document} {r : Rendering} (h : render d = .ok r) :
    r.entries = (r.package.book.unknowns d.allParagraphs).map unresolvedEntry ++ [builtEntry d] := by
  have ⟨_, hv, he⟩ := visits_of_render h
  rw [he, hv.unresolved_eq]

end DefectLog.Word
