import DefectLog.Proofs.Word.Elements

-- The properties of paragraphs, runs and styles as elements.
namespace DefectLog.Word

open Xml

section

variable {own tag : String} {f : α → Xml}

theorem filter_toList (h : ∀ a, (f a).tag? = some own) (x : Option α) :
    (x.map f).toList.filter (·.tag? = some tag) = if own = tag then (x.map f).toList else [] := by
  by_cases ht : own = tag <;> cases x <;> simp [h, ht]

theorem filter_map (h : ∀ a, (f a).tag? = some own) (xs : List α) :
    (xs.map f).filter (·.tag? = some tag) = if own = tag then xs.map f else [] := by
  by_cases ht : own = tag <;> simp [List.filter_map, Function.comp_def, h, ht]

theorem filter_flag (on : Bool) :
    (flag own on).filter (·.tag? = some tag) = if "w:" ++ own = tag then flag own on else [] := by
  by_cases ht : "w:" ++ own = tag <;> cases on <;> simp [flag, leaf, ht]

theorem filter_unlessEmpty {inner : List Xml} :
    (unlessEmpty own inner).filter (·.tag? = some tag) = if "w:" ++ own = tag then unlessEmpty own inner else [] := by
  by_cases ht : "w:" ++ own = tag <;> cases inner <;> simp [unlessEmpty, ht]

-- What is left out has no children either.
theorem flatMap_unlessEmpty (inner : List Xml) :
    (unlessEmpty own inner).flatMap (named tag) = (w own [] inner).named tag := by
  cases inner
  case nil       => rfl
  case cons x xs => exact List.flatMap_singleton (named tag) (w own [] (x :: xs))

end

-- The children of the properties of a paragraph.
def Paragraph.properties (p : Paragraph) : List Xml :=
  (p.style.map (value "pStyle")).toList ++ p.rules.map (fun r => w "pBdr" [] [r.xml "bottom" 1]) ++
    (p.spacing.map Xml.spacing).toList ++ (p.indent.map fun n => leaf "ind" [("left", toString n)]).toList ++
    (p.alignment.map fun a => value "jc" (alignmentText a)).toList ++ (p.outlineLevel.map outline).toList

theorem Paragraph.xml_eq (p : Paragraph) : p.xml = w "p" [] (unlessEmpty "pPr" p.properties ++ p.runs.map Run.xml) :=
  rfl

theorem Paragraph.named_pPr (p : Paragraph) : p.xml.named "w:pPr" = unlessEmpty "pPr" p.properties := by
  have hr : (p.runs.map Run.xml).filter (·.tag? = some "w:pPr") = [] := by
    simp [List.filter_map, Function.comp_def, Run.xml]
  rw [xml_eq, named, children_w, List.filter_append, filter_unlessEmpty, hr, List.append_nil, if_pos (by simp)]

theorem Paragraph.flatMap_pPr (p : Paragraph) (tag : String) :
    (p.xml.named "w:pPr").flatMap (named tag) = (w "pPr" [] p.properties).named tag := by
  rw [named_pPr, flatMap_unlessEmpty]

theorem Paragraph.named_properties (p : Paragraph) (tag : String) : (w "pPr" [] p.properties).named tag =
    (if "w:pStyle" = tag then (p.style.map (value "pStyle")).toList else []) ++
    (if "w:pBdr" = tag then p.rules.map fun r => w "pBdr" [] [r.xml "bottom" 1] else []) ++
    (if "w:spacing" = tag then (p.spacing.map Xml.spacing).toList else []) ++
    (if "w:ind" = tag then (p.indent.map fun n => leaf "ind" [("left", toString n)]).toList else []) ++
    (if "w:jc" = tag then (p.alignment.map fun a => value "jc" (alignmentText a)).toList else []) ++
    (if "w:outlineLvl" = tag then (p.outlineLevel.map outline).toList else []) := by
  simp only [named, children_w, properties, List.filter_append]
  rw [filter_toList (fun _ => rfl) p.style, filter_map (fun _ => rfl) p.rules, filter_toList (fun _ => rfl) p.spacing,
    filter_toList (fun _ => rfl) p.indent, filter_toList (fun _ => rfl) p.alignment,
    filter_toList (fun _ => rfl) p.outlineLevel]
  rfl

-- The children of the properties of a run.
def Run.properties (r : Run) : List Xml :=
  (r.font.map fonts).toList ++ flag "b" r.bold ++ flag "i" r.italic ++
    (r.color.map Xml.color).toList ++ [value "sz" (toString r.size)]

theorem Run.named_rPr (r : Run) : r.xml.named "w:rPr" = [w "rPr" [] r.properties] := by
  have hp : (w "r" [] (r.pieces.map Piece.xml)).named "w:rPr" = [] :=
    named_map_of_ne (fun p => by cases p <;> simp [Piece.xml, leaf, w, tag?]) r.pieces
  change (w "r" [] (w "rPr" [] r.properties :: r.pieces.map Piece.xml)).named "w:rPr" = _
  rw [named_cons, if_pos (by simp), hp]

theorem Run.named_properties (r : Run) (tag : String) : (w "rPr" [] r.properties).named tag =
    (if "w:rFonts" = tag then (r.font.map fonts).toList else []) ++
    (if "w:b" = tag then flag "b" r.bold else []) ++ (if "w:i" = tag then flag "i" r.italic else []) ++
    (if "w:color" = tag then (r.color.map Xml.color).toList else []) ++
    (if "w:sz" = tag then [value "sz" (toString r.size)] else []) := by
  have hs : [value "sz" (toString r.size)] = ((some r.size).map fun n => value "sz" (toString n)).toList := rfl
  simp only [named, children_w, properties, List.filter_append]
  rw [filter_toList (fun _ => rfl) r.font, filter_flag, filter_flag, filter_toList (fun _ => rfl) r.color, hs,
    filter_toList (fun _ => rfl) (some r.size)]
  rfl

-- The children of a style before its properties.
def Style.head (s : Style) : List Xml :=
  [value "name" s.name] ++ (s.basedOn.map (value "basedOn")).toList ++ (s.next.map (value "next")).toList ++
    (s.link.map (value "link")).toList ++ (s.priority.map (value "uiPriority" <| toString ·)).toList ++
    flag "semiHidden" s.semiHidden ++ flag "unhideWhenUsed" s.unhideWhenUsed ++ flag "qFormat" s.quick ++
    (s.revision.map (value "rsid")).toList

theorem Style.filter_head (s : Style) {tag : String} (h : tag = "w:pPr" ∨ tag = "w:rPr") :
    s.head.filter (·.tag? = some tag) = [] := by
  have hn : [value "name" s.name] = ((some s.name).map (value "name")).toList := rfl
  rw [head, hn]
  simp only [List.filter_append]
  rw [filter_toList (fun _ => rfl) (some s.name), filter_toList (fun _ => rfl) s.basedOn,
    filter_toList (fun _ => rfl) s.next, filter_toList (fun _ => rfl) s.link, filter_toList (fun _ => rfl) s.priority,
    filter_flag, filter_flag, filter_flag, filter_toList (fun _ => rfl) s.revision]
  cases h <;> simp_all

theorem Style.named_xml (s : Style) {tag : String} (h : tag = "w:pPr" ∨ tag = "w:rPr") : s.xml.named tag =
    (if "w:pPr" = tag then unlessEmpty "pPr" s.paragraphProperties else []) ++
    (if "w:rPr" = tag then unlessEmpty "rPr" s.runProperties else []) := by
  have hx : s.xml.children =
      s.head ++ (unlessEmpty "pPr" s.paragraphProperties ++ unlessEmpty "rPr" s.runProperties) := by
    simp [xml, head, List.append_assoc]
  rw [named, hx, List.filter_append, s.filter_head h, List.filter_append, filter_unlessEmpty, filter_unlessEmpty]
  rfl

theorem Style.flatMap_pPr (s : Style) (tag : String) :
    (s.xml.named "w:pPr").flatMap (named tag) = (w "pPr" [] s.paragraphProperties).named tag := by
  rw [s.named_xml (.inl rfl), if_pos rfl, if_neg (by simp), List.append_nil, flatMap_unlessEmpty]

theorem Style.flatMap_rPr (s : Style) (tag : String) :
    (s.xml.named "w:rPr").flatMap (named tag) = (w "rPr" [] s.runProperties).named tag := by
  rw [s.named_xml (.inr rfl), if_neg (by simp), if_pos rfl, List.nil_append, flatMap_unlessEmpty]

theorem Style.named_paragraphProperties (s : Style) (tag : String) : (w "pPr" [] s.paragraphProperties).named tag =
    (if "w:keepNext" = tag then flag "keepNext" s.keepNext else []) ++
    (if "w:keepLines" = tag then flag "keepLines" s.keepLines else []) ++
    (if "w:spacing" = tag then (s.spacing.map Xml.spacing).toList else []) ++
    (if "w:outlineLvl" = tag then (s.outlineLevel.map outline).toList else []) := by
  simp only [named, children_w, paragraphProperties, List.filter_append]
  rw [filter_flag, filter_flag, filter_toList (fun _ => rfl) s.spacing, filter_toList (fun _ => rfl) s.outlineLevel]
  rfl

theorem Style.boldXml_tag? (on : Bool) : (boldXml on).tag? = some "w:b" := by
  cases on <;> rfl

theorem Style.named_runProperties (s : Style) (tag : String) : (w "rPr" [] s.runProperties).named tag =
    (if "w:rFonts" = tag then (s.font.map fonts).toList else []) ++
    (if "w:b" = tag then (s.bold.map boldXml).toList else []) ++
    (if "w:bCs" = tag then flag "bCs" s.boldComplex else []) ++ (if "w:i" = tag then flag "i" s.italic else []) ++
    (if "w:iCs" = tag then flag "iCs" s.italic else []) ++
    (if "w:color" = tag then (s.color.map Xml.color).toList else []) ++
    (if "w:sz" = tag then (s.size.map (value "sz" <| toString ·)).toList else []) ++
    (if "w:szCs" = tag then (s.sizeComplex.map (value "szCs" <| toString ·)).toList else []) := by
  simp only [named, children_w, runProperties, List.filter_append]
  rw [filter_toList (fun _ => rfl) s.font, filter_toList boldXml_tag? s.bold, filter_flag, filter_flag, filter_flag,
    filter_toList (fun _ => rfl) s.color, filter_toList (fun _ => rfl) s.size,
    filter_toList (fun _ => rfl) s.sizeComplex]
  rfl

end DefectLog.Word
