import DefectLog.Proofs.Word.Legal
import DefectLog.Proofs.Word.Properties

-- The parts of a document whose texts can all be written, and what they look like as elements.
namespace DefectLog.Word

open Xml

structure Rule.Clean (r : Rule) : Prop where
  style : Legal r.style
  color : Legal r.color

def Piece.Clean : Piece → Prop
  | .stretch text _ => text.all isXmlChar = true
  | .tab            => True
  | .lineBreak      => True

structure Run.Clean (r : Run) : Prop where
  font   : ∀ font ∈ r.font, Legal font
  pieces : ∀ p ∈ r.pieces, p.Clean

structure Paragraph.Clean (p : Paragraph) : Prop where
  style : ∀ style ∈ p.style, Legal style
  rules : ∀ r ∈ p.rules, r.Clean
  runs  : ∀ r ∈ p.runs, r.Clean

def Finish.Clean : Finish → Prop
  | .borders top left bottom right => top.Clean ∧ left.Clean ∧ bottom.Clean ∧ right.Clean
  | .shading pattern fill          => Legal pattern ∧ Legal fill
  | .margins _                     => True

-- Nothing more is written to a table that stands in a cell, so that only its element matters.
def Block.Clean : Block → Prop
  | .paragraph p => p.Clean
  | .table t     => (Block.table t).xml.Clean

structure Cell.Clean (c : Cell Block) : Prop where
  finishes : ∀ f ∈ c.finishes, f.Clean
  content  : ∀ b ∈ c.content, b.Clean

structure Style.Clean (s : Style) : Prop where
  id       : Legal s.id
  name     : Legal s.name
  basedOn  : ∀ name ∈ s.basedOn, Legal name
  next     : ∀ name ∈ s.next, Legal name
  link     : ∀ name ∈ s.link, Legal name
  revision : ∀ number ∈ s.revision, Legal number
  font     : ∀ font ∈ s.font, Legal font

theorem Rule.Clean.xml {r : Rule} (h : r.Clean) (side : String) (distance : Nat) : (r.xml side distance).Clean := by
  simp only [Rule.xml, clean_leaf_cons]
  exact ⟨h.style, legal_toString _, legal_toString_nat _, h.color, clean_leaf_nil _⟩

theorem Piece.Clean.xml {p : Piece} (h : p.Clean) : p.xml.Clean := by
  cases p
  case tab       => exact clean_leaf_nil _
  case lineBreak => exact clean_leaf_nil _
  case stretch text kept =>
    refine clean_element.mpr ⟨?_, List.forall_mem_singleton.mpr (clean_chars.mpr (legal_ofList h))⟩
    cases kept
    case false => exact List.forall_mem_nil _
    case true  => exact List.forall_mem_singleton.mpr (legal_ofList (by decide))

theorem Run.Clean.xml {r : Run} (h : r.Clean) : r.xml.Clean := by
  have hp : ∀ x ∈ r.properties, x.Clean := by
    simp only [Run.properties, List.forall_mem_append, List.forall_mem_singleton]
    refine ⟨⟨⟨⟨?font, clean_flag _⟩, clean_flag _⟩, ?color⟩, clean_value.mpr (legal_toString _)⟩
    case font  => exact clean_option fun font hf => clean_fonts (h.font font hf)
    case color => exact clean_option fun c _ => clean_color c
  exact clean_cons.mpr ⟨clean_inner.mpr hp, clean_inner.mpr (List.forall_mem_map.mpr fun p hm => (h.pieces p hm).xml)⟩

theorem legal_alignmentText (a : Alignment) : Legal (alignmentText a) := by
  cases a <;> exact legal_ofList (by decide)

theorem Paragraph.Clean.xml {p : Paragraph} (h : p.Clean) : p.xml.Clean := by
  have hp : ∀ x ∈ p.properties, x.Clean := by
    simp only [Paragraph.properties, List.forall_mem_append]
    refine ⟨⟨⟨⟨⟨?style, ?rules⟩, ?spacing⟩, ?indent⟩, ?alignment⟩, ?outline⟩
    case style     => exact clean_option fun style hs => clean_value.mpr (h.style style hs)
    case rules     => exact List.forall_mem_map.mpr fun r hr => clean_cons.mpr ⟨(h.rules r hr).xml _ _, clean_nil _⟩
    case spacing   => exact clean_option fun s _ => clean_spacing s
    case indent    => exact clean_option fun n _ => clean_leaf_cons.mpr ⟨legal_toString n, clean_leaf_nil _⟩
    case alignment => exact clean_option fun a _ => clean_value.mpr (legal_alignmentText a)
    case outline   => exact clean_option fun level _ => clean_outline level
  rw [Paragraph.xml_eq, clean_inner, List.forall_mem_append]
  exact ⟨clean_unlessEmpty hp, List.forall_mem_map.mpr fun r hr => (h.runs r hr).xml⟩

theorem Finish.Clean.xml {f : Finish} (h : f.Clean) : f.xml.Clean := by
  cases f
  case borders =>
    have ⟨ht, hl, hb, hr⟩ := h
    simp only [Finish.xml, clean_cons]
    exact ⟨ht.xml _ _, hl.xml _ _, hb.xml _ _, hr.xml _ _, clean_nil _⟩
  case shading =>
    simp only [Finish.xml, clean_leaf_cons]
    exact ⟨h.left, legal_ofList (by decide), h.right, clean_leaf_nil _⟩
  case margins m =>
    have hs (tag : String) (n : Int) : (leaf tag [("w", toString n), ("type", "dxa")]).Clean := by
      simp only [clean_leaf_cons]
      exact ⟨legal_toString n, legal_ofList (by decide), clean_leaf_nil _⟩
    simp only [Finish.xml, clean_cons]
    exact ⟨hs _ _, hs _ _, hs _ _, hs _ _, clean_nil _⟩

theorem Stacking.clean_xml (s : Stacking) : s.xml.Clean := by
  cases s
  case start     => exact clean_value.mpr (legal_ofList (by decide))
  case continued => exact clean_leaf_nil _

theorem Block.Clean.xml {b : Block} (h : b.Clean) : b.xml.Clean := by
  cases b
  case paragraph => exact Paragraph.Clean.xml h
  case table     => exact h

theorem Cell.Clean.properties {c : Cell Block} (h : c.Clean) : c.properties.Clean := by
  simp only [Cell.properties, clean_inner, List.forall_mem_append, List.forall_mem_singleton, clean_leaf_cons]
  refine ⟨⟨⟨⟨legal_ofList (by decide), legal_toString _, clean_leaf_nil _⟩, ?span⟩, ?stacking⟩, ?finishes⟩
  case span =>
    split
    case isTrue  => exact List.forall_mem_nil _
    case isFalse => exact List.forall_mem_singleton.mpr (clean_value.mpr (legal_toString_nat _))
  case stacking => exact clean_option fun s _ => s.clean_xml
  case finishes => exact List.forall_mem_map.mpr fun f hf => (h.finishes f hf).xml

theorem Cell.Clean.xml {c : Cell Block} (h : c.Clean) : c.xml.Clean := by
  rw [Cell.xml, blocksXml_eq_map, clean_cons, clean_inner]
  exact ⟨h.properties, List.forall_mem_map.mpr fun b hb => (h.content b hb).xml⟩

theorem clean_tableProperties (width : Int) : (tableProperties width).Clean := by
  simp only [tableProperties, clean_cons, clean_leaf_cons]
  refine ⟨⟨?_, legal_toString width, clean_leaf_nil _⟩, ⟨?_, clean_leaf_nil _⟩,
    ⟨?_, ?_, ?_, ?_, ?_, ?_, ?_, clean_leaf_nil _⟩, clean_nil _⟩
  all_goals exact legal_ofList (by decide)

-- A table is clean if its cells are.
theorem Block.clean_table {t : Table Block} (h : ∀ cells ∈ t.grid, ∀ c ∈ cells, c.Clean) : (Block.table t).Clean := by
  have hc : ∀ x ∈ t.columns.map columnXml, x.Clean :=
    List.forall_mem_map.mpr fun n _ => clean_leaf_cons.mpr ⟨legal_toString n, clean_leaf_nil _⟩
  have hr : ∀ x ∈ t.grid.map rowXml, x.Clean :=
    List.forall_mem_map.mpr fun cells hm => clean_inner.mpr (List.forall_mem_map.mpr fun c hc => (h cells hm c hc).xml)
  rw [Block.Clean, Block.xml_table, clean_cons, clean_cons]
  exact ⟨clean_tableProperties _, clean_inner.mpr hc, clean_inner.mpr hr⟩

namespace Style.Clean

variable {s : Style} (h : s.Clean)
include h

theorem head : ∀ x ∈ s.head, x.Clean := by
  simp only [Style.head, List.forall_mem_append, List.forall_mem_singleton]
  refine ⟨⟨⟨⟨⟨⟨⟨⟨clean_value.mpr h.name, ?basedOn⟩, ?next⟩, ?link⟩, ?priority⟩, clean_flag _⟩, clean_flag _⟩,
    clean_flag _⟩, ?revision⟩
  case basedOn  => exact clean_option fun name hn => clean_value.mpr (h.basedOn name hn)
  case next     => exact clean_option fun name hn => clean_value.mpr (h.next name hn)
  case link     => exact clean_option fun name hn => clean_value.mpr (h.link name hn)
  case priority => exact clean_option fun n _ => clean_value.mpr (legal_toString_nat n)
  case revision => exact clean_option fun number hn => clean_value.mpr (h.revision number hn)

theorem runProperties : ∀ x ∈ s.runProperties, x.Clean := by
  have hbold (on : Bool) : (Style.boldXml on).Clean := by
    cases on
    case false => exact clean_value.mpr (legal_ofList (by decide))
    case true  => exact clean_leaf_nil _
  simp only [Style.runProperties, List.forall_mem_append]
  refine ⟨⟨⟨⟨⟨⟨⟨?font, ?bold⟩, clean_flag _⟩, clean_flag _⟩, clean_flag _⟩, ?color⟩, ?size⟩, ?sizeComplex⟩
  case font        => exact clean_option fun font hf => clean_fonts (h.font font hf)
  case bold        => exact clean_option fun on _ => hbold on
  case color       => exact clean_option fun c _ => clean_color c
  case size        => exact clean_option fun n _ => clean_value.mpr (legal_toString n)
  case sizeComplex => exact clean_option fun n _ => clean_value.mpr (legal_toString_nat n)

theorem xml : s.xml.Clean := by
  have hp : ∀ x ∈ s.paragraphProperties, x.Clean := by
    simp only [Style.paragraphProperties, List.forall_mem_append]
    exact ⟨⟨⟨clean_flag _, clean_flag _⟩, clean_option fun s _ => clean_spacing s⟩,
      clean_option fun n _ => clean_outline n⟩
  refine clean_w.mpr ⟨?attributes, List.forall_mem_append.mpr ⟨List.forall_mem_append.mpr
    ⟨h.head, clean_unlessEmpty hp⟩, clean_unlessEmpty h.runProperties⟩⟩
  case attributes =>
    simp only [List.forall_mem_append, List.forall_mem_singleton]
    refine ⟨⟨⟨legal_ofList (by decide), ?_⟩, ?_⟩, h.id⟩
    all_goals
      split
      case isTrue  => exact List.forall_mem_singleton.mpr (legal_ofList (by decide))
      case isFalse => exact List.forall_mem_nil _

end Style.Clean

theorem Section.clean_xml (s : Section) : s.xml.Clean := by
  refine clean_w.mpr ⟨?attributes, ?children⟩
  case attributes =>
    simp only [List.forall_mem_cons]
    exact ⟨legal_ofList (by decide), legal_ofList (by decide), legal_ofList (by decide), List.forall_mem_nil _⟩
  case children =>
    simp only [List.forall_mem_cons, clean_leaf_cons]
    refine ⟨⟨legal_toString _, legal_toString _, clean_leaf_nil _⟩, ⟨legal_toString _, legal_toString _,
      legal_toString _, legal_toString _, ?_, ?_, ?_, clean_leaf_nil _⟩, ⟨?_, clean_leaf_nil _⟩, ⟨?_, clean_leaf_nil _⟩,
      List.forall_mem_nil _⟩
    all_goals exact legal_ofList (by decide)

end DefectLog.Word
