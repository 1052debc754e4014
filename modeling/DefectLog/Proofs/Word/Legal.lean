import DefectLog.Proofs.Number.Decimal
import DefectLog.Word.Markup

-- The characters of the texts and of the values of attributes in what is written.
namespace DefectLog.Word

open Xml

-- A text without characters that cannot be written.
def Legal (text : String) : Prop :=
  checkText text = .ok ()

section Texts

theorem legal_iff {s : String} : Legal s ↔ s.toList.all isXmlChar = true := by
  unfold Legal checkText
  split
  case isTrue h  => exact ⟨fun _ => h, fun _ => rfl⟩
  case isFalse h => exact ⟨nofun, fun h' => absurd h' h⟩

theorem legal_append {s t : String} : Legal (s ++ t) ↔ Legal s ∧ Legal t := by
  simp only [legal_iff, String.toList_append, List.all_append, Bool.and_eq_true]

-- A literal is read faster as a list of its characters.
theorem legal_ofList {cs : List Char} (h : cs.all isXmlChar = true) : Legal (String.ofList cs) :=
  legal_iff.mpr (by rwa [String.toList_ofList])

theorem legal_toString (n : Int) : Legal (toString n) := by
  refine legal_iff.mpr (List.all_eq_true.mpr fun c hc => ?_)
  cases Number.digit_or_minus_of_mem hc
  case inr h => exact h ▸ rfl
  case inl h =>
    have hd : 48 ≤ c.toNat ∧ c.toNat ≤ 57 := by simpa [Char.isDigit, UInt32.le_iff_toNat_le] using h
    have hx : 0x20 ≤ c.toNat ∧ c.toNat ≤ 0xD7FF := by omega
    simp [isXmlChar, hx]

theorem legal_toString_nat (n : Nat) : Legal (toString n) :=
  legal_toString n

theorem legal_upperHex (c : Rgb) : Legal (String.ofList c.upperHex) := by
  have h : ∀ n : Fin 256, ((Text.hexDigits 2 n.val).map Char.toUpper).all isXmlChar = true := by decide +kernel
  refine legal_ofList ?_
  simp only [Rgb.upperHex, Rgb.hex, List.flatMap_cons, List.flatMap_nil, List.append_nil, List.map_append,
    List.all_append, h, Bool.and_self]

-- A text that is left out when it is empty.
theorem legal_of_forM {s : Option String} (h : s.forM checkText = .ok ()) : ∀ t ∈ s, Legal t := by
  cases s
  case none   => exact nofun
  case some s => exact fun t ht => Option.mem_some.mp ht ▸ h

end Texts

namespace Xml

-- The texts and the values of the attributes at any depth.
mutual
def strings : Xml → List String
  | .chars text                    => [text]
  | .element _ attributes children => attributes.map (·.2) ++ stringsIn children
def stringsIn : List Xml → List String
  | []      => []
  | x :: xs => strings x ++ stringsIn xs
end

-- An element that can be written.
def Clean (x : Xml) : Prop :=
  ∀ s ∈ x.strings, Legal s

variable {tag : String} {attributes : List (String × String)} {children : List Xml}

theorem mem_stringsIn {s : String} {xs : List Xml} : s ∈ stringsIn xs ↔ ∃ x ∈ xs, s ∈ x.strings := by
  induction xs
  case nil       => simp [stringsIn]
  case cons _ hi => simp [stringsIn, hi]

theorem clean_chars {text : String} : (chars text).Clean ↔ Legal text :=
  List.forall_mem_singleton

theorem clean_element : (element tag attributes children).Clean ↔
    (∀ a ∈ attributes, Legal a.2) ∧ ∀ x ∈ children, x.Clean := by
  simp only [Clean, strings, List.forall_mem_append, List.forall_mem_map, mem_stringsIn]
  refine and_congr_right fun _ => ⟨fun h x hx s hs => h s ⟨x, hx, hs⟩, ?_⟩
  rintro h s ⟨x, hx, hs⟩
  exact h x hx s hs

theorem clean_w : (w tag attributes children).Clean ↔ (∀ a ∈ attributes, Legal a.2) ∧ ∀ x ∈ children, x.Clean := by
  rw [w, clean_element, List.forall_mem_map]

theorem clean_leaf : (leaf tag attributes).Clean ↔ ∀ a ∈ attributes, Legal a.2 := by
  simp [leaf, clean_w]

theorem clean_leaf_cons {name text : String} :
    (leaf tag ((name, text) :: attributes)).Clean ↔ Legal text ∧ (leaf tag attributes).Clean := by
  rw [clean_leaf, clean_leaf, List.forall_mem_cons]

theorem clean_leaf_nil (tag : String) : (leaf tag []).Clean :=
  clean_leaf.mpr (List.forall_mem_nil _)

theorem clean_inner : (w tag [] children).Clean ↔ ∀ x ∈ children, x.Clean :=
  clean_w.trans (and_iff_right (List.forall_mem_nil _))

theorem clean_cons {x : Xml} {xs : List Xml} : (w tag [] (x :: xs)).Clean ↔ x.Clean ∧ (w tag [] xs).Clean := by
  rw [clean_inner, clean_inner, List.forall_mem_cons]

theorem clean_nil (tag : String) : (w tag [] []).Clean :=
  clean_leaf_nil tag

theorem clean_value {text : String} : (value tag text).Clean ↔ Legal text :=
  clean_leaf.trans List.forall_mem_singleton

theorem clean_flag (on : Bool) : ∀ x ∈ flag tag on, x.Clean := by
  cases on <;> simp [flag, clean_leaf]

theorem clean_unlessEmpty (h : ∀ x ∈ children, x.Clean) : ∀ x ∈ unlessEmpty tag children, x.Clean := by
  unfold unlessEmpty
  split
  case isTrue  => exact List.forall_mem_nil _
  case isFalse => exact List.forall_mem_singleton.mpr (clean_w.mpr ⟨List.forall_mem_nil _, h⟩)

theorem clean_option {f : α → Xml} {a : Option α} (h : ∀ b ∈ a, (f b).Clean) : ∀ x ∈ (a.map f).toList, x.Clean := by
  cases a
  case none   => exact List.forall_mem_nil _
  case some a => exact List.forall_mem_singleton.mpr (h a rfl)

theorem clean_fonts {name : String} (h : Legal name) : (fonts name).Clean :=
  clean_leaf.mpr (List.forall_mem_cons.mpr ⟨h, List.forall_mem_singleton.mpr h⟩)

theorem clean_color (c : Rgb) : (Xml.color c).Clean :=
  clean_value.mpr (legal_upperHex c)

theorem clean_spacing (s : Int × Int) : (Xml.spacing s).Clean :=
  clean_leaf.mpr (List.forall_mem_cons.mpr ⟨legal_toString s.1, List.forall_mem_singleton.mpr (legal_toString s.2)⟩)

theorem clean_outline (level : Int) : (outline level).Clean :=
  clean_value.mpr (legal_toString level)

end Xml

end DefectLog.Word
