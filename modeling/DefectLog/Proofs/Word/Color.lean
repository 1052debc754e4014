import DefectLog.Proofs.Success
import DefectLog.Proofs.Text.Hexadecimal
import DefectLog.Word.Run

-- The one form in which colors are written, however they are given.
namespace DefectLog.Word

open Text Success

-- Six hexadecimal digits in upper case.
def IsNormalColor (text : String) : Prop :=
  text.toList.length = 6 ∧ ∀ c ∈ text.toList, c ∈ "0123456789ABCDEF".toList

instance (text : String) : Decidable (IsNormalColor text) :=
  inferInstanceAs (Decidable (_ ∧ _))

-- Six hexadecimal digits in any case.
def IsSixDigits (text : String) : Prop :=
  text.toList.length = 6 ∧ Numeral.IsHex text.toList

instance (text : String) : Decidable (IsSixDigits text) :=
  inferInstanceAs (Decidable (_ ∧ _))

-- What is written for a color. A text that is no color stays as it is.
def normalColor (text : String) : String :=
  match readColor text with
  | .ok color => String.ofList color.upperHex
  | .error _  => text

variable {text : String} {color : Rgb}

theorem upperHex_eq (color : Rgb) : color.upperHex = (hexDigits 2 color.red).map Char.toUpper ++
    ((hexDigits 2 color.green).map Char.toUpper ++ (hexDigits 2 color.blue).map Char.toUpper) := by
  simp [Rgb.upperHex, Rgb.hex]

theorem isNormalColor_upperHex (color : Rgb) : IsNormalColor (String.ofList color.upperHex) := by
  have hall : ∀ n : Fin 256, ((hexDigits 2 n).map Char.toUpper).all (· ∈ "0123456789ABCDEF".toList) = true := by
    decide +kernel
  have hmem (n : Fin 256) : ∀ c ∈ (hexDigits 2 n).map Char.toUpper, c ∈ "0123456789ABCDEF".toList :=
    fun c hc => of_decide_eq_true (List.all_eq_true.mp (hall n) c hc)
  rw [IsNormalColor, String.toList_ofList]
  refine ⟨color.length_upperHex, ?_⟩
  rw [upperHex_eq, List.forall_mem_append, List.forall_mem_append]
  exact ⟨hmem color.red, hmem color.green, hmem color.blue⟩

-- A color is known from its channels, of which the first two have two characters.
theorem readColor_of_channels {red green blue : List Char} (hr : red.length = 2) (hg : green.length = 2)
    (hred : channel red = .ok (color.red.val : Int)) (hgreen : channel green = .ok (color.green.val : Int))
    (hblue : channel blue = .ok (color.blue.val : Int)) :
    readColor (String.ofList (red ++ (green ++ blue))) = .ok color := by
  have hrange (n : Fin 256) : Rgb.ofChannels?.channel? (n.val : Int) = some n := by
    have hn : 0 ≤ (n.val : Int) ∧ (n.val : Int) < 256 := by omega
    rw [Rgb.ofChannels?.channel?, dif_pos hn]
    rfl
  have hrest : (red ++ (green ++ blue)).drop 2 = green ++ blue := List.drop_left' hr
  have hlast : (red ++ (green ++ blue)).drop 4 = blue := by
    rw [← List.drop_drop (i := 2) (j := 2), hrest, List.drop_left' hg]
  rw [readColor, String.toList_ofList]
  simp only [List.take_left' hr, hrest, List.take_left' hg, hlast, hred, hgreen, hblue]
  simp only [bind, Except.bind, Rgb.ofChannels?, hrange, pure, Except.pure]

-- Each channel is read from the digits that it is written with.
theorem readColor_upperHex (color : Rgb) : readColor (String.ofList color.upperHex) = .ok color := by
  have hlength (n : Fin 256) : ((hexDigits 2 n).map Char.toUpper).length = 2 := by
    rw [List.length_map, length_hexDigits]
  have hchannel (n : Fin 256) : channel ((hexDigits 2 n).map Char.toUpper) = .ok (n.val : Int) := by
    rw [channel, Numeral.parse_upperHexDigits]
  rw [upperHex_eq]
  exact readColor_of_channels (hlength color.red) (hlength color.green) (hchannel color.red) (hchannel color.green)
    (hchannel color.blue)

theorem upperHex_inj {color color' : Rgb} (h : color.upperHex = color'.upperHex) : color = color' := by
  have hr := readColor_upperHex color
  rw [h, readColor_upperHex] at hr
  exact (Except.ok.inj hr).symm

theorem normalColor_of_readColor (h : readColor text = .ok color) :
    normalColor text = String.ofList color.upperHex := by
  rw [normalColor, h]

-- The normal form stands for the same color, if any.
theorem readColor_normalColor (text : String) : readColor (normalColor text) = readColor text := by
  cases h : readColor text
  case ok color => rw [normalColor_of_readColor h, readColor_upperHex]
  case error    => rw [normalColor, h, h]

theorem isNormalColor_of_readColor (h : readColor text = .ok color) : IsNormalColor (normalColor text) :=
  normalColor_of_readColor h ▸ isNormalColor_upperHex color

-- The three parts of a text that are read as channels.
theorem slices_eq (s : List Char) : s.take 2 ++ ((s.drop 2).take 2 ++ s.drop 4) = s := by
  rw [← List.drop_drop (i := 2) (j := 2), List.take_append_drop, List.take_append_drop]

theorem exists_channel {s : List Char} (h : Numeral.IsHex s) (hl : s.length = 2) : ∃ n : Fin 256,
    channel s = .ok (n.val : Int) ∧ (hexDigits 2 n).map Char.toUpper = s.map Char.toUpper := by
  have hs : s ≠ [] := List.ne_nil_of_length_eq_add_one hl
  have ⟨n, hn, hlt, hw⟩ := h.parse_eq hs
  rw [hl] at hlt hw
  exact ⟨⟨n, hlt⟩, by rw [channel, hn], hw⟩

-- Six digits are a color, which is written with the same digits.
theorem exists_readColor (h : IsSixDigits text) :
    ∃ color, readColor text = .ok color ∧ color.upperHex = text.toList.map Char.toUpper := by
  have ⟨hl, hx⟩ := h
  have hpart {s : List Char} (hsub : s ⊆ text.toList) : Numeral.IsHex s := fun c hc => hx c (hsub hc)
  have ⟨red, hred, hr⟩ := exists_channel (hpart (List.take_subset 2 _)) (by simp [hl])
  have hmiddle := List.Subset.trans (List.take_subset 2 _) (List.drop_subset 2 text.toList)
  have ⟨green, hgreen, hg⟩ := exists_channel (hpart hmiddle) (by simp [hl])
  have ⟨blue, hblue, hb⟩ := exists_channel (hpart (List.drop_subset 4 _)) (by simp [hl])
  refine ⟨{ red, green, blue }, ?read, ?written⟩
  case read =>
    rw [← String.ofList_toList (s := text), ← slices_eq text.toList]
    exact readColor_of_channels (by simp [hl]) (by simp [hl]) hred hgreen hblue
  case written => rw [upperHex_eq, hr, hg, hb, ← List.map_append, ← List.map_append, slices_eq]

theorem normalColor_of_digits (h : IsSixDigits text) : normalColor text = text.toUpper := by
  have ⟨color, hc, hw⟩ := exists_readColor h
  rw [normalColor_of_readColor hc, hw, ← String.toList_inj, String.toList_ofList]
  simp [String.toUpper]

theorem ne_empty_of_readColor (h : readColor text = .ok color) : text ≠ "" := by
  have hempty : readColor "" = .error (.notHexadecimal "") := by decide +kernel
  intro he
  rw [he, hempty] at h
  cases h

-- What counts as no color does so in its normal form, and nothing else does.
theorem nonempty?_normalColor (text : Option String) :
    nonempty? (text.map normalColor) = (nonempty? text).map normalColor := by
  cases text
  case none      => rfl
  case some text =>
    have hiff : normalColor text ≠ "" ↔ text ≠ "" := by
      cases h : readColor text
      case error    => rw [normalColor, h]
      case ok color =>
        have hread := readColor_normalColor text
        rw [h] at hread
        exact iff_of_true (ne_empty_of_readColor hread) (ne_empty_of_readColor h)
    by_cases ht : text ≠ "" <;> simp_all [nonempty?, Option.filter]

end DefectLog.Word
