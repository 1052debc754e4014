import DefectLog.Text.Quoted

namespace DefectLog

structure Rgb where
  red   : Fin 256
  green : Fin 256
  blue  : Fin 256
deriving DecidableEq

namespace Rgb

-- The color that the low 24 bits of a number stand for.
def ofInt (n : Int) : Rgb where
  red   := Fin.ofNat 256 (n / 65536 % 256).toNat
  green := Fin.ofNat 256 (n / 256 % 256).toNat
  blue  := Fin.ofNat 256 (n % 256).toNat

-- The color with three given channels, each of which has to be below 256.
def ofChannels? (red green blue : Int) : Option Rgb :=
  match channel? red, channel? green, channel? blue with
  | some red, some green, some blue => some { red, green, blue }
  | _, _, _                         => none
where
  channel? (n : Int) : Option (Fin 256) :=
    if h : 0 ≤ n ∧ n < 256 then some ⟨n.toNat, by omega⟩ else none

-- Six hexadecimal digits, in lower case.
def hex (c : Rgb) : List Char :=
  [c.red.val, c.green.val, c.blue.val].flatMap (Text.hexDigits 2)

-- Six hexadecimal digits, in upper case.
def upperHex (c : Rgb) : List Char :=
  c.hex.map Char.toUpper

theorem length_hex (c : Rgb) : c.hex.length = 6 := by
  simp [hex, Text.length_hexDigits]

theorem length_upperHex (c : Rgb) : c.upperHex.length = 6 := by
  simp [upperHex, length_hex]

example : (ofInt (-1)).hex = "ffffff".toList ∧ (ofInt 0x112E75B6).hex = "2e75b6".toList := by decide

end Rgb
end DefectLog
