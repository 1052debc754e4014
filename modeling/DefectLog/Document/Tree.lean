import DefectLog.Sheet.Frame

namespace DefectLog

inductive Alignment
  | left
  | center
  | right
  | justify
deriving DecidableEq

def Alignment.ofText? : String → Option Alignment
  | "left"    => some .left
  | "center"  => some .center
  | "right"   => some .right
  | "justify" => some .justify
  | _         => none

-- The smallest styled piece of text.
structure Run where
  text   : String
  size   : HalfPoints
  color  : Option String := none
  bold   : Bool := false
  italic : Bool := false
  font   : Option String := none
deriving DecidableEq

structure Paragraph where
  runs         : List Run := []
  spacing      : Spacing := {}
  alignment    : Option Alignment := none
  indent       : Twips := 0
  rule         : Option Border := none
  styleId      : Option String := none
  outlineLevel : Option Int := none
deriving DecidableEq

def Paragraph.text (p : Paragraph) : String :=
  String.join (p.runs.map (·.text))

-- The parameter is the type of the blocks that a cell holds.
structure Cell (β : Type) where
  blocks  : List β
  width   : Twips
  margins : Margins := {}
  shading : Option Shading := none
  borders : Option Borders := none
  span    : Int := 1
deriving DecidableEq

-- The rows need not agree with each other or with the column widths.
structure Table (β : Type) where
  rows         : List (List (Cell β))
  columnWidths : List Twips
deriving DecidableEq

def Table.width (t : Table β) : Twips :=
  Twips.total t.columnWidths

inductive Block
  | paragraph (p : Paragraph)
  | table (t : Table Block)

namespace Block

def paragraph? : Block → Option Paragraph
  | .paragraph p => some p
  | .table _     => none

def table? : Block → Option (Table Block)
  | .paragraph _ => none
  | .table t     => some t

-- Equality descends through the cells of tables.
mutual
def decEq : (a b : Block) → Decidable (a = b)
  | .paragraph p, .paragraph q => decidable_of_iff (p = q) (by simp)
  | .table ⟨rows, widths⟩, .table ⟨rows', widths'⟩ =>
    match decEqRows rows rows' with
    | isTrue h  => decidable_of_iff (widths = widths') (by simp [h])
    | isFalse h => isFalse (by simp [h])
  | .paragraph _, .table _ => isFalse (by simp)
  | .table _, .paragraph _ => isFalse (by simp)
def decEqRows : (a b : List (List (Cell Block))) → Decidable (a = b)
  | [], []         => isTrue rfl
  | [], _ :: _     => isFalse (by simp)
  | _ :: _, []     => isFalse (by simp)
  | r :: rs, s :: ss =>
    match decEqCells r s, decEqRows rs ss with
    | isTrue h, isTrue h' => isTrue (by simp [h, h'])
    | isFalse h, _        => isFalse (by simp [h])
    | _, isFalse h        => isFalse (by simp [h])
def decEqCells : (a b : List (Cell Block)) → Decidable (a = b)
  | [], []         => isTrue rfl
  | [], _ :: _     => isFalse (by simp)
  | _ :: _, []     => isFalse (by simp)
  | ⟨blocks, w, m, s, b, n⟩ :: cs, ⟨blocks', w', m', s', b', n'⟩ :: cs' =>
    match decEqBlocks blocks blocks', decEqCells cs cs' with
    | isTrue h, isTrue h' =>
      decidable_of_iff (w = w' ∧ m = m' ∧ s = s' ∧ b = b' ∧ n = n') (by simp [h, h'])
    | isFalse h, _        => isFalse (by simp [h])
    | _, isFalse h        => isFalse (by simp [h])
def decEqBlocks : (a b : List Block) → Decidable (a = b)
  | [], []         => isTrue rfl
  | [], _ :: _     => isFalse (by simp)
  | _ :: _, []     => isFalse (by simp)
  | a :: as, b :: bs =>
    match decEq a b, decEqBlocks as bs with
    | isTrue h, isTrue h' => isTrue (by simp [h, h'])
    | isFalse h, _        => isFalse (by simp [h])
    | _, isFalse h        => isFalse (by simp [h])
end

instance : DecidableEq Block := decEq

end Block

-- The paragraphs that stand directly in a cell.
def Cell.paragraphs (c : Cell Block) : List Paragraph :=
  c.blocks.filterMap Block.paragraph?

end DefectLog
