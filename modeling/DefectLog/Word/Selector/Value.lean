import DefectLog.Word.Selector.Node

-- The values of path expressions and how they are compared.
namespace DefectLog.Word.Selector

inductive Value
  | nodes (ns : List Node)
  | truth (b : Bool)
  | number (q : Quantity)
  | text (s : String)

namespace Value

def toBool : Value → Bool
  | .nodes ns => !ns.isEmpty
  | .truth b  => b
  | .number q => q ≠ .finite 0 && q ≠ .undefined
  | .text s   => s ≠ ""

-- A set of nodes stands for the text of the first of them.
def toText (t : Tree) : Value → String
  | .nodes ns    => (ns.head?.map t.textOf).getD ""
  | .truth true  => "true"
  | .truth false => "false"
  | .number q    => q.text
  | .text s      => s

def toNumber (t : Tree) : Value → Quantity
  | .number q    => q
  | .truth true  => .ofNat 1
  | .truth false => .ofNat 0
  | v            => .ofText (v.toText t).toList

-- Two values that are no nodes are compared as truths if one is a truth, and as numbers if one is a number.
def equalPlain (t : Tree) (a b : Value) : Bool :=
  match a, b with
  | .truth p,  v         => p = v.toBool
  | v,         .truth p  => p = v.toBool
  | .number p, v         => p.eq (v.toNumber t)
  | v,         .number p => p.eq (v.toNumber t)
  | v,         w         => v.toText t = w.toText t

-- The values that nodes are compared as: the text of each.
def texts (t : Tree) (ns : List Node) : List Value :=
  ns.map fun n => .text (t.textOf n)

-- Whether a comparison holds for some of the texts of a set of nodes. A truth is compared with the set as
-- a whole.
def someHold (t : Tree) (holds : Value → Value → Bool) (a b : Value) : Bool :=
  match a, b with
  | .nodes ns, .nodes ms => (texts t ns).any fun v => (texts t ms).any (holds v)
  | .nodes _,  .truth _  => holds (.truth a.toBool) b
  | .truth _,  .nodes _  => holds a (.truth b.toBool)
  | .nodes ns, _         => (texts t ns).any (holds · b)
  | _,         .nodes ms => (texts t ms).any (holds a ·)
  | _,         _         => holds a b

def equal (t : Tree) (a b : Value) : Bool :=
  someHold t (equalPlain t) a b

-- That two values differ holds of nodes if it holds of some of them.
def unequal (t : Tree) (a b : Value) : Bool :=
  someHold t (fun a b => !equalPlain t a b) a b

def less (t : Tree) (a b : Value) : Bool :=
  someHold t (fun a b => (a.toNumber t).lt (b.toNumber t)) a b

def lessOrEqual (t : Tree) (a b : Value) : Bool :=
  someHold t (fun a b => (a.toNumber t).le (b.toNumber t)) a b

def toNodes : Value → Except Fault (List Node)
  | .nodes ns => .ok ns
  | _         => .error .wrongType

end Value
end DefectLog.Word.Selector
