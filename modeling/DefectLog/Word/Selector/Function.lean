import DefectLog.Word.Selector.Value

-- The functions that path expressions may call.
namespace DefectLog.Word.Selector

-- Where an expression is evaluated: at a node, which is one of several.
structure Context where
  tree     : Tree
  node     : Node
  position : Nat := 1
  size     : Nat := 1

namespace Function

-- The parts of a text before and behind the first place where another text stands in it.
def cut? (needle : List Char) : List Char → Option (List Char × List Char)
  | []     => if needle = [] then some ([], []) else none
  | c :: s =>
    if needle.isPrefixOf (c :: s) then some ([], (c :: s).drop needle.length)
    else (cut? needle s).map fun (before, after) => (c :: before, after)

-- Blanks at the ends go, and every stretch between becomes one space.
def normalize (s : List Char) : List Char :=
  " ".toList.intercalate ((s.splitBy fun a b => Quantity.isBlank a = Quantity.isBlank b).filter fun word =>
    !word.any Quantity.isBlank)

-- Puts each character that has a counterpart in its place. One whose counterpart is missing is dropped.
def substitute (s old new : List Char) : List Char :=
  s.flatMap fun c =>
    if c ∈ old then (new[old.idxOf c]?).toList else [c]

-- The characters of a text whose positions, counted from one, are in a range. The ends of the range are
-- rounded first.
def slice (s : List Char) (start : Quantity) (length : Option Quantity) : List Char :=
  let first := start.round
  let isInside (i : Nat) : Bool :=
    let position := Quantity.ofNat (i + 1)
    first.le position && match length with
      | none   => true
      | some n => position.lt (first.add n.round)
  (s.zipIdx.filter fun (_, i) => isInside i).map (·.1)

-- The name of a node without the short name of its namespace.
def ownName (name : String) : String :=
  match name.toList.dropWhile (· ≠ ':') with
  | _ :: own => String.ofList own
  | []       => name

-- The names of all functions, whatever the number of their arguments.
def names : List String := [
  "last", "position", "count", "id", "local-name", "namespace-uri", "name", "string", "concat",
  "starts-with", "contains", "substring-before", "substring-after", "substring", "string-length",
  "normalize-space", "translate", "boolean", "not", "true", "false", "lang", "number", "sum", "floor",
  "ceiling", "round"]

-- Without an argument, these functions speak of the current node.
def ofNode : List String :=
  ["local-name", "namespace-uri", "name", "string", "string-length", "normalize-space", "number"]

def apply (c : Context) (name : String) (arguments : List Value) : Except Fault Value :=
  let t := c.tree
  let chars (v : Value) : List Char := (v.toText t).toList
  let text (s : List Char) : Except Fault Value := .ok (.text (String.ofList s))
  let ofName (shown : String → String) (v : Value) : Except Fault Value := do
    return .text ((((← v.toNodes).head?.bind t.nameOf?).map shown).getD "")
  let arguments := if arguments.isEmpty ∧ name ∈ ofNode then [.nodes [c.node]] else arguments
  match name, arguments with
  | "last",             []        => .ok (.number (.ofNat c.size))
  | "position",         []        => .ok (.number (.ofNat c.position))
  | "true",             []        => .ok (.truth true)
  | "false",            []        => .ok (.truth false)
  | "count",            [v]       => do return .number (.ofNat (← v.toNodes).length)
  | "sum",              [v]       => do
    return .number (((← v.toNodes).map fun n => Quantity.ofText (t.textOf n).toList).foldl .add (.ofNat 0))
  | "id",               [_]       => .ok (.nodes [])
  | "lang",             [_]       => .ok (.truth false)
  | "local-name",       [v]       => ofName ownName v
  | "namespace-uri",    [v]       => ofName (fun _ => "") v
  | "name",             [v]       => ofName id v
  | "string",           [v]       => .ok (.text (v.toText t))
  | "string-length",    [v]       => .ok (.number (.ofNat (chars v).length))
  | "normalize-space",  [v]       => text (normalize (chars v))
  | "number",           [v]       => .ok (.number (v.toNumber t))
  | "boolean",          [v]       => .ok (.truth v.toBool)
  | "not",              [v]       => .ok (.truth !v.toBool)
  | "floor",            [v]       => .ok (.number ((v.toNumber t).map fun q => q.floor))
  | "ceiling",          [v]       => .ok (.number ((v.toNumber t).map fun q => q.ceil))
  | "round",            [v]       => .ok (.number (v.toNumber t).round)
  | "starts-with",      [v, w]    => .ok (.truth ((chars w).isPrefixOf (chars v)))
  | "contains",         [v, w]    => .ok (.truth (cut? (chars w) (chars v)).isSome)
  | "substring-before", [v, w]    => text (((cut? (chars w) (chars v)).map (·.1)).getD [])
  | "substring-after",  [v, w]    => text (((cut? (chars w) (chars v)).map (·.2)).getD [])
  | "substring",        [v, a]    => text (slice (chars v) (a.toNumber t) none)
  | "substring",        [v, a, b] => text (slice (chars v) (a.toNumber t) (some (b.toNumber t)))
  | "translate",        [v, a, b] => text (substitute (chars v) (chars a) (chars b))
  | "concat",           v :: w :: more => text ((v :: w :: more).flatMap chars)
  | _,                  _         => .error (if name ∈ names then .wrongArity else .unknownFunction)

end Function
end DefectLog.Word.Selector
