import DefectLog.Word.Selector.Basic
import DefectLog.Word.Xml

-- The places of an XML tree, and how to get from one to others.
namespace DefectLog.Word.Selector

-- A node is given by the way to it from the top, which says which child to take at each level. An attribute
-- is an entry of the last of these. The top itself is no element. It contains the outermost one.
structure Node where
  path  : List Nat
  entry : Option Nat := none
deriving DecidableEq

def childrenOf : Xml → List Xml
  | .element _ _ children => children
  | .chars _              => []

def attributesOf : Xml → List (String × String)
  | .element _ attributes _ => attributes
  | .chars _                => []

-- A tree in which nodes are looked up.
structure Tree where
  top : Xml

-- A tree whose outermost element is given.
def Tree.ofElement (x : Xml) : Tree where
  top := .element "" [] [x]

namespace Tree

def at? (t : Tree) (path : List Nat) : Option Xml :=
  path.foldlM (fun x i => (childrenOf x)[i]?) t.top

def below (t : Tree) (path : List Nat) : List (List Nat) :=
  let count := ((t.at? path).map fun x => (childrenOf x).length).getD 0
  (List.range count).map (path ++ [·])

-- What is inside of a part of a tree, in the order of the text, with the way to each from the part.
mutual
def insides : Xml → List (List Nat)
  | .chars _              => []
  | .element _ _ children => insidesOfAll 0 children
termination_by structural x => x
def insidesOfAll (i : Nat) : List Xml → List (List Nat)
  | []      => []
  | x :: xs => [i] :: (insides x).map (i :: ·) ++ insidesOfAll (i + 1) xs
termination_by structural xs => xs
end

def descendants (t : Tree) (path : List Nat) : List (List Nat) :=
  ((t.at? path).map fun x => (insides x).map (path ++ ·)).getD []

-- Whether a place comes before another one in the text. What encloses comes before what it encloses.
def before : List Nat → List Nat → Bool
  | [],      []      => false
  | [],      _ :: _  => true
  | _ :: _,  []      => false
  | i :: is, j :: js => i < j || (i = j && before is js)

-- The places that enclose a place, nearest first.
def enclosing (path : List Nat) : List (List Nat) :=
  ((List.range path.length).map path.take).reverse

def siblings (t : Tree) (path : List Nat) : List (List Nat) :=
  if path = [] then [] else t.below path.dropLast

-- The nodes that an axis reaches, nearest first.
def along (t : Tree) (n : Node) : Axis → List Node
  | .here             => [n]
  | .attributes       => if n.entry.isSome then [] else entries
  | .parent           => nodes (above.take 1)
  | .ancestor         => nodes above
  | .ancestorOrSelf   => n :: nodes above
  | .child            => inside (t.below n.path)
  | .descendant       => inside (t.descendants n.path)
  | .descendantOrSelf => n :: inside (t.descendants n.path)
  | .followingSibling => inside ((t.siblings n.path).filter (before n.path ·))
  | .precedingSibling => inside ((t.siblings n.path).filter (before · n.path)).reverse
  | .following        => nodes (everything.filter fun p => before n.path p && !n.path.isPrefixOf p)
  | .preceding        => nodes (everything.filter fun p => before p n.path && !p.isPrefixOf n.path).reverse
where
  nodes (paths : List (List Nat)) : List Node := paths.map fun path => { path }
  inside (paths : List (List Nat)) : List Node := if n.entry.isSome then [] else nodes paths
  above : List (List Nat) := if n.entry.isSome then n.path :: enclosing n.path else enclosing n.path
  everything : List (List Nat) := t.descendants []
  entries : List Node :=
    let count := ((t.at? n.path).map fun x => (attributesOf x).length).getD 0
    (List.range count).map fun i => { path := n.path, entry := some i }

-- The name of an element or an attribute, as it is written.
def nameOf? (t : Tree) (n : Node) : Option String :=
  match t.at? n.path, n.entry with
  | some (.element tag _ _),        none   => if n.path = [] then none else some tag
  | some (.element _ attributes _), some i => (attributes[i]?).map (·.1)
  | _,                              _      => none

mutual
def content : Xml → String
  | .chars text           => text
  | .element _ _ children => contentOfAll children
termination_by structural x => x
def contentOfAll : List Xml → String
  | []      => ""
  | x :: xs => content x ++ contentOfAll xs
termination_by structural xs => xs
end

-- The text that a node stands for.
def textOf (t : Tree) (n : Node) : String :=
  match t.at? n.path, n.entry with
  | some x, some i => (((attributesOf x)[i]?).map (·.2)).getD ""
  | some x, none   => content x
  | none,   _      => ""

-- Whether a node comes before another one. Attributes come after their element and before what is in it.
def precedes (a b : Node) : Bool :=
  if a.path = b.path then
    match a.entry, b.entry with
    | none,   some _ => true
    | some i, some j => i < j
    | _,      none   => false
  else before a.path b.path

def insert (n : Node) : List Node → List Node
  | []      => [n]
  | m :: ms =>
    if n = m then m :: ms
    else if precedes n m then n :: m :: ms
    else m :: insert n ms

-- Nodes in the order of the text, each of them once.
def sorted (ns : List Node) : List Node :=
  ns.foldr insert []

end Tree
end DefectLog.Word.Selector
