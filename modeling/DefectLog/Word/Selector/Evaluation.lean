import DefectLog.Word.Selector.Function
import DefectLog.Word.Selector.Reader

-- What path expressions select.
namespace DefectLog.Word.Selector

-- The short names of the namespaces that a document of the word processor uses.
def namespaces : List String :=
  ["a", "c", "cp", "dc", "dcmitype", "dcterms", "dgm", "m", "pic", "r", "sl", "w", "w14", "wp", "xml", "xsi"]

def checkNamespace (space : Option String) : Except Fault Unit :=
  if space.all (· ∈ namespaces) then .ok () else .error .unknownNamespace

def Test.check : Test → Except Fault Unit
  | .name n        => checkNamespace n.space
  | .element space => checkNamespace space
  | _              => .ok ()

def Name.text (n : Name) : String :=
  match n.space with
  | some space => space ++ ":" ++ n.own
  | none       => n.own

-- The attribute axis reaches attributes, and the names on any other axis are those of elements.
def Test.admits (test : Test) (t : Tree) (axis : Axis) (n : Node) : Bool :=
  let isNamed := (t.nameOf? n).isSome && n.entry.isSome == decide (axis = .attributes)
  match test with
  | .any                  => true
  | .nothing              => false
  | .text                 => n.entry.isNone && n.path ≠ [] && (t.nameOf? n).isNone
  | .name own             => isNamed && t.nameOf? n = some own.text
  | .element none         => isNamed
  | .element (some space) => isNamed && (t.nameOf? n).any (space ++ ":").isPrefixOf

-- The operators that need the values of both sides.
def Operator.apply (t : Tree) (op : Operator) (a b : Value) : Except Fault Value :=
  let number (f : Quantity → Quantity → Quantity) : Except Fault Value :=
    .ok (.number (f (a.toNumber t) (b.toNumber t)))
  match op with
  | .or             => .ok (.truth (a.toBool || b.toBool))
  | .and            => .ok (.truth (a.toBool && b.toBool))
  | .equal          => .ok (.truth (a.equal t b))
  | .unequal        => .ok (.truth (a.unequal t b))
  | .less           => .ok (.truth (a.less t b))
  | .lessOrEqual    => .ok (.truth (a.lessOrEqual t b))
  | .greater        => .ok (.truth (b.less t a))
  | .greaterOrEqual => .ok (.truth (b.lessOrEqual t a))
  | .add            => number .add
  | .subtract       => number fun p q => p.add q.neg
  | .multiply       => number .mul
  | .divide         => number .div
  | .remainder      => number .mod
  | .unite          => do return .nodes (Tree.sorted ((← a.toNodes) ++ (← b.toNodes)))

-- Whether the value of the first operand settles the value of the whole.
def Operator.isSettledBy (op : Operator) (a : Value) : Bool :=
  match op with
  | .or  => a.toBool
  | .and => !a.toBool
  | _    => false

-- A number as a predicate asks for a position.
def holdsAt (position : Nat) : Value → Bool
  | .number q => q.eq (.ofNat position)
  | v         => v.toBool

-- The nodes for which a predicate holds, each seen as one of all.
def keep (tree : Tree) (predicate : Context → Except Fault Value) (ns : List Node) :
    Except Fault (List Node) := do
  let kept ← ns.zipIdx.filterM fun (node, i) => do
    return holdsAt (i + 1) (← predicate { tree, node, position := i + 1, size := ns.length })
  return kept.map (·.1)

mutual
def Expr.value : Expr → Context → Except Fault Value
  | .literal text,            _ => .ok (.text (String.ofList text))
  | .number q,                _ => .ok (.number q)
  | .unbound,                 _ => .error .unknownVariable
  | .context,                 c => .ok (.nodes [c.node])
  | .root,                    _ => .ok (.nodes [⟨[], none⟩])
  | .negate e,                c => do return .number ((← e.value c).toNumber c.tree).neg
  | .call name arguments,     c => do
    let values ← valuesOf arguments c
    checkNamespace name.space
    if name.space.isSome then .error .unknownFunction
    else Function.apply c name.own values
  | .binary op a b,           c => do
    let first ← a.value c
    if op.isSettledBy first then return .truth first.toBool
    op.apply c.tree first (← b.value c)
  | .filter e predicate,      c => do
    let ns ← (← e.value c).toNodes
    return .nodes (← keep c.tree predicate.value ns)
  | .step start axis test ps, c => do
    let ns ← (← start.value c).toNodes
    test.check
    let reached ← ns.mapM fun n => keepAll c.tree ps ((c.tree.along n axis).filter (test.admits c.tree axis))
    return .nodes (Tree.sorted reached.flatten)
termination_by structural e => e
def valuesOf : List Expr → Context → Except Fault (List Value)
  | [],      _ => .ok []
  | e :: es, c => do
    let v ← e.value c
    let vs ← valuesOf es c
    return v :: vs
termination_by structural es => es
-- The nodes for which each of several predicates holds among those that satisfy the ones before it.
def keepAll (tree : Tree) : List Expr → List Node → Except Fault (List Node)
  | [],      ns => .ok ns
  | p :: ps, ns => do
    let kept ← keep tree p.value ns
    keepAll tree ps kept
termination_by structural ps => ps
end

-- The value of an expression at the outermost element of a tree.
def evaluate (x : Xml) (text : String) : Except Fault Value := do
  let e ← read text.toList
  e.value { tree := .ofElement x, node := { path := [0] } }

-- Two elements `a` inside of another one, told apart by their attribute `n`.
example :
    let x := Xml.w "r" [] [.leaf "a" [("n", "1")], .leaf "a" [("n", "2")]]
    (evaluate x "w:a[@w:n>\"1\"]").toOption.bind (·.toNodes.toOption) = some [⟨[0, 1], none⟩] := by
  decide +kernel

end DefectLog.Word.Selector
