import DefectLog.Word.Selector.Quantity

-- Path expressions, which select parts of an XML tree.
namespace DefectLog.Word.Selector

-- Why a path expression has no value.
inductive Fault
  | invalidExpression
  | invalidPredicate
  | unfinishedLiteral
  | unfinishedTest
  | namelessVariable
  | unknownVariable
  | unknownFunction
  | unknownNamespace
  | wrongArity
  | wrongType
deriving DecidableEq

def Fault.message : Fault → String
  | .invalidExpression => "Invalid expression"
  | .invalidPredicate  => "Invalid predicate"
  | .unfinishedLiteral => "Unfinished literal"
  | .unfinishedTest    => "Missing closing curly brace"
  | .namelessVariable  => "Expected $ for variable reference"
  | .unknownVariable   => "Undefined variable"
  | .unknownFunction   => "Unregistered function"
  | .unknownNamespace  => "Undefined namespace prefix"
  | .wrongArity        => "Invalid number of arguments"
  | .wrongType         => "Invalid type"

-- Where a step goes from a node.
inductive Axis
  | child
  | descendant
  | parent
  | ancestor
  | followingSibling
  | precedingSibling
  | following
  | preceding
  | attributes
  | here
  | descendantOrSelf
  | ancestorOrSelf
deriving DecidableEq

-- A name with the short name of its namespace, if it has one.
structure Name where
  space : Option String
  own   : String
deriving DecidableEq

-- What a step keeps of the nodes that it reaches. `element` keeps what has a name in a namespace, or in any.
inductive Test
  | name (n : Name)
  | element (space : Option String)
  | any
  | text
  | nothing
deriving DecidableEq

inductive Operator
  | or
  | and
  | equal
  | unequal
  | less
  | lessOrEqual
  | greater
  | greaterOrEqual
  | add
  | subtract
  | multiply
  | divide
  | remainder
  | unite
deriving DecidableEq

-- A step keeps what satisfies each of its predicates among the nodes that it reaches from one node, and
-- a filter what satisfies one among all nodes.
inductive Expr
  | literal (text : List Char)
  | number (q : Quantity)
  | unbound
  | call (name : Name) (arguments : List Expr)
  | negate (e : Expr)
  | binary (op : Operator) (a b : Expr)
  | context
  | root
  | step (start : Expr) (axis : Axis) (test : Test) (predicates : List Expr)
  | filter (e predicate : Expr)

end DefectLog.Word.Selector
