import ObjectQuery.Selector.Matching
/-!
# Contexts

A context is the ordered list of objects that a query is about. This module holds what operations
do to a context as plain functions: cutting by position, dropping repetitions, keeping what matches
a selector, and stepping into a property.
-/

namespace ObjectQuery

/-- The objects that a query is about. -/
abbrev Context := List Json

namespace Context

/-- The position that an index stands for, between zero and the length. Negative indexes count from
the end. -/
def clamp (index : Int) (length : Nat) : Nat :=
  if index < 0 then length - index.natAbs else min index.toNat length

/-- The objects from a start up to, not including, an end. A missing bound is that of the whole. -/
def slice (start stop : Option Int64) (context : Context) : Context :=
  let first := (start.map fun index => clamp index.toInt context.length).getD 0
  let last := (stop.map fun index => clamp index.toInt context.length).getD context.length
  (context.take last).drop first

def at? (index : Int64) (context : Context) : Option Json :=
  let index := index.toInt
  if 0 ≤ index then context[index.toNat]?
  else if index.natAbs ≤ context.length then context[context.length - index.natAbs]?
  else none

def holds (context : Context) (object : Json) : Bool :=
  context.any fun kept => kept.equal object

def unique (context : Context) : Context :=
  context.foldl (fun kept object => if holds kept object then kept else kept ++ [object]) []

/-- The objects that match a selector. The first object for which matching fails decides. -/
def matching (config : Config) (selector : Selector) : Context → Except Failure Context
  | [] => .ok []
  | object :: rest =>
      match selector.matchesObject config object with
      | .error failure => .error failure
      | .ok keep =>
          match matching config selector rest with
          | .error failure => .error failure
          | .ok kept => .ok (if keep then object :: kept else kept)

def isContainer (value : Json) : Bool :=
  value.scalar?.isNone

/-- The objects and lists that one object holds under a property. A list gives its items instead of
itself, one level deep. -/
def childrenOf (name : String) (object : Json) : Context :=
  match object.property? name with
  | none => []
  | some value => (value.items?.getD [value]).filter isContainer

/-- The objects and lists that the objects of a context hold under a property, without
repetitions. -/
def children (name : String) (context : Context) : Context :=
  unique (context.flatMap (childrenOf name))

end Context

end ObjectQuery
