import ObjectQuery.Json.Basic
import ObjectQuery.Json.Syntax
import ObjectQuery.Binary64.Rounding
/-!
# Decoding JSON

The value that a well-formed JSON text denotes. Pairs of surrogate code units become one character
and a lone surrogate denotes nothing; a number without point and exponent is an integer if it fits.
-/

namespace ObjectQuery.Json

namespace Piece

/-- Whether a code unit is the first of a surrogate pair. -/
def isLead (code : Nat) : Bool :=
  0xD800 ≤ code && code < 0xDC00

def isTrail (code : Nat) : Bool :=
  0xDC00 ≤ code && code < 0xE000

def decode? : List Piece → Option (List Char)
  | [] => some []
  | .char c :: rest => (decode? rest).map (c :: ·)
  | .unit lead :: .unit trail :: rest =>
      if isLead lead then
        if isTrail trail then
          (decode? rest).map
            (Char.ofNat (0x10000 + (lead - 0xD800) * 0x400 + (trail - 0xDC00)) :: ·)
        else none
      else if isTrail lead then none
      else (decode? (.unit trail :: rest)).map (Char.ofNat lead :: ·)
  | .unit code :: rest =>
      if isLead code || isTrail code then none
      else (decode? rest).map (Char.ofNat code :: ·)

def toString? (pieces : List Piece) : Option String :=
  (decode? pieces).map String.ofList

end Piece

namespace Numeral

def isIntegral (numeral : Numeral) : Bool :=
  numeral.fraction.isEmpty && numeral.exponent.isNone

/-- The integer written, if the number is written as one. Minus zero is none. -/
def integer? (numeral : Numeral) : Option Int :=
  let magnitude := Text.digitsValue numeral.whole
  if !numeral.isIntegral then none
  else if numeral.negative then
    if magnitude = 0 then none else some (-magnitude)
  else some magnitude

def float (numeral : Numeral) : Binary64 :=
  Binary64.ofDecimal numeral.negative (Text.digitsValue (numeral.whole ++ numeral.fraction))
    (numeral.exponent.getD 0 - numeral.fraction.length)

/-- The value of a number: an integer where it is written as one of at most 64 bits, else a float,
which must not overflow. -/
def toJson? (numeral : Numeral) : Option Json :=
  match numeral.integer?.filter isExactInteger with
  | some i => some (.integer i)
  | none =>
      match numeral.float with
      | .finite x => some (.float x)
      | _ => none

end Numeral

namespace Tree

mutual

def toJson? : Tree → Option Json
  | .null => some .null
  | .bool value => some (.bool value)
  | .number numeral => numeral.toJson?
  | .string pieces => (Piece.toString? pieces).map .string
  | .array items => (toItems? items).map .array
  | .object fields => (toFields? fields).map Json.ofFields

def toItems? : List Tree → Option (List Json)
  | [] => some []
  | item :: rest =>
      match toJson? item, toItems? rest with
      | some value, some values => some (value :: values)
      | _, _ => none

def toFields? : List (List Piece × Tree) → Option (List (String × Json))
  | [] => some []
  | (name, tree) :: rest =>
      match Piece.toString? name, toJson? tree, toFields? rest with
      | some name, some value, some fields => some ((name, value) :: fields)
      | _, _, _ => none

end

end Tree

def ofText? (text : String) : Option Json :=
  match Tree.ofText? text.toList with
  | some tree => tree.toJson?
  | none => none

end ObjectQuery.Json
