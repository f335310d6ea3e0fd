import ObjectQuery.Text.Case.Mapping
import ObjectQuery.Text.Case.Cased
import ObjectQuery.Text.Case.Ignorable
/-!
# Lower-casing

The full default lower-case mapping of a text. Two characters are not mapped one to one: capital I
with dot becomes two characters, and capital sigma has a final form that depends on its context.
-/

namespace ObjectQuery.Text

def isCased (c : Char) : Bool :=
  inRanges casedRanges c.toNat

/-- Whether a character is looked through when the context of a case mapping is inspected. -/
def isCaseIgnorable (c : Char) : Bool :=
  inRanges caseIgnorableRanges c.toNat

/-- Whether the first character that is not case-ignorable has case. -/
def startsCased (text : List Char) : Bool :=
  match text.dropWhile isCaseIgnorable with
  | [] => false
  | c :: _ => isCased c

def lowerChar (c : Char) : List Char :=
  if c = '\u0130' then ['i', '\u0307']
  else
    match CaseRun.image? lowercaseRuns c.toNat with
    | some code => [Char.ofNat code]
    | none => [c]

/-- Lower-cases `text`, which stands after the reversed text `before`. A capital sigma is final if
a cased character precedes it and none follows it. -/
def lowerAfter : List Char → List Char → List Char
  | _, [] => []
  | before, c :: rest =>
      let image :=
        if c = '\u03A3' then
          [if startsCased before && !startsCased rest then '\u03C2' else '\u03C3']
        else lowerChar c
      image ++ lowerAfter (c :: before) rest

def lowercase (text : List Char) : List Char :=
  lowerAfter [] text

end ObjectQuery.Text
