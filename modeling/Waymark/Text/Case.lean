import Waymark.Text.CaseTable
/-!
# Lower case

Full lower-casing of text: one character may become two, and a capital sigma at the end of a word
becomes the final one. Two texts are the same but for case when their lower cases are equal.
-/

namespace Waymark.Text

def inRanges (ranges : List (Nat × Nat)) (code : Nat) : Bool :=
  ranges.any fun range => range.1 ≤ code && code ≤ range.2

def isCaseIgnorable (c : Char) : Bool :=
  if c.toNat < 128 then [39, 46, 58, 94, 96].contains c.toNat
  else inRanges ignorableRanges c.toNat

def isCased (c : Char) : Bool :=
  if c.toNat < 128 then c.isAlpha else inRanges casedRanges c.toNat

def CaseRun.covers (run : CaseRun) (code : Nat) : Bool :=
  run.first ≤ code && code ≤ run.last && (code - run.first) % run.step = 0

def lowerRun? (code : Nat) : Option CaseRun :=
  match lowerRuns.dropWhile (·.last < code) with
  | [] => none
  | run :: _ => if run.covers code then some run else none

def lowerChar (c : Char) : List Char :=
  if c.toNat < 128 then [c.toLower]
  else if c = '\u0130' then ['i', '\u0307']
  else match lowerRun? c.toNat with
    | some run => [Char.ofNat (c.toNat + run.shift).toNat]
    | none => [c]

def startsCased (text : List Char) : Bool :=
  match text.dropWhile isCaseIgnorable with
  | [] => false
  | c :: _ => isCased c

/-- Lower-cases what follows a text that is given backwards. A capital sigma is final when a cased
character comes before it and none comes after it. -/
def lowerBehind (before : List Char) : List Char → List Char
  | [] => []
  | c :: rest =>
      (if c = 'Σ' then (if startsCased before && !startsCased rest then ['ς'] else ['σ'])
        else lowerChar c) ++ lowerBehind (c :: before) rest

def lower (text : String) : String :=
  String.ofList (lowerBehind [] text.toList)

def lowerAscii (text : String) : String :=
  String.ofList (text.toList.map Char.toLower)

def isAscii (text : List Char) : Bool :=
  text.all (·.toNat < 128)

def sameAscii : List Char → List Char → Bool
  | [], [] => true
  | a :: as, b :: bs => a.toLower = b.toLower && sameAscii as bs
  | _, _ => false

/-- Equality of lower cases. Texts that differ only in the case of ASCII letters are told equal, and
other ASCII texts unequal, without the tables. -/
def sameButCase (a b : String) : Bool :=
  sameAscii a.toList b.toList ||
    (!(isAscii a.toList && isAscii b.toList) && lower a == lower b)

end Waymark.Text
