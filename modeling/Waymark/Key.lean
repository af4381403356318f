import Waymark.Text.Case
/-!
# Location keys

A key names a location. Keys that differ only in letter case name the same one, and a key lies
under another when it continues it behind a separator of either kind.
-/

namespace Waymark.Key

def isSeparator (c : Char) : Bool :=
  c = '\\' || c = '/'

def dropSeparatorsAtEnd (key : List Char) : List Char :=
  (key.reverse.dropWhile isSeparator).reverse

abbrev same (a b : String) : Bool :=
  Text.sameButCase a b

def continues (text start : List Char) : Bool :=
  match start.isPrefixOf text, text.drop start.length with
  | true, next :: _ => isSeparator next
  | _, _ => false

/-- Whether a key is the root itself or lies below it. Nothing lies at or under an empty root. -/
def isAtOrUnder (key root : String) : Bool :=
  !root.isEmpty &&
    (same key root ||
      continues (Text.lower key).toList
        (Text.lower (String.ofList (dropSeparatorsAtEnd root.toList))).toList)

end Waymark.Key
