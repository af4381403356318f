/-!
# Paths

A path is kept as it was written. Its parts lie between slashes; empty parts do not count, nor do
parts that are a single dot, except a dot at the very beginning.
-/

namespace Waymark

structure Path where
  text : String
  deriving DecidableEq

namespace Path

def isAbsolute (path : Path) : Bool :=
  path.text.toList.head? = some '/'

def split : List Char → List (List Char)
  | [] => [[]]
  | c :: rest =>
      match split rest with
      | [] => [[c]]
      | part :: parts => if c = '/' then [] :: part :: parts else (c :: part) :: parts

def unsplit (parts : List (List Char)) : List Char :=
  List.intercalate ['/'] parts

def isPart (part : List Char) : Bool :=
  !part.isEmpty && part ≠ ['.']

def head : List Char → List Char × List Char
  | '/' :: rest => (['/'], rest)
  | ['.'] => (['.'], [])
  | '.' :: '/' :: rest => (['.'], '/' :: rest)
  | text => ([], text)

def lastParts (body : List Char) : List (List Char) :=
  (split body).reverse.dropWhile (!isPart ·)

/-- The path without its last part. A root has no parent, and neither has the empty path. -/
def parent? (path : Path) : Option Path :=
  let (start, body) := head path.text.toList
  match lastParts body with
  | [] => if start = ['.'] then some ⟨""⟩ else none
  | _ :: parts =>
      some ⟨String.ofList (start ++ unsplit (parts.dropWhile (!isPart ·)).reverse)⟩

def fileName? (path : Path) : Option String :=
  match lastParts (head path.text.toList).2 with
  | [] => none
  | part :: _ => if part = ['.', '.'] then none else some (String.ofList part)

/-- A file name before and behind its last dot. A dot at the beginning does not count. -/
def splitName (name : String) : String × Option String :=
  let backwards := name.toList.reverse
  match backwards.dropWhile (· ≠ '.') with
  | [] => (name, none)
  | [_] => (name, none)
  | _ :: before =>
      (String.ofList before.reverse, some (String.ofList (backwards.takeWhile (· ≠ '.')).reverse))

def stem? (path : Path) : Option String :=
  path.fileName?.map fun name => (splitName name).1

def extension? (path : Path) : Option String :=
  path.fileName?.bind fun name => (splitName name).2

def join (path other : Path) : Path :=
  if other.isAbsolute || path.text.isEmpty then other
  else if path.text.toList.getLast? = some '/' then ⟨path.text ++ other.text⟩
  else ⟨path.text ++ "/" ++ other.text⟩

def child (path : Path) (name : String) : Path :=
  path.join ⟨name⟩

end Path
end Waymark
