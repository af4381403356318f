import Waymark.Json.Print
/-!
# Outlines

A value written for a reader of logs, each part under the name of its kind.
-/

namespace Waymark.Json

def separated (parts : List String) : String :=
  String.intercalate ", " parts

def inBraces (content : String) : String :=
  "\x7b" ++ content ++ "\x7d"

mutual

def outline : Json → String
  | .null => "Null"
  | .boolean true => "Bool(true)"
  | .boolean false => "Bool(false)"
  | .number value => "Number(" ++ String.ofList (numberText value) ++ ")"
  | .string value => "String(" ++ Text.quoted value ++ ")"
  | .array items => "Array [" ++ separated (outlineItems items) ++ "]"
  | .object members => "Object " ++ inBraces (separated (outlineMembers members))

def outlineItems : List Json → List String
  | [] => []
  | item :: items => outline item :: outlineItems items

def outlineMembers : List (String × Json) → List String
  | [] => []
  | (name, value) :: members =>
      (Text.quoted name ++ ": " ++ outline value) :: outlineMembers members

end

end Waymark.Json
