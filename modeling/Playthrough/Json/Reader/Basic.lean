import Playthrough.Json.Reader.Escape
import Playthrough.Json.Reader.Numeral

/-!
# Reading documents

The reader works on the characters that are left, one value after the other.  A text
holds one value, with blanks around it.
-/

namespace Playthrough.Json

namespace Reader

def isBlank (c : Char) : Bool := c == ' ' || c == '\t' || c == '\n' || c == '\r'

def skipBlanks (cs : List Char) : List Char := cs.dropWhile isBlank

def words : List (List Char × Json) :=
  [("null".toList, .null), ("true".toList, .bool true), ("false".toList, .bool false),
    ("NaN".toList, .float .nan), ("Infinity".toList, .float (.infinity false)),
    ("-Infinity".toList, .float (.infinity true))]

def readWord? (cs : List Char) : Option (Json × List Char) :=
  (words.find? fun entry => entry.1.isPrefixOf cs).map fun entry =>
    (entry.2, cs.drop entry.1.length)

def readElements (value : List Char → Except Failure (Json × List Char)) :
    Nat → List Char → Except Failure (List Json × List Char)
  | 0, cs => fail .expectedValue cs
  | fuel + 1, cs =>
      (value cs).bind fun (element, rest) =>
        match skipBlanks rest with
        | ']' :: rest => .ok ([element], rest)
        | ',' :: rest =>
            (readElements value fuel (skipBlanks rest)).map fun (elements, rest) =>
              (element :: elements, rest)
        | rest => fail .expectedComma rest

def readMember (value : List Char → Except Failure (Json × List Char)) :
    List Char → Except Failure ((Text × Json) × List Char)
  | '"' :: rest =>
      (readPoints ('"' :: rest) rest).bind fun (name, rest) =>
        match skipBlanks rest with
        | ':' :: rest =>
            (value (skipBlanks rest)).map fun (value, rest) =>
              ((⟨name⟩, value), rest)
        | rest => fail .expectedColon rest
  | cs => fail .expectedName cs

def readMembers (value : List Char → Except Failure (Json × List Char)) :
    Nat → List Char → Except Failure (List (Text × Json) × List Char)
  | 0, cs => fail .expectedName cs
  | fuel + 1, cs =>
      (readMember value cs).bind fun (member, rest) =>
        match skipBlanks rest with
        | '}' :: rest => .ok ([member], rest)
        | ',' :: rest =>
            (readMembers value fuel (skipBlanks rest)).map fun (members, rest) =>
              (member :: members, rest)
        | rest => fail .expectedComma rest

/-- Read a value.  Fuel bounds both the depth of nesting and the length of each array
and object, so the length of the text is enough. -/
def readValue : Nat → List Char → Except Failure (Json × List Char)
  | 0, cs => fail .expectedValue cs
  | fuel + 1, cs =>
      match cs with
      | '"' :: rest => readString cs rest
      | '[' :: rest =>
          match skipBlanks rest with
          | ']' :: rest => .ok (.array [], rest)
          | rest =>
              (readElements (readValue fuel) (fuel + 1) rest).map fun (elements, rest) =>
                (.array elements, rest)
      | '{' :: rest =>
          match skipBlanks rest with
          | '}' :: rest => .ok (.object [], rest)
          | rest =>
              (readMembers (readValue fuel) (fuel + 1) rest).map fun (members, rest) =>
                (ofMembers members, rest)
      | _ =>
          match (readWord? cs).or (readNumber? cs) with
          | some read => .ok read
          | none => fail .expectedValue cs

def readText (text : List Char) : Except Failure Json :=
  if text.head? = some '\uFEFF' then .error ⟨.byteOrderMark, text⟩
  else do
    let (value, rest) ← readValue (text.length + 1) (skipBlanks text)
    match skipBlanks rest with
    | [] => .ok value
    | rest => .error ⟨.extraData, rest⟩

end Reader

def read (text : List Char) : Except ReadFault Json :=
  (Reader.readText text).mapError (ReadFault.locate text)

end Playthrough.Json
