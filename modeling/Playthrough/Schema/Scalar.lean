import Playthrough.Schema.Integer

/-!
# Reading scalars

Texts are read as they are.  Truth values and integers are read leniently: also from
numbers of the right value, and from texts that name them.
-/

namespace Playthrough.Decoder

def string : Decoder Text
  | .string text => .valid text
  | _ => .issue .notText

/-- Read a text by its characters; a text that holds a surrogate is garbled. -/
def byChars {α : Type} (read : List Char → Checked α) (text : Text) : Checked α :=
  match text.chars? with
  | some cs => read cs
  | none => .issue .garbledText

def nullable {α : Type} (decode : Decoder α) : Decoder (Option α)
  | .null => .valid none
  | json => (decode json).map some

/-! ## Truth values -/

def falseNames : List String := ["0", "off", "f", "false", "n", "no"]

def trueNames : List String := ["1", "on", "t", "true", "y", "yes"]

def boolOfChars (cs : List Char) : Checked Bool :=
  let lower := String.ofList (cs.map Char.toLower)
  if lower ∈ falseNames then .valid false
  else if lower ∈ trueNames then .valid true
  else .issue .unreadableBool

/-- The value of zero and one; `inRange` says whether another number counts as an
unreadable one rather than as no truth value at all. -/
def boolOfInt (n : Int) (inRange : Bool) : Checked Bool :=
  if n = 0 then .valid false
  else if n = 1 then .valid true
  else .issue (if inRange then .unreadableBool else .notBool)

/-- The magnitude that no number of 64 bits with a sign exceeds. -/
def signedLimit : Int := 0x8000000000000000

def bool : Decoder Bool
  | .bool value => .valid value
  | .int n => boolOfInt n (-signedLimit ≤ n && n < signedLimit)
  | .float x =>
      match x.toInt? with
      | some n => boolOfInt n (-signedLimit < n && n < signedLimit)
      | none => .issue .notBool
  | .string text => byChars boolOfChars text
  | _ => .issue .notBool

/-! ## Integers -/

def intOfFloat (x : Number.Binary64) : Checked Int :=
  if x.isFinite then
    match x.toInt? with
    | some n => if -signedLimit < n ∧ n < signedLimit then .valid n else .issue .oversizedInt
    | none => .issue .fractionalInt
  else .issue .infiniteInt

def int : Decoder Int
  | .int n => .valid n
  | .bool value => .valid (if value then 1 else 0)
  | .float x => intOfFloat x
  | .string text => byChars intOfChars text
  | _ => .issue .notInt

def named {α : Type} (ofName? : String → Option α) : Decoder α
  | .string text =>
      byChars (fun cs =>
        match ofName? (.ofList cs) with
        | some value => .valid value
        | none => .issue .unknownName) text
  | _ => .issue .unknownName

end Playthrough.Decoder
