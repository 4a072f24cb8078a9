/-!
# Texts

A text is a sequence of code points.  It may hold surrogates, since an escape in a
document can name one half of a pair without the other; all other code points are
characters.  Texts are ordered by code point.
-/

namespace Playthrough

/-- A Unicode code point, a surrogate or a character. -/
abbrev CodePoint := Fin 0x110000

namespace CodePoint

def ofChar (c : Char) : CodePoint :=
  ⟨c.toNat, by
    have h : c.toNat < 0xd800 ∨ 0xdfff < c.toNat ∧ c.toNat < 0x110000 := c.valid
    omega⟩

instance : Coe Char CodePoint := ⟨ofChar⟩

def IsSurrogate (point : CodePoint) : Prop := 0xd800 ≤ point.val ∧ point.val < 0xe000

instance (point : CodePoint) : Decidable point.IsSurrogate :=
  inferInstanceAs (Decidable (_ ∧ _))

def char? (point : CodePoint) : Option Char :=
  if point.IsSurrogate then none else some (.ofNat point.val)

theorem not_isSurrogate_ofChar (c : Char) : ¬ (ofChar c).IsSurrogate := by
  have h : c.toNat < 0xd800 ∨ 0xdfff < c.toNat ∧ c.toNat < 0x110000 := c.valid
  change ¬ (0xd800 ≤ c.toNat ∧ c.toNat < 0xe000)
  omega

@[simp] theorem char?_ofChar (c : Char) : (ofChar c).char? = some c := by
  rw [char?, if_neg (not_isSurrogate_ofChar c)]
  exact congrArg some (Char.ofNat_toNat c)

end CodePoint

structure Text where
  points : List CodePoint
  deriving DecidableEq, Repr, Inhabited

namespace Text

def ofChars (cs : List Char) : Text := ⟨cs.map .ofChar⟩

def ofString (s : String) : Text := ofChars s.toList

instance : Coe String Text := ⟨ofString⟩

instance : Append Text := ⟨fun first second => ⟨first.points ++ second.points⟩⟩

@[simp] theorem points_append (first second : Text) :
    (first ++ second).points = first.points ++ second.points := rfl

def intercalate (separator : Text) : List Text → Text
  | [] => ""
  | [text] => text
  | text :: rest => text ++ separator ++ intercalate separator rest

/-! ## Characters -/

def chars? (text : Text) : Option (List Char) := text.points.mapM CodePoint.char?

/-- A text with three replacement characters for each surrogate, one for each byte of
its three-byte form. -/
def repaired (text : Text) : Text :=
  ⟨text.points.flatMap fun point =>
    if point.IsSurrogate then List.replicate 3 (.ofChar '\uFFFD') else [point]⟩

@[simp] theorem chars?_ofChars (cs : List Char) : (ofChars cs).chars? = some cs := by
  induction cs with
  | nil => rfl
  | cons c rest ih =>
      simp only [chars?, ofChars, List.map_cons, List.mapM_cons] at ih ⊢
      simp [ih]

/-! ## Order -/

instance : LT Text := ⟨fun first second => first.points < second.points⟩

instance (first second : Text) : Decidable (first < second) :=
  inferInstanceAs (Decidable (first.points < second.points))

theorem lt_irrefl (text : Text) : ¬ text < text := List.lt_irrefl text.points

theorem lt_trans {first second third : Text} (h : first < second) (h' : second < third) :
    first < third :=
  List.lt_trans (α := CodePoint) h h'

theorem eq_of_not_lt {first second : Text} (h : ¬ first < second) (h' : ¬ second < first) :
    first = second := by
  cases first; cases second
  exact congrArg mk (List.le_antisymm (List.not_lt.1 h') (List.not_lt.1 h))

end Text

end Playthrough
