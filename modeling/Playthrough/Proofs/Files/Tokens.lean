import Playthrough.Json.Printer
import Playthrough.Json.Reader.Basic

/-!
# Strings and integers read back

A printed string is read up to its closing quote, each character by the form that was chosen for
it.  A printed integer is read up to the first character that cannot go on with a numeral.
-/

namespace Playthrough

def Text.Whole (text : Text) : Prop := ∀ point ∈ text.points, ¬ point.IsSurrogate

theorem Text.whole_ofChars (cs : List Char) : (ofChars cs).Whole := by
  intro point hpoint
  obtain ⟨c, -, rfl⟩ := List.mem_map.1 hpoint
  exact CodePoint.not_isSurrogate_ofChar c

theorem CodePoint.exists_ofChar {point : CodePoint} (h : ¬ point.IsSurrogate) :
    ∃ c, ofChar c = point := by
  have hvalid : Nat.isValidChar point.val := by
    unfold IsSurrogate at h
    unfold Nat.isValidChar
    omega
  refine ⟨.ofNat point.val, Fin.ext ?_⟩
  change (Char.ofNat point.val).toNat = point.val
  rw [Char.ofNat, dif_pos hvalid]
  rfl

theorem Text.Whole.exists_ofChars {text : Text} (h : text.Whole) : ∃ cs, .ofChars cs = text := by
  obtain ⟨points⟩ := text
  induction points with
  | nil => exact ⟨[], rfl⟩
  | cons point points ih =>
      obtain ⟨hpoint, hpoints⟩ := List.forall_mem_cons.1 h
      obtain ⟨c, rfl⟩ := CodePoint.exists_ofChar hpoint
      obtain ⟨cs, hcs⟩ := ih hpoints
      rw [Text.mk.injEq] at hcs
      exact ⟨c :: cs, by rw [← hcs]; rfl⟩

namespace Json

open Reader

/-! ## Forms of a character -/

def Visible (c : Char) : Prop := 0x20 ≤ c.toNat

instance (c : Char) : Decidable (Visible c) := inferInstanceAs (Decidable (_ ≤ _))

theorem printChar_cases (charset : Charset) (c : Char) :
    (∃ letter, escaped? letter = some c ∧ Visible letter ∧
      printChar charset c = ['\\', letter]) ∨
    printChar charset c = escapeUnits c ∨
    (c ≠ '"' ∧ c ≠ '\\' ∧ Visible c ∧ printChar charset c = [c]) := by
  unfold printChar
  by_cases hquote : c = '"'
  · subst hquote
    exact .inl ⟨'"', rfl, by decide, rfl⟩
  rw [if_neg hquote]
  by_cases hslash : c = '\\'
  · subst hslash
    exact .inl ⟨'\\', rfl, by decide, rfl⟩
  rw [if_neg hslash]
  by_cases hfeed : c = '\n'
  · subst hfeed
    exact .inl ⟨'n', rfl, by decide, rfl⟩
  rw [if_neg hfeed]
  by_cases hreturn : c = '\r'
  · subst hreturn
    exact .inl ⟨'r', rfl, by decide, rfl⟩
  rw [if_neg hreturn]
  by_cases htab : c = '\t'
  · subst htab
    exact .inl ⟨'t', rfl, by decide, rfl⟩
  rw [if_neg htab]
  by_cases hback : c.toNat = 0x08
  · obtain rfl : c = '\x08' := Char.toNat_inj.1 hback
    exact .inl ⟨'b', rfl, by decide, rfl⟩
  rw [if_neg hback]
  by_cases hform : c.toNat = 0x0c
  · obtain rfl : c = '\x0c' := Char.toNat_inj.1 hform
    exact .inl ⟨'f', rfl, by decide, rfl⟩
  rw [if_neg hform]
  by_cases hcontrol : c.toNat < 0x20
  · rw [if_pos hcontrol]
    exact .inr (.inl (if_pos (by omega)).symm)
  rw [if_neg hcontrol]
  by_cases hascii : charset = .ascii ∧ 0x7e < c.toNat
  · exact .inr (.inl (if_pos hascii))
  · exact .inr (.inr ⟨hquote, hslash, Nat.not_lt.1 hcontrol, if_neg hascii⟩)

section

variable {opening rest : List Char}

theorem join_of_not_leading {point : CodePoint}
    (h : ¬ (0xd800 ≤ point.val ∧ point.val < 0xdc00)) (points : List CodePoint) :
    join point points = point :: points := by
  cases points with
  | nil => rfl
  | cons next points => exact if_neg fun hpair => h hpair.1

theorem join_ofChar (c : Char) (points : List CodePoint) :
    join (.ofChar c) points = .ofChar c :: points := by
  refine join_of_not_leading (fun h => CodePoint.not_isSurrogate_ofChar c ?_) points
  exact ⟨h.1, Nat.lt_trans h.2 (by decide)⟩

-- An escape at the very end of a text would be refused, so something has to follow it.
theorem readPoints_unit {unit : Nat} (hunit : unit < 0x10000) (hrest : rest ≠ []) :
    readPoints opening (escapeUnit unit ++ rest) =
      (readPoints opening rest).map fun read => (join (.ofNat _ unit) read.1, read.2) := by
  have hdigits : Text.Hex.digits 4 unit = [Text.Hex.digit (unit / 16 / 16 / 16),
      Text.Hex.digit (unit / 16 / 16), Text.Hex.digit (unit / 16), Text.Hex.digit unit] := rfl
  have hread : Text.Hex.read? (Text.Hex.digits 4 unit) = some unit := by
    simp only [Text.Hex.read?_digits_succ, Text.Hex.read?_digits_zero, Option.map_some]
    exact congrArg some (by omega)
  obtain ⟨c, cs, rfl⟩ := List.exists_cons_of_ne_nil hrest
  unfold escapeUnit
  rw [hdigits] at hread ⊢
  simp only [List.cons_append, List.nil_append]
  rw [readPoints]
  exact hread

theorem readPoints_ofChar {c : Char} (hc : c.toNat < 0x10000) (hrest : rest ≠ []) :
    readPoints opening (escapeUnit c.toNat ++ rest) =
      (readPoints opening rest).map fun read => (.ofChar c :: read.1, read.2) := by
  have hpoint : .ofNat _ c.toNat = CodePoint.ofChar c :=
    Fin.ext (Nat.mod_eq_of_lt (by omega))
  rw [readPoints_unit hc hrest, hpoint]
  simp only [join_ofChar]

theorem readPoints_escaped {letter c : Char} (h : escaped? letter = some c) :
    readPoints opening ('\\' :: letter :: rest) =
      (readPoints opening rest).map fun read => (.ofChar c :: read.1, read.2) := by
  have hletter : letter ≠ 'u' := by
    rintro rfl
    cases h
  simp only [← join_ofChar]
  rw [readPoints, h]
  · exact fun _ _ _ _ _ hunit _ => hletter hunit
  · exact hletter

theorem readPoints_plain {c : Char} (hquote : c ≠ '"') (hslash : c ≠ '\\')
    (hvisible : Visible c) :
    readPoints opening (c :: rest) =
      (readPoints opening rest).map fun read => (.ofChar c :: read.1, read.2) := by
  simp only [← join_ofChar]
  rw [readPoints, if_neg (Nat.not_lt.2 hvisible)]
  all_goals simp [hquote, hslash]

theorem join_units {high low : Nat} (hhigh : 0xd800 ≤ high ∧ high < 0xdc00)
    (hlow : 0xdc00 ≤ low ∧ low < 0xe000) (points : List CodePoint) :
    join (.ofNat _ high) (join (.ofNat _ low) points) =
      .ofNat _ (0x10000 + (high - 0xd800) * 0x400 + (low - 0xdc00)) :: points := by
  have hhighVal : (Fin.ofNat 0x110000 high).val = high := Nat.mod_eq_of_lt (by omega)
  have hlowVal : (Fin.ofNat 0x110000 low).val = low := Nat.mod_eq_of_lt (by omega)
  have hjoin : join (.ofNat _ low) points = .ofNat _ low :: points :=
    join_of_not_leading (by omega) points
  rw [hjoin, join, hhighVal, hlowVal, if_pos ⟨hhigh, hlow⟩]

theorem readPoints_escapeUnits (c : Char) (hrest : rest ≠ []) :
    readPoints opening (escapeUnits c ++ rest) =
      (readPoints opening rest).map fun read => (.ofChar c :: read.1, read.2) := by
  have hvalid : c.toNat < 0xd800 ∨ 0xdfff < c.toNat ∧ c.toNat < 0x110000 := c.valid
  unfold escapeUnits
  split
  · next hone => exact readPoints_ofChar hone hrest
  · next htwo =>
      have hpoint : ∀ points, join (.ofNat _ (0xd800 + (c.toNat - 0x10000) / 0x400))
          (join (.ofNat _ (0xdc00 + (c.toNat - 0x10000) % 0x400)) points) =
            .ofChar c :: points := by
        intro points
        rw [join_units (by omega) (by omega)]
        refine congrArg (· :: points) (Fin.ext ?_)
        change _ % 0x110000 = c.toNat
        omega
      rw [List.append_assoc, readPoints_unit (by omega) (by simp [escapeUnit]),
        readPoints_unit (by omega) hrest]
      simp only [← hpoint]
      cases readPoints opening rest <;> rfl

theorem readPoints_printChar (charset : Charset) (c : Char) (hrest : rest ≠ []) :
    readPoints opening (printChar charset c ++ rest) =
      (readPoints opening rest).map fun read => (.ofChar c :: read.1, read.2) := by
  rcases printChar_cases charset c with ⟨letter, hletter, -, hprint⟩ | hprint |
    ⟨hquote, hslash, hvisible, hprint⟩
  · rw [hprint]
    exact readPoints_escaped hletter
  · rw [hprint]
    exact readPoints_escapeUnits c hrest
  · rw [hprint]
    exact readPoints_plain hquote hslash hvisible

theorem readPoints_printPoints (charset : Charset) {text : Text} (h : text.Whole) :
    readPoints opening (text.points.flatMap (printPoint charset) ++ '"' :: rest) =
      .ok (text.points, rest) := by
  obtain ⟨cs, rfl⟩ := h.exists_ofChars
  change readPoints opening ((cs.map .ofChar).flatMap (printPoint charset) ++ '"' :: rest) =
    .ok (cs.map .ofChar, rest)
  induction cs with
  | nil => rw [List.map_nil, List.flatMap_nil, List.nil_append, readPoints]
  | cons c cs ih =>
      have hpoint : printPoint charset (.ofChar c) = printChar charset c := by
        rw [printPoint, CodePoint.char?_ofChar]
      rw [List.map_cons, List.flatMap_cons, List.append_assoc, hpoint,
        readPoints_printChar charset c (by simp), ih fun point hpoint => h point (.tail _ hpoint)]
      rfl

theorem printString_append (charset : Charset) (text : Text) :
    printString charset text ++ rest =
      '"' :: (text.points.flatMap (printPoint charset) ++ '"' :: rest) := by
  simp [printString]

end

/-! ## Integers -/

def Stops (rest : List Char) : Prop :=
  ∀ c ∈ rest.head?, c.isDigit = false ∧ c ≠ '.' ∧ c ≠ 'e' ∧ c ≠ 'E'

theorem stops_cons {c : Char} (h : c.isDigit = false ∧ c ≠ '.' ∧ c ≠ 'e' ∧ c ≠ 'E')
    (rest : List Char) : Stops (c :: rest) := by
  rintro _ ⟨⟩
  exact h

theorem ne_of_isDigit {c other : Char} (h : c.isDigit = true) (hother : other.isDigit = false) :
    c ≠ other := by
  rintro rfl
  rw [h] at hother
  cases hother

theorem exists_toDigits {n : Nat} (h : 0 < n) :
    ∃ digit digits, Nat.toDigits 10 n = digit :: digits ∧ digit ≠ '0' := by
  induction n using Nat.strongRecOn with
  | ind n ih =>
      by_cases hlt : n < 10
      · have hdigit : ∀ k : Fin 10, 0 < k.val → Nat.digitChar k.val ≠ '0' := by decide
        exact ⟨_, [], Nat.toDigits_of_lt_base hlt, hdigit ⟨n, hlt⟩ h⟩
      · obtain ⟨digit, digits, hdigits, hzero⟩ := ih (n / 10) (by omega) (by omega)
        refine ⟨digit, digits ++ [Nat.digitChar (n % 10)], ?_, hzero⟩
        rw [Nat.toDigits_of_base_le (by decide) (by omega), hdigits]
        rfl

theorem exists_digit (n : Nat) :
    ∃ digit digits, Nat.toDigits 10 n = digit :: digits ∧ digit.isDigit = true := by
  have hne : Nat.toDigits 10 n ≠ [] := Nat.toDigits_ne_nil
  have hall : ∀ c ∈ Nat.toDigits 10 n, c.isDigit = true :=
    fun _ => Nat.isDigit_of_mem_toDigits (by decide) (by decide)
  obtain ⟨digit, digits, hdigits⟩ := List.exists_cons_of_ne_nil hne
  rw [hdigits] at hall
  exact ⟨digit, digits, hdigits, hall digit List.mem_cons_self⟩

section

variable {rest : List Char} (h : Stops rest)
include h

theorem Stops.takeWhile_eq : rest.takeWhile Char.isDigit = [] := by
  cases rest with
  | nil => rfl
  | cons c rest => rw [List.takeWhile_cons_of_neg (by simp [h c rfl])]

theorem Stops.dropWhile_eq : rest.dropWhile Char.isDigit = rest := by
  cases rest with
  | nil => rfl
  | cons c rest => rw [List.dropWhile_cons_of_neg (by simp [h c rfl])]

theorem Stops.takeFraction?_eq : takeFraction? rest = none := by
  cases rest with
  | nil => rfl
  | cons c rest =>
      unfold takeFraction?
      split
      · next heq =>
          cases heq
          exact absurd rfl (h _ rfl).2.1
      · rfl

theorem Stops.takeExponent?_eq : takeExponent? rest = none := by
  cases rest with
  | nil => rfl
  | cons c rest => exact if_neg (not_or.2 (h c rfl).2.2)

theorem takeWhole?_toDigits (n : Nat) :
    takeWhole? (Nat.toDigits 10 n ++ rest) = some (Nat.toDigits 10 n, rest) := by
  rcases Nat.eq_zero_or_pos n with rfl | hpos
  · rfl
  · obtain ⟨digit, digits, hdigits, hzero⟩ := exists_toDigits hpos
    have hall : ∀ c ∈ digit :: digits, c.isDigit = true := by
      rw [← hdigits]
      exact fun c hc => Nat.isDigit_of_mem_toDigits (by decide) (by decide) hc
    obtain ⟨hdigit, hrest⟩ := List.forall_mem_cons.1 hall
    rw [hdigits, List.cons_append, takeWhole?, if_pos hdigit, List.takeWhile_append_of_pos hrest,
      List.dropWhile_append_of_pos hrest, h.takeWhile_eq, h.dropWhile_eq, List.append_nil]
    exact hzero

theorem readNumber?_printInt (n : Int) :
    readNumber? (printInt n ++ rest) = some (.int n, rest) := by
  have hsign : takeSign (printInt n ++ rest) =
      (decide (n < 0), Nat.toDigits 10 n.natAbs ++ rest) := by
    unfold printInt
    split
    · next hneg => simp [takeSign, hneg]
    · next hpos =>
        obtain ⟨digit, digits, hdigits, hdigit⟩ := exists_digit n.natAbs
        rw [List.nil_append, hdigits, List.cons_append, takeSign, decide_eq_false hpos]
        rintro _ ⟨⟩
        cases hdigit
  unfold readNumber?
  rw [hsign]
  simp only [takeWhole?_toDigits h, Option.map_some, h.takeFraction?_eq, h.takeExponent?_eq,
    Nat.ofDigitChars_ten_toDigits, signed, decide_eq_true_eq]
  split
  · next hneg => rw [Int.ofNat_natAbs_of_nonpos (Int.le_of_lt hneg), Int.neg_neg]
  · next hpos => rw [Int.natAbs_of_nonneg (Int.not_lt.1 hpos)]

end

end Json

end Playthrough
