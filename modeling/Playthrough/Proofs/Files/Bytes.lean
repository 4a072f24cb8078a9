import Playthrough.Text.Utf8

/-!
# Characters read back from bytes

The bytes of a character carry its number in base 64, most significant digit first.  The ranges
that the reader allows for the second byte leave out nothing that is written.
-/

namespace Playthrough.Text.Utf8

/-! ## Bytes -/

theorem toNat_ofNat {n : Nat} (h : n < 0x100) : (UInt8.ofNat n).toNat = n :=
  UInt8.toNat_ofNat_of_lt' h

theorem toNat_continuation (n : Nat) : (continuation n).toNat = 0x80 + n % 0x40 :=
  toNat_ofNat (by omega)

/-! ## Steps of the reader -/

variable {begun : Begun} {position n : Nat} {byte : UInt8} {rest : List UInt8}

theorem scan_ascii (h : byte.toNat < 0x80) :
    scan none position (byte :: rest) =
      (scan none (position + 1) rest).map (Char.ofNat byte.toNat :: ·) := by
  rw [scan, if_pos h]

theorem scan_begin (h : begin? byte = some begun) (hbyte : 0x80 ≤ byte.toNat) :
    scan none position (byte :: rest) = scan (some begun) (position + 1) rest := by
  rw [scan, if_neg (Nat.not_lt.2 hbyte), h]

theorem scan_continuation {first : UInt8} {taken owed bits low high : Nat}
    (h : low ≤ 0x80 + n % 0x40 ∧ 0x80 + n % 0x40 ≤ high) :
    scan (some ⟨first, taken, owed + 2, bits, low, high⟩) position (continuation n :: rest) =
      scan (some ⟨first, taken + 1, owed + 1, bits * 0x40 + n % 0x40, 0x80, 0xbf⟩)
        (position + 1) rest := by
  rw [scan, toNat_continuation, if_pos h]
  simp [Begun.push, toNat_continuation]

theorem scan_last {first : UInt8} {taken bits low high : Nat}
    (h : low ≤ 0x80 + n % 0x40 ∧ 0x80 + n % 0x40 ≤ high) :
    scan (some ⟨first, taken, 1, bits, low, high⟩) position (continuation n :: rest) =
      (scan none (position + 1) rest).map (Char.ofNat (bits * 0x40 + n % 0x40) :: ·) := by
  rw [scan, toNat_continuation, if_pos h]
  simp [Begun.push, toNat_continuation]

/-! ## First bytes -/

theorem begin?_two (hlow : 2 ≤ n) (hhigh : n < 0x20) :
    begin? (.ofNat (0xc0 + n)) = some ⟨.ofNat (0xc0 + n), 1, 1, n, 0x80, 0xbf⟩ := by
  unfold begin?
  rw [toNat_ofNat (by omega)]
  simp only [if_pos (show 0xc2 ≤ 0xc0 + n ∧ 0xc0 + n ≤ 0xdf by omega), Nat.add_sub_cancel_left]

theorem begin?_three (h : n < 0x10) :
    begin? (.ofNat (0xe0 + n)) = some ⟨.ofNat (0xe0 + n), 1, 2, n,
      if n = 0 then 0xa0 else 0x80, if n = 0xd then 0x9f else 0xbf⟩ := by
  have hzero : 0xe0 + n = 0xe0 ↔ n = 0 := by omega
  have hlast : 0xe0 + n = 0xed ↔ n = 0xd := by omega
  unfold begin?
  rw [toNat_ofNat (by omega)]
  simp only [if_neg (show ¬ (0xc2 ≤ 0xe0 + n ∧ 0xe0 + n ≤ 0xdf) by omega),
    if_pos (show 0xe0 ≤ 0xe0 + n ∧ 0xe0 + n ≤ 0xef by omega), Nat.add_sub_cancel_left, hzero, hlast]

theorem begin?_four (h : n ≤ 4) :
    begin? (.ofNat (0xf0 + n)) = some ⟨.ofNat (0xf0 + n), 1, 3, n,
      if n = 0 then 0x90 else 0x80, if n = 4 then 0x8f else 0xbf⟩ := by
  have hzero : 0xf0 + n = 0xf0 ↔ n = 0 := by omega
  have hlast : 0xf0 + n = 0xf4 ↔ n = 4 := by omega
  unfold begin?
  rw [toNat_ofNat (by omega)]
  simp only [if_neg (show ¬ (0xc2 ≤ 0xf0 + n ∧ 0xf0 + n ≤ 0xdf) by omega),
    if_neg (show ¬ (0xe0 ≤ 0xf0 + n ∧ 0xf0 + n ≤ 0xef) by omega),
    if_pos (show 0xf0 ≤ 0xf0 + n ∧ 0xf0 + n ≤ 0xf4 by omega), Nat.add_sub_cancel_left, hzero, hlast]

/-! ## Characters -/

theorem scan_encodeChar (c : Char) (position : Nat) (rest : List UInt8) :
    scan none position (encodeChar c ++ rest) =
      (scan none (position + (encodeChar c).length) rest).map (c :: ·) := by
  have hvalid : c.toNat < 0xd800 ∨ 0xdfff < c.toNat ∧ c.toNat < 0x110000 := c.valid
  have hchar : Char.ofNat c.toNat = c := Char.ofNat_toNat c
  unfold encodeChar
  generalize c.toNat = n at hvalid hchar
  subst hchar
  by_cases hone : n < 0x80
  · have hbyte : (UInt8.ofNat n).toNat = n := toNat_ofNat (by omega)
    simp only [if_pos hone, List.singleton_append, List.length_singleton]
    rw [scan_ascii (hbyte.symm ▸ hone), hbyte]
  by_cases htwo : n < 0x800
  · simp only [if_neg hone, if_pos htwo, List.cons_append, List.nil_append]
    rw [scan_begin (begin?_two (by omega) (by omega)) (by rw [toNat_ofNat] <;> omega),
      scan_last (by omega), show n / 0x40 * 0x40 + n % 0x40 = n by omega]
    rfl
  by_cases hthree : n < 0x10000
  · simp only [if_neg hone, if_neg htwo, if_pos hthree, List.cons_append, List.nil_append]
    rw [scan_begin (begin?_three (by omega)) (by rw [toNat_ofNat] <;> omega),
      scan_continuation (by split <;> split <;> omega), scan_last (by omega),
      show (n / 0x1000 * 0x40 + n / 0x40 % 0x40) * 0x40 + n % 0x40 = n by omega]
    rfl
  · simp only [if_neg hone, if_neg htwo, if_neg hthree, List.cons_append, List.nil_append]
    rw [scan_begin (begin?_four (by omega)) (by rw [toNat_ofNat] <;> omega),
      scan_continuation (by split <;> split <;> omega), scan_continuation (by omega),
      scan_last (by omega), show ((n / 0x40000 * 0x40 + n / 0x1000 % 0x40) * 0x40 +
        n / 0x40 % 0x40) * 0x40 + n % 0x40 = n by omega]
    rfl

theorem decode_encode (cs : List Char) : decode (encode cs) = .ok cs := by
  have hscan : ∀ position, scan none position (encode cs) = .ok cs := by
    induction cs with
    | nil => exact fun _ => rfl
    | cons c cs ih =>
        intro position
        change scan none position (encodeChar c ++ encode cs) = _
        rw [scan_encodeChar, ih]
        rfl
  exact hscan 0

end Playthrough.Text.Utf8
