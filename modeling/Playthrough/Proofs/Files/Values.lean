import Playthrough.Proofs.Files.Tokens
import Playthrough.Proofs.Tables

/-!
# Documents read back

A document without floats is read back from its text.  A value ends where its text ends, since
what follows a value in a text cannot go on with a numeral, and all other values are closed.
-/

namespace Playthrough.Json

open Reader

/-- A document that is no more and no less than its text says: there are no floats in it, no
halves of characters, and no key twice in an object. -/
inductive Plain : Json → Prop
  | null : Plain .null
  | bool (value : Bool) : Plain (.bool value)
  | int (n : Int) : Plain (.int n)
  | string {text : Text} (whole : text.Whole) : Plain (.string text)
  | array {elements : List Json} (plain : ∀ element ∈ elements, Plain element) :
      Plain (.array elements)
  | object {members : List (Text × Json)} (distinct : (members.map Prod.fst).Nodup)
      (whole : ∀ member ∈ members, member.1.Whole)
      (plain : ∀ member ∈ members, Plain member.2) : Plain (.object members)

variable {charset : Charset}

/-! ## How a text begins -/

def Begins (c : Char) : Prop := isBlank c = false ∧ c ≠ ']' ∧ c ≠ '\uFEFF'

instance (c : Char) : Decidable (Begins c) := inferInstanceAs (Decidable (_ ∧ _))

theorem begins_of_isDigit {c : Char} (h : c.isDigit = true) : Begins c := by
  refine ⟨?_, ne_of_isDigit h rfl, ne_of_isDigit h rfl⟩
  simp only [isBlank, Bool.or_eq_false_iff, beq_eq_false_iff_ne]
  exact ⟨⟨⟨ne_of_isDigit h rfl, ne_of_isDigit h rfl⟩, ne_of_isDigit h rfl⟩, ne_of_isDigit h rfl⟩

theorem skipBlanks_cons {c : Char} (h : Begins c) (cs : List Char) :
    skipBlanks (c :: cs) = c :: cs :=
  List.dropWhile_cons_of_neg (by simp [h.1])

theorem exists_printInt (n : Int) :
    ∃ c cs, printInt n = c :: cs ∧ (c = '-' ∨ c.isDigit = true) := by
  obtain ⟨digit, digits, hdigits, hdigit⟩ := exists_digit n.natAbs
  unfold printInt
  rw [hdigits]
  split
  · exact ⟨_, _, rfl, .inl rfl⟩
  · exact ⟨_, _, rfl, .inr hdigit⟩

theorem Plain.exists_print {json : Json} (h : json.Plain) (charset : Charset) :
    ∃ c cs, print charset json = c :: cs ∧ Begins c := by
  cases h with
  | null => exact ⟨'n', _, by rw [print], by decide⟩
  | bool value =>
      cases value
      · exact ⟨'f', _, by rw [print], by decide⟩
      · exact ⟨'t', _, by rw [print], by decide⟩
  | int n =>
      obtain ⟨c, cs, hprint, rfl | hdigit⟩ := exists_printInt n
      · exact ⟨'-', cs, by rw [print, hprint], by decide⟩
      · exact ⟨c, cs, by rw [print, hprint], begins_of_isDigit hdigit⟩
  | string whole => exact ⟨'"', _, by rw [print]; rfl, by decide⟩
  | @array elements plain =>
      cases elements
      · exact ⟨'[', _, by rw [print], by decide⟩
      · exact ⟨'[', _, by rw [print]; rfl, by decide⟩
  | @object members distinct whole plain =>
      rcases members with _ | ⟨⟨key, value⟩, members⟩
      · exact ⟨'\x7b', _, by rw [print], by decide⟩
      · exact ⟨'\x7b', _, by rw [print]; rfl, by decide⟩

theorem Plain.skipBlanks_print {json : Json} (h : json.Plain) (rest : List Char) :
    skipBlanks (' ' :: (print charset json ++ rest)) = print charset json ++ rest := by
  obtain ⟨c, cs, hprint, hbegins⟩ := h.exists_print charset
  rw [hprint]
  exact skipBlanks_cons hbegins (cs ++ rest)

/-! ## Closed values -/

section

variable {fuel : Nat} {rest : List Char}

theorem readValue_null : readValue (fuel + 1) (print charset .null ++ rest) = .ok (.null, rest) := by
  rw [print]
  rfl

theorem readValue_bool (value : Bool) :
    readValue (fuel + 1) (print charset (.bool value) ++ rest) = .ok (.bool value, rest) := by
  cases value <;> rw [print] <;> rfl

theorem readValue_string {text : Text} (h : text.Whole) :
    readValue (fuel + 1) (printString charset text ++ rest) = .ok (.string text, rest) := by
  rw [printString_append, readValue, readString, readPoints_printPoints charset h]
  rfl

theorem readWord?_printInt (n : Int) : readWord? (printInt n ++ rest) = none := by
  obtain ⟨digit, digits, hdigits, hdigit⟩ := exists_digit n.natAbs
  have hne : ∀ c : Char, c.isDigit = false → c ≠ digit :=
    fun c hc => (ne_of_isDigit hdigit hc).symm
  have hnone : ∀ entry ∈ words, ¬ entry.1.isPrefixOf (printInt n ++ rest) = true := by
    unfold printInt
    rw [hdigits]
    split
    · simp [words, hne 'I' rfl]
    · simp [words, hne 'n' rfl, hne 't' rfl, hne 'f' rfl, hne 'N' rfl, hne 'I' rfl, hne '-' rfl]
  rw [readWord?, List.find?_eq_none.2 hnone, Option.map_none]

theorem readValue_int (n : Int) (h : Stops rest) :
    readValue (fuel + 1) (printInt n ++ rest) = .ok (.int n, rest) := by
  have hread : (readWord? (printInt n ++ rest)).or (readNumber? (printInt n ++ rest)) =
      some (.int n, rest) := by
    rw [readWord?_printInt, readNumber?_printInt h, Option.none_or]
  obtain ⟨c, cs, hprint, hc⟩ := exists_printInt n
  have hne : ∀ other : Char, other ≠ '-' → other.isDigit = false → c ≠ other := by
    intro other hsign hother
    rcases hc with rfl | hdigit
    · exact hsign.symm
    · exact ne_of_isDigit hdigit hother
  rw [hprint, List.cons_append] at hread ⊢
  rw [readValue, hread]
  · exact fun _ heq => hne '"' (by decide) rfl (List.cons.inj heq).1
  · exact fun _ heq => hne '[' (by decide) rfl (List.cons.inj heq).1
  · exact fun _ heq => hne '\x7b' (by decide) rfl (List.cons.inj heq).1

/-! ## Open values -/

theorem readValue_array {first : Json} (h : first.Plain) :
    readValue (fuel + 1) ('[' :: (print charset first ++ rest)) =
      (readElements (readValue fuel) (fuel + 1) (print charset first ++ rest)).map fun read =>
        (.array read.1, read.2) := by
  obtain ⟨c, cs, hprint, hbegins⟩ := h.exists_print charset
  rw [hprint, List.cons_append, readValue, skipBlanks_cons hbegins]
  split
  · next heq =>
      cases heq
      exact absurd rfl hbegins.2.1
  · rfl

theorem readValue_object (cs : List Char) :
    readValue (fuel + 1) ('\x7b' :: '"' :: cs) =
      (readMembers (readValue fuel) (fuel + 1) ('"' :: cs)).map fun read =>
        (ofMembers read.1, read.2) := by
  rw [readValue, skipBlanks_cons (by decide)]
  rfl

/-- Reading returns a value from its text, whatever follows that cannot go on with a numeral. -/
def Returns (charset : Charset) (value : List Char → Except Failure (Json × List Char))
    (json : Json) : Prop :=
  ∀ rest, Stops rest → value (print charset json ++ rest) = .ok (json, rest)

variable {value : List Char → Except Failure (Json × List Char)}

/-! ### Elements -/

theorem printElements_nil : printElements charset [] ++ rest = ']' :: rest := by
  simp [printElements]

theorem printElements_cons (element : Json) (elements : List Json) :
    printElements charset (element :: elements) ++ rest =
      ',' :: ' ' :: (print charset element ++ (printElements charset elements ++ rest)) := by
  simp [printElements]

theorem readElements_last {cs : List Char} {json : Json} (h : value cs = .ok (json, ']' :: rest)) :
    readElements value (fuel + 1) cs = .ok ([json], rest) := by
  rw [readElements, h]
  rfl

theorem readElements_comma {cs more : List Char} {json : Json}
    (h : value cs = .ok (json, ',' :: more)) :
    readElements value (fuel + 1) cs =
      (readElements value fuel (skipBlanks more)).map fun read => (json :: read.1, read.2) := by
  rw [readElements, h]
  rfl

theorem readElements_print {first : Json} {elements : List Json}
    (hplain : ∀ element ∈ elements, element.Plain)
    (hreturns : ∀ element ∈ first :: elements, Returns charset value element)
    (hfuel : elements.length ≤ fuel) :
    readElements value (fuel + 1)
        (print charset first ++ (printElements charset elements ++ rest)) =
      .ok (first :: elements, rest) := by
  induction elements generalizing first fuel with
  | nil =>
      rw [printElements_nil]
      exact readElements_last (hreturns first List.mem_cons_self _ (stops_cons (by decide) rest))
  | cons second elements ih =>
      obtain ⟨fuel, rfl⟩ := Nat.exists_eq_add_of_le' (Nat.le_trans (Nat.succ_pos _) hfuel)
      obtain ⟨hsecond, hplain⟩ := List.forall_mem_cons.1 hplain
      obtain ⟨hfirst, hreturns⟩ := List.forall_mem_cons.1 hreturns
      rw [printElements_cons, readElements_comma (hfirst _ (stops_cons (by decide) _)),
        hsecond.skipBlanks_print, ih hplain hreturns (Nat.le_of_succ_le_succ hfuel)]
      rfl

/-! ### Members -/

def memberText (charset : Charset) (member : Text × Json) (rest : List Char) : List Char :=
  printString charset member.1 ++ ':' :: ' ' :: (print charset member.2 ++ rest)

theorem printMembers_nil : printMembers charset [] ++ rest = '\x7d' :: rest := by
  simp [printMembers]

theorem printMembers_cons (member : Text × Json) (members : List (Text × Json)) :
    printMembers charset (member :: members) ++ rest =
      ',' :: ' ' :: memberText charset member (printMembers charset members ++ rest) := by
  simp [printMembers, memberText]

theorem skipBlanks_memberText (member : Text × Json) :
    skipBlanks (' ' :: memberText charset member rest) = memberText charset member rest := rfl

theorem readMember_memberText {member : Text × Json} (hwhole : member.1.Whole)
    (hplain : member.2.Plain) (hreturns : Returns charset value member.2) (hrest : Stops rest) :
    readMember value (memberText charset member rest) = .ok (member, rest) := by
  unfold memberText
  rw [printString_append, readMember, readPoints_printPoints charset hwhole]
  change (value (skipBlanks (' ' :: (print charset member.2 ++ rest)))).map _ = _
  rw [hplain.skipBlanks_print, hreturns rest hrest]
  rfl

theorem readMembers_last {cs : List Char} {member : Text × Json}
    (h : readMember value cs = .ok (member, '\x7d' :: rest)) :
    readMembers value (fuel + 1) cs = .ok ([member], rest) := by
  rw [readMembers, h]
  rfl

theorem readMembers_comma {cs more : List Char} {member : Text × Json}
    (h : readMember value cs = .ok (member, ',' :: more)) :
    readMembers value (fuel + 1) cs =
      (readMembers value fuel (skipBlanks more)).map fun read => (member :: read.1, read.2) := by
  rw [readMembers, h]
  rfl

theorem readMembers_print {first : Text × Json} {members : List (Text × Json)}
    (hwhole : ∀ member ∈ first :: members, member.1.Whole)
    (hplain : ∀ member ∈ first :: members, member.2.Plain)
    (hreturns : ∀ member ∈ first :: members, Returns charset value member.2)
    (hfuel : members.length ≤ fuel) :
    readMembers value (fuel + 1)
        (memberText charset first (printMembers charset members ++ rest)) =
      .ok (first :: members, rest) := by
  induction members generalizing first fuel with
  | nil =>
      have hread : readMember value (memberText charset first ('\x7d' :: rest)) = _ :=
        readMember_memberText (hwhole first List.mem_cons_self) (hplain first List.mem_cons_self)
          (hreturns first List.mem_cons_self) (stops_cons (by decide) rest)
      rw [printMembers_nil]
      exact readMembers_last hread
  | cons second members ih =>
      obtain ⟨fuel, rfl⟩ := Nat.exists_eq_add_of_le' (Nat.le_trans (Nat.succ_pos _) hfuel)
      obtain ⟨hfirstWhole, hwhole⟩ := List.forall_mem_cons.1 hwhole
      obtain ⟨hfirstPlain, hplain⟩ := List.forall_mem_cons.1 hplain
      obtain ⟨hfirst, hreturns⟩ := List.forall_mem_cons.1 hreturns
      rw [printMembers_cons, readMembers_comma
          (readMember_memberText hfirstWhole hfirstPlain hfirst (stops_cons (by decide) _)),
        skipBlanks_memberText, ih hwhole hplain hreturns (Nat.le_of_succ_le_succ hfuel)]
      rfl

end

/-! ## All values -/

theorem length_lt_printElements (charset : Charset) (elements : List Json) :
    elements.length < (printElements charset elements).length ∧
      ∀ element ∈ elements,
        (print charset element).length < (printElements charset elements).length := by
  induction elements with
  | nil => simp [printElements]
  | cons first elements ih =>
      have hlength : (printElements charset (first :: elements)).length =
          (print charset first).length + (printElements charset elements).length + 2 := by
        simp [printElements]
      rw [hlength, List.length_cons, List.forall_mem_cons]
      refine ⟨by omega, by omega, fun element helement => ?_⟩
      have hless := ih.2 element helement
      omega

theorem length_lt_printMembers (charset : Charset) (members : List (Text × Json)) :
    members.length < (printMembers charset members).length ∧
      ∀ member ∈ members,
        (print charset member.2).length < (printMembers charset members).length := by
  induction members with
  | nil => simp [printMembers]
  | cons first members ih =>
      have hlength : (printMembers charset (first :: members)).length =
          (printString charset first.1).length + (print charset first.2).length +
            (printMembers charset members).length + 4 := by
        simp [printMembers]
        omega
      rw [hlength, List.length_cons, List.forall_mem_cons]
      refine ⟨by omega, by omega, fun member hmember => ?_⟩
      have hless := ih.2 member hmember
      omega

theorem print_array (first : Json) (elements : List Json) (rest : List Char) :
    print charset (.array (first :: elements)) ++ rest =
      '[' :: (print charset first ++ (printElements charset elements ++ rest)) := by
  simp [print]

theorem print_object (first : Text × Json) (members : List (Text × Json)) (rest : List Char) :
    print charset (.object (first :: members)) ++ rest =
      '\x7b' :: memberText charset first (printMembers charset members ++ rest) := by
  simp [print, memberText]

theorem fuel_array {first : Json} {elements : List Json} {fuel : Nat}
    (h : (print charset (.array (first :: elements))).length ≤ fuel + 1) :
    elements.length ≤ fuel ∧
      ∀ element ∈ first :: elements, (print charset element).length ≤ fuel := by
  obtain ⟨hlength, hbelow⟩ := length_lt_printElements charset elements
  have htotal : (print charset (.array (first :: elements))).length =
      (print charset first).length + (printElements charset elements).length + 1 := by
    simp [print]
  rw [List.forall_mem_cons]
  refine ⟨by omega, by omega, fun element helement => ?_⟩
  have hless := hbelow element helement
  omega

theorem fuel_object {first : Text × Json} {members : List (Text × Json)} {fuel : Nat}
    (h : (print charset (.object (first :: members))).length ≤ fuel + 1) :
    members.length ≤ fuel ∧
      ∀ member ∈ first :: members, (print charset member.2).length ≤ fuel := by
  obtain ⟨hlength, hbelow⟩ := length_lt_printMembers charset members
  have htotal : (print charset (.object (first :: members))).length =
      (printString charset first.1).length + (print charset first.2).length +
        (printMembers charset members).length + 3 := by
    simp [print]
    omega
  rw [List.forall_mem_cons]
  refine ⟨by omega, by omega, fun member hmember => ?_⟩
  have hless := hbelow member hmember
  omega

theorem ofMembers_eq {members : List (Text × Json)} (h : (members.map Prod.fst).Nodup) :
    ofMembers members = .object members := by
  have hentries : members.foldl (fun entries member => Keyed.assign member.1 member.2 entries)
      (∅ : Keyed Json).entries = (Keyed.ofList members).entries :=
    List.foldl_hom Keyed.entries fun _ _ => rfl
  exact congrArg Json.object (hentries.trans (Keyed.entries_ofList h))

theorem Plain.exists_fuel {json : Json} (h : json.Plain) {fuel : Nat}
    (hfuel : (print charset json).length ≤ fuel) : ∃ less, fuel = less + 1 := by
  obtain ⟨c, cs, hprint, -⟩ := h.exists_print charset
  rw [hprint, List.length_cons] at hfuel
  exact ⟨fuel - 1, by omega⟩

/-- With enough fuel a plain value is returned. -/
theorem Plain.returns {json : Json} (h : json.Plain) {fuel : Nat}
    (hfuel : (print charset json).length ≤ fuel) : Returns charset (readValue fuel) json := by
  induction h generalizing fuel with
  | null =>
      obtain ⟨fuel, rfl⟩ := Plain.null.exists_fuel hfuel
      exact fun rest _ => readValue_null
  | bool value =>
      obtain ⟨fuel, rfl⟩ := (Plain.bool value).exists_fuel hfuel
      exact fun rest _ => readValue_bool value
  | int n =>
      obtain ⟨fuel, rfl⟩ := (Plain.int n).exists_fuel hfuel
      intro rest hrest
      rw [print]
      exact readValue_int n hrest
  | string whole =>
      obtain ⟨fuel, rfl⟩ := (Plain.string whole).exists_fuel hfuel
      intro rest hrest
      rw [print]
      exact readValue_string whole
  | @array elements plain ih =>
      obtain ⟨fuel, rfl⟩ := (Plain.array plain).exists_fuel hfuel
      intro rest hrest
      cases elements with
      | nil =>
          rw [print]
          rfl
      | cons first elements =>
          obtain ⟨hcount, hfuels⟩ := fuel_array hfuel
          have hreturns : ∀ element ∈ first :: elements,
              Returns charset (readValue fuel) element :=
            fun element helement => ih element helement (hfuels element helement)
          rw [print_array, readValue_array (plain first List.mem_cons_self),
            readElements_print (fun element helement => plain element (.tail _ helement)) hreturns
              hcount]
          rfl
  | @object members distinct whole plain ih =>
      obtain ⟨fuel, rfl⟩ := (Plain.object distinct whole plain).exists_fuel hfuel
      intro rest hrest
      cases members with
      | nil =>
          rw [print]
          rfl
      | cons first members =>
          obtain ⟨hcount, hfuels⟩ := fuel_object hfuel
          have hreturns : ∀ member ∈ first :: members,
              Returns charset (readValue fuel) member.2 :=
            fun member hmember => ih member hmember (hfuels member hmember)
          have hread : readMembers (readValue fuel) (fuel + 1)
              (memberText charset first (printMembers charset members ++ rest)) =
              .ok (first :: members, rest) := readMembers_print whole plain hreturns hcount
          rw [print_object, ← ofMembers_eq distinct]
          exact (readValue_object _).trans (congrArg _ hread)

/-! ## Texts -/

/-- A plain document is read from its text. -/
theorem Plain.read_print {json : Json} (h : json.Plain) (charset : Charset) :
    read (print charset json) = .ok json := by
  obtain ⟨c, cs, hprint, hbegins⟩ := h.exists_print charset
  have hfuel : (print charset json).length ≤ (print charset json).length + 1 := Nat.le_succ _
  have hvalue := h.returns hfuel [] (fun _ hnone => nomatch hnone)
  rw [List.append_nil] at hvalue
  have htext : readText (print charset json) = .ok json := by
    have hstart : ¬ (print charset json).head? = some '\uFEFF' := by
      rw [hprint]
      exact fun heq => hbegins.2.2 (Option.some.inj heq)
    have hblanks : skipBlanks (print charset json) = print charset json := by
      rw [hprint, skipBlanks_cons hbegins]
    rw [readText, if_neg hstart, hblanks, hvalue]
    rfl
  rw [read, htext]
  rfl

end Playthrough.Json
