import Playthrough.Catalog
import Playthrough.Proofs.Endings
import Playthrough.Proofs.Files.Bytes
import Playthrough.Proofs.Files.Values

/-!
# Stories in files

A document is written on one line without control characters, so nothing in its text is taken
for the end of a line.  What is loaded from its file is what is loaded from the document.
-/

namespace Playthrough

namespace Json

/-! ## Visible characters -/

theorem visible_of_all {cs : List Char} (h : (cs.all fun c => decide (Visible c)) = true) :
    ∀ c ∈ cs, Visible c :=
  fun c hc => of_decide_eq_true (List.all_eq_true.1 h c hc)

theorem visible_digits (width n : Nat) : ∀ c ∈ Text.Hex.digits width n, Visible c := by
  induction width generalizing n with
  | zero => exact fun _ hnone => nomatch hnone
  | succ width ih =>
      have hdigit : ∀ k : Fin 16, Visible (Nat.digitChar k.val) := by decide
      rw [Text.Hex.digits, List.forall_mem_append]
      exact ⟨ih _, List.forall_mem_singleton.2 (hdigit ⟨n % 16, Nat.mod_lt _ (by decide)⟩)⟩

theorem visible_escapeUnit (unit : Nat) : ∀ c ∈ escapeUnit unit, Visible c := by
  rw [escapeUnit, List.forall_mem_cons, List.forall_mem_cons]
  exact ⟨by decide, by decide, visible_digits 4 unit⟩

theorem visible_printChar (charset : Charset) (c : Char) :
    ∀ shown ∈ printChar charset c, Visible shown := by
  rcases printChar_cases charset c with ⟨letter, -, hletter, hprint⟩ | hprint |
    ⟨-, -, hvisible, hprint⟩
  · rw [hprint, List.forall_mem_cons, List.forall_mem_singleton]
    exact ⟨by decide, hletter⟩
  · rw [hprint, escapeUnits]
    split
    · exact visible_escapeUnit _
    · exact List.forall_mem_append.2 ⟨visible_escapeUnit _, visible_escapeUnit _⟩
  · rw [hprint, List.forall_mem_singleton]
    exact hvisible

theorem visible_printString (charset : Charset) (text : Text) :
    ∀ c ∈ printString charset text, Visible c := by
  have hpoint : ∀ point, ∀ c ∈ printPoint charset point, Visible c := by
    intro point
    unfold printPoint
    split
    · exact visible_printChar charset _
    · exact visible_escapeUnit _
  rw [printString, List.forall_mem_append, List.forall_mem_cons, List.forall_mem_singleton]
  refine ⟨⟨by decide, fun c hc => ?_⟩, by decide⟩
  obtain ⟨point, -, hc⟩ := List.mem_flatMap.1 hc
  exact hpoint point c hc

theorem visible_printInt (n : Int) : ∀ c ∈ printInt n, Visible c := by
  have hdigit : ∀ c : Char, c.isDigit = true → Visible c := by
    intro c hc
    obtain ⟨hlow, -⟩ := Bool.and_eq_true_iff.1 hc
    have hnat : 48 ≤ c.toNat := UInt32.le_iff_toNat_le.1 (of_decide_eq_true hlow)
    exact Nat.le_trans (by decide) hnat
  rw [printInt, List.forall_mem_append]
  refine ⟨?_, fun c hc => hdigit c (Nat.isDigit_of_mem_toDigits (by decide) (by decide) hc)⟩
  split <;> exact visible_of_all rfl

theorem visible_printElements {charset : Charset} {elements : List Json}
    (h : ∀ element ∈ elements, ∀ c ∈ print charset element, Visible c) :
    ∀ c ∈ printElements charset elements, Visible c := by
  induction elements with
  | nil =>
      rw [printElements]
      exact visible_of_all rfl
  | cons element elements ih =>
      obtain ⟨hfirst, hrest⟩ := List.forall_mem_cons.1 h
      rw [printElements, List.forall_mem_append, List.forall_mem_cons, List.forall_mem_cons]
      exact ⟨⟨by decide, by decide, hfirst⟩, ih hrest⟩

theorem visible_printMembers {charset : Charset} {members : List (Text × Json)}
    (h : ∀ member ∈ members, ∀ c ∈ print charset member.2, Visible c) :
    ∀ c ∈ printMembers charset members, Visible c := by
  induction members with
  | nil =>
      rw [printMembers]
      exact visible_of_all rfl
  | cons member members ih =>
      obtain ⟨hfirst, hrest⟩ := List.forall_mem_cons.1 h
      have hname := visible_printString charset member.1
      simp only [printMembers, List.forall_mem_append, List.forall_mem_cons]
      exact ⟨⟨⟨by decide, by decide, hname⟩, by decide, by decide, hfirst⟩, ih hrest⟩

theorem Plain.visible {json : Json} (h : json.Plain) (charset : Charset) :
    ∀ c ∈ print charset json, Visible c := by
  induction h with
  | null =>
      rw [print]
      exact visible_of_all rfl
  | bool value => cases value <;> rw [print] <;> exact visible_of_all rfl
  | int n =>
      rw [print]
      exact visible_printInt n
  | @string text whole =>
      rw [print]
      exact visible_printString charset text
  | @array elements plain ih =>
      cases elements with
      | nil =>
          rw [print]
          exact visible_of_all rfl
      | cons first elements =>
          obtain ⟨hfirst, hrest⟩ := List.forall_mem_cons.1 ih
          rw [print, List.forall_mem_append, List.forall_mem_cons]
          exact ⟨⟨by decide, hfirst⟩, visible_printElements hrest⟩
  | @object members distinct whole plain ih =>
      cases members with
      | nil =>
          rw [print]
          exact visible_of_all rfl
      | cons first members =>
          obtain ⟨hfirst, hrest⟩ := List.forall_mem_cons.1 ih
          have hname := visible_printString charset first.1
          have hmembers := visible_printMembers hrest
          simp only [print, List.forall_mem_append, List.forall_mem_cons]
          exact ⟨⟨⟨by decide, hname⟩, by decide, by decide, hfirst⟩, hmembers⟩

end Json

/-! ## Line ends -/

theorem Text.unifyLineEnds_eq {cs : List Char} (h : ∀ c ∈ cs, c ≠ '\r') :
    unifyLineEnds cs = cs := by
  induction cs with
  | nil => rfl
  | cons c cs ih =>
      obtain ⟨hc, hcs⟩ := List.forall_mem_cons.1 h
      rw [unifyLineEnds, if_neg hc, ih hcs]
      exact fun _ hreturn _ => hc hreturn

/-! ## Files -/

namespace Story

/-- Loading the file that a document is written to is loading the document. -/
theorem loadFile_print (charset : Json.Charset) (document : Json) (root : Text)
    (h : document.Plain) :
    loadFile (Text.Utf8.encode (Json.print charset document)) root =
      (load document root).mapError .refused := by
  have hlines : ∀ c ∈ Json.print charset document, c ≠ '\r' := by
    rintro c hc rfl
    exact absurd (h.visible charset '\r' hc) (by decide)
  unfold loadFile
  rw [Text.Utf8.decode_encode]
  simp only [Text.unifyLineEnds_eq hlines, h.read_print charset]

/-- Letters beyond ASCII, an escape of each kind, and a character that takes two units. -/
def moonlit : Json := .object [
  ("title", .string "Café \"Lune\" 🌙\t\\\x01"),
  ("editions", .array [.int (-7), .int 100000000000000000000, .bool true, .null, .array []]),
  ("manifest", .object [
    ("locations", .array [.string "Été"]),
    ("start_location", .string "Été")])]

theorem plain_moonlit : moonlit.Plain := by
  have hwhole : ∀ s : String, (s : Text).Whole := fun s => Text.whole_ofChars s.toList
  refine .object (by decide) (by simp [hwhole]) ?_
  simp only [List.forall_mem_cons]
  refine ⟨.string (hwhole _), .array ?_, .object (by decide) (by simp [hwhole]) ?_, by simp⟩
  · simp only [List.forall_mem_cons]
    exact ⟨.int _, .int _, .bool _, .null, .array (by simp), by simp⟩
  · simp only [List.forall_mem_cons]
    exact ⟨.array (by simp [Json.Plain.string, hwhole]), .string (hwhole _), by simp⟩

theorem moonlit_loadFile :
    moonlit.Plain ∧ ∃ story, load moonlit "Begining" = .ok story ∧
      ∀ charset, loadFile (Text.Utf8.encode (Json.print charset moonlit)) "Begining" = .ok story := by
  have hload : load moonlit "Begining" = .ok
      ⟨"Café \"Lune\" 🌙\t\\\x01", ⟨[], ["Été"], [], "Été", ∅, ∅, "start"⟩, []⟩ := by decide +kernel
  refine ⟨plain_moonlit, _, hload, fun charset => ?_⟩
  rw [loadFile_print charset moonlit "Begining" plain_moonlit, hload]
  rfl

end Story

end Playthrough
