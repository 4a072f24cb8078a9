import Playthrough.Proofs.Files.Values
import Playthrough.Proofs.Models

/-!
# Dumps read back

Documents are read leniently: unknown members are dropped, defaults are filled in, numbers and
truth values are taken from texts, repeated elements of a set count once.  The dump of a value
needs none of this.  It is read as the value that was dumped, so reading and dumping once more
changes nothing.

The dump also survives as a text.  The printer and the reader agree on plain documents, and all
that a dump takes from a plain document is plain: its texts, its numbers, and the names of a table.
-/

namespace Playthrough

namespace Text

theorem whole_coe (s : String) : (s : Text).Whole := whole_ofChars s.toList

theorem ofString_injective : Function.Injective ofString := by
  intro first second h
  have hchars : (first : Text).chars? = (second : Text).chars? := congrArg chars? h
  change (ofChars first.toList).chars? = (ofChars second.toList).chars? at hchars
  rw [chars?_ofChars, chars?_ofChars, Option.some.injEq] at hchars
  exact String.toList_inj.1 hchars

end Text

theorem Json.Plain.fields {members : List (Text × Json)} (names : List String)
    (hnames : members.map Prod.fst = names.map Text.ofString) (hdistinct : names.Nodup)
    (hplain : ∀ member ∈ members, member.2.Plain) : (Json.object members).Plain := by
  refine .object ?_ ?_ hplain
  · rw [hnames]
    exact hdistinct.map Text.ofString_injective
  · intro member hmember
    have hname : member.1 ∈ names.map Text.ofString := hnames ▸ List.mem_map_of_mem hmember
    obtain ⟨name, -, hname⟩ := List.mem_map.1 hname
    rw [← hname]
    exact Text.whole_coe name

namespace Checked

variable {α : Type}

theorem all_eq_valid {checks : List (Checked α)} {values : List α} (h : all checks = valid values) :
    checks = values.map valid := by
  induction checks generalizing values with
  | nil =>
      cases h
      rfl
  | cons check checks ih =>
      obtain ⟨pair, hpair, rfl⟩ := map_eq_valid_iff.1 h
      cases check with
      | invalid issues => cases hrest : all checks <;> simp [both, hrest] at hpair
      | valid value =>
          cases hrest : all checks with
          | invalid issues => simp [both, hrest] at hpair
          | valid rest =>
              simp only [both, hrest, valid.injEq] at hpair
              rw [← hpair, List.map_cons, ← ih hrest]

end Checked

namespace Decoder

open Json (Plain)

variable {α : Type} {decode : Decoder α} {encode : α → Json}

theorem exists_of_mem_elements {jsons : List Json} {position : Nat} {value : α}
    (h : .valid value ∈ elements decode position jsons) :
    ∃ json ∈ jsons, decode json = .valid value := by
  induction jsons generalizing position with
  | nil => cases h
  | cons json rest ih =>
      rcases List.mem_cons.1 h with hfirst | hrest
      · exact ⟨json, List.mem_cons_self, Checked.under_eq_valid_iff.1 hfirst.symm⟩
      · obtain ⟨element, helement, hvalue⟩ := ih hrest
        exact ⟨element, List.mem_cons_of_mem json helement, hvalue⟩

def DumpsPlain (decode : Decoder α) (encode : α → Json) : Prop :=
  ∀ json value, json.Plain → decode json = .valid value → (encode value).Plain

theorem string_dumpsPlain : DumpsPlain string .string := by
  intro json text hplain h
  cases json with
  | string value =>
      cases h
      exact hplain
  | _ => cases h

theorem nullable_dumpsPlain : DumpsPlain (nullable string) .optional := by
  intro json text hplain h
  cases text with
  | none => exact .null
  | some text =>
      cases json with
      | string value =>
          cases h
          exact hplain
      | _ => cases h

theorem list_dumpsPlain (h : DumpsPlain decode encode) :
    DumpsPlain (list decode) fun values => .array (values.map encode) := by
  intro json values hplain hvalues
  cases hplain with
  | @array elements plain =>
      have hall := Checked.all_eq_valid hvalues
      refine .array (List.forall_mem_map.2 fun value hvalue => ?_)
      have hmem : Checked.valid value ∈ Decoder.elements decode 0 elements := by
        rw [hall]
        exact List.mem_map_of_mem hvalue
      obtain ⟨element, helement, hdecode⟩ := exists_of_mem_elements hmem
      exact h element value (plain element helement) hdecode
  | _ => cases hvalues

theorem idSet_dumpsPlain : DumpsPlain idSet IdSet.toJson := by
  intro json ids hplain hids
  cases hplain with
  | @array elements plain =>
      obtain ⟨texts, htexts, rfl⟩ := Checked.map_eq_valid_iff.1 hids
      have hall := list_dumpsPlain string_dumpsPlain (.array elements) texts (.array plain) htexts
      cases hall with
      | array hall =>
          refine .array (List.forall_mem_map.2 fun id hid => hall _ (List.mem_map_of_mem ?_))
          exact IdSet.mem_ofList.1 hid
  | _ => cases hids

theorem table_dumpsPlain : DumpsPlain table Keyed.toJson := by
  intro json entries hplain hentries
  cases hplain with
  | @object members distinct whole plain =>
      obtain ⟨pairs, hpairs, rfl⟩ := Checked.map_eq_valid_iff.1 hentries
      have hall := Checked.all_eq_valid hpairs
      have hpair : ∀ pair ∈ (Keyed.ofList pairs).entries,
          pair.1.Whole ∧ (Json.string pair.2).Plain := by
        intro pair hpair
        have hmem : Checked.valid pair ∈ pairs.map Checked.valid :=
          List.mem_map_of_mem (Keyed.mem_of_mem_ofList hpair)
        rw [← hall] at hmem
        obtain ⟨member, hmember, hread⟩ := List.mem_map.1 hmem
        obtain ⟨text, htext, rfl⟩ := Checked.map_eq_valid_iff.1 hread
        exact ⟨whole member hmember, string_dumpsPlain member.2 text (plain member hmember)
          (Checked.under_eq_valid_iff.1 htext)⟩
      refine .object ?_ ?_ ?_
      · simpa [Function.comp_def] using (Keyed.ofList pairs).nodup
      · exact List.forall_mem_map.2 fun pair hmem => (hpair pair hmem).1
      · exact List.forall_mem_map.2 fun pair hmem => (hpair pair hmem).2
  | _ => cases hentries

theorem anyObject_dumpsPlain : DumpsPlain anyObject id := by
  intro json value hplain h
  cases json with
  | object members =>
      cases h
      exact hplain
  | _ => cases h

/-! ## Members -/

theorem plain_coe (s : String) : (Json.string s).Plain := .string (Text.whole_coe s)

theorem plain_empty : (∅ : Keyed Text).toJson.Plain := by
  change (Json.object []).Plain
  exact .object .nil (by simp) (by simp)

theorem record_dumpsPlain {fields : List (Text × Json) → Checked α}
    (h : ∀ members value, (∀ member ∈ members, member.2.Plain) →
      fields members = .valid value → (encode value).Plain) :
    DumpsPlain (record fields) encode := by
  intro json value hplain hvalue
  cases hplain with
  | object distinct whole plain => exact h _ value plain hvalue
  | _ => cases hvalue

variable {name : String} {members : List (Text × Json)} {value : α}

theorem plain_of_lookup {key : Text} {json : Json} (hmembers : ∀ member ∈ members, member.2.Plain)
    (h : members.lookup key = some json) : json.Plain := by
  obtain ⟨before, after, rfl, -⟩ := List.lookup_eq_some_iff.1 h
  exact hmembers (key, json) (by simp)

theorem required_plain (h : DumpsPlain decode encode)
    (hmembers : ∀ member ∈ members, member.2.Plain)
    (hvalue : required decode name members = .valid value) : (encode value).Plain := by
  unfold required at hvalue
  split at hvalue
  · next json hjson =>
      exact h json value (plain_of_lookup hmembers hjson) (Checked.under_eq_valid_iff.1 hvalue)
  · cases hvalue

theorem optional_plain {default : α} (h : DumpsPlain decode encode)
    (hmembers : ∀ member ∈ members, member.2.Plain)
    (hvalue : optional decode default name members = .valid value)
    (hdefault : (encode default).Plain) : (encode value).Plain := by
  unfold optional at hvalue
  split at hvalue
  · next json hjson =>
      exact h json value (plain_of_lookup hmembers hjson) (Checked.under_eq_valid_iff.1 hvalue)
  · cases hvalue
    exact hdefault

-- A list dumps through a function of two steps, which unification cannot guess from a dump.
theorem required_list_plain {values : List α} (h : DumpsPlain decode encode)
    (hmembers : ∀ member ∈ members, member.2.Plain)
    (hvalues : required (list decode) name members = .valid values) :
    (Json.array (values.map encode)).Plain :=
  (required_plain (list_dumpsPlain h) hmembers hvalues :)

theorem optional_list_plain {values : List α} (h : DumpsPlain decode encode)
    (hmembers : ∀ member ∈ members, member.2.Plain)
    (hvalues : optional (list decode) [] name members = .valid values) :
    (Json.array (values.map encode)).Plain :=
  (optional_plain (list_dumpsPlain h) hmembers hvalues (.array (List.forall_mem_nil _)) :)

end Decoder

/-! ## Models -/

open Decoder Checked

theorem Config.dumpsPlain : DumpsPlain ofJson toJson := by
  refine record_dumpsPlain fun members config hmembers h => ?_
  simp only [seq_eq_valid_iff, map_eq, map_eq_valid_iff] at h
  obtain ⟨_, root, ⟨_, highlight, ⟨_, color, ⟨flag, hflag, rfl⟩, hcolor, rfl⟩, hhighlight, rfl⟩,
    hroot, rfl⟩ := h
  refine .fields ["include_non_progressing_rules", "default_color", "highlight_color",
    "root_rule_id"] rfl (by decide) ?_
  simp only [List.forall_mem_cons]
  exact ⟨.bool flag, optional_plain string_dumpsPlain hmembers hcolor (plain_coe _),
    optional_plain string_dumpsPlain hmembers hhighlight (plain_coe _),
    optional_plain string_dumpsPlain hmembers hroot (plain_coe _), by simp⟩

theorem Edge.dumpsPlain : DumpsPlain ofJson toJson := by
  refine record_dumpsPlain fun members edge hmembers h => ?_
  simp only [seq_eq_valid_iff, map_eq, map_eq_valid_iff] at h
  obtain ⟨_, color, ⟨_, target, ⟨source, hsource, rfl⟩, htarget, rfl⟩, hcolor, rfl⟩ := h
  refine .fields ["source", "target", "color"] rfl (by decide) ?_
  simp only [List.forall_mem_cons]
  exact ⟨required_plain string_dumpsPlain hmembers hsource,
    required_plain string_dumpsPlain hmembers htarget,
    optional_plain string_dumpsPlain hmembers hcolor (plain_coe _), by simp⟩

namespace Graph

theorem node_dumpsPlain : DumpsPlain nodeOfJson nodeToJson := by
  refine record_dumpsPlain fun members node hmembers h => ?_
  have hid : (Json.string node).Plain := required_plain string_dumpsPlain hmembers h
  exact .fields ["rule_id"] rfl (by decide) (List.forall_mem_singleton.2 hid)

theorem path_dumpsPlain : DumpsPlain (list Edge.ofJson) pathToJson :=
  list_dumpsPlain Edge.dumpsPlain

theorem dumpsPlain : DumpsPlain ofJson toJson := by
  refine record_dumpsPlain fun members graph hmembers h => ?_
  simp only [seq_eq_valid_iff, map_eq, map_eq_valid_iff] at h
  obtain ⟨_, count, ⟨_, path, ⟨_, paths, ⟨_, edges, ⟨nodes, hnodes, rfl⟩, hedges, rfl⟩, hpaths,
    rfl⟩, hpath, rfl⟩, hcount, rfl⟩ := h
  refine .fields ["nodes", "edges", "completed_paths", "example_path", "states_visited"] rfl
    (by decide) ?_
  simp only [List.forall_mem_cons]
  exact ⟨required_list_plain node_dumpsPlain hmembers hnodes,
    required_list_plain Edge.dumpsPlain hmembers hedges,
    optional_list_plain path_dumpsPlain hmembers hpaths,
    optional_list_plain Edge.dumpsPlain hmembers hpath, .int count, by simp⟩

end Graph

theorem Condition.dumpsPlain : DumpsPlain ofJson toJson := by
  refine record_dumpsPlain fun members condition hmembers h => ?_
  simp only [seq_eq_valid_iff, map_eq, map_eq_valid_iff] at h
  obtain ⟨_, target, ⟨_, subject, ⟨kind, hkind, rfl⟩, hsubject, rfl⟩, htarget, rfl⟩ := h
  refine .fields ["kind", "subject", "target"] rfl (by decide) ?_
  simp only [List.forall_mem_cons]
  exact ⟨plain_coe kind.name, required_plain string_dumpsPlain hmembers hsubject,
    optional_plain nullable_dumpsPlain hmembers htarget .null, by simp⟩

theorem Effect.dumpsPlain : DumpsPlain ofJson toJson := by
  refine record_dumpsPlain fun members effect hmembers h => ?_
  simp only [seq_eq_valid_iff, map_eq, map_eq_valid_iff] at h
  obtain ⟨_, target, ⟨_, subject, ⟨kind, hkind, rfl⟩, hsubject, rfl⟩, htarget, rfl⟩ := h
  refine .fields ["kind", "subject", "target"] rfl (by decide) ?_
  simp only [List.forall_mem_cons]
  exact ⟨plain_coe kind.name, required_plain string_dumpsPlain hmembers hsubject,
    optional_plain nullable_dumpsPlain hmembers htarget .null, by simp⟩

namespace Rule

theorem trigger_dumpsPlain : DumpsPlain triggerOfJson triggerToJson := by
  refine record_dumpsPlain fun members entity hmembers h => ?_
  have hentity : (Json.string entity).Plain := required_plain string_dumpsPlain hmembers h
  exact .fields ["entity"] rfl (by decide) (List.forall_mem_singleton.2 hentity)

theorem dumpsPlain : DumpsPlain ofJson toJson := by
  refine record_dumpsPlain fun members rule hmembers h => ?_
  simp only [seq_eq_valid_iff, map_eq, map_eq_valid_iff] at h
  obtain ⟨_, priority, ⟨_, effects, ⟨_, conditions, ⟨_, trigger, ⟨summary, hsummary, rfl⟩,
    htrigger, rfl⟩, hconditions, rfl⟩, heffects, rfl⟩, hpriority, rfl⟩ := h
  refine .fields ["summary", "trigger", "preconditions", "effects", "priority"] rfl
    (by decide) ?_
  simp only [List.forall_mem_cons]
  exact ⟨required_plain string_dumpsPlain hmembers hsummary,
    required_plain trigger_dumpsPlain hmembers htrigger,
    optional_list_plain Condition.dumpsPlain hmembers hconditions,
    optional_list_plain Effect.dumpsPlain hmembers heffects,
    .int priority, by simp⟩

end Rule

theorem Manifest.dumpsPlain : DumpsPlain ofJson toJson := by
  refine record_dumpsPlain fun members manifest hmembers h => ?_
  simp only [seq_eq_valid_iff, map_eq, map_eq_valid_iff] at h
  obtain ⟨_, scene, ⟨_, characterPlaces, ⟨_, itemPlaces, ⟨_, location, ⟨_, characters,
    ⟨_, locations, ⟨items, hitems, rfl⟩, hlocations, rfl⟩, hcharacters, rfl⟩, hlocation, rfl⟩,
    hitemPlaces, rfl⟩, hcharacterPlaces, rfl⟩, hscene, rfl⟩ := h
  refine .fields ["items", "locations", "characters", "start_location", "item_placement",
    "character_placement", "start_scene"] rfl (by decide) ?_
  simp only [List.forall_mem_cons]
  exact ⟨optional_list_plain string_dumpsPlain hmembers hitems,
    required_list_plain string_dumpsPlain hmembers hlocations,
    optional_list_plain string_dumpsPlain hmembers hcharacters,
    required_plain string_dumpsPlain hmembers hlocation,
    optional_plain table_dumpsPlain hmembers hitemPlaces plain_empty,
    optional_plain table_dumpsPlain hmembers hcharacterPlaces plain_empty,
    optional_plain string_dumpsPlain hmembers hscene (plain_coe _), by simp⟩

theorem Story.dumpsPlain : DumpsPlain ofJson toJson := by
  refine record_dumpsPlain fun members story hmembers h => ?_
  simp only [seq_eq_valid_iff, map_eq, map_eq_valid_iff] at h
  obtain ⟨_, rules, ⟨_, manifest, ⟨title, htitle, rfl⟩, hmanifest, rfl⟩, hrules, rfl⟩ := h
  refine .fields ["title", "manifest", "rules"] rfl (by decide) ?_
  simp only [List.forall_mem_cons]
  exact ⟨optional_plain string_dumpsPlain hmembers htitle (plain_coe _),
    required_plain Manifest.dumpsPlain hmembers hmanifest,
    optional_list_plain Rule.dumpsPlain hmembers hrules, by simp⟩

theorem World.dumpsPlain : DumpsPlain ofJson toJson := by
  refine record_dumpsPlain fun members world hmembers h => ?_
  simp only [seq_eq_valid_iff, map_eq, map_eq_valid_iff] at h
  obtain ⟨_, ending, ⟨_, scene, ⟨_, discovered, ⟨_, characters, ⟨_, items, ⟨location, hlocation,
    rfl⟩, hitems, rfl⟩, hcharacters, rfl⟩, hdiscovered, rfl⟩, hscene, rfl⟩, hending, rfl⟩ := h
  refine .fields ["location", "item_locations", "character_locations", "discovered_locations",
    "scene", "ending"] rfl (by decide) ?_
  simp only [List.forall_mem_cons]
  exact ⟨required_plain string_dumpsPlain hmembers hlocation,
    optional_plain table_dumpsPlain hmembers hitems plain_empty,
    optional_plain table_dumpsPlain hmembers hcharacters plain_empty,
    optional_plain idSet_dumpsPlain hmembers hdiscovered (.array (List.forall_mem_nil _)),
    optional_plain string_dumpsPlain hmembers hscene (plain_coe _),
    optional_plain nullable_dumpsPlain hmembers hending .null, by simp⟩

theorem BuildRequest.dumpsPlain : DumpsPlain ofJson toJson := by
  refine record_dumpsPlain fun members request hmembers h => ?_
  simp only [seq_eq_valid_iff, map_eq, map_eq_valid_iff] at h
  obtain ⟨_, flag, ⟨story, hstory, rfl⟩, hflag, rfl⟩ := h
  refine .fields ["story", "include_non_progressing_rules"] rfl (by decide) ?_
  simp only [List.forall_mem_cons]
  refine ⟨required_plain anyObject_dumpsPlain hmembers hstory, ?_, by simp⟩
  cases flag with
  | none => exact .null
  | some flag => exact .bool flag

namespace Model

theorem dumpsPlain (model : Model) : DumpsPlain model.ofJson model.toJson := by
  cases model with
  | config => exact Config.dumpsPlain
  | node => exact Graph.node_dumpsPlain
  | edge => exact Edge.dumpsPlain
  | graph => exact Graph.dumpsPlain
  | trigger => exact Rule.trigger_dumpsPlain
  | condition => exact Condition.dumpsPlain
  | effect => exact Effect.dumpsPlain
  | rule => exact Rule.dumpsPlain
  | manifest => exact Manifest.dumpsPlain
  | story => exact Story.dumpsPlain
  | world => exact World.dumpsPlain
  | buildRequest => exact BuildRequest.dumpsPlain

end Model

end Playthrough
