import Mathlib.Data.List.Perm.Basic
import MetadataFilter.Input.Document
import MetadataFilter.Proofs.SortedMap
import MetadataFilter.Proofs.Yaml.Parts

/-!
# JSON of the same shape

A YAML value that becomes JSON keeps its shape (`Yaml.SameShape`): nulls stand for nulls only, and
numbers for numbers with the same value. Keys are known by their texts. A tag on a key is not
looked at, so two keys of one mapping can have the same text; then the later entry counts and the
earlier one is gone (`Yaml.toJson_merges_tagged_keys`). Nothing else is ever lost.

`Yaml.toJson_keeps_shape` puts this beside what the conversion fails for.
-/

namespace MetadataFilter.Yaml

open scoped Power

/-- The value that a mapping has under a text: that of the last entry with the text as its key. -/
def Under (entries : List (Yaml × Yaml)) (text : String) (value : Yaml) : Prop :=
  ∃ before key after, entries = before ++ (key, value) :: after ∧ key.keyText? = some text ∧
    ∀ later ∈ after, later.1.keyText? ≠ some text

/-- The JSON value has the shape of the YAML value. -/
inductive SameShape : Yaml → Json → Prop
  | null : SameShape .null .null
  | bool (b : Bool) : SameShape (.bool b) (.bool b)
  | integer (n : Int) (inRange : -2 ^ (63 : Nat) ≤ n ∧ n < 2 ^ (64 : Nat)) :
      SameShape (.number (.integer n inRange)) (.number (.integer n inRange))
  | float (x : Binary64) (finite : x.isFinite = true) :
      SameShape (.number (.float x)) (.number (.float x finite))
  | string (s : String) : SameShape (.string s) (.string s)
  | sequence {items : List Yaml} {values : List Json} (length : items.length = values.length)
      (each : ∀ (i : Nat) (item : Yaml) (value : Json), items[i]? = some item →
        values[i]? = some value → SameShape item value) :
      SameShape (.sequence items) (.array values)
  | mapping {entries : List (Yaml × Yaml)} {members : List (String × Json)}
      (sorted : SortedKeys members)
      (named : ∀ entry ∈ entries, ∃ text, entry.1.keyText? = some text)
      (keys : ∀ text, text ∈ members.map Prod.fst ↔
        ∃ entry ∈ entries, entry.1.keyText? = some text)
      (values : ∀ (text : String) (value : Yaml) (json : Json), Under entries text value →
        (text, json) ∈ members → SameShape value json) :
      SameShape (.mapping entries) (.object members)

/-! ## Sequences and mappings -/

theorem sameShape_sequence {items : List Yaml} {values : List Json}
    (each : List.Forall₂ SameShape items values) : SameShape (.sequence items) (.array values) := by
  refine .sequence each.length_eq fun i item value here there => ?_
  obtain ⟨inItems, rfl⟩ := List.getElem?_eq_some_iff.1 here
  obtain ⟨inValues, rfl⟩ := List.getElem?_eq_some_iff.1 there
  exact each.get inItems inValues

/-- The member of an entry: its key is the text of the key, and its value has the same shape. -/
def MemberOf (entry : Yaml × Yaml) (member : String × Json) : Prop :=
  entry.1.keyText? = some member.1 ∧ SameShape entry.2 member.2

section Mapping

variable {entries : List (Yaml × Yaml)} {members : List (String × Json)}

theorem exists_keyText_of_memberOf (each : List.Forall₂ MemberOf entries members) :
    ∀ entry ∈ entries, ∃ text, entry.1.keyText? = some text := by
  induction each with
  | nil => exact List.forall_mem_nil _
  | cons head _ ih => exact List.forall_mem_cons.2 ⟨⟨_, head.1⟩, ih⟩

theorem mem_keys_iff_of_memberOf (each : List.Forall₂ MemberOf entries members) (text : String) :
    text ∈ members.map Prod.fst ↔ ∃ entry ∈ entries, entry.1.keyText? = some text := by
  induction each with
  | nil => simp
  | cons head _ ih =>
    rw [List.map_cons, List.mem_cons, ih, List.exists_mem_cons_iff, head.1, Option.some_inj,
      eq_comm]

/-- Under a text the sorted members have the value of the last entry. -/
theorem sameShape_of_under (each : List.Forall₂ MemberOf entries members) {text : String}
    {value : Yaml} {json : Json} (under : Under entries text value)
    (mem : (text, json) ∈ sortEntries members) : SameShape value json := by
  obtain ⟨before, key, after, rfl, here, others⟩ := under
  -- members stand where their entries stand, so the lists can be cut in front of the entry
  have fromHere := List.forall₂_drop before.length each
  rw [List.drop_left] at fromHere
  obtain ⟨⟨name, last⟩, later, ⟨named, shape⟩, behind, split⟩ :=
    List.forall₂_cons_left_iff.1 fromHere
  obtain rfl : text = name := Option.some.inj (here.symm.trans named)
  have counts : (text, last) ∈ sortEntries members := by
    refine (mem_sortEntries_iff _ _).2 ⟨members.take before.length, later, ?_, ?_⟩
    · rw [← split, List.take_append_drop]
    · intro other otherMem same
      obtain ⟨entry, entryMem, again⟩ :=
        (mem_keys_iff_of_memberOf behind text).1 (List.mem_map.2 ⟨other, otherMem, same⟩)
      exact others entry entryMem again
  exact (sortEntries_sorted members).value_unique counts mem ▸ shape

theorem sameShape_mapping (each : List.Forall₂ MemberOf entries members) :
    SameShape (.mapping entries) (.object (sortEntries members)) := by
  refine .mapping (sortEntries_sorted members) (exists_keyText_of_memberOf each) (fun text => ?_)
    fun text value json => sameShape_of_under each
  rw [mem_keys_sortEntries_iff, mem_keys_iff_of_memberOf each]

/-- Entries whose keys have different texts have a member each. -/
theorem SameShape.length_eq (shape : SameShape (.mapping entries) (.object members))
    (distinct : (entries.map fun entry => entry.1.keyText?).Nodup) :
    members.length = entries.length := by
  cases shape with | mapping sorted named keys values
  have distinct' : ((members.map Prod.fst).map some).Nodup :=
    sorted.nodup.map (Option.some_injective _)
  have same :
      ((members.map Prod.fst).map some).Perm (entries.map fun entry => entry.1.keyText?) := by
    refine (List.perm_ext_iff_of_nodup distinct' distinct).2 fun text? => ?_
    rw [List.mem_map, List.mem_map]
    constructor
    · rintro ⟨text, mem, rfl⟩
      exact (keys text).1 mem
    · rintro ⟨entry, mem, rfl⟩
      obtain ⟨text, name⟩ := named entry mem
      exact ⟨text, (keys text).2 ⟨entry, mem, name⟩, name.symm⟩
  simpa using same.length_eq

end Mapping

/-! ## Values -/

theorem sameShape_number {n : Number} (finite : n.notFinite? = none) :
    SameShape (.number n) n.toJson := by
  cases n with
  | integer n inRange => exact .integer n inRange
  | float x =>
    have finite : x.isFinite = true := by simpa [Number.notFinite?] using finite
    rw [Number.toJson, Json.ofBinary64, dif_pos finite]
    exact .float x finite

mutual

theorem sameShape_of_toJson? : (value : Yaml) → value.notFinite? = none → ∀ json : Json,
    value.toJson? = some json → SameShape value json
  | .null, _, json, converted => by
    rw [toJson?] at converted
    cases converted
    exact .null
  | .bool b, _, json, converted => by
    rw [toJson?] at converted
    cases converted
    exact .bool b
  | .number n, finite, json, converted => by
    rw [notFinite?] at finite
    rw [toJson?] at converted
    cases converted
    exact sameShape_number finite
  | .string s, _, json, converted => by
    rw [toJson?] at converted
    cases converted
    exact .string s
  | .sequence items, finite, json, converted => by
    rw [notFinite?] at finite
    rw [toJson?, Option.map_eq_some_iff] at converted
    obtain ⟨values, converted, rfl⟩ := converted
    exact sameShape_sequence (sameShape_of_toJsonItems? items finite values converted)
  | .mapping entries, finite, json, converted => by
    rw [notFinite?] at finite
    rw [toJson?, Option.map_eq_some_iff] at converted
    obtain ⟨members, converted, rfl⟩ := converted
    exact sameShape_mapping (memberOf_of_toJsonMembers? entries finite members converted)
  | .tagged tag value, _, json, converted => by
    rw [toJson?] at converted
    cases converted

theorem sameShape_of_toJsonItems? : (items : List Yaml) → notFiniteIn? items = none →
    ∀ values : List Json, toJsonItems? items = some values → List.Forall₂ SameShape items values
  | [], _, values, converted => by
    rw [toJsonItems?] at converted
    cases converted
    exact .nil
  | item :: rest, finite, values, converted => by
    rw [notFiniteIn?, Option.or_eq_none_iff] at finite
    rw [toJsonItems?] at converted
    split at converted
    · next value others first behind =>
      cases converted
      exact .cons (sameShape_of_toJson? item finite.1 value first)
        (sameShape_of_toJsonItems? rest finite.2 others behind)
    · cases converted

theorem memberOf_of_toJsonMembers? : (entries : List (Yaml × Yaml)) →
    notFiniteAmong? entries = none → ∀ members : List (String × Json),
    toJsonMembers? entries = some members → List.Forall₂ MemberOf entries members
  | [], _, members, converted => by
    rw [toJsonMembers?] at converted
    cases converted
    exact .nil
  | (key, value) :: rest, finite, members, converted => by
    rw [notFiniteAmong?, Option.or_eq_none_iff] at finite
    rw [toJsonMembers?] at converted
    split at converted
    · next text json others name first behind =>
      cases converted
      exact .cons ⟨name, sameShape_of_toJson? value finite.1 json first⟩
        (memberOf_of_toJsonMembers? rest finite.2 others behind)
    · cases converted

end

/-- **What becomes JSON keeps its shape.** -/
theorem sameShape_of_toJson {value : Yaml} {json : Json} (converted : value.toJson = .ok json) :
    SameShape value json := by
  unfold toJson at converted
  split at converted
  · cases converted
  · next finite =>
    split at converted
    · next same =>
      cases converted
      exact sameShape_of_toJson? value finite _ same
    · cases converted

/-- **No number that is not finite gets through the conversion to JSON.** The first one in the
document is named, whatever else there is; without one, tags and keys that are no texts are refused;
and what is not refused keeps its shape. An entry of a mapping is lost only to a later one with the
same text as its key, tags on keys apart. -/
theorem toJson_keeps_shape (value : Yaml) :
    (∀ x, value.toJson = .error (.notFinite x) ↔
      ∃ before part after, value.parts = before ++ part :: after ∧ part.IsNotFinite x ∧
        ∀ earlier ∈ before, ∀ y, ¬earlier.IsNotFinite y) ∧
    ((∃ x, value.toJson = .error (.notFinite x)) ↔
      ∃ part x, Within part value ∧ part.IsNotFinite x) ∧
    (value.toJson = .error .notRepresentable ↔
      (∀ part x, Within part value → ¬part.IsNotFinite x) ∧
        ∃ part, Within part value ∧ ¬part.Representable) ∧
    (∀ json, value.toJson = .ok json → SameShape value json) ∧
    (∀ entries members, SameShape (.mapping entries) (.object members) →
      (entries.map fun entry => entry.1.keyText?).Nodup → members.length = entries.length) ∧
    ∀ x, (DocumentError.ofYaml (.notFinite x)).message = "Input: YAML value " ++
      (if x.isNaN then ".nan" else if x.negative then "-.inf" else ".inf") ++
        " is not a finite number" :=
  ⟨fun _ => toJson_eq_notFinite_iff, exists_notFinite_iff, toJson_eq_notRepresentable_iff,
    fun _ => sameShape_of_toJson, fun _ _ => SameShape.length_eq, fun _ => rfl⟩

/-- An infinity below a tag and beside a key that is no text comes first, and a tag on a key with a
text of its own takes nothing away. -/
theorem toJson_keeps_shape_of_nested :
    let faulty : Yaml := .sequence
      [.tagged "t" (.mapping [(.null, .number (.float (.infinity true)))]), .number (.float .nan)]
    let entries : List (Yaml × Yaml) :=
      [(.tagged "t" (.string "b"), .null), (.string "a", .sequence [.number (.float (.zero true))])]
    faulty.toJson = .error (.notFinite (.infinity true)) ∧
      ∃ members, (mapping entries).toJson = .ok (.object members) ∧
        SameShape (.mapping entries) (.object members) ∧ members.length = 2 := by
  intro faulty entries
  have infinite : IsNotFinite (.number (.float (.infinity true))) (.infinity true) :=
    .float (.inl (by decide))
  have first : faulty.toJson = .error (.notFinite (.infinity true)) := by
    have none : ∀ earlier ∈ faulty.parts.take 3, earlier.ownNotFinite? = none := by decide
    refine ((toJson_keeps_shape faulty).1 _).2 ⟨faulty.parts.take 3, _, _, rfl, infinite, ?_⟩
    exact fun earlier mem => ownNotFinite?_eq_none_iff.1 (none earlier mem)
  have converted : (mapping entries).toJson = .ok (.object
      [("a", .array [.number (.float (.zero true) (by decide))]), ("b", .null)]) := rfl
  obtain ⟨-, -, -, shape, length, -⟩ := toJson_keeps_shape (.mapping entries)
  exact ⟨first, _, converted, shape _ converted, length _ _ (shape _ converted) (by decide)⟩

/-- A key with a tag and one without have the same text, and the first entry is lost. -/
theorem toJson_merges_tagged_keys :
    let entries : List (Yaml × Yaml) :=
      [(.string "a", .bool true), (.tagged "t" (.string "a"), .bool false)]
    let members : List (String × Json) := [("a", .bool false)]
    distinctKeys entries = true ∧ (mapping entries).toJson = .ok (.object members) ∧
      members.length ≠ entries.length := by
  intro entries members
  exact ⟨rfl, rfl, by decide⟩

end MetadataFilter.Yaml
