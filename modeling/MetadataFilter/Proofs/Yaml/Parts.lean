import MetadataFilter.Proofs.Outcome
import MetadataFilter.Yaml.ToJson

/-!
# What keeps a YAML value from being JSON

`Yaml.parts` lists a value and the values in it, in the order of the document. Keys are not in it.
The conversion to JSON fails for the first number among them that is not finite, whatever else there
is (`Yaml.toJson_eq_notFinite_iff`); without such a number it fails exactly if there is a tag, or a
mapping with a key that is no text (`Yaml.toJson_eq_notRepresentable_iff`).
-/

namespace MetadataFilter.Yaml

/-! ## Parts -/

mutual

/-- The value and the values in it, in the order of the document. -/
def parts : Yaml → List Yaml
  | .null => [.null]
  | .bool b => [.bool b]
  | .number n => [.number n]
  | .string s => [.string s]
  | .sequence items => .sequence items :: partsOfItems items
  | .mapping entries => .mapping entries :: partsOfEntries entries
  | .tagged tag value => .tagged tag value :: value.parts

def partsOfItems : List Yaml → List Yaml
  | [] => []
  | item :: rest => item.parts ++ partsOfItems rest

/-- Keys are not looked at. -/
def partsOfEntries : List (Yaml × Yaml) → List Yaml
  | [] => []
  | (_, value) :: rest => value.parts ++ partsOfEntries rest

end

/-- The part is reached from the value through items of sequences, values of mappings, and tags. -/
inductive Within (part : Yaml) : Yaml → Prop
  | self : Within part part
  | item {items : List Yaml} {item : Yaml} (mem : item ∈ items) (below : Within part item) :
      Within part (.sequence items)
  | value {entries : List (Yaml × Yaml)} {entry : Yaml × Yaml} (mem : entry ∈ entries)
      (below : Within part entry.2) : Within part (.mapping entries)
  | tagged {tag : String} {value : Yaml} (below : Within part value) :
      Within part (.tagged tag value)

theorem within_sequence_iff {part : Yaml} {items : List Yaml} :
    Within part (.sequence items) ↔ part = .sequence items ∨ ∃ item ∈ items, Within part item := by
  constructor
  · rintro (_ | ⟨mem, below⟩)
    · exact .inl rfl
    · exact .inr ⟨_, mem, below⟩
  · rintro (rfl | ⟨item, mem, below⟩)
    · exact .self
    · exact .item mem below

theorem within_mapping_iff {part : Yaml} {entries : List (Yaml × Yaml)} :
    Within part (.mapping entries) ↔
      part = .mapping entries ∨ ∃ entry ∈ entries, Within part entry.2 := by
  constructor
  · intro within
    cases within with
    | self => exact .inl rfl
    | value mem below => exact .inr ⟨_, mem, below⟩
  · rintro (rfl | ⟨entry, mem, below⟩)
    · exact .self
    · exact .value mem below

theorem within_tagged_iff {part value : Yaml} {tag : String} :
    Within part (.tagged tag value) ↔ part = .tagged tag value ∨ Within part value := by
  constructor
  · rintro (_ | _ | _ | below)
    · exact .inl rfl
    · exact .inr below
  · rintro (rfl | below)
    · exact .self
    · exact .tagged below

mutual

/-- **The parts of a value are what is reached from it.** -/
theorem mem_parts_iff {part : Yaml} : (value : Yaml) → (part ∈ value.parts ↔ Within part value)
  | .null | .bool _ | .number _ | .string _ => by
    rw [parts, List.mem_singleton]
    constructor
    · rintro rfl
      exact .self
    · intro within
      cases within
      rfl
  | .sequence items => by
    rw [parts, List.mem_cons, mem_partsOfItems_iff items, within_sequence_iff]
  | .mapping entries => by
    rw [parts, List.mem_cons, mem_partsOfEntries_iff entries, within_mapping_iff]
  | .tagged tag value => by rw [parts, List.mem_cons, mem_parts_iff value, within_tagged_iff]

theorem mem_partsOfItems_iff {part : Yaml} : (items : List Yaml) →
    (part ∈ partsOfItems items ↔ ∃ item ∈ items, Within part item)
  | [] => by simp [partsOfItems]
  | item :: rest => by
    rw [partsOfItems, List.mem_append, mem_parts_iff item, mem_partsOfItems_iff rest]
    simp

theorem mem_partsOfEntries_iff {part : Yaml} : (entries : List (Yaml × Yaml)) →
    (part ∈ partsOfEntries entries ↔ ∃ entry ∈ entries, Within part entry.2)
  | [] => by simp [partsOfEntries]
  | (key, value) :: rest => by
    rw [partsOfEntries, List.mem_append, mem_parts_iff value, mem_partsOfEntries_iff rest]
    simp

end

/-! ## Numbers that are not finite -/

/-- The value is an infinity or not a number. -/
inductive IsNotFinite : Yaml → Binary64 → Prop
  | float {x : Binary64} (special : x.isInfinite = true ∨ x.isNaN = true) :
      IsNotFinite (.number (.float x)) x

theorem isFinite_eq_false_iff {x : Binary64} :
    x.isFinite = false ↔ x.isInfinite = true ∨ x.isNaN = true := by
  by_cases fraction : x.fraction = 0 <;>
    simp [Binary64.isFinite, Binary64.isInfinite, Binary64.isNaN, fraction]

/-- The value itself, if it is a number that is not finite. -/
def ownNotFinite? : Yaml → Option Binary64
  | .number n => n.notFinite?
  | _ => none

theorem ownNotFinite?_eq_some_iff {value : Yaml} {x : Binary64} :
    value.ownNotFinite? = some x ↔ value.IsNotFinite x := by
  constructor
  · intro found
    cases value with
    | number n =>
      cases n with
      | integer => cases found
      | float y =>
        rw [ownNotFinite?, Number.notFinite?] at found
        split at found
        · cases found
        · next notFinite =>
          cases found
          exact .float (isFinite_eq_false_iff.1 (Bool.not_eq_true _ ▸ notFinite))
    | _ => cases found
  · rintro ⟨special⟩
    simp [ownNotFinite?, Number.notFinite?, isFinite_eq_false_iff.2 special]

theorem ownNotFinite?_eq_none_iff {value : Yaml} :
    value.ownNotFinite? = none ↔ ∀ x, ¬value.IsNotFinite x := by
  simp only [Option.eq_none_iff_forall_ne_some, ne_eq, ownNotFinite?_eq_some_iff]

mutual

/-- The search goes through the parts in their order. -/
theorem notFinite?_eq_findSome? : (value : Yaml) →
    value.notFinite? = value.parts.findSome? ownNotFinite?
  | .null | .bool _ | .number _ | .string _ => by
    rw [notFinite?, parts, List.findSome?_singleton] <;> simp [ownNotFinite?]
  | .sequence items => by
    rw [notFinite?, parts, notFiniteIn?_eq_findSome? items]
    rfl
  | .mapping entries => by
    rw [notFinite?, parts, notFiniteAmong?_eq_findSome? entries]
    rfl
  | .tagged tag value => by
    rw [notFinite?, parts, notFinite?_eq_findSome? value]
    rfl

theorem notFiniteIn?_eq_findSome? : (items : List Yaml) →
    notFiniteIn? items = (partsOfItems items).findSome? ownNotFinite?
  | [] => by rw [notFiniteIn?, partsOfItems, List.findSome?_nil]
  | item :: rest => by
    rw [notFiniteIn?, partsOfItems, List.findSome?_append, notFinite?_eq_findSome? item,
      notFiniteIn?_eq_findSome? rest]

theorem notFiniteAmong?_eq_findSome? : (entries : List (Yaml × Yaml)) →
    notFiniteAmong? entries = (partsOfEntries entries).findSome? ownNotFinite?
  | [] => by rw [notFiniteAmong?, partsOfEntries, List.findSome?_nil]
  | (key, value) :: rest => by
    rw [notFiniteAmong?, partsOfEntries, List.findSome?_append, notFinite?_eq_findSome? value,
      notFiniteAmong?_eq_findSome? rest]

end

theorem toJson_eq_notFinite_iff_notFinite? {value : Yaml} {x : Binary64} :
    value.toJson = .error (.notFinite x) ↔ value.notFinite? = some x := by
  unfold toJson
  cases value.notFinite? with
  | some y => simp
  | none => cases value.toJson? <;> simp

/-- **The conversion fails for the first number in the document that is not finite.** -/
theorem toJson_eq_notFinite_iff {value : Yaml} {x : Binary64} :
    value.toJson = .error (.notFinite x) ↔
      ∃ before part after, value.parts = before ++ part :: after ∧ part.IsNotFinite x ∧
        ∀ earlier ∈ before, ∀ y, ¬earlier.IsNotFinite y := by
  rw [toJson_eq_notFinite_iff_notFinite?, notFinite?_eq_findSome?, List.findSome?_eq_some_iff]
  simp only [ownNotFinite?_eq_some_iff, ownNotFinite?_eq_none_iff]

theorem exists_notFinite_iff {value : Yaml} :
    (∃ x, value.toJson = .error (.notFinite x)) ↔
      ∃ part x, Within part value ∧ part.IsNotFinite x := by
  simp only [toJson_eq_notFinite_iff_notFinite?, ← Option.isSome_iff_exists,
    notFinite?_eq_findSome?, List.findSome?_isSome_iff, mem_parts_iff]
  simp only [Option.isSome_iff_exists, ownNotFinite?_eq_some_iff]
  constructor
  · rintro ⟨part, within, x, notFinite⟩
    exact ⟨part, x, within, notFinite⟩
  · rintro ⟨part, x, within, notFinite⟩
    exact ⟨part, within, x, notFinite⟩

/-! ## Tags and keys -/

/-- The value has no tag, and if it is a mapping, texts for its keys, tags on them apart. -/
def Representable : Yaml → Prop
  | .tagged _ _ => False
  | .mapping entries => ∀ entry ∈ entries, ∃ text, entry.1.keyText? = some text
  | _ => True

mutual

theorem toJson?_isSome_iff : (value : Yaml) →
    (value.toJson?.isSome ↔ ∀ part ∈ value.parts, part.Representable)
  | .null | .bool _ | .number _ | .string _ => by simp [toJson?, parts, Representable]
  | .sequence items => by
    rw [toJson?, parts, List.forall_mem_cons, Option.isSome_map, toJsonItems?_isSome_iff items]
    simp [Representable]
  | .mapping entries => by
    rw [toJson?, parts, List.forall_mem_cons, Option.isSome_map, toJsonMembers?_isSome_iff entries,
      Representable]
  | .tagged tag value => by simp [toJson?, parts, Representable]

theorem toJsonItems?_isSome_iff : (items : List Yaml) →
    ((toJsonItems? items).isSome ↔ ∀ part ∈ partsOfItems items, part.Representable)
  | [] => by simp [toJsonItems?, partsOfItems]
  | item :: rest => by
    rw [partsOfItems, List.forall_mem_append, ← toJson?_isSome_iff item,
      ← toJsonItems?_isSome_iff rest, toJsonItems?]
    cases item.toJson? <;> cases toJsonItems? rest <;> simp

theorem toJsonMembers?_isSome_iff : (entries : List (Yaml × Yaml)) →
    ((toJsonMembers? entries).isSome ↔
      (∀ entry ∈ entries, ∃ text, entry.1.keyText? = some text) ∧
        ∀ part ∈ partsOfEntries entries, part.Representable)
  | [] => by simp [toJsonMembers?, partsOfEntries]
  | (key, value) :: rest => by
    have first := toJson?_isSome_iff value
    have others := toJsonMembers?_isSome_iff rest
    rw [partsOfEntries, List.forall_mem_append, List.forall_mem_cons, ← first,
      and_and_and_comm, ← others, toJsonMembers?]
    cases key.keyText? <;> cases value.toJson? <;> cases toJsonMembers? rest <;> simp

end

/-- **Without a number that is not finite, the conversion fails for tags and for keys.** -/
theorem toJson_eq_notRepresentable_iff {value : Yaml} :
    value.toJson = .error .notRepresentable ↔
      (∀ part x, Within part value → ¬part.IsNotFinite x) ∧
        ∃ part, Within part value ∧ ¬part.Representable := by
  have finite : value.notFinite? = none ↔ ∀ part x, Within part value → ¬part.IsNotFinite x := by
    rw [notFinite?_eq_findSome?, List.findSome?_eq_none_iff]
    simp only [ownNotFinite?_eq_none_iff, mem_parts_iff]
    constructor
    · intro none part x within
      exact none part within x
    · intro none part within x
      exact none part x within
  have representable : value.toJson? = none ↔ ∃ part, Within part value ∧ ¬part.Representable := by
    rw [← Option.not_isSome_iff_eq_none, toJson?_isSome_iff]
    simp only [mem_parts_iff, Classical.not_forall, exists_prop]
  rw [← finite, ← representable]
  unfold toJson
  cases value.notFinite? with
  | some y => simp
  | none => cases value.toJson? <;> simp

end MetadataFilter.Yaml
