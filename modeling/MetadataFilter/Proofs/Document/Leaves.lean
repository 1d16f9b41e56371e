import MetadataFilter.Json.Written
import MetadataFilter.Proofs.Compiler.Quoting
import MetadataFilter.Proofs.Document.Spelling
import MetadataFilter.Proofs.SortedMap

/-!
# From the literals of a text to the scalars of a filter

The literals of a text (`Json.Written.literals`) are what it spells where values are neither lists
nor objects, without those that a later member with the same key replaces. If the document is read
as a filter, each of them becomes the scalar in the same place of the filter, and the filter has no
other (`Filter.scalars_of_ofJson`): by way of the leaves of the document, which have the values of
the literals and are the values of the scalars.
-/

namespace MetadataFilter

namespace Json

mutual

/-- What a document has at its ends, from left to right. -/
def leaves : Json → List Json
  | .null => []
  | .bool b => [.bool b]
  | .number n => [.number n]
  | .string s => [.string s]
  | .array items => leavesOfItems items
  | .object members => leavesOfMembers members

def leavesOfItems : List Json → List Json
  | [] => []
  | item :: rest => item.leaves ++ leavesOfItems rest

def leavesOfMembers : List (String × Json) → List Json
  | [] => []
  | (_, value) :: rest => value.leaves ++ leavesOfMembers rest

end

namespace Written

mutual

/-- The literals that a text spells and that count: of the members of an object with equal keys the
last one only, in the order of the keys. -/
def literals : Written → List Written
  | .null => []
  | .bool b => [.bool b]
  | .number n => [.number n]
  | .string s => [.string s]
  | .array items => literalsOfItems items
  | .object members => (sortEntries (literalsOfMembers members)).flatMap Prod.snd

def literalsOfItems : List Written → List Written
  | [] => []
  | item :: rest => item.literals ++ literalsOfItems rest

/-- The literals below each key. -/
def literalsOfMembers : List (String × Written) → List (String × List Written)
  | [] => []
  | (key, item) :: rest => (key, item.literals) :: literalsOfMembers rest

end

/-! ## Literals and leaves -/

/-- The leaves are the values of the literals, one by one. -/
def HaveValues (literals : List Written) (leaves : List Json) : Prop :=
  List.Forall₂ (fun literal leaf => literal.value? = some leaf) literals leaves

theorem HaveValues.append {p q : List Written} {l m : List Json} (h : HaveValues p l)
    (h' : HaveValues q m) : HaveValues (p ++ q) (l ++ m) :=
  List.rel_append h h'

theorem haveValues_flatMap {entries : List (String × List Written)}
    {members : List (String × Json)}
    (h : RelatedEntries (fun literals value => HaveValues literals value.leaves) entries members) :
    HaveValues (entries.flatMap Prod.snd) (leavesOfMembers members) := by
  induction h with
  | nil => exact .nil
  | cons head _ ih => exact head.2.append ih

mutual

theorem haveValues_literals : (written : Written) → ∀ {value : Json},
    written.value? = some value → HaveValues written.literals value.leaves
  | .null, _, h => by
    cases h
    exact .nil
  | .bool b, _, h => by
    cases h
    exact .cons rfl .nil
  | .string s, _, h => by
    cases h
    exact .cons rfl .nil
  | .number n, _, h => by
    obtain ⟨number, -, rfl⟩ := Option.map_eq_some_iff.1 h
    exact .cons h .nil
  | .array items, _, h => by
    obtain ⟨values, read, rfl⟩ := Option.map_eq_some_iff.1 h
    exact haveValues_literalsOfItems items read
  | .object members, _, h => by
    obtain ⟨values, read, rfl⟩ := Option.map_eq_some_iff.1 h
    exact haveValues_flatMap (relatedEntries_literalsOfMembers members read).sortEntries

theorem haveValues_literalsOfItems : (items : List Written) → ∀ {values : List Json},
    items? items = some values → HaveValues (literalsOfItems items) (leavesOfItems values)
  | [], _, h => by
    cases h
    exact .nil
  | item :: rest, _, h => by
    rw [items?] at h
    split at h
    · rename_i value values first others
      cases h
      exact (haveValues_literals item first).append (haveValues_literalsOfItems rest others)
    · cases h

theorem relatedEntries_literalsOfMembers :
    (members : List (String × Written)) → ∀ {values : List (String × Json)},
    members? members = some values →
      RelatedEntries (fun literals value => HaveValues literals value.leaves)
        (literalsOfMembers members) values
  | [], _, h => by
    cases h
    exact .nil
  | (key, item) :: rest, _, h => by
    rw [members?] at h
    split at h
    · rename_i value values first others
      cases h
      exact .cons ⟨rfl, haveValues_literals item first⟩
        (relatedEntries_literalsOfMembers rest others)
    · cases h

end

end Written

end Json

/-! ## Leaves and scalars -/

theorem Scalar.leaves_toJson {x : Scalar} (finite : x.Finite) : x.toJson.leaves = [x.toJson] := by
  cases x with
  | string s => rfl
  | integer n => rfl
  | float x =>
    have json : Json.ofBinary64 x = .number (.float x finite) := dif_pos finite
    rw [Scalar.toJson, json]
    rfl
  | bool b => rfl

theorem Literal.leaves_toJson {op : CompareOp} {value : Literal} (fits : value.Fits op) :
    value.toJson.leaves = value.scalars.map Scalar.toJson := by
  cases value with
  | scalar x => exact Scalar.leaves_toJson fits.2
  | list xs =>
    have finite := fits.2.2
    clear fits
    rw [Literal.toJson, Json.leaves, Literal.scalars]
    induction xs with
    | nil => rfl
    | cons x xs ih =>
      rw [List.map_cons, Json.leavesOfItems, Scalar.leaves_toJson (finite x List.mem_cons_self),
        ih fun y mem => finite y (List.mem_cons_of_mem x mem)]
      rfl

namespace Filter

mutual

theorem leaves_of_abbreviates : (filter : Filter) → filter.WellFormed → ∀ {document : Json},
    Abbreviates filter.toJson document → document.leaves = filter.scalars.map Scalar.toJson
  | .compare op field value, wellFormed, document, spelled => by
    have leaves := Literal.leaves_toJson wellFormed.2
    rcases (abbreviates_compare_iff op field value document).1 spelled with rfl | ⟨-, -, rfl⟩
    · simpa only [Json.leaves, Json.leavesOfMembers, List.append_nil, scalars] using leaves
    · simpa only [Json.leaves, Json.leavesOfMembers, List.append_nil, scalars] using leaves
  | .combine op operands, wellFormed, document, spelled => by
    obtain ⟨items, rfl, each⟩ := (abbreviates_combine_iff op operands document).1 spelled
    have leaves := leavesOfItems_of_abbreviates operands wellFormed.2 each
    simpa only [Json.leaves, Json.leavesOfMembers, List.append_nil, scalars] using leaves

theorem leavesOfItems_of_abbreviates : (operands : List Filter) → AllWellFormed operands →
    ∀ {items : List Json},
      List.Forall₂ (fun filter item => Abbreviates filter.toJson item) operands items →
      Json.leavesOfItems items = (scalarsOfAll operands).map Scalar.toJson
  | [], _, _, .nil => rfl
  | operand :: rest, wellFormed, _, .cons head tail => by
    rw [Json.leavesOfItems, leaves_of_abbreviates operand wellFormed.1 head,
      leavesOfItems_of_abbreviates rest wellFormed.2 tail, scalarsOfAll, List.map_append]

end

/-- The leaves of a document that is read are the scalars of its filter. -/
theorem leaves_of_ofJson {limit : Nat} {document : Json} {filter : Filter}
    (read : ofJson limit document = .ok filter) :
    document.leaves = filter.scalars.map Scalar.toJson := by
  have spelled := spells_of_ofJson read
  rcases always_or_wellFormed_of_ofJson read with rfl | wellFormed
  · rcases (spells_always_iff document).1 spelled with rfl | rfl <;> rfl
  · have notAlways : filter ≠ .always := by
      rintro rfl
      exact wellFormed
    exact leaves_of_abbreviates filter wellFormed
      ((spells_iff_abbreviates notAlways document).1 spelled)

/-- **Each literal that counts becomes the scalar in its place**, and there are no other scalars. -/
theorem scalars_of_ofJson {limit : Nat} {written : Json.Written} {document : Json}
    {filter : Filter} (value : written.value? = some document)
    (read : ofJson limit document = .ok filter) :
    List.Forall₂ (fun (literal : Json.Written) (x : Scalar) => literal.value? = some x.toJson)
      written.literals filter.scalars := by
  have values := written.haveValues_literals value
  rw [leaves_of_ofJson read, Json.Written.HaveValues, List.forall₂_map_right_iff] at values
  exact values

end Filter

end MetadataFilter
