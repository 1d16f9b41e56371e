import Mathlib.Data.List.Forall2
import Mathlib.Data.List.Induction
import Mathlib.Data.List.Sort
import Mathlib.Data.String.Basic
import MetadataFilter.Json.Value

/-!
# Inserting keeps a map sorted

`insertEntry` keeps the keys strictly increasing (`insertEntry_sorted`), so that no key comes twice,
and puts in one entry, which takes the place of an entry with the same key (`mem_insertEntry_iff`).
Entries are sorted one by one (`sortEntries`): of equal keys the last one counts
(`mem_sortEntries_iff`), what is sorted stays as it is, and related entries stay related
(`RelatedEntries.sortEntries`).
-/

namespace MetadataFilter

variable {α : Type}

/-- Keys in strictly increasing order. -/
def SortedKeys (entries : List (String × α)) : Prop := entries.Pairwise (·.1 < ·.1)

theorem mem_insertEntry_iff {key : String} {value : α} {entries : List (String × α)}
    (sorted : SortedKeys entries) (entry : String × α) :
    entry ∈ insertEntry key value entries ↔
      entry = (key, value) ∨ entry ∈ entries ∧ entry.1 ≠ key := by
  induction entries with
  | nil => simp [insertEntry]
  | cons head rest ih =>
    obtain ⟨other, old⟩ := head
    obtain ⟨above, sorted⟩ := List.pairwise_cons.1 sorted
    unfold insertEntry
    split_ifs with less equal
    · -- every key is above the new one
      have others : ∀ e ∈ (other, old) :: rest, e.1 ≠ key := by
        intro e he
        rcases List.mem_cons.1 he with rfl | he
        · exact less.ne'
        · exact (less.trans (above e he)).ne'
      rw [List.mem_cons]
      exact or_congr_right ⟨fun he => ⟨he, others entry he⟩, And.left⟩
    · subst equal
      have others : ∀ e ∈ rest, e.1 ≠ key := fun e he => (above e he).ne'
      rw [List.mem_cons, List.mem_cons]
      refine or_congr_right ⟨fun he => ⟨.inr he, others entry he⟩, ?_⟩
      rintro ⟨rfl | he, ne⟩
      · exact absurd rfl ne
      · exact he
    · rw [List.mem_cons, ih sorted, List.mem_cons]
      constructor
      · rintro (rfl | rfl | ⟨he, ne⟩)
        · exact .inr ⟨.inl rfl, Ne.symm equal⟩
        · exact .inl rfl
        · exact .inr ⟨.inr he, ne⟩
      · rintro (rfl | ⟨rfl | he, ne⟩)
        · exact .inr (.inl rfl)
        · exact .inl rfl
        · exact .inr (.inr ⟨he, ne⟩)

theorem insertEntry_sorted {key : String} {value : α} {entries : List (String × α)}
    (sorted : SortedKeys entries) : SortedKeys (insertEntry key value entries) := by
  induction entries with
  | nil => exact List.pairwise_singleton _ _
  | cons head rest ih =>
    obtain ⟨other, old⟩ := head
    obtain ⟨above, tail⟩ := List.pairwise_cons.1 sorted
    unfold insertEntry
    split_ifs with less equal
    · refine List.pairwise_cons.2 ⟨fun e he => ?_, sorted⟩
      rcases List.mem_cons.1 he with rfl | he
      · exact less
      · exact less.trans (above e he)
    · subst equal
      exact List.pairwise_cons.2 ⟨above, tail⟩
    · refine List.pairwise_cons.2 ⟨fun e he => ?_, ih tail⟩
      rcases (mem_insertEntry_iff tail e).1 he with rfl | ⟨he, -⟩
      · exact lt_of_le_of_ne (not_lt.1 less) (Ne.symm equal)
      · exact above e he

theorem length_insertEntry {key : String} (value : α) {entries : List (String × α)}
    (fresh : ∀ e ∈ entries, e.1 ≠ key) :
    (insertEntry key value entries).length = entries.length + 1 := by
  induction entries with
  | nil => rfl
  | cons head rest ih =>
    obtain ⟨other, old⟩ := head
    have ne : key ≠ other := (fresh (other, old) List.mem_cons_self).symm
    unfold insertEntry
    split_ifs
    · rfl
    · rw [List.length_cons, ih fun e he => fresh e (List.mem_cons_of_mem _ he), List.length_cons]

/-- An entry above all others comes last. -/
theorem insertEntry_last {key : String} (value : α) {entries : List (String × α)}
    (above : ∀ entry ∈ entries, entry.1 < key) :
    insertEntry key value entries = entries ++ [(key, value)] := by
  induction entries with
  | nil => rfl
  | cons head rest ih =>
    have less : head.1 < key := above head List.mem_cons_self
    have others := ih fun entry mem => above entry (List.mem_cons_of_mem head mem)
    rw [insertEntry, if_neg (not_lt.2 less.le), if_neg less.ne', others, List.cons_append]

/-- A sorted map is known by its entries. -/
theorem SortedKeys.eq_of_mem_iff {entries others : List (String × α)} (h : SortedKeys entries)
    (h' : SortedKeys others) (same : ∀ entry, entry ∈ entries ↔ entry ∈ others) :
    entries = others := by
  have irrefl : Std.Irrefl fun p q : String × α => p.1 < q.1 := ⟨fun p => lt_irrefl p.1⟩
  have antisymm : Std.Antisymm fun p q : String × α => p.1 < q.1 :=
    ⟨fun p q less greater => absurd (less.trans greater) (lt_irrefl p.1)⟩
  exact List.Pairwise.eq_of_mem_iff h h' same

theorem SortedKeys.nodup {entries : List (String × α)} (h : SortedKeys entries) :
    (entries.map Prod.fst).Nodup :=
  List.pairwise_map.2 (h.imp ne_of_lt)

/-- A key has one value. -/
theorem SortedKeys.value_unique {entries : List (String × α)} (h : SortedKeys entries)
    {key : String} {value other : α} (mem : (key, value) ∈ entries)
    (mem' : (key, other) ∈ entries) :
    value = other :=
  congrArg Prod.snd (List.inj_on_of_nodup_map h.nodup mem mem' rfl)

/-! ## Sorting -/

/-- The entries in the order of their keys; of equal keys the last one counts. -/
def sortEntries (entries : List (String × α)) : List (String × α) :=
  entries.foldl (fun sorted entry => insertEntry entry.1 entry.2 sorted) []

theorem sortEntries_of_sorted {entries : List (String × α)} (sorted : SortedKeys entries) :
    sortEntries entries = entries := by
  suffices h : ∀ before, SortedKeys (before ++ entries) →
      entries.foldl (fun sorted entry => insertEntry entry.1 entry.2 sorted) before =
        before ++ entries from h [] sorted
  clear sorted
  induction entries with
  | nil => simp
  | cons entry rest ih =>
    intro before sorted
    have above : ∀ other ∈ before, other.1 < entry.1 := fun other mem =>
      (List.pairwise_append.1 sorted).2.2 other mem entry List.mem_cons_self
    rw [List.foldl_cons, insertEntry_last entry.2 above, ih, List.append_assoc]
    · rfl
    · rw [List.append_assoc]
      exact sorted

theorem sortEntries_append (entries : List (String × α)) (last : String × α) :
    sortEntries (entries ++ [last]) = insertEntry last.1 last.2 (sortEntries entries) := by
  rw [sortEntries, List.foldl_append]
  rfl

theorem sortEntries_sorted (entries : List (String × α)) : SortedKeys (sortEntries entries) := by
  induction entries using List.reverseRecOn with
  | nil => exact .nil
  | append_singleton entries last ih =>
    rw [sortEntries_append]
    exact insertEntry_sorted ih

/-- Sorting keeps exactly the entries behind which their key does not come again. -/
theorem mem_sortEntries_iff (entries : List (String × α)) (entry : String × α) :
    entry ∈ sortEntries entries ↔
      ∃ before after, entries = before ++ entry :: after ∧ ∀ later ∈ after, later.1 ≠ entry.1 := by
  induction entries using List.reverseRecOn with
  | nil => simp [sortEntries]
  | append_singleton entries last ih =>
    rw [sortEntries_append, mem_insertEntry_iff (sortEntries_sorted entries), ih]
    constructor
    · rintro (rfl | ⟨⟨before, after, rfl, others⟩, ne⟩)
      · exact ⟨entries, [], rfl, List.forall_mem_nil _⟩
      · refine ⟨before, after ++ [last], by simp, ?_⟩
        rw [List.forall_mem_append, List.forall_mem_singleton]
        exact ⟨others, ne.symm⟩
    · rintro ⟨before, after, split, others⟩
      cases after using List.reverseRecOn with
      | nil =>
        obtain ⟨-, same⟩ := List.append_inj' split rfl
        exact .inl (List.singleton_inj.1 same).symm
      | append_singleton after final =>
        rw [← List.cons_append, ← List.append_assoc] at split
        obtain ⟨rfl, same⟩ := List.append_inj' split rfl
        obtain rfl := List.singleton_inj.1 same
        rw [List.forall_mem_append, List.forall_mem_singleton] at others
        exact .inr ⟨⟨before, after, rfl, others.1⟩, others.2.symm⟩

theorem mem_keys_sortEntries_iff (entries : List (String × α)) (key : String) :
    key ∈ (sortEntries entries).map Prod.fst ↔ key ∈ entries.map Prod.fst := by
  induction entries using List.reverseRecOn with
  | nil => rfl
  | append_singleton entries last ih =>
    rw [List.map_append, List.mem_append, ← ih, sortEntries_append, List.map_singleton,
      List.mem_singleton]
    simp only [List.mem_map, mem_insertEntry_iff (sortEntries_sorted entries)]
    constructor
    · rintro ⟨entry, rfl | ⟨mem, -⟩, rfl⟩
      · exact .inr rfl
      · exact .inl ⟨entry, mem, rfl⟩
    · rintro (⟨entry, mem, rfl⟩ | rfl)
      · by_cases same : entry.1 = last.1
        · exact ⟨_, .inl rfl, same.symm⟩
        · exact ⟨entry, .inr ⟨mem, same⟩, rfl⟩
      · exact ⟨_, .inl rfl, rfl⟩

/-! ## Related maps -/

/-- The maps have the same keys, and related values under each. -/
def RelatedEntries {β : Type} (R : α → β → Prop) (entries : List (String × α))
    (others : List (String × β)) : Prop :=
  List.Forall₂ (fun entry other => entry.1 = other.1 ∧ R entry.2 other.2) entries others

section Related

variable {β : Type} {R : α → β → Prop} {entries : List (String × α)} {others : List (String × β)}

theorem RelatedEntries.insertEntry (h : RelatedEntries R entries others) (key : String)
    {value : α} {other : β} (related : R value other) :
    RelatedEntries R (insertEntry key value entries) (insertEntry key other others) := by
  induction h with
  | nil => exact .cons ⟨rfl, related⟩ .nil
  | @cons entry entry' _ _ head tail ih =>
    obtain ⟨name, old⟩ := entry
    obtain ⟨name', old'⟩ := entry'
    obtain ⟨rfl, head⟩ := head
    unfold MetadataFilter.insertEntry
    split_ifs
    · exact .cons ⟨rfl, related⟩ (.cons ⟨rfl, head⟩ tail)
    · exact .cons ⟨rfl, related⟩ tail
    · exact .cons ⟨rfl, head⟩ ih

theorem RelatedEntries.sortEntries (h : RelatedEntries R entries others) :
    RelatedEntries R (sortEntries entries) (sortEntries others) := by
  suffices ∀ sorted sorted', RelatedEntries R sorted sorted' →
      RelatedEntries R
        (entries.foldl (fun map entry => MetadataFilter.insertEntry entry.1 entry.2 map) sorted)
        (others.foldl (fun map entry => MetadataFilter.insertEntry entry.1 entry.2 map) sorted')
    from this [] [] .nil
  induction h with
  | nil => exact fun _ _ sorted => sorted
  | @cons entry other _ _ head _ ih =>
    intro sorted sorted' related
    obtain ⟨key, value⟩ := entry
    obtain ⟨rfl, head⟩ := head
    exact ih _ _ (related.insertEntry other.1 head)

end Related

end MetadataFilter
