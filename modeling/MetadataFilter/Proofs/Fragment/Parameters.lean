import MetadataFilter.Fragment.Basic
import MetadataFilter.Proofs.Number.Positional
import MetadataFilter.Proofs.SortedMap

/-!
# The map of parameters

The name of a parameter is taken from the size of the map it goes into, and the map is ordered by
the names as texts, `p10` before `p2`. `Binds params xs` says that the map takes `p0`, `p1`, … to
the scalars `xs`: the next name is then a fresh one, so that adding a parameter never overwrites
another (`Binds.insert`), and the scalars can be read back from the map (`Binds.scalars_unique`).
-/

namespace MetadataFilter

namespace Fragment

theorem parameterName_toList (number : Nat) :
    (parameterName number).toList = 'p' :: Nat.toDigits 10 number := by
  simp [parameterName]

theorem parameterName_injective {m n : Nat} (h : parameterName m = parameterName n) : m = n := by
  have digits := congrArg String.toList h
  rw [parameterName_toList, parameterName_toList] at digits
  exact toDigits_injective (List.cons.inj digits).2

/-- The map takes the names `p0`, `p1`, … to the scalars in this order, and has no other names. -/
structure Binds (params : List (String × Scalar)) (xs : List Scalar) : Prop where
  sorted : SortedKeys params
  length_eq : params.length = xs.length
  mem_iff : ∀ name x, (name, x) ∈ params ↔ ∃ i, xs[i]? = some x ∧ name = parameterName i

namespace Binds

variable {params : List (String × Scalar)} {xs ys : List Scalar}

theorem nil : Binds [] [] where
  sorted := List.Pairwise.nil
  length_eq := rfl
  mem_iff name x := by simp

/-- The next name is not taken. -/
theorem fresh (h : Binds params xs) : ∀ entry ∈ params, entry.1 ≠ parameterName params.length := by
  rintro ⟨name, x⟩ entry taken
  obtain ⟨i, at_i, rfl⟩ := (h.mem_iff name x).1 entry
  obtain ⟨bound, -⟩ := List.getElem?_eq_some_iff.1 at_i
  have same : i = params.length := parameterName_injective taken
  exact absurd bound (by rw [same, h.length_eq]; exact Nat.lt_irrefl _)

/-- **Adding a parameter overwrites none.** -/
theorem insert (h : Binds params xs) (x : Scalar) :
    Binds (insertEntry (parameterName params.length) x params) (xs ++ [x]) where
  sorted := insertEntry_sorted h.sorted
  length_eq := by
    rw [length_insertEntry x h.fresh, h.length_eq, List.length_append, List.length_singleton]
  mem_iff name y := by
    rw [mem_insertEntry_iff h.sorted, h.length_eq, Prod.mk.injEq]
    constructor
    · rintro (⟨rfl, rfl⟩ | ⟨old, -⟩)
      · exact ⟨xs.length, List.getElem?_concat_length, rfl⟩
      · obtain ⟨i, at_i, rfl⟩ := (h.mem_iff name y).1 old
        obtain ⟨bound, -⟩ := List.getElem?_eq_some_iff.1 at_i
        exact ⟨i, by rw [List.getElem?_append_left bound, at_i], rfl⟩
    · rintro ⟨i, at_i, rfl⟩
      rcases Nat.lt_trichotomy i xs.length with below | rfl | above
      · rw [List.getElem?_append_left below] at at_i
        have old := (h.mem_iff _ y).2 ⟨i, at_i, rfl⟩
        exact .inr ⟨old, h.length_eq ▸ h.fresh _ old⟩
      · rw [List.getElem?_concat_length, Option.some.injEq] at at_i
        exact .inl ⟨rfl, at_i.symm⟩
      · rw [List.getElem?_eq_none (by rw [List.length_append]; exact above)] at at_i
        exact absurd at_i nofun

theorem scalars_unique (h : Binds params xs) (h' : Binds params ys) : xs = ys := by
  apply List.ext_getElem (h.length_eq.symm.trans h'.length_eq)
  intro i hx hy
  obtain ⟨j, at_j, same⟩ :=
    (h'.mem_iff (parameterName i) xs[i]).1 ((h.mem_iff _ _).2 ⟨i, List.getElem?_eq_getElem hx, rfl⟩)
  obtain rfl : i = j := parameterName_injective same
  rw [List.getElem?_eq_getElem hy, Option.some.injEq] at at_j
  exact at_j.symm

theorem params_unique {others : List (String × Scalar)} (h : Binds params xs)
    (h' : Binds others xs) : params = others := by
  apply h.sorted.eq_of_mem_iff h'.sorted
  rintro ⟨name, x⟩
  rw [h.mem_iff, h'.mem_iff]

/-- With other scalars in their places the map still takes the same names to them. -/
theorem map (h : Binds params xs) (f : Scalar → Scalar) :
    Binds (params.map fun entry => (entry.1, f entry.2)) (xs.map f) where
  sorted := List.pairwise_map.2 h.sorted
  length_eq := by rw [List.length_map, List.length_map, h.length_eq]
  mem_iff name y := by
    rw [List.mem_map]
    constructor
    · rintro ⟨⟨name', x⟩, entry, same⟩
      obtain ⟨i, at_i, rfl⟩ := (h.mem_iff name' x).1 entry
      cases same
      exact ⟨i, by rw [List.getElem?_map, at_i]; rfl, rfl⟩
    · rintro ⟨i, at_i, rfl⟩
      rw [List.getElem?_map, Option.map_eq_some_iff] at at_i
      obtain ⟨x, at_i, rfl⟩ := at_i
      exact ⟨(parameterName i, x), (h.mem_iff _ x).2 ⟨i, at_i, rfl⟩, rfl⟩

end Binds

end Fragment

end MetadataFilter
