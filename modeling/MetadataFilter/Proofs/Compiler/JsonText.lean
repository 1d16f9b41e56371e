import Mathlib.Data.List.Forall2
import MetadataFilter.Proofs.Compiler.Quoting
import MetadataFilter.Proofs.Document.Spelling
import MetadataFilter.Proofs.Json.RoundTrip

/-!
# Compiled filters as JSON

What a compiler gives for a document can be written as JSON without loss: its parameters are finite
and in the order of their names (`Compiler.writable_of_compile`), so that the text reads back as the
same object (`CompiledFilter.Writable.ofText?_toJson`), and in the object each parameter stands
under its name as the JSON value that denotes it (`CompiledFilter.Writable.denoted`).
-/

namespace MetadataFilter

/-- The JSON value denotes the scalar: the same text, the same integer, the same bits of a
floating-point number, the same truth value. -/
inductive Scalar.Denoted : Json → Scalar → Prop
  | string (s : String) : Denoted (.string s) (.string s)
  | integer (n : Int64) (inRange : -2 ^ (63 : Nat) ≤ n.toInt ∧ n.toInt < 2 ^ (64 : Nat)) :
      Denoted (.number (.integer n.toInt inRange)) (.integer n)
  | float (x : Binary64) (finite : x.isFinite = true) :
      Denoted (.number (.float x finite)) (.float x)
  | bool (b : Bool) : Denoted (.bool b) (.bool b)

/-- The members of an object denote a map: the same names, and under each the scalar. -/
def DenotedParams (members : List (String × Json)) (params : List (String × Scalar)) : Prop :=
  List.Forall₂ (fun member param => member.1 = param.1 ∧ Scalar.Denoted member.2 param.2)
    members params

/-- The parameters can be written as JSON and read back. -/
structure CompiledFilter.Writable (compiled : CompiledFilter) : Prop where
  sorted : SortedKeys compiled.params
  finite : ∀ param ∈ compiled.params, param.2.Finite

/-! ## Scalars -/

theorem Scalar.denoted_toJson {x : Scalar} (h : x.Finite) : Scalar.Denoted x.toJson x := by
  cases x with
  | string s => exact .string s
  | integer n => exact .integer n _
  | float x =>
    have json : Json.ofBinary64 x = .number (.float x h) := dif_pos h
    rw [Scalar.toJson, json]
    exact .float x h
  | bool b => exact .bool b

theorem Scalar.fits_toJson (levels : Nat) (x : Scalar) : Json.Fits levels x.toJson := by
  cases x with
  | string s => exact .string levels s
  | integer n => exact .number levels _
  | float x =>
    rw [Scalar.toJson, Json.ofBinary64]
    split
    · exact .number levels _
    · exact .null levels
  | bool b => exact .bool levels b

/-! ## Compiled filters -/

namespace CompiledFilter

variable {compiled : CompiledFilter}

theorem Writable.fits_paramsJson (h : compiled.Writable) (levels : Nat) :
    Json.Fits (levels + 1) compiled.paramsJson := by
  refine .object (List.pairwise_map.2 h.sorted) fun member mem => ?_
  obtain ⟨param, -, rfl⟩ := List.mem_map.1 mem
  exact param.2.fits_toJson levels

theorem Writable.fits_toJson (h : compiled.Writable) (levels : Nat) :
    Json.Fits (levels + 2) compiled.toJson := by
  unfold toJson
  split
  · refine .object (List.pairwise_singleton _ _) fun member mem => ?_
    rw [List.mem_singleton.1 mem]
    exact .string _ _
  · have ordered : "fragment" < "params" := by decide
    refine .object (List.pairwise_pair.2 ordered) fun member mem => ?_
    rcases List.mem_cons.1 mem with rfl | mem
    · exact .string _ _
    · rw [List.mem_singleton.1 mem]
      exact h.fits_paramsJson levels

/-- **A compiled filter is read back from its JSON text.** -/
theorem Writable.ofText?_toJson (h : compiled.Writable) :
    Json.ofText? compiled.toJson.toText.toList = some compiled.toJson := by
  rw [Json.toText, String.toList_ofList]
  exact Json.ofText?_write (h.fits_toJson 125)

theorem Writable.denoted (h : compiled.Writable) :
    DenotedParams (compiled.params.map fun (name, x) => (name, x.toJson)) compiled.params := by
  refine List.forall₂_map_left_iff.2 (List.forall₂_same.2 fun param mem => ⟨rfl, ?_⟩)
  exact Scalar.denoted_toJson (h.finite param mem)

end CompiledFilter

/-! ## Compilers -/

/-- The scalars of a filter that was read are finite. -/
theorem Filter.finite_of_ofJson {limit : Nat} {document : Json} {filter : Filter}
    (read : Filter.ofJson limit document = .ok filter) : ∀ x ∈ filter.scalars, x.Finite := by
  rcases Filter.always_or_wellFormed_of_ofJson read with rfl | wellFormed
  · exact nofun
  · exact wellFormed.finite

theorem Filter.writable_render {filter : Filter} (finite : ∀ x ∈ filter.scalars, x.Finite)
    (mode : Mode) : (filter.render mode).Writable := by
  by_cases lifts : mode = .parameterized
  · subst lifts
    have binds := filter.render_binds
    refine ⟨binds.sorted, fun param mem => ?_⟩
    obtain ⟨i, here, -⟩ := (binds.mem_iff param.1 param.2).1 mem
    exact finite param.2 (List.mem_of_getElem? here)
  · constructor
    · rw [Filter.render_params_eq_nil lifts]
      exact List.Pairwise.nil
    · rw [Filter.render_params_eq_nil lifts]
      exact nofun

namespace Compiler

variable {compiler : Compiler} {document : Json} {compiled : CompiledFilter}

theorem writable_of_compile (compiles : compiler.compile document = .ok compiled) :
    compiled.Writable := by
  obtain ⟨filter, accepted, rfl⟩ := exists_accept_of_compile compiles
  exact Filter.writable_render (Filter.finite_of_ofJson (accept_eq_ok_iff.1 accepted).1) _

end Compiler

end MetadataFilter
