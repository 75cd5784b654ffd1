import PhiSidecar.Wire.Doc
import PhiSidecar.Wire.Rendering

/-!
# Lists of scalars (`sidecar.cpp`: `appendScalarListJson` against `parseArrayElements` and
`parseScalarValueToken`)

* `parseArrayElements_scalarListJson`: the text of a list has one element for each scalar, and the
  token of the element is the text of the scalar. It holds of doubles too.
* `scalarListJson_roundTrip`: **without doubles, every token is read back as its scalar, type
  included**.

A double is left out of the second result: `scalarJson` prints fifteen digits of it, and one that is
not finite as `null`.
-/

set_option autoImplicit false

namespace Phi.Wire

open Phi.V1
open Rfc8259 (Value Elem)

/-! ## The elements -/

theorem scalarJson_value : ∀ v : ScalarValue, Value (scalarJson v)
  | .null => .null
  | .bool b => boolJson_value b
  | .int i => toStringI_value i.toInt
  | .double d => doubleJson_value d
  | .text s => jsonQuoted_value s

/-- The list loop writes no whitespace, so an array of values is cut where it was put together. -/
theorem parseArrayElements_arrayJson {values : List Bytes} (hv : ∀ v ∈ values, Value v) :
    parseArrayElements (arrayJson values) = .ok values := by
  have htext : (values.map fun v => ({ val := v } : Elem)).map Elem.text = values := by
    rw [List.map_map]
    exact List.map_id'' (fun v => List.append_nil v) values
  have hval : (values.map fun v => ({ val := v } : Elem)).map Elem.val = values := by
    rw [List.map_map]
    exact List.map_id'' (fun _ => rfl) values
  have hgood : ∀ e ∈ values.map fun v => ({ val := v } : Elem), Value e.val ∧ e.Spaced := by
    intro e he
    obtain ⟨v, hmem, rfl⟩ := List.mem_map.1 he
    exact ⟨hv v hmem, .nil, .nil⟩
  have hparse := parseArrayElements_arrText .nil .nil .nil hgood
  rw [Rfc8259.arrText, htext, hval, List.nil_append, List.nil_append, List.append_nil] at hparse
  rw [Doc.arrayJson_eq]
  exact hparse

theorem parseArrayElements_scalarListJson (values : ScalarList) :
    parseArrayElements (scalarListJson values) = .ok (values.map scalarJson) := by
  apply parseArrayElements_arrayJson
  intro t ht
  obtain ⟨v, -, rfl⟩ := List.mem_map.1 ht
  exact scalarJson_value v

/-! ## The scalars -/

def isDouble : ScalarValue → Bool
  | .double _ => true
  | _ => false

/-- The text of a scalar is a token of it, however extreme the integer and whatever the bytes. -/
theorem scalarJson_isScalar {v : ScalarValue} (h : isDouble v = false) : IsScalar v (scalarJson v) := by
  cases v with
  | null => exact .null
  | bool b => cases b <;> exact .bool _
  | int i => exact .int ⟨toStringI_value i.toInt, Decimal.readInt_intText i.toInt⟩
  | double => cases h
  | text s => exact .text ⟨_, quoted_denotes s, jsonQuoted_eq s⟩

/-- **A list of scalars survives its text.** -/
theorem scalarListJson_roundTrip (parseDouble : Bytes → Option Double) {values : ScalarList}
    (h : ∀ v ∈ values, isDouble v = false) :
    ∃ elements : List Bytes, parseArrayElements (scalarListJson values) = .ok elements ∧
      elements.length = values.length ∧
      ∀ (i : Nat) (v : ScalarValue), values[i]? = some v →
        ∃ token, elements[i]? = some token ∧ parseScalarValueToken parseDouble token = some v := by
  refine ⟨_, parseArrayElements_scalarListJson values, List.length_map _, ?_⟩
  intro i v hv
  have hmem : v ∈ values := List.mem_of_getElem? hv
  refine ⟨scalarJson v, by rw [List.getElem?_map, hv]; rfl, ?_⟩
  exact parseScalarValueToken_isScalar (scalarJson_isScalar (h v hmem)) parseDouble

/-- Every structural character, a control byte, a byte that is no UTF-8, and both ends of the
integers. -/
def awkwardScalars : ScalarList :=
  [.text (lit "\"\\,[]\x7b:" ++ [0x00, 0x1F, 0xFF]), .int Int64.minValue, .int Int64.maxValue, .null,
    .bool false]

theorem scalarListJson_roundTrip_awkward :
    ∃ elements : List Bytes, parseArrayElements (scalarListJson awkwardScalars) = .ok elements ∧
      elements.length = awkwardScalars.length ∧
      ∀ (i : Nat) (v : ScalarValue), awkwardScalars[i]? = some v → ∃ token, elements[i]? = some token ∧
        parseScalarValueToken (fun _ => none) token = some v :=
  scalarListJson_roundTrip (fun _ => none) (by decide)

end Phi.Wire
