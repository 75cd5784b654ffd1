import PhiSidecar.Wire.MembersProof

/-!
# Renderings of typed fields

`ObjectText kms tok`: the token is an object with the members `kms`, in any layout, whose keys are
distinct. `Field kms key P absent`: the object has a member of that key whose value is rendered as
`P` says, or has none, where `absent` allows it. A reader that looks a key up in the parsed object
finds what the field says, whatever the order, the spelling of the keys, the whitespace and the
other members are.
-/

set_option autoImplicit false

namespace Phi.Wire

open Phi.V1
open Rfc8259 (Ws Value Denotes)

/-- An object text with these members; `Keyed` pairs a member with the key its text denotes. -/
structure ObjectText (kms : List Keyed) (tok : Bytes) : Prop where
  good : ∀ p ∈ kms, GoodMember p
  nodup : (kms.map Prod.fst).Nodup
  text : ∃ pad, Ws pad ∧ tok = Rfc8259.objText pad (kms.map Prod.snd)

/-! ## Values -/

/-- A string token of `s`, however escaped. -/
def IsText (s tok : Bytes) : Prop := ∃ b, Denotes b s ∧ tok = Rfc8259.quoted b

/-- An integer token. -/
def IsInt (z : Int) (tok : Bytes) : Prop := Value tok ∧ Decimal.readInt tok = some z

def IsUInt (n : Nat) (tok : Bytes) : Prop := Value tok ∧ Decimal.readNat tok = some n

/-- A token of the scalar: `null`, a boolean, a string or an integer of 64 bits. -/
inductive IsScalar : ScalarValue → Bytes → Prop
  | null : IsScalar .null (lit "null")
  | bool (b : Bool) : IsScalar (.bool b) (lit (if b then "true" else "false"))
  | text {s tok} : IsText s tok → IsScalar (.text s) tok
  | int {i tok} : IsInt (Int64.toInt i) tok → IsScalar (.int i) tok

/-! ## Members -/

section
variable (kms : List Keyed) (key : String)

def Has (P : Bytes → Prop) : Prop := ∃ p ∈ kms, p.1 = lit key ∧ P p.2.val

def Lacks : Prop := lit key ∉ kms.map Prod.fst

def Field (P : Bytes → Prop) (absent : Prop) : Prop := Has kms key P ∨ absent ∧ Lacks kms key

/-- A text field; it may be left out if it is empty. -/
def TextField (s : Bytes) : Prop := Field kms key (IsText s) (s = [])

/-- An integer field; it may be left out if it is zero. -/
def IntField (z : Int) : Prop := Field kms key (IsInt z) (z = 0)

/-- A raw JSON field: any value, or left out. -/
def JsonField (json : Bytes) : Prop := Field kms key (· = json) (json = [])

end

variable {kms : List Keyed} {key : String} {tok : Bytes}

theorem ObjectText.parse {w w' : Bytes} (h : ObjectText kms tok) (hw : Ws w) (hw' : Ws w') :
    parseObjectMembers (w ++ (tok ++ w')) = .ok (insertAll {} kms) := by
  obtain ⟨pad, hp, rfl⟩ := h.text
  exact parseObjectMembers_objText hw hw' hp h.good

theorem ObjectText.parse_self (h : ObjectText kms tok) :
    parseObjectMembers tok = .ok (insertAll {} kms) := by
  have := h.parse .nil .nil
  rwa [List.nil_append, List.append_nil] at this

theorem ObjectText.has {h : ObjectText kms tok} {P : Bytes → Prop} (hf : Has kms key P) :
    P (member (insertAll {} kms) (lit key)) ∧ Value (member (insertAll {} kms) (lit key)) := by
  obtain ⟨p, hp, hk, hP⟩ := hf
  rw [← hk, member_insertAll h.nodup hp]
  exact ⟨hP, (h.good p hp).value⟩

theorem ObjectText.lacks (h : ObjectText kms tok) (hf : Lacks kms key) :
    member (insertAll {} kms) (lit key) = [] := member_insertAll_none h.nodup hf

theorem ObjectText.text_field (h : ObjectText kms tok) {s : Bytes} (hf : TextField kms key s) :
    decodeStringOrDefault (member (insertAll {} kms) (lit key)) = s := by
  rcases hf with hf | ⟨rfl, hf⟩
  · obtain ⟨b, hb, he⟩ := (h.has hf).1
    rw [he, decodeStringOrDefault_quoted hb]
  · rw [h.lacks hf]
    rfl

theorem parseInt64_isInt {z : Int} (h : IsInt z tok) (h1 : -2 ^ 63 ≤ z) (h2 : z < 2 ^ 63) :
    parseInt64 tok = some (Int64.ofInt z) :=
  parseInt64_of h.1 (by rw [h.2, Int64.toInt_ofInt_of_le h1 h2])

theorem ObjectText.int_field (h : ObjectText kms tok) {z : Int} (hf : IntField kms key z)
    (h1 : -2 ^ 63 ≤ z) (h2 : z < 2 ^ 63) :
    parseIntOrDefault (member (insertAll {} kms) (lit key)) 0 = Int64.ofInt z := by
  rcases hf with hf | ⟨rfl, hf⟩
  · obtain ⟨hi, hv⟩ := h.has hf
    have hne : member (insertAll {} kms) (lit key) ≠ [] := by
      obtain ⟨c, s, he, -⟩ := hv.head
      rw [he]
      exact List.cons_ne_nil _ _
    rw [parseIntOrDefault, if_neg hne, parseInt64_isInt hi h1 h2, Option.getD_some]
  · rw [h.lacks hf]
    rfl

theorem ObjectText.json_field (h : ObjectText kms tok) {json : Bytes} (hf : JsonField kms key json) :
    member (insertAll {} kms) (lit key) = json := by
  rcases hf with hf | ⟨rfl, hf⟩
  · exact (h.has hf).1
  · exact h.lacks hf

/-! ## Scalars -/

theorem isText_value {s : Bytes} (h : IsText s tok) : Value tok := by
  obtain ⟨b, hb, rfl⟩ := h
  exact .str hb.body

theorem readInt_no_point {z : Int} (h : Decimal.readInt tok = some z) {c : UInt8} (hc : c ∈ tok) :
    c = 0x2D ∨ Decimal.isDigit c = true := by
  have hd : ∀ {t : Bytes} {n : Nat}, Decimal.readNat t = some n → ∀ c ∈ t, Decimal.isDigit c = true := by
    intro t n ht c hc
    unfold Decimal.readNat at ht
    split at ht
    · next hall => exact List.all_eq_true.1 hall.2 c hc
    · cases ht
  unfold Decimal.readInt at h
  split at h
  · next hm =>
    obtain ⟨n, hn, -⟩ := Option.map_eq_some_iff.1 h
    cases tok with
    | nil => cases hc
    | cons d t =>
      simp only [List.head?_cons, Option.some.injEq] at hm
      rcases List.mem_cons.1 hc with rfl | hc
      · exact .inl hm
      · exact .inr (hd hn c hc)
  · obtain ⟨n, hn, -⟩ := Option.map_eq_some_iff.1 h
    exact .inr (hd hn c hc)

/-- **A token of a scalar is classified and read as that scalar.** -/
theorem parseScalarValueToken_isScalar {s : ScalarValue} (h : IsScalar s tok)
    (parseDouble : Bytes → Option Double) : parseScalarValueToken parseDouble tok = some s := by
  cases h with
  | null => rfl
  | bool b => cases b <;> rfl
  | @text s _ ht =>
    have hv := isText_value ht
    obtain ⟨b, hb, rfl⟩ := ht
    unfold parseScalarValueToken
    simp only [trim_value_self hv, decodeJsonString_quoted hb]
    simp [Rfc8259.quoted]
  | @int i _ hi =>
    obtain ⟨hv, hr⟩ := hi
    have hch := fun c hc => readInt_no_point hr (c := c) hc
    have hne : tok ≠ [] := fun he => by subst he; cases hr
    have hnot : ∀ {c : UInt8}, c ≠ 0x2D → Decimal.isDigit c = false → c ∉ tok := fun h1 h2 hc => by
      rcases hch _ hc with h | h
      · exact h1 h
      · rw [h] at h2; cases h2
    have hlit : ∀ {l : Bytes}, (∃ c ∈ l, c ≠ 0x2D ∧ Decimal.isDigit c = false) → tok ≠ l := by
      rintro l ⟨c, hc, h1, h2⟩ he
      exact hnot h1 h2 (he ▸ hc)
    have hq : tok.head? ≠ some 0x22 := fun he =>
      hnot (by decide) (by decide) (List.mem_of_head? he)
    have hexp : tok.any (fun c => c == 0x2E || c == 0x65 || c == 0x45) = false := by
      rw [List.any_eq_false]
      intro c hc h
      simp only [Bool.or_eq_true, beq_iff_eq] at h
      rcases h with (rfl | rfl) | rfl <;> exact hnot (by decide) (by decide) hc
    unfold parseScalarValueToken
    simp only [trim_value_self hv]
    rw [if_neg hne, if_neg hq, if_neg (hlit (by decide)), if_neg (hlit (by decide)),
      if_neg (hlit (by decide)), hexp, parseInt64_of hv hr]
    rfl

end Phi.Wire
