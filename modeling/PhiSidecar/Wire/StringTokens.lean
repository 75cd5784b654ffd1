import PhiSidecar.Wire.MembersProof

/-!
# String tokens (`sidecar.cpp`: `skipStringToken` against `decodeJsonString`)

`skipStringToken` finds the end of a string without a look at its escapes, and `decodeJsonString` looks
at them and at nothing else. So they agree on where a string ends, and the raw bytes are kept.

* `skipStringToken_ok`: what the scanner accepts is a body between quotes (`Enclosed`).
* `decodeChars_ok`: what the decoder gives is what the body means.
* `decodeJsonString_exact`: **a token decodes if and only if its escapes are those of RFC 8259 with
  paired surrogates, it decodes to what it means, and UTF-8 decodes to UTF-8**.
-/

set_option autoImplicit false

namespace Phi.Wire

open Phi.V1
open Rfc8259 (Denotes Enclosed Escapes Meaning Utf8)
open Cursor

/-! ## The scanner -/

theorem skipStringBody_ok {s : Bytes} {i j : Nat} (h : skipStringBody s i = .ok j) :
    ∃ b rest, Enclosed b ∧ s = b ++ 0x22 :: rest ∧ j = i + b.length + 1 := by
  fun_induction skipStringBody s i with
  | case1 => cases h
  | case2 i rest =>
    cases h
    exact ⟨[], _, .nil, rfl, rfl⟩
  | case3 => cases h
  | case4 i _ _ _ ih =>
    obtain ⟨b, rest, hb, rfl, rfl⟩ := ih h
    refine ⟨0x5C :: _ :: b, rest, .esc hb, rfl, ?_⟩
    simp only [List.length_cons]
    omega
  | case5 i _ _ h22 h5C ih =>
    obtain ⟨b, rest, hb, rfl, rfl⟩ := ih h
    refine ⟨_ :: b, rest, .raw ⟨h22, h5C⟩ hb, rfl, ?_⟩
    simp only [List.length_cons]
    omega

theorem skipStringToken_ok {text : Bytes} {i j : Nat} (h : skipStringToken text i = .ok j) :
    ∃ b rest, Enclosed b ∧ At text i (Rfc8259.quoted b ++ rest) ∧
      j = i + (Rfc8259.quoted b).length := by
  unfold skipStringToken at h
  split at h
  · next hq =>
    obtain ⟨b, rest, hb, hrest, rfl⟩ := skipStringBody_ok h
    obtain ⟨hlt, hget⟩ := List.getElem?_eq_some_iff.1 hq
    refine ⟨b, rest, hb, ⟨Nat.le_of_lt hlt, ?_⟩, ?_⟩
    · rw [List.drop_eq_getElem_cons hlt, hget, hrest]
      simp [Rfc8259.quoted]
    · simp only [Rfc8259.quoted, List.length_cons, List.length_append, List.length_nil]
      omega
  · cases h

/-! ## The decoder -/

theorem parseHex4_eq (a b c d : UInt8) : parseHex4 a b c d = Rfc8259.hex4 a b c d := by
  cases h : Rfc8259.hex4 a b c d with
  | some u => exact parseHex4_of h
  | none =>
    simp only [parseHex4, List.foldlM_cons, List.foldlM_nil, hexDigit_eq]
    simp only [Rfc8259.hex4] at h
    cases ha : Rfc8259.hexVal a <;> cases hb : Rfc8259.hexVal b <;> cases hc : Rfc8259.hexVal c <;>
      cases hd : Rfc8259.hexVal d <;> simp_all

/-- The escapes that `decodeChars` takes. -/
inductive EscapeStep (e x : UInt8) (s t : Bytes) : Prop
  | esc {b t'} : escapeByte e = some b → decodeChars (x :: s) = .ok t' → t = b :: t' →
      EscapeStep e x s t
  | unicode {b c d r u t'} : e = 0x75 → s = b :: c :: d :: r → parseHex4 x b c d = some u →
      u < 0xD800 ∨ 0xDFFF < u → decodeChars r = .ok t' → t = appendUtf8 u ++ t' → EscapeStep e x s t
  | pair {b c d a' b' c' d' r hi lo t'} : e = 0x75 →
      s = b :: c :: d :: 0x5C :: 0x75 :: a' :: b' :: c' :: d' :: r → parseHex4 x b c d = some hi →
      parseHex4 a' b' c' d' = some lo → 0xD800 ≤ hi → hi ≤ 0xDBFF → 0xDC00 ≤ lo → lo ≤ 0xDFFF →
      decodeChars r = .ok t' →
      t = appendUtf8 (0x10000 + (hi - 0xD800) <<< 10 + (lo - 0xDC00)) ++ t' → EscapeStep e x s t

theorem map_eq_ok {ε α β : Type} {f : α → β} {x : Except ε α} {b : β} (h : x.map f = .ok b) :
    ∃ a, x = .ok a ∧ b = f a := by
  cases x with
  | error => cases h
  | ok a =>
    cases h
    exact ⟨a, rfl, rfl⟩

theorem decodeChars_escape {e x : UInt8} {s t : Bytes}
    (h : decodeChars (0x5C :: e :: x :: s) = .ok t) : EscapeStep e x s t := by
  rw [decodeChars.eq_def] at h
  simp only [ne_eq, not_true_eq_false, if_false] at h
  split at h
  · next he =>
    split at h
    · next b c d r =>
      split at h
      · cases h
      · next u hu =>
        split at h
        · next hhigh =>
          split at h
          · split at h
            · cases h
            · next hnext =>
              split at h
              · cases h
              · split at h
                · cases h
                · next lo hlo hrange =>
                  obtain ⟨t', ht', ht⟩ := map_eq_ok h
                  simp only [not_or, not_not] at hnext
                  obtain ⟨rfl, rfl⟩ := hnext
                  have hlow : 0xDC00 ≤ lo ∧ lo ≤ 0xDFFF := by omega
                  exact .pair he rfl hu hlo hhigh.1 hhigh.2 hlow.1 hlow.2 ht' ht
          · cases h
        · split at h
          · cases h
          · obtain ⟨t', ht', rfl⟩ := map_eq_ok h
            exact .unicode he rfl hu (by omega) ht' rfl
    · cases h
  · split at h
    · cases h
    · next b hb =>
      obtain ⟨t', ht', rfl⟩ := map_eq_ok h
      exact .esc hb ht' rfl

theorem decodeChars_ok {b t : Bytes} (hb : Enclosed b) (h : decodeChars (b ++ [0x22]) = .ok t) :
    Meaning b t := by
  induction hn : b.length using Nat.strong_induction_on generalizing b t with
  | _ n ih =>
    subst hn
    cases hb with
    | nil =>
      cases h
      exact .nil
    | @raw c s hc hs =>
      obtain ⟨x, r, hx⟩ := List.exists_cons_of_ne_nil (List.concat_ne_nil 0x22 s)
      rw [List.cons_append, hx, decodeChars_plain r hc.2, ← hx] at h
      obtain ⟨t', ht', rfl⟩ := map_eq_ok h
      exact .raw hc (ih s.length (Nat.lt_succ_self _) hs ht' rfl)
    | @esc e s hs =>
      obtain ⟨x, r, hx⟩ := List.exists_cons_of_ne_nil (List.concat_ne_nil 0x22 s)
      rw [List.cons_append, List.cons_append, hx] at h
      cases decodeChars_escape h with
      | esc he ht' ht =>
        rw [← hx] at ht'
        rw [ht]
        exact .esc he (ih s.length (by simp only [List.length_cons]; omega) hs ht' rfl)
      | @unicode b c d r u t' he hr hu hsur ht' ht =>
        subst he hr ht
        rw [parseHex4_eq] at hu
        obtain ⟨s, rfl, rfl, hs⟩ := hs.peel_hex4 hu hx
        have hlt := Rfc8259.hex4_lt hu
        obtain ⟨ch, rfl⟩ := Rfc8259.exists_char hsur (by omega)
        rw [appendUtf8_char]
        exact .unicode hu (ih s.length (by simp only [List.length_cons]; omega) hs ht' rfl)
      | @pair b c d a' b' c' d' r hi lo t' he hr hh hl h1 h2 h3 h4 ht' ht =>
        subst he hr
        rw [parseHex4_eq] at hh hl
        obtain ⟨s, rfl, hnext, hs⟩ := hs.peel_hex4 hh hx
        obtain ⟨s, rfl, hnext, hs⟩ := hs.peel_esc hnext.symm
        obtain ⟨s, rfl, rfl, hs⟩ := hs.peel_hex4 hl hnext.symm
        obtain ⟨ch, hch⟩ := Rfc8259.exists_char
          (u := 0x10000 + (hi - 0xD800) * 0x400 + (lo - 0xDC00)) (.inr (by omega)) (by omega)
        rw [ht, Nat.shiftLeft_eq, show (2 : Nat) ^ 10 = 0x400 from rfl, ← hch, appendUtf8_char]
        exact .pair hh hl h1 h2 h3 h4 hch
          (ih s.length (by simp only [List.length_cons]; omega) hs ht' rfl)

/-- **A string token is decoded exactly.** If no control character stands in it unescaped, the grammar
says the same of it. -/
theorem decodeJsonString_exact {text : Bytes} {i j : Nat} (h : skipStringToken text i = .ok j) :
    ∃ body, slice text i j = Rfc8259.quoted body ∧
      ((∃ value, decodeJsonString (slice text i j) = .ok value) ↔ Escapes body) ∧
      ∀ value, (decodeJsonString (slice text i j) = .ok value ↔ Meaning body value) ∧
        (decodeJsonString (slice text i j) = .ok value →
          ((∀ c ∈ body, 0x20 ≤ c) → Denotes body value) ∧
          (Utf8 (slice text i j) → Utf8 value)) := by
  obtain ⟨body, rest, hbody, hat, rfl⟩ := skipStringToken_ok h
  have hiff (value : Bytes) : decodeChars (body ++ [0x22]) = .ok value ↔ Meaning body value :=
    ⟨decodeChars_ok hbody, decodeChars_meaning⟩
  rw [slice_at hat, decodeJsonString_eq]
  refine ⟨body, rfl, ⟨?_, ?_⟩, ?_⟩
  · rintro ⟨value, hvalue⟩
    exact ((hiff value).1 hvalue).escapes
  · intro hescapes
    obtain ⟨value, hvalue⟩ := hescapes.meaning
    exact ⟨value, (hiff value).2 hvalue⟩
  · intro value
    refine ⟨hiff value, fun hvalue => ?_⟩
    have hmeaning := (hiff value).1 hvalue
    exact ⟨hmeaning.denotes, fun hutf8 => hmeaning.utf8 (Rfc8259.utf8_quoted hutf8)⟩

/-- A letter, the last code point of two bytes, a pair, and an escape right before the quote. -/
def escapedToken : Bytes := lit "\"a\\u07ff\\ud83d\\ude00\\n\","

theorem escapedToken_scan : skipStringToken escapedToken 0 = .ok 23 := by decide +kernel

theorem decodeJsonString_exact_escaped :
    ∃ body, slice escapedToken 0 23 = Rfc8259.quoted body ∧
      ((∃ value, decodeJsonString (slice escapedToken 0 23) = .ok value) ↔ Escapes body) ∧
      ∀ value, (decodeJsonString (slice escapedToken 0 23) = .ok value ↔ Meaning body value) ∧
        (decodeJsonString (slice escapedToken 0 23) = .ok value →
          ((∀ c ∈ body, 0x20 ≤ c) → Denotes body value) ∧
          (Utf8 (slice escapedToken 0 23) → Utf8 value)) :=
  decodeJsonString_exact escapedToken_scan

/-! ## Keys -/

theorem meaning_self {b : Bytes} (h : Enclosed b) (hb : 0x5C ∉ b) : Meaning b b := by
  induction h with
  | nil => exact .nil
  | raw hc _ ih => exact .raw hc (ih fun hm => hb (.tail _ hm))
  | esc _ _ => exact absurd (.head _) hb

/-- The key of a member is what its text means. -/
theorem memberKey_iff {b key : Bytes} (hb : Enclosed b) :
    memberKey (Rfc8259.quoted b) = .ok key ↔ Meaning b key := by
  refine ⟨fun h => ?_, memberKey_quoted⟩
  rw [memberKey_eq] at h
  split at h
  · exact decodeChars_ok hb h
  · next hesc =>
    cases h
    exact meaning_self hb hesc

end Phi.Wire
