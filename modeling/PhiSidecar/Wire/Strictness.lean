import PhiSidecar.Wire.ScanSound

/-!
# How strict the object parser is (`sidecar.cpp`: `parseObjectMembers`)

The parser returns at the brace that closes the object, whatever stands behind it, and it passes over
the strings and numbers of an object as tokens (`Token`). So what it accepts is a JSON object only if
the text gives no occasion for either.

* `accepted_object_iff`: **a text that the parser accepts is one JSON object if and only if the scanner of
  objects ends at its last byte and the text consists of tokens of RFC 8259**.
* `accepts_trailing`: a request with bytes behind the object is accepted.
-/

set_option autoImplicit false

namespace Phi.Wire

open Phi.V1
open Rfc8259 (Ws Member Lexical Value objText)
open Cursor

/-- The bytes are one JSON object. -/
def IsObject (v : Bytes) : Prop := Value v ∧ v.head? = some 0x7B

/-- The scanner goes to the end of the object that a text begins with. -/
theorem skipObjectToken_span_complete {text pad : Bytes} {ms : List Member} {j : Nat} (hp : Ws pad)
    (hms : Members ms) (h : Span text 0 j (objText pad ms)) :
    skipObjectToken text (scanFuel text) 0 = .ok j := by
  obtain ⟨rest, hat, -⟩ := id h
  have hlen : j = 0 + (objText pad ms).length := h.length
  rw [hlen]
  exact skipObjectToken_objText hp hms.2 hms.1 (fun m hm => skipValueToken_token (hms.2 m hm)) hat
    (by rw [scanFuel]; omega)

theorem skipObjectToken_object {v : Bytes} (h : IsObject v) :
    skipObjectToken v (scanFuel v) 0 = .ok v.length := by
  obtain ⟨hv, hbrace⟩ := h
  obtain ⟨ms, pad, hp, hms, rfl⟩ := objectSpan_of_token (token_value hv) hbrace
  refine skipObjectToken_span_complete hp hms ?_
  have hspan := At.span (s := []) (At.start (objText pad ms ++ []))
  rw [List.append_nil, Nat.zero_add] at hspan
  exact hspan

/-- What the scanner goes over is an object, if its tokens are. -/
theorem isObject_of_scan {v : Bytes} {fuel : Nat} (h : skipObjectToken v fuel 0 = .ok v.length)
    (hlex : Lexical v) : IsObject v := by
  obtain ⟨pad, ms, hp, hms, hspan⟩ := skipObjectToken_span h
  have hv : v = objText pad ms := by
    rw [← hspan, slice, List.drop_zero, Nat.sub_zero, List.take_length]
  have htoken : Token v := hv ▸ .obj hp hms.1 hms.2
  refine ⟨(htoken.value_iff fun _ => NumberToken.numeric).2 hlex, ?_⟩
  rw [hv]
  rfl

/-- **Where the parser is sound.** The text begins with an object, which ends at `j`. -/
theorem accepted_object_iff {text : Bytes} {m : MemberMap} (h : parseObjectMembers text = .ok m) :
    ∃ j, skipObjectToken (trim text) (scanFuel (trim text)) 0 = .ok j ∧
      (IsObject (trim text) ↔ j = (trim text).length ∧ Lexical (trim text)) := by
  obtain ⟨pad, kms, j, hp, -, -, hms, hspan⟩ := parseObjectMembers_span h
  have hscan := skipObjectToken_span_complete hp hms hspan
  refine ⟨j, hscan, ?_, ?_⟩
  · intro hobj
    have hend := skipObjectToken_object hobj
    rw [hscan] at hend
    have hlex := hobj.1.lexical (r := []) nofun .nil
    rw [List.append_nil] at hlex
    exact ⟨Except.ok.inj hend, hlex⟩
  · rintro ⟨rfl, hlex⟩
    exact isObject_of_scan hscan hlex

/-- A request with whitespace around it. -/
def spacedRequest : Bytes := lit " \x7b\"command\":513\x7d "

/-- A request with a letter behind the object. -/
def trailingRequest : Bytes := lit "\x7b\"command\":513\x7d x"

theorem request_parse :
    parseObjectMembers spacedRequest = .ok ⟨[(lit "command", lit "513")]⟩ ∧
    parseObjectMembers trailingRequest = .ok ⟨[(lit "command", lit "513")]⟩ ∧
    skipObjectToken (trim trailingRequest) (scanFuel (trim trailingRequest)) 0 = .ok 15 ∧
    (trim trailingRequest).length = 17 := by
  decide +kernel

theorem accepted_object_iff_spaced :
    ∃ j, skipObjectToken (trim spacedRequest) (scanFuel (trim spacedRequest)) 0 = .ok j ∧
      (IsObject (trim spacedRequest) ↔ j = (trim spacedRequest).length ∧ Lexical (trim spacedRequest)) :=
  accepted_object_iff request_parse.1

theorem accepts_trailing : ¬∀ text m, parseObjectMembers text = .ok m → IsObject (trim text) := by
  intro hall
  obtain ⟨-, hparse, hscan, hlength⟩ := request_parse
  have hend := skipObjectToken_object (hall _ _ hparse)
  rw [hscan, hlength] at hend
  cases hend

end Phi.Wire
