import PhiSidecar.Dispatcher.Request
import PhiSidecar.Wire.ScanSound

/-!
# Nested objects (`sidecar.cpp`: `skipObjectToken` against `parseObjectMembers`)

An object that is a member of another one is gone over twice: by the scanner, which finds its end, and
by the parser, when the request is handled. The parser also decodes the keys, and a payload that does
not parse has no members.

* `parseObjectMembers_objectSpan`: on what the scanner accepts the parser reads the same members, up to the
  first key that does not decode.
* `scanner_parser_agree`: **the parser accepts exactly the span that the scanner accepted, if the
  escapes of its keys are those of RFC 8259 with paired surrogates, and otherwise rejects it; arrays it
  always accepts. So a nested object loses its members for such a key only**.
* `scanner_parser_differ`: the payload of a request with such a key is dropped.
-/

set_option autoImplicit false

namespace Phi.Dispatcher

open Phi.V1 Phi.Wire
open Rfc8259 (Ws Elem Member Enclosed Escapes Meaning arrText objText)

/-! ## Reading members -/

/-- The map has all the members, each under what its key means; the last one of a key counts. -/
def Reading (ms : List Member) (map : MemberMap) : Prop :=
  ∃ kms : List Keyed, kms.map Prod.snd = ms ∧ (∀ p ∈ kms, Meaning p.2.key p.1) ∧ map = insertAll {} kms

theorem readMembers_iff {ms : List Member} {out map : MemberMap} (h : ∀ m ∈ ms, Enclosed m.key) :
    readMembers out ms = .ok map ↔ ∃ kms : List Keyed, kms.map Prod.snd = ms ∧
      (∀ p ∈ kms, Meaning p.2.key p.1) ∧ map = insertAll out kms := by
  induction ms generalizing out with
  | nil =>
    constructor
    · intro he
      cases he
      exact ⟨[], rfl, List.forall_mem_nil _, rfl⟩
    · rintro ⟨kms, hkms, -, rfl⟩
      rw [List.map_eq_nil_iff.1 hkms]
      rfl
  | cons m ms ih =>
    obtain ⟨hm, hms⟩ := List.forall_mem_cons.1 h
    rw [readMembers_cons]
    constructor
    · intro he
      obtain ⟨key, hkey, he⟩ := ok_of_bind he
      obtain ⟨kms, rfl, hmeaning, rfl⟩ := (ih hms).1 he
      exact ⟨(key, m) :: kms, rfl, List.forall_mem_cons.2 ⟨(memberKey_iff hm).1 hkey, hmeaning⟩, rfl⟩
    · rintro ⟨kms, hkms, hmeaning, rfl⟩
      obtain ⟨⟨key, n⟩, kms, rfl, rfl, rfl⟩ := List.map_eq_cons_iff.1 hkms
      obtain ⟨hkey, hmeaning⟩ := List.forall_mem_cons.1 hmeaning
      rw [(memberKey_iff hm).2 hkey]
      exact (ih hms).2 ⟨kms, rfl, hmeaning, rfl⟩

/-- There is a reading if and only if every key decodes. -/
theorem reading_iff (ms : List Member) : (∃ map, Reading ms map) ↔ ∀ m ∈ ms, Escapes m.key := by
  constructor
  · rintro ⟨_, kms, rfl, hmeaning, -⟩ m hm
    obtain ⟨p, hp, rfl⟩ := List.mem_map.1 hm
    exact (hmeaning p hp).escapes
  · intro h
    suffices ∃ kms : List Keyed, kms.map Prod.snd = ms ∧ ∀ p ∈ kms, Meaning p.2.key p.1 by
      obtain ⟨kms, hkms, hmeaning⟩ := this
      exact ⟨_, kms, hkms, hmeaning, rfl⟩
    induction ms with
    | nil => exact ⟨[], rfl, List.forall_mem_nil _⟩
    | cons m ms ih =>
      obtain ⟨hm, hms⟩ := List.forall_mem_cons.1 h
      obtain ⟨key, hkey⟩ := hm.meaning
      obtain ⟨kms, rfl, hmeaning⟩ := ih hms
      exact ⟨(key, m) :: kms, rfl, List.forall_mem_cons.2 ⟨hkey, hmeaning⟩⟩

/-! ## Spans -/

theorem parseObjectMembers_objectSpan {span : Bytes} {ms : List Member} (h : ObjectSpan span ms) :
    parseObjectMembers span = readMembers {} ms := by
  obtain ⟨pad, hp, hms, rfl⟩ := h
  have hparse := parseObjectMembers_token Ws.nil Ws.nil hp hms.1 hms.2
  rwa [List.nil_append, List.append_nil] at hparse

/-- The parser reads the object, if its keys decode. -/
def ReadsSpan (span : Bytes) : Prop :=
  ∃ ms, ObjectSpan span ms ∧ (∀ map, parseObjectMembers span = .ok map ↔ Reading ms map) ∧
    ((∃ map, parseObjectMembers span = .ok map) ↔ ∀ m ∈ ms, Escapes m.key)

theorem objectSpan_reads {span : Bytes} {ms : List Member} (h : ObjectSpan span ms) : ReadsSpan span := by
  have ⟨_, _, hms, _⟩ := h
  have hiff : ∀ map, parseObjectMembers span = .ok map ↔ Reading ms map := fun map => by
    rw [parseObjectMembers_objectSpan h]
    exact readMembers_iff fun m hm => (hms.1 m hm).2
  refine ⟨ms, h, hiff, ?_⟩
  rw [← reading_iff]
  exact exists_congr hiff

theorem ne_nil_of_head {v : Bytes} {c : UInt8} (h : v.head? = some c) : v ≠ [] := by
  rintro rfl
  cases h

/-- An object in a map of members. -/
theorem reads_member {text key : Bytes} {map : MemberMap} (h : parseObjectMembers text = .ok map)
    (hbrace : (member map key).head? = some 0x7B) : ReadsSpan (member map key) := by
  have hvalue := (parseObjectMembers_tokens h).member (ne_nil_of_head hbrace)
  obtain ⟨ms, hms⟩ := objectSpan_of_token hvalue hbrace
  exact objectSpan_reads hms

theorem reads_span {text : Bytes} {fuel i j : Nat} (h : skipObjectToken text fuel i = .ok j) :
    ReadsSpan (slice text i j) := by
  obtain ⟨pad, ms, hp, hms, hspan⟩ := skipObjectToken_span h
  exact objectSpan_reads ⟨pad, hp, hms, hspan⟩

theorem parseArrayElements_span {text : Bytes} {fuel i j : Nat} (h : skipArrayToken text fuel i = .ok j) :
    ∃ pad es, Ws pad ∧ Elements es ∧ slice text i j = arrText pad es ∧
      parseArrayElements (slice text i j) = .ok (es.map Elem.val) := by
  obtain ⟨pad, es, hp, hes, hspan⟩ := skipArrayToken_span h
  have hparse := parseArrayElements_token Ws.nil Ws.nil hp
    fun e he => ⟨hes.2 e he, hes.1 e he⟩
  rw [List.nil_append, List.append_nil] at hparse
  exact ⟨pad, es, hp, hes, hspan, by rw [hspan, hparse]⟩

/-! ## Requests -/

/-- The members of the payload are those of the payload object, unless a key of it does not decode. -/
theorem requestPayloadMap_reading {payload : Bytes} {root : MemberMap}
    (h : parseObjectMembers payload = .ok root)
    (hbrace : (member root (lit "payload")).head? = some 0x7B) :
    ∃ ms, ObjectSpan (member root (lit "payload")) ms ∧
      ((∀ m ∈ ms, Escapes m.key) → Reading ms (requestPayloadMap root)) ∧
      ((∃ m ∈ ms, ¬Escapes m.key) → requestPayloadMap root = {}) := by
  obtain ⟨ms, hms, hmap, hiff⟩ := reads_member h hbrace
  have htoken : requestPayloadToken root = member root (lit "payload") := if_neg (ne_nil_of_head hbrace)
  rw [requestPayloadMap, htoken]
  refine ⟨ms, hms, fun hescapes => ?_, ?_⟩
  · obtain ⟨map, hok⟩ := hiff.2 hescapes
    rw [hok]
    exact (hmap map).1 hok
  · rintro ⟨m, hm, hbad⟩
    cases hok : parseObjectMembers (member root (lit "payload")) with
    | ok map => exact absurd (hiff.1 ⟨map, hok⟩ m hm) hbad
    | error => rfl

/-- A key of an object of a request decodes, or the object is dropped. -/
theorem requestPayloadMap_parsed (root : MemberMap) :
    requestPayloadMap root = {} ∨
      parseObjectMembers (requestPayloadToken root) = .ok (requestPayloadMap root) := by
  rw [requestPayloadMap]
  cases hok : parseObjectMembers (requestPayloadToken root) with
  | ok map => exact .inr rfl
  | error => exact .inl rfl

/-- **The scanners and the parsers agree**, but for keys that do not decode. -/
theorem scanner_parser_agree :
    (∀ text fuel i j, skipObjectToken text fuel i = .ok j → ReadsSpan (slice text i j)) ∧
      (∀ text fuel i j, skipArrayToken text fuel i = .ok j →
        ∃ pad es, Ws pad ∧ Elements es ∧ slice text i j = arrText pad es ∧
          parseArrayElements (slice text i j) = .ok (es.map Elem.val)) ∧
      ∀ payload root, parseObjectMembers payload = .ok root →
        ((member root (lit "payload")).head? = some 0x7B →
          ∃ ms, ObjectSpan (member root (lit "payload")) ms ∧
            ((∀ m ∈ ms, Escapes m.key) → Reading ms (requestPayloadMap root)) ∧
            ((∃ m ∈ ms, ¬Escapes m.key) → requestPayloadMap root = {})) ∧
        ((member (requestPayloadMap root) (lit "adapter")).head? = some 0x7B →
          ReadsSpan (member (requestPayloadMap root) (lit "adapter"))) := by
  refine ⟨fun _ _ _ _ h => reads_span h, fun _ _ _ _ h => parseArrayElements_span h, ?_⟩
  intro payload root h
  refine ⟨requestPayloadMap_reading h, fun hbrace => ?_⟩
  obtain hempty | hparsed := requestPayloadMap_parsed root
  · rw [hempty] at hbrace
    cases hbrace
  · exact reads_member hparsed hbrace

/-- A request whose payload has the key `a`, written as an escape. -/
def escapedRequest : Bytes := lit "\x7b\"payload\":\x7b\"\\u0061\":[1]\x7d\x7d"

def escapedRoot : MemberMap := ⟨[(lit "payload", slice escapedRequest 11 25)]⟩

theorem escapedRequest_parse : skipObjectToken escapedRequest 20 11 = .ok 25 ∧
    parseObjectMembers escapedRequest = .ok escapedRoot ∧
    (member escapedRoot (lit "payload")).head? = some 0x7B := by
  decide +kernel

theorem scanner_parser_agree_escaped :
    ReadsSpan (slice escapedRequest 11 25) ∧
      ∃ ms, ObjectSpan (member escapedRoot (lit "payload")) ms ∧
        ((∀ m ∈ ms, Escapes m.key) → Reading ms (requestPayloadMap escapedRoot)) ∧
        ((∃ m ∈ ms, ¬Escapes m.key) → requestPayloadMap escapedRoot = {}) := by
  obtain ⟨hscan, hparse, hbrace⟩ := escapedRequest_parse
  exact ⟨scanner_parser_agree.1 _ _ _ _ hscan, (scanner_parser_agree.2.2 _ _ hparse).1 hbrace⟩

/-- A payload with a key that has no such escape. -/
def badPayload : Bytes := lit "\x7b\"externalId\":\"a\",\"\\x\":1\x7d"

def badRequest : Bytes := lit "\x7b\"command\":513,\"payload\":" ++ badPayload ++ [0x7D]

def badRoot : MemberMap := ⟨[(lit "command", lit "513"), (lit "payload", badPayload)]⟩

theorem badRequest_parse : skipObjectToken badPayload 10 0 = .ok badPayload.length ∧
    parseObjectMembers badPayload = .error (lit "Unsupported JSON escape") ∧
    parseObjectMembers badRequest = .ok badRoot ∧ member badRoot (lit "payload") = badPayload ∧
    slice badPayload 0 badPayload.length = badPayload ∧ badPayload.head? = some 0x7B := by
  decide +kernel

/-- The scanner accepts the payload and the parser does not, so that the request has no `externalId`. -/
theorem scanner_parser_differ :
    (¬∀ text fuel i j, skipObjectToken text fuel i = .ok j →
      ∃ map, parseObjectMembers (slice text i j) = .ok map) ∧
    ¬∀ payload root, parseObjectMembers payload = .ok root →
      (member root (lit "payload")).head? = some 0x7B →
        ∃ map, parseObjectMembers (member root (lit "payload")) = .ok map := by
  obtain ⟨hscan, hbad, hparse, hpayload, hslice, hbrace⟩ := badRequest_parse
  constructor
  · intro hall
    obtain ⟨map, hmap⟩ := hall _ _ _ _ hscan
    rw [hslice, hbad] at hmap
    cases hmap
  · intro hall
    obtain ⟨map, hmap⟩ := hall _ _ hparse (hpayload ▸ hbrace)
    rw [hpayload, hbad] at hmap
    cases hmap

end Phi.Dispatcher
