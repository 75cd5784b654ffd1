import Mathlib.Data.Nat.Bitwise
import PhiSidecar.Lib.JsonString
import PhiSidecar.Wire.Members
import PhiSidecar.Wire.ScanProof

/-!
# The member and element parsers on JSON text

* `decodeJsonString_quoted`: a string token decodes to the bytes it denotes (`Rfc8259.Denotes`).
* `parseObjectMembers_objText`: an object of any layout parses to its members, in order, a later
  member overwriting an earlier one of the same key; with distinct keys the entries are the members
  themselves (`entries_of_nodup`).
* `parseArrayElements_arrText`: an array of any layout parses to its elements.
-/

set_option autoImplicit false

namespace Phi.Wire

open Rfc8259 (Ws Elem Member Enclosed Value Denotes Meaning)
open Cursor

/-! ## `trim` -/

theorem rdropWhile_ws {s w : Bytes} {c : UInt8} (hw : Ws w) (hc : isWs c = false) :
    (s ++ (c :: w)).rdropWhile isWs = s ++ [c] := by
  have hd : ∀ l : Bytes, (∀ x ∈ l, isWs x = true) → ∀ r, (l ++ r).dropWhile isWs = r.dropWhile isWs :=
    fun l hl r => by
      rw [List.dropWhile_append_of_pos hl]
  rw [List.rdropWhile, show (s ++ c :: w).reverse = w.reverse ++ (c :: s.reverse) by simp,
    hd _ (fun x hx => hw x (List.mem_reverse.1 hx))]
  simp [hc]

theorem trim_token {v w w' : Bytes} (hv : Token v) (hw : Ws w) (hw' : Ws w') :
    trim (w ++ (v ++ w')) = v := by
  obtain ⟨c, s, hvs, hc, -⟩ := hv.head
  obtain ⟨t, d, hvt, hd⟩ := Rfc8259.Outline.last (fun _ => NumberToken.numeric) hv
  have h1 : (w ++ (v ++ w')).dropWhile isWs = v ++ w' := by
    have hc' : ¬isWs c = true := by rw [hc]; decide
    rw [List.dropWhile_append_of_pos (p := isWs) hw, hvs, List.cons_append,
      List.dropWhile_cons_of_neg hc']
  rw [trim, h1, hvt, List.append_assoc, List.singleton_append, rdropWhile_ws hw' hd]

@[simp] theorem trim_token_self {v : Bytes} (hv : Token v) : trim v = v := by
  have := trim_token hv .nil .nil
  rwa [List.nil_append, List.append_nil] at this

theorem trim_value {v w w' : Bytes} (hv : Value v) (hw : Ws w) (hw' : Ws w') :
    trim (w ++ (v ++ w')) = v := trim_token (token_value hv) hw hw'

@[simp] theorem trim_value_self {v : Bytes} (hv : Value v) : trim v = v :=
  trim_token_self (token_value hv)

/-! ## Strings -/

theorem hexDigit_eq : hexDigit = Rfc8259.hexVal := rfl

theorem shl_or {a v : Nat} (h : v < 16) : a <<< 4 ||| v = a * 16 + v := by
  rw [Nat.shiftLeft_eq, Nat.mul_comm, ← Nat.two_pow_add_eq_or_of_lt (i := 4) h, Nat.mul_comm]

theorem parseHex4_of {a b c d : UInt8} {u : Nat} (h : Rfc8259.hex4 a b c d = some u) :
    parseHex4 a b c d = some u := by
  simp only [Rfc8259.hex4, Option.bind_eq_bind, Option.bind_eq_some_iff, Option.pure_def] at h
  obtain ⟨va, ha, vb, hb, vc, hc, vd, hd, hu⟩ := h
  simp only [parseHex4, List.foldlM_cons, List.foldlM_nil, hexDigit_eq, ha, hb, hc, hd,
    Option.map_some, Option.bind_eq_bind, Option.bind_some, Option.pure_def, ← hu,
    shl_or (Rfc8259.hexVal_lt ha), shl_or (Rfc8259.hexVal_lt hb), shl_or (Rfc8259.hexVal_lt hc),
    shl_or (Rfc8259.hexVal_lt hd)]
  simp

/-- `appendUtf8` is the UTF-8 form of a code point. -/
theorem appendUtf8_char (ch : Char) : appendUtf8 ch.toNat = String.utf8EncodeChar ch := by
  have hor : ∀ i a b : Nat, b < 2 ^ i → 2 ^ i * a ||| b = 2 ^ i * a + b :=
    fun i a b hb => (Nat.two_pow_add_eq_or_of_lt hb a).symm
  have hlt : ch.toNat < 0x110000 := by
    have := ch.valid
    simp only [UInt32.isValidChar, Nat.isValidChar] at this
    show ch.val.toNat < _
    omega
  have h3F : ∀ n : Nat, n &&& 0x3F = n % 64 := fun n => Nat.and_two_pow_sub_one_eq_mod n 6
  have h80 : ∀ n : Nat, 0x80 ||| n % 64 = 0x80 + n % 64 :=
    fun n => hor 6 2 _ (Nat.mod_lt _ (by decide))
  have hC0 : ∀ n : Nat, n < 32 → 0xC0 ||| n = 0xC0 + n := fun n hn => hor 6 3 _ (by omega)
  have hE0 : ∀ n : Nat, n < 16 → 0xE0 ||| n = 0xE0 + n := fun n hn => hor 4 14 _ (by omega)
  have hF0 : ∀ n : Nat, n < 8 → 0xF0 ||| n = 0xF0 + n := fun n hn => hor 3 30 _ (by omega)
  have hval : ch.val.toNat = ch.toNat := rfl
  unfold appendUtf8 String.utf8EncodeChar
  simp only [hval, Nat.shiftRight_eq_div_pow, h3F, h80]
  by_cases h1 : ch.toNat < 0x80
  · rw [if_pos h1, if_pos (show ch.toNat ≤ 0x7f by omega)]
  rw [if_neg h1, if_neg (show ¬ch.toNat ≤ 0x7f by omega)]
  by_cases h2 : ch.toNat < 0x800
  · rw [if_pos h2, if_pos (show ch.toNat ≤ 0x7ff by omega), hC0 _ (by omega)]
    simp only [List.cons.injEq, and_true]
    refine ⟨?_, ?_⟩ <;> congr 1 <;> omega
  rw [if_neg h2, if_neg (show ¬ch.toNat ≤ 0x7ff by omega)]
  by_cases h3 : ch.toNat < 0x10000
  · rw [if_pos h3, if_pos (show ch.toNat ≤ 0xffff by omega), hE0 _ (by omega)]
    simp only [List.cons.injEq, and_true]
    refine ⟨?_, ?_, ?_⟩ <;> congr 1 <;> omega
  · rw [if_neg h3, if_neg (show ¬ch.toNat ≤ 0xffff by omega), hF0 _ (by omega)]
    simp only [List.cons.injEq, and_true]
    refine ⟨?_, ?_, ?_, ?_⟩ <;> congr 1 <;> omega

theorem decodeChars_plain {c x : UInt8} (s : Bytes) (hc : c ≠ 0x5C) :
    decodeChars (c :: x :: s) = (decodeChars (x :: s)).map (c :: ·) := by
  rw [decodeChars.eq_def]
  simp only [ne_eq, hc, not_false_eq_true, if_true]

theorem decodeChars_esc {e b x : UInt8} (s : Bytes) (h : escapeByte e = some b) :
    decodeChars (0x5C :: e :: x :: s) = (decodeChars (x :: s)).map (b :: ·) := by
  have he : e ≠ 0x75 := fun he => by subst he; cases h
  rw [decodeChars.eq_def]
  simp only [ne_eq, not_true_eq_false, if_false, he, h]

theorem decodeChars_unicode {a b c d : UInt8} {u : Nat} (s : Bytes)
    (h : parseHex4 a b c d = some u) (hn : u < 0xD800 ∨ 0xDFFF < u) :
    decodeChars (0x5C :: 0x75 :: a :: b :: c :: d :: s) =
      (decodeChars s).map (appendUtf8 u ++ ·) := by
  rw [decodeChars.eq_def]
  simp only [ne_eq, not_true_eq_false, if_false, if_true, h]
  rw [if_neg (by omega), if_neg (by omega)]

theorem decodeChars_pair {a b c d a' b' c' d' : UInt8} {hi lo : Nat} (s : Bytes)
    (hh : parseHex4 a b c d = some hi) (hl : parseHex4 a' b' c' d' = some lo)
    (h1 : 0xD800 ≤ hi) (h2 : hi ≤ 0xDBFF) (h3 : 0xDC00 ≤ lo) (h4 : lo ≤ 0xDFFF) :
    decodeChars (0x5C :: 0x75 :: a :: b :: c :: d :: 0x5C :: 0x75 :: a' :: b' :: c' :: d' :: s) =
      (decodeChars s).map
        (appendUtf8 (0x10000 + (hi - 0xD800) <<< 10 + (lo - 0xDC00)) ++ ·) := by
  rw [decodeChars.eq_def]
  simp only [ne_eq, not_true_eq_false, if_false, if_true, hh, hl, h1, h2, and_self, or_self]
  rw [if_neg (by omega)]

/-- `decodeChars` on the body of a string and its closing quote. -/
theorem decodeChars_meaning {b t : Bytes} (h : Meaning b t) : decodeChars (b ++ [0x22]) = .ok t := by
  have hne : ∀ s : Bytes, ∃ x r, s ++ [0x22] = x :: r := fun s => by
    cases s with
    | nil => exact ⟨_, _, rfl⟩
    | cons x s => exact ⟨_, _, rfl⟩
  induction h with
  | nil => rfl
  | @raw c s t hc _ ih =>
    obtain ⟨x, r, hx⟩ := hne s
    rw [List.cons_append, hx, decodeChars_plain r hc.2, ← hx, ih]
    rfl
  | @esc e b s t he _ ih =>
    obtain ⟨x, r, hx⟩ := hne s
    rw [List.cons_append, List.cons_append, hx, decodeChars_esc r he, ← hx, ih]
    rfl
  | @unicode a b c d s t ch hu _ ih =>
    simp only [List.cons_append]
    rw [decodeChars_unicode _ (parseHex4_of hu) (Rfc8259.char_not_surrogate ch), ih, appendUtf8_char]
    rfl
  | pair hh hl h1 h2 h3 h4 hch _ ih =>
    simp only [List.cons_append]
    rw [decodeChars_pair _ (parseHex4_of hh) (parseHex4_of hl) h1 h2 h3 h4, ih,
      Nat.shiftLeft_eq, show (2 : Nat) ^ 10 = 0x400 from rfl, ← hch, appendUtf8_char]
    rfl

theorem decodeChars_denotes {b t : Bytes} (h : Denotes b t) : decodeChars (b ++ [0x22]) = .ok t :=
  decodeChars_meaning h.meaning

theorem trim_quoted (b : Bytes) : trim (Rfc8259.quoted b) = Rfc8259.quoted b := by
  have hquote : ¬isWs 0x22 = true := by decide
  rw [trim, Rfc8259.quoted, List.dropWhile_cons_of_neg hquote, ← List.cons_append]
  exact rdropWhile_ws .nil (by decide)

theorem decodeJsonString_eq (b : Bytes) :
    decodeJsonString (Rfc8259.quoted b) = decodeChars (b ++ [0x22]) := by
  unfold decodeJsonString
  rw [trim_quoted]
  have hlast : (Rfc8259.quoted b).getLast? = some 0x22 := by
    rw [Rfc8259.quoted, ← List.cons_append, List.getLast?_concat]
  rw [if_neg]
  · rfl
  · rintro (hc | hc | hc)
    · simp only [Rfc8259.quoted, List.length_cons, List.length_append, List.length_nil] at hc
      omega
    · exact hc rfl
    · exact hc hlast

/-- **A string token decodes to the bytes it denotes.** -/
theorem decodeJsonString_quoted {b t : Bytes} (h : Denotes b t) :
    decodeJsonString (Rfc8259.quoted b) = .ok t := by
  rw [decodeJsonString_eq, decodeChars_denotes h]

theorem decodeStringOrDefault_quoted {b t : Bytes} (h : Denotes b t) :
    decodeStringOrDefault (Rfc8259.quoted b) = t := by
  rw [decodeStringOrDefault, if_neg (by simp [Rfc8259.quoted]), decodeJsonString_quoted h]

/-- Without an escape a string body means itself. -/
theorem meaning_eq_of_no_escape {b t : Bytes} (h : Meaning b t) (hb : 0x5C ∉ b) : t = b := by
  induction h with
  | nil => rfl
  | raw _ _ ih => rw [ih fun hm => hb (.tail _ hm)]
  | _ => exact absurd (.head _) hb

/-- A key with an escape is decoded, any other is taken as it is. -/
theorem memberKey_eq (b : Bytes) :
    memberKey (Rfc8259.quoted b) = if 0x5C ∈ b then decodeChars (b ++ [0x22]) else .ok b := by
  have hmem : 0x5C ∈ Rfc8259.quoted b ↔ 0x5C ∈ b := by simp [Rfc8259.quoted]
  rw [memberKey]
  by_cases hb : 0x5C ∈ b
  · rw [if_neg (not_not.2 (hmem.2 hb)), if_pos hb, decodeJsonString_eq]
  · rw [if_pos (mt hmem.1 hb), if_neg hb]
    simp [Rfc8259.quoted]

theorem memberKey_quoted {b t : Bytes} (h : Meaning b t) : memberKey (Rfc8259.quoted b) = .ok t := by
  rw [memberKey_eq]
  split
  · exact decodeChars_meaning h
  · next hb => rw [meaning_eq_of_no_escape h hb]

/-! ## Objects -/

theorem slice_at {text a s : Bytes} {i : Nat} (h : At text i (a ++ s)) :
    slice text i (i + a.length) = a := by
  rw [slice, Nat.add_sub_cancel_left, h.slice]

theorem mapError_ok {ε ε' α : Type*} (f : ε → ε') (a : α) :
    (Except.ok a : Except ε α).mapError f = .ok a := rfl

/-- One round of the loop of `parseObjectMembers`. -/
theorem parseMembersLoop_round {text s : Bytes} {i fuel : Nat} {m : Member} {c : UInt8}
    {out : MemberMap} (hv : Token m.val) (hsp : m.Spaced ∧ Enclosed m.key)
    (hc : c = 0x2C ∨ c = 0x7D) (h : At text i (memberRest m ++ c :: s)) :
    parseMembersLoop text (fuel + 1) i out = memberKey (Rfc8259.quoted m.key) >>= fun key =>
      if c = 0x2C then
        parseMembersLoop text fuel (skipWs text (i + (memberRest m).length + 1))
          (out.insertOrAssign key m.val)
      else .ok (out.insertOrAssign key m.val) := by
  have hend := h.skip
  obtain ⟨⟨-, hak, hbv, haf⟩, hkey⟩ := hsp
  simp only [memberRest, List.append_assoc, List.cons_append] at h
  obtain ⟨hw1, hk1⟩ := skipWs_cons h.skip hak (by decide)
  obtain ⟨d, t, he, hws, -⟩ := hv.head
  have hw2 := skipWs_at hk1.next hbv fun x hx => by rw [he] at hx; cases hx; exact hws
  have hwc : isWs c = false := by rcases hc with rfl | rfl <;> decide
  have hk2 := hk1.next.skip
  obtain ⟨hw3, -⟩ := skipWs_cons hk2.skip haf hwc
  have hd : Delim (c :: s) := .cons (hc.imp_right .inr)
  have hpos : i + (memberRest m).length =
      i + (Rfc8259.quoted m.key).length + m.afterKey.length + 1 + m.beforeVal.length +
        m.val.length + m.after.length := by
    simp only [memberRest, List.length_append, List.length_cons]
    omega
  rw [parseMembersLoop, if_pos h.lt, skipStringToken_quoted h hkey]
  simp only [mapError_ok, bind, Except.bind, slice_at h, hw1, hk1.get_cons, if_true, hw2]
  rw [skipValueToken_token hv hk2 (hd.ws haf) (by rw [scanFuel]; omega)]
  simp only [mapError_ok, slice_at hk2, trim_token_self hv, hw3, ← hpos, hend.get_cons,
    Option.some.injEq]
  rcases hc with rfl | rfl
  · rfl
  · rfl

/-- Members inserted in order, each under the key that its text decodes to. -/
def readMembers (out : MemberMap) (ms : List Member) : Except Bytes MemberMap :=
  ms.foldlM (fun out m => (memberKey (Rfc8259.quoted m.key)).map (out.insertOrAssign · m.val)) out

theorem readMembers_cons (out : MemberMap) (m : Member) (ms : List Member) :
    readMembers out (m :: ms) = memberKey (Rfc8259.quoted m.key) >>= fun key =>
      readMembers (out.insertOrAssign key m.val) ms := by
  rw [readMembers, List.foldlM_cons]
  cases memberKey (Rfc8259.quoted m.key) <;> rfl

theorem parseMembersLoop_members {ms : List Member} {m : Member} {text rest : Bytes} {i fuel : Nat}
    {out : MemberMap} (hv : ∀ n ∈ m :: ms, Token n.val) (hsp : ∀ n ∈ m :: ms, n.Spaced ∧ Enclosed n.key)
    (h : At text i (memberRest m ++ (Rfc8259.commaTail (ms.map Member.text) ++ 0x7D :: rest)))
    (hf : ms.length < fuel) : parseMembersLoop text fuel i out = readMembers out (m :: ms) := by
  obtain ⟨f, rfl⟩ : ∃ f, fuel = f + 1 := ⟨fuel - 1, by omega⟩
  rw [readMembers_cons]
  induction ms generalizing m i f out with
  | nil =>
    simp only [List.map_nil, Rfc8259.commaTail, List.nil_append] at h
    rw [parseMembersLoop_round (hv _ (.head _)) (hsp _ (.head _)) (.inr rfl) h]
    rfl
  | cons n ms ih =>
    have htext : n.text = n.before ++ memberRest n := rfl
    simp only [List.map_cons, Rfc8259.commaTail, htext, List.cons_append, List.append_assoc] at h
    have hnext := h.skip.next
    rw [parseMembersLoop_round (hv _ (.head _)) (hsp _ (.head _)) (.inl rfl) h]
    simp only [if_true]
    rw [skipWs_at hnext (hsp n (.tail _ (.head _))).1.1 fun x hx => by cases hx; decide]
    simp only [List.length_cons] at hf
    obtain ⟨g, rfl⟩ : ∃ g, f = g + 1 := ⟨f - 1, by omega⟩
    congr 1
    funext key
    rw [readMembers_cons]
    exact ih (fun x hx => hv x (.tail _ hx)) (fun x hx => hsp x (.tail _ hx)) hnext.skip g (by omega)

theorem commaTail_length_le {l : List Bytes} : l.length ≤ (Rfc8259.commaTail l).length := by
  induction l with
  | nil => simp [Rfc8259.commaTail]
  | cons a l ih =>
    simp only [Rfc8259.commaTail, List.length_cons, List.length_append]
    omega

/-- An object of any layout is read member by member. -/
theorem parseObjectMembers_token {w w' pad : Bytes} {ms : List Member} (hw : Ws w) (hw' : Ws w')
    (hp : Ws pad) (hsp : ∀ m ∈ ms, m.Spaced ∧ Enclosed m.key) (hv : ∀ m ∈ ms, Token m.val) :
    parseObjectMembers (w ++ (Rfc8259.objText pad ms ++ w')) = readMembers {} ms := by
  unfold parseObjectMembers
  simp only [trim_token (.obj hp hsp hv) hw hw']
  obtain ⟨text, hT⟩ : ∃ text, text = Rfc8259.objText pad ms := ⟨_, rfl⟩
  have h0 : At text 0 (Rfc8259.objText pad ms) := hT ▸ At.start text
  rw [← hT]
  simp only [Rfc8259.objText] at h0
  rw [if_pos h0.get_cons]
  have hn := h0.next
  cases ms with
  | nil =>
    simp only [List.map_nil, Rfc8259.commaSep, List.nil_append] at hn
    obtain ⟨hs, hk⟩ := skipWs_cons hn hp (by decide)
    rw [hs, if_pos hk.get_cons]
    rfl
  | cons m ms =>
    have htext : m.text = m.before ++ memberRest m := rfl
    have hpb : Ws (pad ++ m.before) := fun x hx =>
      (List.mem_append.1 hx).elim (hp x) ((hsp m (.head _)).1.1 x)
    simp only [List.map_cons, Rfc8259.commaSep, htext, List.append_assoc] at hn
    rw [← List.append_assoc pad] at hn
    have hs := skipWs_at hn hpb fun x hx => by cases hx; decide
    have hk := hn.skip
    have hlen := hk.length
    have hle := commaTail_length_le (l := ms.map Member.text)
    simp only [List.length_append, List.length_map] at hlen hle
    rw [hs, if_neg, parseMembersLoop_members hv hsp hk (by omega)]
    rw [hk.get]
    exact fun hx => absurd (Option.some.inj hx) (by decide)

/-- A member with the key its text denotes. -/
abbrev Keyed := Bytes × Member

/-- Members inserted in order. -/
def insertAll (out : MemberMap) (kms : List Keyed) : MemberMap :=
  kms.foldl (fun out p => out.insertOrAssign p.1 p.2.val) out

/-- What a member of an object text must satisfy. -/
structure GoodMember (p : Keyed) : Prop where
  value : Value p.2.val
  spaced : p.2.Spaced
  key : Denotes p.2.key p.1

theorem readMembers_keyed {kms : List Keyed} {out : MemberMap} (hg : ∀ p ∈ kms, GoodMember p) :
    readMembers out (kms.map Prod.snd) = .ok (insertAll out kms) := by
  induction kms generalizing out with
  | nil => rfl
  | cons p kms ih =>
    rw [List.map_cons, readMembers_cons, memberKey_quoted (hg p (.head _)).key.meaning]
    exact ih fun q hq => hg q (.tail _ hq)

/-- **An object of any layout parses to its members.** -/
theorem parseObjectMembers_objText {w w' pad : Bytes} {kms : List Keyed} (hw : Ws w) (hw' : Ws w')
    (hp : Ws pad) (hg : ∀ p ∈ kms, GoodMember p) :
    parseObjectMembers (w ++ (Rfc8259.objText pad (kms.map Prod.snd) ++ w')) =
      .ok (insertAll {} kms) := by
  rw [← readMembers_keyed hg]
  refine parseObjectMembers_token hw hw' hp (fun m hm => ?_) (fun m hm => ?_) <;>
    obtain ⟨p, hpm, rfl⟩ := List.mem_map.1 hm
  · exact ⟨(hg p hpm).spaced, (hg p hpm).key.body.enclosed⟩
  · exact token_value (hg p hpm).value

/-! ### Entries -/

theorem insertEntry_of_not_mem {k v : Bytes} {es : List (Bytes × Bytes)}
    (h : k ∉ es.map Prod.fst) : MemberMap.insertEntry k v es = es ++ [(k, v)] := by
  induction es with
  | nil => rfl
  | cons e es ih =>
    simp only [List.map_cons, List.mem_cons, not_or] at h
    rw [MemberMap.insertEntry, if_neg (Ne.symm h.1), ih h.2]
    rfl

/-- With distinct keys the entries are the members, in order. -/
theorem entries_of_nodup {kms : List Keyed} {out : MemberMap}
    (h : (out.entries.map Prod.fst ++ kms.map Prod.fst).Nodup) :
    (insertAll out kms).entries = out.entries ++ kms.map fun p => (p.1, p.2.val) := by
  induction kms generalizing out with
  | nil => simp [insertAll]
  | cons p kms ih =>
    have hp : p.1 ∉ out.entries.map Prod.fst := fun hm =>
      (List.nodup_append.1 h).2.2 _ hm _ (by simp) rfl
    have hins : (out.insertOrAssign p.1 p.2.val).entries = out.entries ++ [(p.1, p.2.val)] :=
      insertEntry_of_not_mem hp
    rw [insertAll, List.foldl_cons]
    refine (ih ?_).trans ?_
    · rw [hins, List.map_append, List.append_assoc]
      simpa using h
    · rw [hins, List.append_assoc]
      rfl

theorem lookup_map_val {kms : List Keyed} {p : Keyed} (hn : (kms.map Prod.fst).Nodup)
    (hp : p ∈ kms) : (kms.map fun q => (q.1, q.2.val)).lookup p.1 = some p.2.val := by
  induction kms with
  | nil => cases hp
  | cons q kms ih =>
    simp only [List.map_cons, List.nodup_cons, List.mem_map] at hn
    rw [List.map_cons]
    rcases List.mem_cons.1 hp with rfl | hp
    · exact List.lookup_cons_self
    · have hne : p.1 ≠ q.1 := fun he => hn.1 ⟨p, hp, he⟩
      rw [List.lookup_cons, show (p.1 == q.1) = false by simpa using hne]
      exact ih hn.2 hp

/-- The value of a member, when keys are distinct. -/
theorem member_insertAll {kms : List Keyed} {p : Keyed} (hn : (kms.map Prod.fst).Nodup)
    (hp : p ∈ kms) : member (insertAll {} kms) p.1 = p.2.val := by
  rw [member, MemberMap.value, entries_of_nodup (by simpa using hn), List.nil_append,
    lookup_map_val hn hp, Option.getD_some]

/-- A key that no member has. -/
theorem member_insertAll_none {kms : List Keyed} {k : Bytes} (hn : (kms.map Prod.fst).Nodup)
    (hk : k ∉ kms.map Prod.fst) : member (insertAll {} kms) k = [] := by
  rw [member, MemberMap.value, entries_of_nodup (by simpa using hn), List.nil_append,
    List.lookup_eq_none_iff.2, Option.getD_none]
  intro q hq
  obtain ⟨p, hp, rfl⟩ := List.mem_map.1 hq
  simpa using fun he => hk (List.mem_map.2 ⟨p, hp, he.symm⟩)

/-! ## Arrays -/

theorem parseElementsLoop_round {text s : Bytes} {i fuel : Nat} {e : Elem} {c : UInt8}
    {out : List Bytes} (hv : Token e.val) (hsp : e.Spaced) (hc : c = 0x2C ∨ c = 0x5D)
    (h : At text i (e.val ++ (e.after ++ c :: s))) :
    parseElementsLoop text (fuel + 1) i out =
      if c = 0x2C then
        parseElementsLoop text fuel (skipWs text (i + e.val.length + e.after.length + 1))
          (out ++ [e.val])
      else .ok (out ++ [e.val]) := by
  have hlt : i < text.length := by
    obtain ⟨d, t, he, -, -⟩ := hv.head
    rw [he] at h
    exact h.lt
  have hws : isWs c = false := by rcases hc with rfl | rfl <;> decide
  obtain ⟨hw, hk⟩ := skipWs_cons h.skip hsp.2 hws
  have hd : Delim (c :: s) := .cons (hc.imp_right .inl)
  rw [parseElementsLoop, if_pos hlt, skipValueToken_token hv h (hd.ws hsp.2)
    (by rw [scanFuel]; omega)]
  simp only [mapError_ok, bind, Except.bind, slice_at h, trim_token_self hv, hw, hk.get_cons,
    Option.some.injEq]
  rcases hc with rfl | rfl
  · rfl
  · rfl

theorem parseElementsLoop_elems {es : List Elem} {e : Elem} {text rest : Bytes} {i fuel : Nat}
    {out : List Bytes} (hg : ∀ d ∈ e :: es, Token d.val ∧ d.Spaced)
    (h : At text i (e.val ++ (e.after ++ (Rfc8259.commaTail (es.map Elem.text) ++ 0x5D :: rest))))
    (hf : es.length < fuel) :
    parseElementsLoop text fuel i out = .ok (out ++ (e :: es).map Elem.val) := by
  obtain ⟨f, rfl⟩ : ∃ f, fuel = f + 1 := ⟨fuel - 1, by omega⟩
  have he := hg _ (.head _)
  induction es generalizing e i f out with
  | nil =>
    simp only [List.map_nil, Rfc8259.commaTail, List.nil_append] at h
    rw [parseElementsLoop_round he.1 he.2 (.inr rfl) h, if_neg (by decide)]
    rfl
  | cons d es ih =>
    have hd := hg d (.tail _ (.head _))
    simp only [List.map_cons, Rfc8259.commaTail, Elem.text, List.cons_append,
      List.append_assoc] at h
    obtain ⟨c, t, hdv, hws, -⟩ := hd.1.head
    have hnext := h.skip.skip.next
    rw [parseElementsLoop_round he.1 he.2 (.inl rfl) h, if_pos rfl, skipWs_at hnext hd.2.1
      fun x hx => by rw [hdv] at hx; cases hx; exact hws]
    simp only [List.length_cons] at hf
    obtain ⟨g, rfl⟩ : ∃ g, f = g + 1 := ⟨f - 1, by omega⟩
    refine (ih (fun x hx => hg x (.tail _ hx)) hnext.skip g (by omega) hd).trans ?_
    simp

/-- An array of any layout is read element by element. -/
theorem parseArrayElements_token {w w' pad : Bytes} {es : List Elem} (hw : Ws w) (hw' : Ws w')
    (hp : Ws pad) (hg : ∀ e ∈ es, Token e.val ∧ e.Spaced) :
    parseArrayElements (w ++ (Rfc8259.arrText pad es ++ w')) = .ok (es.map Elem.val) := by
  have hv : Token (Rfc8259.arrText pad es) :=
    .arr hp (fun e he => (hg e he).2) (fun e he => (hg e he).1)
  unfold parseArrayElements
  simp only [trim_token hv hw hw']
  obtain ⟨text, hT⟩ : ∃ text, text = Rfc8259.arrText pad es := ⟨_, rfl⟩
  have h0 : At text 0 (Rfc8259.arrText pad es) := hT ▸ At.start text
  rw [← hT]
  simp only [Rfc8259.arrText] at h0
  rw [if_pos h0.get_cons]
  have hn := h0.next
  cases es with
  | nil =>
    simp only [List.map_nil, Rfc8259.commaSep, List.nil_append] at hn
    obtain ⟨hs, hk⟩ := skipWs_cons hn hp (by decide)
    rw [hs, if_pos hk.get_cons]
    rfl
  | cons e es =>
    have he := hg e (.head _)
    obtain ⟨c, t, hev, hws, h5D⟩ := he.1.head
    have hpb : Ws (pad ++ e.before) := fun x hx =>
      (List.mem_append.1 hx).elim (hp x) (he.2.1 x)
    simp only [List.map_cons, Rfc8259.commaSep, Elem.text, List.append_assoc] at hn
    rw [← List.append_assoc pad] at hn
    have hs := skipWs_at hn hpb fun x hx => by rw [hev] at hx; cases hx; exact hws
    have hk := hn.skip
    have hlen := hk.length
    have hle := commaTail_length_le (l := es.map Elem.text)
    simp only [List.length_append, List.length_map] at hlen hle
    rw [hs, if_neg, parseElementsLoop_elems hg hk (by omega), List.nil_append]
    rw [hk.get, hev]
    exact fun hx => h5D (Option.some.inj hx)

/-- **An array of any layout parses to its elements.** -/
theorem parseArrayElements_arrText {w w' pad : Bytes} {es : List Elem} (hw : Ws w) (hw' : Ws w')
    (hp : Ws pad) (hg : ∀ e ∈ es, Value e.val ∧ e.Spaced) :
    parseArrayElements (w ++ (Rfc8259.arrText pad es ++ w')) = .ok (es.map Elem.val) :=
  parseArrayElements_token hw hw' hp fun e he => ⟨token_value (hg e he).1, (hg e he).2⟩

/-! ## Integers -/

theorem parseInt64_of {t : Bytes} {z : Int64} (hv : Value t)
    (h : Decimal.readInt t = some z.toInt) : parseInt64 t = some z := by
  have h1 := Int64.le_toInt z
  have h2 := Int64.toInt_lt z
  rw [parseInt64, trim_value_self hv, h]
  simp only
  rw [if_pos ⟨by omega, by omega⟩, Int64.ofInt_toInt]

theorem parseUInt64_of {t : Bytes} {n : UInt64} (hv : Value t)
    (h : Decimal.readNat t = some n.toNat) : parseUInt64 t = some n := by
  rw [parseUInt64, trim_value_self hv, h]
  simp only
  rw [if_pos n.toNat_lt, UInt64.ofNat_toNat]

end Phi.Wire
