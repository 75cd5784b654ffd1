import PhiSidecar.Wire.Bounds

/-!
# Members and elements stay inside their text

The checked parsers of `Wire.CheckedScan` compute what `Wire.Members` does, and what they store are
views into their text.

* `trim_eq`, `decodeJsonString_eq`: no read of a key goes outside its token.
* `parseObjectMembers_eq`, `parseArrayElements_eq`: **every view is inside the text and every loop
  ends**.
* `tokenizer_bounded`: the tokenizer from any start index, and both parsers, on any text.
-/

set_option autoImplicit false

namespace Phi.Wire

open Cursor

/-- A part of a text between two indices. -/
theorem infix_slice (text : Bytes) (i n : Nat) : (text.drop i).take n <:+: text :=
  (List.take_prefix n _).isInfix.trans (List.drop_suffix i text).isInfix

theorem infix_trim (text : Bytes) : trim text <:+: text :=
  (List.rdropWhile_prefix isWs _).isInfix.trans (List.dropWhile_suffix isWs).isInfix

namespace Bounded

open Checked

variable {text : Bytes} {i j fuel : Nat} {ε : Type}

/-! ## Trimming -/

/-- The loop from the end passes over what `rdropWhile` drops. -/
theorem trimEnd_eq {first : Nat} (hf : first ≤ text.length) :
    (trimEnd text first : Run ε Nat) =
      .ok (first + ((text.drop first).rdropWhile isWs).length) := by
  have hspec : .ok (first + ((text.drop first).rdropWhile isWs).length) = (.ok (first +
      (((text.drop first).take (text.length - first)).rdropWhile isWs).length) : Except ε Nat) := by
    rw [List.take_of_length_le (by rw [List.length_drop])]
  refine loop_follows (R := fun last x => first ≤ last ∧ last ≤ text.length ∧
    x = .ok (first + (((text.drop first).take (last - first)).rdropWhile isWs).length)) id ?_
    ⟨hf, Nat.le_refl _, hspec⟩ (Nat.lt_succ_self _)
  rintro last _ ⟨hle, hlen, rfl⟩
  by_cases hlt : first < last
  · obtain ⟨n, rfl⟩ : ∃ n, last = first + n + 1 := ⟨last - first - 1, by omega⟩
    have hn : n < (text.drop first).length := by rw [List.length_drop]; omega
    have hget : text[first + n]? = some (text.drop first)[n] := by
      rw [← List.getElem?_drop, List.getElem?_eq_getElem hn]
    have htake : (text.drop first).take (first + n + 1 - first) =
        (text.drop first).take (first + n - first) ++ [(text.drop first)[n]] := by
      rw [show first + n + 1 - first = n + 1 by omega, show first + n - first = n by omega,
        List.take_succ_eq_append_getElem hn]
    rw [if_pos hlt, Nat.add_sub_cancel, get_of_some hget, Run.ok_bind, htake]
    by_cases hws : isWs (text.drop first)[n] = true
    · rw [if_pos hws, List.rdropWhile_concat_pos _ _ _ hws]
      exact ⟨Nat.lt_succ_self _, by omega, by omega, rfl⟩
    · rw [if_neg hws, List.rdropWhile_concat_neg _ _ _ hws, ← htake]
      show (.ok _ : Except ε Nat) = .ok _
      rw [List.length_take_of_le (by omega)]
      congr 1
      omega
  · obtain rfl : last = first := by omega
    rw [if_neg hlt, Nat.sub_self, List.take_zero, List.rdropWhile_nil]
    rfl

theorem trim_eq (text : Bytes) : (trim text : Run ε Bytes) = .ok (Wire.trim text) := by
  obtain ⟨s, hat, hat'⟩ := Span.takeWhile isWs (Nat.zero_le text.length)
  have hdrop : text.drop (0 + ((text.drop 0).takeWhile isWs).length) = text.dropWhile isWs := by
    rw [hat'.2]
    exact List.append_cancel_left (hat.2.symm.trans List.takeWhile_append_dropWhile.symm)
  have hpre := List.rdropWhile_prefix isWs (text.dropWhile isWs)
  have hlen := hpre.length_le
  rw [← hdrop, List.length_drop] at hlen
  rw [trim, scanWhile_eq isWs (Nat.zero_le _), Run.ok_bind, trimEnd_eq hat'.1, Run.ok_bind,
    view_of_le (Nat.le_add_right _ _) (by have := hat'.1; omega), hdrop, Nat.add_sub_cancel_left,
    ← List.prefix_iff_eq_take.1 hpre]
  rfl

/-! ## Keys -/

theorem hexDigits_eq (ds : Bytes) {s : Bytes} {v : Nat} (hat : At text i (ds ++ s)) :
    (hexDigits text ds.length i v : Run ε (Option Nat)) =
      .ok (ds.foldlM (fun v c => (hexDigit c).map (v <<< 4 ||| ·)) v) := by
  induction ds generalizing i v with
  | nil => rfl
  | cons c ds ih =>
    rw [List.length_cons, hexDigits, get_of_some hat.get_cons, Run.ok_bind, List.foldlM_cons]
    cases hexDigit c with
    | none => rfl
    | some d => exact ih hat.next

theorem parseHex4_at {a b c d : UInt8} {s : Bytes} (hat : At text i (a :: b :: c :: d :: s)) :
    (parseHex4 text i : Run ε (Option Nat)) = .ok (Wire.parseHex4 a b c d) := by
  have hlen := hat.length
  simp only [List.length_cons] at hlen
  rw [parseHex4, if_neg (by omega)]
  exact hexDigits_eq [a, b, c, d] hat

theorem parseHex4_short {s : Bytes} (hat : At text i s) (hs : s.length < 4) :
    (parseHex4 text i : Run ε (Option Nat)) = .ok none := by
  have hlen := hat.length
  exact if_pos (by omega)

section
variable {a b c d : UInt8} {s : Bytes} {codePoint : Nat}

theorem decodeChars_high_short (hcode : Wire.parseHex4 a b c d = some codePoint)
    (hhigh : 0xD800 ≤ codePoint ∧ codePoint ≤ 0xDBFF) (hs : s.length < 6) :
    decodeChars (0x5C :: 0x75 :: a :: b :: c :: d :: s) =
      .error (lit "Unpaired high surrogate in JSON string") := by
  rw [decodeChars.eq_def]
  simp only [ne_eq, not_true_eq_false, if_false, if_true, hcode, if_pos hhigh]
  rcases s with _ | ⟨_, _ | ⟨_, _ | ⟨_, _ | ⟨_, _ | ⟨_, _ | ⟨_, s⟩⟩⟩⟩⟩⟩
  all_goals first
    | rfl
    | (simp only [List.length_cons] at hs; omega)

theorem decodeChars_high {bs u a' b' c' d' : UInt8}
    (hcode : Wire.parseHex4 a b c d = some codePoint)
    (hhigh : 0xD800 ≤ codePoint ∧ codePoint ≤ 0xDBFF) :
    decodeChars (0x5C :: 0x75 :: a :: b :: c :: d :: bs :: u :: a' :: b' :: c' :: d' :: s) =
      if bs ≠ 0x5C ∨ u ≠ 0x75 then .error (lit "Unpaired high surrogate in JSON string")
      else (Wire.parseHex4 a' b' c' d').elim (.error (lit "Invalid low surrogate in JSON string"))
        fun low =>
          if low < 0xDC00 ∨ 0xDFFF < low then .error (lit "Invalid low surrogate in JSON string")
          else (decodeChars s).map
            (appendUtf8 (0x10000 + (codePoint - 0xD800) <<< 10 + (low - 0xDC00)) ++ ·) := by
  rw [decodeChars.eq_def]
  simp only [ne_eq, not_true_eq_false, if_false, if_true, hcode, if_pos hhigh]
  cases Wire.parseHex4 a' b' c' d' with
  | none => rfl
  | some low => rfl

end

/-- What is expected of `decodeJsonString` when `out` has been decoded before `s`. -/
def decodeRest (out s : Bytes) : Except Bytes Bytes := (decodeChars s).map (out ++ ·)

theorem decodeRest_map (out c s : Bytes) :
    ((decodeChars s).map (c ++ ·)).map (out ++ ·) = decodeRest (out ++ c) s := by
  unfold decodeRest
  cases decodeChars s with
  | error e => rfl
  | ok t => exact congrArg Except.ok (List.append_assoc out c t).symm

theorem decodeUnicode_round {token s out : Bytes} (hat : At token (i + 1) s) (hs : s ≠ []) :
    Round (fun st => i < st.1 ∧ st.1 ≤ token.length ∧
        decodeRest out (0x5C :: 0x75 :: s) = decodeRest st.2 (token.drop st.1))
      (decodeRest out (0x5C :: 0x75 :: s)) (decodeUnicode token i out) := by
  by_cases hshort : s.length < 4
  · have herr : decodeChars (0x5C :: 0x75 :: s) = .error (lit "Invalid unicode escape") := by
      rcases s with _ | ⟨a, _ | ⟨b, _ | ⟨c, _ | ⟨d, s⟩⟩⟩⟩
      · exact absurd rfl hs
      · rfl
      · rfl
      · rfl
      · simp only [List.length_cons] at hshort
        omega
    rw [decodeUnicode, parseHex4_short hat hshort, Run.ok_bind, decodeRest, herr]
    rfl
  obtain ⟨a, b, c, d, s, rfl⟩ : ∃ a b c d s', s = a :: b :: c :: d :: s' := by
    rcases s with _ | ⟨a, _ | ⟨b, _ | ⟨c, _ | ⟨d, s⟩⟩⟩⟩
    · simp at hshort
    · simp at hshort
    · simp at hshort
    · simp at hshort
    · exact ⟨a, b, c, d, s, rfl⟩
  rw [decodeUnicode, parseHex4_at hat, Run.ok_bind]
  have hafter : At token (i + 5) s := hat.next.next.next.next
  cases hcode : Wire.parseHex4 a b c d with
  | none =>
    rw [decodeRest, decodeChars.eq_def]
    simp only [ne_eq, not_true_eq_false, if_false, if_true, hcode]
    rfl
  | some codePoint =>
    simp only
    by_cases hhigh : 0xD800 ≤ codePoint ∧ codePoint ≤ 0xDBFF
    · have hlen := hafter.length
      rw [if_pos hhigh]
      by_cases hshort' : s.length < 6
      · rw [if_pos (by omega), decodeRest, decodeChars_high_short hcode hhigh hshort']
        rfl
      obtain ⟨bs, u, a', b', c', d', s, rfl⟩ :
          ∃ bs u a' b' c' d' s', s = bs :: u :: a' :: b' :: c' :: d' :: s' := by
        rcases s with _ | ⟨bs, _ | ⟨u, _ | ⟨a', _ | ⟨b', _ | ⟨c', _ | ⟨d', s⟩⟩⟩⟩⟩⟩
        all_goals first
          | exact ⟨_, _, _, _, _, _, _, rfl⟩
          | (simp only [List.length_cons, List.length_nil] at hshort'; omega)
      have hpair : At token (i + 4 + 3) (a' :: b' :: c' :: d' :: s) := hafter.next.next
      have hrest : At token (i + 4 + 7) s := hpair.next.next.next.next
      rw [if_neg (by omega), get_of_some hafter.get_cons, Run.ok_bind,
        get_of_some hafter.next.get_cons, Run.ok_bind, parseHex4_at hpair, decodeRest,
        decodeChars_high hcode hhigh]
      by_cases hescape : bs ≠ 0x5C ∨ u ≠ 0x75
      · rw [if_pos hescape, if_pos hescape]
        rfl
      rw [if_neg hescape, if_neg hescape, Run.ok_bind]
      cases hlow : Wire.parseHex4 a' b' c' d' with
      | none => rfl
      | some low =>
        simp only [Option.elim_some]
        by_cases hrange : low < 0xDC00 ∨ 0xDFFF < low
        · rw [if_pos hrange, if_pos hrange]
          rfl
        · rw [if_neg hrange, if_neg hrange, decodeRest_map]
          exact ⟨by show i < i + 4 + 7; omega, hrest.1, by rw [hrest.2]⟩
    rw [if_neg hhigh]
    by_cases hlow : 0xDC00 ≤ codePoint ∧ codePoint ≤ 0xDFFF
    · rw [if_pos hlow, decodeRest, decodeChars.eq_def]
      simp only [ne_eq, not_true_eq_false, if_false, if_true, hcode, if_neg hhigh, if_pos hlow]
      rfl
    · rw [if_neg hlow, decodeRest, decodeChars_unicode s hcode (by omega), decodeRest_map]
      exact ⟨by show i < i + 4 + 1; omega, hafter.1, by rw [hafter.2]⟩

/-- The decoding loop, from any byte of its token on. -/
theorem decodeLoop_eq {token : Bytes} (hi : i ≤ token.length) (out : Bytes) :
    loop (decodeRound token) (token.length + 1) (i, out) =
      .of (decodeRest out (token.drop i)) := by
  refine scan_follows (R := fun st x => x = decodeRest st.2 (token.drop st.1)) Prod.fst ?_ hi rfl
    (Nat.lt_succ_self _)
  rintro ⟨i, out⟩ _ (hi : i ≤ token.length) rfl
  have hat : At token i (token.drop i) := ⟨hi, rfl⟩
  have hlen := hat.length
  have hdone : decodeChars (token.drop i) = .ok [] → ¬ i + 1 < token.length →
      Round (fun st : Nat × Bytes => i < st.1 ∧ st.1 ≤ token.length ∧
        decodeRest out (token.drop i) = decodeRest st.2 (token.drop st.1))
        (decodeRest out (token.drop i)) (decodeRound token (i, out)) := fun hnil hend => by
    rw [decodeRound, if_neg hend, decodeRest, hnil]
    exact congrArg Except.ok (List.append_nil out)
  rcases hs : token.drop i with _ | ⟨ch, _ | ⟨esc, s⟩⟩
  all_goals rw [hs] at hat hlen hdone; simp only [List.length_cons, List.length_nil] at hlen
  · exact hdone rfl (by omega)
  · exact hdone rfl (by omega)
  rw [decodeRound, if_pos (by omega), get_of_some hat.get_cons, Run.ok_bind]
  have hesc := hat.next
  by_cases hch : ch ≠ 0x5C
  · have hrest : decodeRest out (ch :: esc :: s) = decodeRest (out ++ [ch]) (esc :: s) := by
      rw [decodeRest, decodeChars_plain s hch]
      exact decodeRest_map out [ch] (esc :: s)
    rw [if_pos hch, hrest]
    exact ⟨Nat.lt_succ_self i, hesc.1, by rw [hesc.2]⟩
  obtain rfl : ch = 0x5C := not_not.1 hch
  rw [if_neg hch]
  cases s with
  | nil =>
    rw [if_pos (by simp only [List.length_nil] at hlen; omega)]
    rfl
  | cons x s =>
    rw [if_neg (by simp only [List.length_cons] at hlen; omega), get_of_some hesc.get_cons,
      Run.ok_bind]
    by_cases hu : esc = 0x75
    · rw [if_pos hu, hu]
      refine (decodeUnicode_round hesc.next (List.cons_ne_nil x s)).mono fun st hst => ?_
      exact ⟨Nat.lt_of_succ_lt hst.1, hst.2⟩
    rw [if_neg hu]
    cases hb : escapeByte esc with
    | none =>
      have herr : decodeChars (0x5C :: esc :: x :: s) = .error (lit "Unsupported JSON escape") := by
        rw [decodeChars.eq_def]
        simp only [ne_eq, not_true_eq_false, if_false, if_neg hu, hb]
      rw [decodeRest, herr]
      rfl
    | some b =>
      have hrest : decodeRest out (0x5C :: esc :: x :: s) = decodeRest (out ++ [b]) (x :: s) := by
        rw [decodeRest, decodeChars_esc s hb]
        exact decodeRest_map out [b] (x :: s)
      rw [hrest]
      exact ⟨Nat.lt_add_of_pos_right Nat.two_pos, hesc.next.1, by rw [hesc.next.2]⟩

theorem decodeJsonString_eq (token : Bytes) :
    decodeJsonString token = .of (Wire.decodeJsonString token) := by
  obtain ⟨t, ht⟩ : ∃ t, t = Wire.trim token := ⟨_, rfl⟩
  have hwire : Wire.decodeJsonString token =
      if t.length < 2 ∨ t.head? ≠ some 0x22 ∨ t.getLast? ≠ some 0x22 then
        .error (lit "Expected JSON string token")
      else decodeChars (t.drop 1) := by
    rw [ht]
    rfl
  rw [decodeJsonString, trim_eq, Run.ok_bind, hwire, ← ht]
  by_cases hshort : t.length < 2
  · rw [if_pos hshort, if_pos (.inl hshort)]
    rfl
  have hfront : t[0]? = some t[0] := List.getElem?_eq_getElem (by omega)
  have hback : t[t.length - 1]? = some t[t.length - 1] := List.getElem?_eq_getElem (by omega)
  rw [if_neg hshort, get_of_some hfront, Run.ok_bind, get_of_some hback, Run.ok_bind,
    List.head?_eq_getElem?, List.getLast?_eq_getElem?, hfront, hback]
  by_cases hquotes : t[0] ≠ 0x22 ∨ t[t.length - 1] ≠ 0x22
  · rw [if_pos hquotes, if_pos (by simpa [hshort] using hquotes)]
    rfl
  · rw [if_neg hquotes, if_neg (by simpa [hshort] using hquotes), decodeLoop_eq (by omega)]
    unfold decodeRest
    cases decodeChars (t.drop 1) <;> rfl

theorem memberKey_eq {keyToken : Bytes} (h : 2 ≤ keyToken.length) :
    memberKey keyToken = .of (Wire.memberKey keyToken) := by
  rw [memberKey, Wire.memberKey]
  split
  · rw [if_neg (by omega), viewAtMost_of_le _ (by omega)]
    rfl
  · exact decodeJsonString_eq keyToken

/-! ## Members and elements -/

theorem scanFuel_le (text : Bytes) (i : Nat) : 3 * (text.length - i) + 1 ≤ scanFuel text := by
  rw [scanFuel]
  omega

theorem valueView_error {e : Bytes × Nat} (hi : i ≤ text.length)
    (h : Wire.skipValueToken text (scanFuel text) i = .error e) : valueView text i = .error e.1 := by
  rw [valueView, skipValueToken_eq hi (by omega) (scanFuel_le text i), h]
  rfl

theorem valueView_ok (hi : i ≤ text.length)
    (h : Wire.skipValueToken text (scanFuel text) i = .ok j) :
    valueView text i = .ok (j, Wire.trim (slice text i j)) ∧ i < j ∧ j ≤ text.length := by
  have hwithin := (allWithin text (scanFuel text)).value hi
  rw [h] at hwithin
  obtain ⟨hij, hj⟩ := hwithin
  rw [valueView, skipValueToken_eq hi (by omega) (scanFuel_le text i), h, Run.mapError_of]
  simp only [Except.mapError, Run.of_ok, Run.ok_bind, view_of_le (Nat.le_of_lt hij) hj, trim_eq]
  exact ⟨rfl, hij, hj⟩

theorem entryEnd_round {τ : Type} {close : UInt8} {error : Bytes} {out : τ}
    {rest : Except Bytes τ} {N : Nat × τ → Prop} (hj : j ≤ text.length)
    (hN : text[Wire.skipWs text j]? = some 0x2C → j < Wire.skipWs text (Wire.skipWs text j + 1) →
      Wire.skipWs text (Wire.skipWs text j + 1) ≤ text.length →
      N (Wire.skipWs text (Wire.skipWs text j + 1), out)) :
    Round N (if text[Wire.skipWs text j]? = some 0x2C then rest
      else if text[Wire.skipWs text j]? = some close then .ok out
      else .error error) (entryEnd text close error out j) :=
  separated_round hj hN

/-- A round of the element loop, once its value has been scanned. -/
theorem parseElementsLoop_value {out : List Bytes} (hlt : i < text.length)
    (h : Wire.skipValueToken text (scanFuel text) i = .ok j) :
    parseElementsLoop text (fuel + 1) i out =
      if text[Wire.skipWs text j]? = some 0x2C then
        parseElementsLoop text fuel (Wire.skipWs text (Wire.skipWs text j + 1))
          (out ++ [Wire.trim (slice text i j)])
      else if text[Wire.skipWs text j]? = some 0x5D then .ok (out ++ [Wire.trim (slice text i j)])
      else .error (lit "Invalid JSON array") := by
  rw [parseElementsLoop, if_pos hlt, h]
  rfl

theorem elementsLoop_eq (hi : i ≤ text.length) (out : List Bytes) :
    loop (elementsRound text) (text.length + 1) (i, out) =
      .of (parseElementsLoop text (text.length + 1) i out) := by
  refine scan_follows (R := fun st x => ∃ fuel, text.length - st.1 < fuel ∧
    x = parseElementsLoop text fuel st.1 st.2) Prod.fst ?_ hi
    ⟨_, Nat.lt_succ_of_le (Nat.sub_le _ _), rfl⟩ (Nat.lt_succ_self _)
  rintro ⟨i, out⟩ _ (hi : i ≤ text.length) ⟨fuel, (hf : text.length - i < fuel), rfl⟩
  obtain ⟨fuel, rfl⟩ : ∃ f, fuel = f + 1 := ⟨fuel - 1, by omega⟩
  rw [elementsRound]
  by_cases hlt : i < text.length
  · rw [if_pos hlt]
    cases hr : Wire.skipValueToken text (scanFuel text) i with
    | error e =>
      rw [valueView_error hi hr, parseElementsLoop, if_pos hlt, hr]
      rfl
    | ok j =>
      obtain ⟨hview, hij, hj⟩ := valueView_ok hi hr
      rw [hview, parseElementsLoop_value hlt hr]
      refine entryEnd_round hj fun hcomma hnext hlen' => ?_
      have hgrown : i < Wire.skipWs text (Wire.skipWs text j + 1) := by omega
      have hfuel : text.length - Wire.skipWs text (Wire.skipWs text j + 1) < fuel := by omega
      exact ⟨hgrown, hlen', fuel, hfuel, if_pos hcomma⟩
  · rw [if_neg hlt, parseElementsLoop, if_neg hlt]
    rfl

/-- A key token is quoted, so that its key can be taken out of it. -/
theorem keyView_ok (h : Wire.skipStringToken text i = .ok j) :
    (view text i j : Run Bytes Bytes) = .ok (slice text i j) ∧ 2 ≤ (slice text i j).length ∧
      i < j ∧ j ≤ text.length := by
  obtain ⟨b, -, hspan⟩ := skipStringToken_span h
  have hlen := hspan.length
  have hslice : slice text i j = Rfc8259.quoted b := hspan.slice
  have hquoted : (Rfc8259.quoted b).length = b.length + 2 := by simp [Rfc8259.quoted]
  rw [hquoted] at hlen
  exact ⟨view_of_le (by omega) hspan.right_le, by rw [hslice, hquoted]; omega, by omega,
    hspan.right_le⟩

theorem except_ok_bind {α β : Type} (a : α) (f : α → Except ε β) :
    ((.ok a : Except ε α) >>= f) = f a := rfl

/-- A round of the member loop, once its key has been scanned. -/
theorem parseMembersLoop_key {out : MemberMap} {k : Nat} (hlt : i < text.length)
    (hk : Wire.skipStringToken text i = .ok k) :
    parseMembersLoop text (fuel + 1) i out = (Wire.memberKey (slice text i k) >>= fun key =>
      if text[Wire.skipWs text k]? = some 0x3A then
        ((Wire.skipValueToken text (scanFuel text)
          (Wire.skipWs text (Wire.skipWs text k + 1))).mapError Prod.fst) >>= fun j =>
          if text[Wire.skipWs text j]? = some 0x2C then
            parseMembersLoop text fuel (Wire.skipWs text (Wire.skipWs text j + 1))
              (out.insertOrAssign key
                (Wire.trim (slice text (Wire.skipWs text (Wire.skipWs text k + 1)) j)))
          else if text[Wire.skipWs text j]? = some 0x7D then
            .ok (out.insertOrAssign key
              (Wire.trim (slice text (Wire.skipWs text (Wire.skipWs text k + 1)) j)))
          else .error (lit "Invalid JSON object")
      else .error (lit "Expected ':' in JSON object")) := by
  rw [parseMembersLoop, if_pos hlt, hk]
  rfl

theorem membersLoop_eq (hi : i ≤ text.length) (out : MemberMap) :
    loop (membersRound text) (text.length + 1) (i, out) =
      .of (parseMembersLoop text (text.length + 1) i out) := by
  refine scan_follows (R := fun st x => ∃ fuel, text.length - st.1 < fuel ∧
    x = parseMembersLoop text fuel st.1 st.2) Prod.fst ?_ hi
    ⟨_, Nat.lt_succ_of_le (Nat.sub_le _ _), rfl⟩ (Nat.lt_succ_self _)
  rintro ⟨i, out⟩ _ (hi : i ≤ text.length) ⟨fuel, (hf : text.length - i < fuel), rfl⟩
  obtain ⟨fuel, rfl⟩ : ∃ f, fuel = f + 1 := ⟨fuel - 1, by omega⟩
  rw [membersRound]
  by_cases hlt : i < text.length
  · rw [if_pos hlt, skipStringToken_eq, Run.mapError_of]
    cases hk : Wire.skipStringToken text i with
    | error e =>
      rw [parseMembersLoop, if_pos hlt, hk]
      rfl
    | ok k =>
      obtain ⟨hview, htwo, hik, hklen⟩ := keyView_ok hk
      obtain ⟨hlek, -⟩ := skipWs_le hklen
      simp only [Except.mapError, Run.of_ok, Run.ok_bind, hview, memberKey_eq htwo]
      rw [parseMembersLoop_key hlt hk]
      cases hkey : Wire.memberKey (slice text i k) with
      | error e => rfl
      | ok key =>
        rw [except_ok_bind]
        simp only [Run.of_ok, Run.ok_bind, skipWs_eq hklen, isAt_beq, decide_eq_true_eq]
        by_cases hcolon : text[Wire.skipWs text k]? = some 0x3A
        · obtain ⟨hltc, hlenc⟩ := skipWs_after hcolon
          rw [if_pos hcolon, if_pos hcolon, skipWs_after_eq hcolon, Run.ok_bind]
          cases hr : Wire.skipValueToken text (scanFuel text)
              (Wire.skipWs text (Wire.skipWs text k + 1)) with
          | error e =>
            rw [valueView_error hlenc hr]
            rfl
          | ok j =>
            obtain ⟨hvalue, hij, hj⟩ := valueView_ok hlenc hr
            rw [hvalue, Except.mapError, except_ok_bind]
            refine entryEnd_round hj fun hcomma hnext hlen' => ?_
            have hgrown : i < Wire.skipWs text (Wire.skipWs text j + 1) := by omega
            have hfuel : text.length - Wire.skipWs text (Wire.skipWs text j + 1) < fuel := by omega
            exact ⟨hgrown, hlen', fuel, hfuel, if_pos hcomma⟩
        · rw [if_neg hcolon, if_neg hcolon]
          rfl
  · rw [if_neg hlt, parseMembersLoop, if_neg hlt]
    rfl

theorem parseObjectMembers_eq (objectJson : Bytes) :
    parseObjectMembers objectJson = .of (Wire.parseObjectMembers objectJson) := by
  rw [parseObjectMembers, Wire.parseObjectMembers, trim_eq, Run.ok_bind]
  refine bracketed_eq (parseMembersLoop _ _ · {}) fun hopen => ?_
  exact membersLoop_eq (skipWs_after hopen).2 {}

theorem parseArrayElements_eq (arrayJson : Bytes) :
    parseArrayElements arrayJson = .of (Wire.parseArrayElements arrayJson) := by
  rw [parseArrayElements, Wire.parseArrayElements, trim_eq, Run.ok_bind]
  refine bracketed_eq (parseElementsLoop _ _ · []) fun hopen => ?_
  exact elementsLoop_eq (skipWs_after hopen).2 []

end Bounded

/-! ## What is stored -/

variable {text : Bytes} {i fuel : Nat}

/-- The value between two indices, without the whitespace around it. -/
theorem infix_valueView (text : Bytes) (i j : Nat) : trim (slice text i j) <:+: text :=
  (infix_trim _).trans (infix_slice text i (j - i))

/-- **Every value that `parseObjectMembers` stores is a part of the text.** -/
theorem parseMembersLoop_views {m out : MemberMap} (hout : ∀ e ∈ out.entries, e.2 <:+: text)
    (h : parseMembersLoop text fuel i out = .ok m) : ∀ e ∈ m.entries, e.2 <:+: text := by
  induction fuel generalizing i out with
  | zero => cases h
  | succ fuel ih =>
    rw [parseMembersLoop] at h
    split_ifs at h
    obtain ⟨k, -, h⟩ := ok_of_bind h
    obtain ⟨key, -, h⟩ := ok_of_bind h
    simp only at h
    split_ifs at h
    obtain ⟨j, -, h⟩ := ok_of_bind h
    obtain ⟨v, hv⟩ : ∃ v, v = trim (slice text (skipWs text (skipWs text k + 1)) j) := ⟨_, rfl⟩
    have hins : ∀ e ∈ (out.insertOrAssign key v).entries, e.2 <:+: text :=
      forall_insertOrAssign (P := fun e => e.2 <:+: text) hout (hv ▸ infix_valueView text _ j)
    rw [← hv] at h
    split_ifs at h
    · exact ih hins h
    · cases h
      exact hins

theorem parseElementsLoop_views {es out : List Bytes} (hout : ∀ e ∈ out, e <:+: text)
    (h : parseElementsLoop text fuel i out = .ok es) : ∀ e ∈ es, e <:+: text := by
  induction fuel generalizing i out with
  | zero => cases h
  | succ fuel ih =>
    rw [parseElementsLoop] at h
    split_ifs at h
    obtain ⟨j, -, h⟩ := ok_of_bind h
    have hins : ∀ e ∈ out ++ [trim (slice text i j)], e <:+: text := by
      intro e he
      rcases List.mem_append.1 he with he | he
      · exact hout e he
      · rw [List.mem_singleton.1 he]
        exact infix_valueView text i j
    simp only at h
    split_ifs at h
    · exact ih hins h
    · cases h
      exact hins

theorem parseObjectMembers_views {m : MemberMap} (h : parseObjectMembers text = .ok m) :
    ∀ e ∈ m.entries, e.2 <:+: text := by
  have hnil : ∀ e ∈ ({} : MemberMap).entries, e.2 <:+: trim text := List.forall_mem_nil _
  have htrim : ∀ e ∈ m.entries, e.2 <:+: trim text := by
    rw [parseObjectMembers] at h
    simp only at h
    split_ifs at h
    · cases h
      exact hnil
    · exact parseMembersLoop_views hnil h
  exact fun e he => (htrim e he).trans (infix_trim text)

theorem parseArrayElements_views {es : List Bytes} (h : parseArrayElements text = .ok es) :
    ∀ e ∈ es, e <:+: text := by
  have hnil : ∀ e ∈ ([] : List Bytes), e <:+: trim text := List.forall_mem_nil _
  have htrim : ∀ e ∈ es, e <:+: trim text := by
    rw [parseArrayElements] at h
    simp only at h
    split_ifs at h
    · cases h
      exact hnil
    · exact parseElementsLoop_views hnil h
  exact fun e he => (htrim e he).trans (infix_trim text)

/-- From any index of any text, with a depth above its length, the value scanner ends: it reads
nothing outside the text, leaves its index in it, and behind the start when it succeeds. Both parsers
end on any text, take views inside it only, and store nothing else. -/
theorem tokenizer_bounded (text : Bytes) :
    (∀ i ≤ text.length, ∀ depth > text.length,
      (∃ j, Bounded.skipValueToken text depth i = .ok j ∧ i < j ∧ j ≤ text.length) ∨
        ∃ error j, Bounded.skipValueToken text depth i = .error (error, j) ∧ i ≤ j ∧
          j ≤ text.length) ∧
    ((∃ m, Bounded.parseObjectMembers text = .ok m ∧ ∀ e ∈ m.entries, e.2 <:+: text) ∨
      ∃ error, Bounded.parseObjectMembers text = .error error) ∧
    ((∃ es, Bounded.parseArrayElements text = .ok es ∧ ∀ e ∈ es, e <:+: text) ∨
      ∃ error, Bounded.parseArrayElements text = .error error) := by
  refine ⟨fun i hi depth hd => ?_, ?_, ?_⟩
  · have hwithin := (allWithin text (scanFuel text)).value hi
    rw [Bounded.skipValueToken_eq hi (by omega) (Bounded.scanFuel_le text i)]
    cases hr : skipValueToken text (scanFuel text) i with
    | ok j =>
      rw [hr] at hwithin
      exact .inl ⟨j, rfl, hwithin⟩
    | error e =>
      rw [hr] at hwithin
      exact .inr ⟨e.1, e.2, rfl, hwithin⟩
  · rw [Bounded.parseObjectMembers_eq]
    cases hr : parseObjectMembers text with
    | ok m => exact .inl ⟨m, rfl, parseObjectMembers_views hr⟩
    | error e => exact .inr ⟨e, rfl⟩
  · rw [Bounded.parseArrayElements_eq]
    cases hr : parseArrayElements text with
    | ok es => exact .inl ⟨es, rfl, parseArrayElements_views hr⟩
    | error e => exact .inr ⟨e, rfl⟩

/-- A text cut off behind a backslash, in a string in an array. -/
theorem tokenizer_bounded_truncated :
    (∃ j, Bounded.skipValueToken (lit "[\"a\\") 5 0 = .ok j ∧ 0 < j ∧ j ≤ (lit "[\"a\\").length) ∨
      ∃ error j, Bounded.skipValueToken (lit "[\"a\\") 5 0 = .error (error, j) ∧ 0 ≤ j ∧
        j ≤ (lit "[\"a\\").length :=
  (tokenizer_bounded (lit "[\"a\\")).1 0 (by decide) 5 (by decide)

end Phi.Wire
