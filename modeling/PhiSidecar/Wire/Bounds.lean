import PhiSidecar.Wire.CheckedScan
import PhiSidecar.Wire.ScanSound

/-!
# The tokenizer stays inside its text

`Within text i r`: a scan that starts at `i` leaves its index inside the text, not before `i`, and
behind `i` when it succeeds. Every scan is within (`within`, by induction on the fuel), so an index
grows in every round of every loop, and the checked tokenizer of `Wire.CheckedScan` neither reads
outside the text nor runs out of fuel: it computes what `Wire.Scan` does.
-/

set_option autoImplicit false

namespace Phi.Wire

open Cursor

variable {text : Bytes} {i j k fuel : Nat}

/-! ## Indices -/

/-- Where a scan from `i` leaves its index. -/
def Within (text : Bytes) (i : Nat) : Scan → Prop
  | .ok j => i < j ∧ j ≤ text.length
  | .error (_, j) => i ≤ j ∧ j ≤ text.length

theorem Within.mono {r : Scan} (h : Within text j r) (hij : i ≤ j) : Within text i r := by
  cases r with
  | ok k => exact ⟨Nat.lt_of_le_of_lt hij h.1, h.2⟩
  | error e => exact ⟨Nat.le_trans hij h.1, h.2⟩

theorem Within.bind {r : Scan} {f : Nat → Scan} (h : Within text i r)
    (hf : ∀ j, i < j → j ≤ text.length → Within text i (f j)) : Within text i (r >>= f) := by
  cases r with
  | ok j => exact hf j h.1 h.2
  | error e => exact h

theorem skipWs_le (hi : i ≤ text.length) : i ≤ skipWs text i ∧ skipWs text i ≤ text.length := by
  obtain ⟨w, -, hspan⟩ := skipWs_span hi
  have := hspan.length
  exact ⟨by omega, hspan.right_le⟩

theorem lt_of_get {c : UInt8} (h : text[i]? = some c) : i < text.length :=
  (List.getElem?_eq_some_iff.1 h).1

/-- Whitespace after a byte that has been read. -/
theorem skipWs_after {c : UInt8} (h : text[i]? = some c) :
    i < skipWs text (i + 1) ∧ skipWs text (i + 1) ≤ text.length := by
  obtain ⟨hle, hlen⟩ := skipWs_le (Nat.succ_le_of_lt (lt_of_get h))
  exact ⟨hle, hlen⟩

theorem within_stringBody {s : Bytes} (h : i + s.length = text.length) :
    Within text i (skipStringBody s i) := by
  induction s, i using skipStringBody.induct with
  | case1 i =>
    rw [skipStringBody]
    exact ⟨Nat.le_refl _, by simp at h; omega⟩
  | case2 s i =>
    rw [skipStringBody_quote]
    exact ⟨Nat.lt_succ_self _, by simp at h; omega⟩
  | case3 i hq =>
    rw [skipStringBody.eq_def]
    exact ⟨Nat.le_succ _, by simp at h; omega⟩
  | case4 i hq c s ih =>
    rw [skipStringBody_escape]
    exact (ih (by simp at h; omega)).mono (by omega)
  | case5 ch s i h22 h5C ih =>
    rw [skipStringBody_plain h22 h5C]
    exact (ih (by simp at h; omega)).mono (by omega)

theorem within_string (hi : i ≤ text.length) : Within text i (skipStringToken text i) := by
  unfold skipStringToken
  split
  · next h =>
    have hlt := lt_of_get h
    exact (within_stringBody (by rw [List.length_drop]; omega)).mono (Nat.le_succ i)
  · exact ⟨Nat.le_refl _, hi⟩

/-- A number scan passes over what it takes for a number; with a digit in it, over a byte. -/
theorem skipNumberToken_le (hi : i ≤ text.length) :
    i ≤ (skipNumberToken text i).2 ∧ (skipNumberToken text i).2 ≤ text.length ∧
      ((skipNumberToken text i).1 = true → i < (skipNumberToken text i).2) := by
  obtain ⟨sign, -, hsign⟩ := skipSign_span hi
  obtain ⟨ds, -, hdigits, -⟩ := skipDigits_span (a := (false, skipSign text i)) hsign.right_le
  obtain ⟨f, -, hfraction, -⟩ := skipFraction_span hdigits.right_le
  obtain ⟨e, -, hexponent, -⟩ := skipExponent_span hfraction.right_le
  have hspan : Span text i (skipNumberToken text i).2 _ :=
    hsign.append (hdigits.append (hfraction.append hexponent))
  have hlen := hspan.length
  refine ⟨by omega, hspan.right_le, fun hd => ?_⟩
  obtain ⟨n, hn, hspan⟩ : ∃ n, NumberToken n ∧ Span text i (skipNumberToken text i).2 n :=
    skipNumberToken_span hi (Prod.ext hd rfl)
  have hne : n.length ≠ 0 := fun h0 => by
    obtain ⟨_, _, _, _, -, -, -, -, -, hany⟩ := hn
    rw [List.length_eq_zero_iff.1 h0] at hany
    cases hany
  have hlen' := hspan.length
  omega

/-- Every scan of a value is within its text, whatever the fuel. -/
structure AllWithin (text : Bytes) (fuel : Nat) : Prop where
  value : ∀ {i}, i ≤ text.length → Within text i (skipValueToken text fuel i)
  array : ∀ {i}, i ≤ text.length → Within text i (skipArrayToken text fuel i)
  arrayLoop : ∀ {i}, i ≤ text.length → Within text i (skipArrayLoop text fuel i)
  object : ∀ {i}, i ≤ text.length → Within text i (skipObjectToken text fuel i)
  objectLoop : ∀ {i}, i ≤ text.length → Within text i (skipObjectLoop text fuel i)

namespace AllWithin

theorem zero (text : Bytes) : AllWithin text 0 := by
  constructor <;> intro i hi
  · rw [skipValueToken]; exact ⟨Nat.le_refl _, hi⟩
  · rw [skipArrayToken]; exact ⟨Nat.le_refl _, hi⟩
  · rw [skipArrayLoop]; exact ⟨Nat.le_refl _, hi⟩
  · rw [skipObjectToken]; exact ⟨Nat.le_refl _, hi⟩
  · rw [skipObjectLoop]; exact ⟨Nat.le_refl _, hi⟩

theorem value_succ (ih : AllWithin text fuel) (hi : i ≤ text.length) :
    Within text i (skipValueToken text (fuel + 1) i) := by
  obtain ⟨hle, hlen⟩ := skipWs_le hi
  refine Within.mono ?_ hle
  have hliteral : ∀ token : Bytes, 0 < token.length → hasToken text (skipWs text i) token = true →
      Within text (skipWs text i) (.ok (skipWs text i + token.length)) := fun token hpos ht =>
    ⟨by omega, (hasToken_span hlen ht).right_le⟩
  obtain ⟨hnle, hnlen, hdigit⟩ := skipNumberToken_le hlen
  rw [skipValueToken]
  simp only
  split
  · exact ⟨Nat.le_refl _, hlen⟩
  · split_ifs with h1 h2 h3 htrue hfalse hnull hany
    · exact within_string hlen
    · exact ih.object hlen
    · exact ih.array hlen
    · exact hliteral (lit "true") (by decide) htrue.2
    · exact hliteral (lit "false") (by decide) hfalse.2
    · exact hliteral (lit "null") (by decide) hnull.2
    · exact ⟨hdigit hany, hnlen⟩
    · exact ⟨hnle, hnlen⟩

theorem array_succ (ih : AllWithin text fuel) (hi : i ≤ text.length) :
    Within text i (skipArrayToken text (fuel + 1) i) := by
  rw [skipArrayToken]
  split
  · next hopen =>
    obtain ⟨hlt, hlen⟩ := skipWs_after hopen
    simp only
    split
    · next hclose => exact ⟨by omega, lt_of_get hclose⟩
    · exact (ih.arrayLoop hlen).mono (by omega)
  · exact ⟨Nat.le_refl _, hi⟩

theorem arrayLoop_succ (ih : AllWithin text fuel) (hi : i ≤ text.length) :
    Within text i (skipArrayLoop text (fuel + 1) i) := by
  rw [skipArrayLoop]
  split
  · refine (ih.value hi).bind fun j hij hj => ?_
    obtain ⟨hle, hlen⟩ := skipWs_le hj
    simp only
    split_ifs with hcomma hclose
    · obtain ⟨hlt', hlen'⟩ := skipWs_after hcomma
      exact (ih.arrayLoop hlen').mono (by omega)
    · exact ⟨by omega, lt_of_get hclose⟩
    · exact ⟨by omega, hlen⟩
  · exact ⟨Nat.le_refl _, hi⟩

theorem object_succ (ih : AllWithin text fuel) (hi : i ≤ text.length) :
    Within text i (skipObjectToken text (fuel + 1) i) := by
  rw [skipObjectToken]
  split
  · next hopen =>
    obtain ⟨hlt, hlen⟩ := skipWs_after hopen
    simp only
    split
    · next hclose => exact ⟨by omega, lt_of_get hclose⟩
    · exact (ih.objectLoop hlen).mono (by omega)
  · exact ⟨Nat.le_refl _, hi⟩

theorem objectLoop_succ (ih : AllWithin text fuel) (hi : i ≤ text.length) :
    Within text i (skipObjectLoop text (fuel + 1) i) := by
  rw [skipObjectLoop]
  split
  · refine (within_string hi).bind fun j hij hj => ?_
    obtain ⟨hle, hlen⟩ := skipWs_le hj
    simp only
    split
    · next hcolon =>
      obtain ⟨hlt', hlen'⟩ := skipWs_after hcolon
      refine ((ih.value hlen').mono (by omega)).bind fun k hik hk => ?_
      obtain ⟨hle'', hlen''⟩ := skipWs_le hk
      split_ifs with hcomma hclose
      · obtain ⟨hlt, hlen⟩ := skipWs_after hcomma
        exact (ih.objectLoop hlen).mono (by omega)
      · exact ⟨by omega, lt_of_get hclose⟩
      · exact ⟨by omega, hlen''⟩
    · exact ⟨by omega, hlen⟩
  · exact ⟨Nat.le_refl _, hi⟩

end AllWithin

theorem allWithin (text : Bytes) : ∀ fuel, AllWithin text fuel
  | 0 => .zero text
  | fuel + 1 => by
    have ih := allWithin text fuel
    exact ⟨ih.value_succ, ih.array_succ, ih.arrayLoop_succ, ih.object_succ, ih.objectLoop_succ⟩

namespace Bounded

open Checked

variable {ε : Type}

/-! ## Strings and numbers -/

theorem skipWs_eq (hi : i ≤ text.length) : (skipWs text i : Run ε Nat) = .ok (Wire.skipWs text i) :=
  scanWhile_eq isWs hi

theorem skipWs_after_eq {c : UInt8} (h : text[i]? = some c) :
    (skipWs text (i + 1) : Run ε Nat) = .ok (Wire.skipWs text (i + 1)) :=
  skipWs_eq (lt_of_get h)

theorem isAt_or (c d : UInt8) (text : Bytes) (i : Nat) :
    isAt (fun x => x == c || x == d) text i =
      (.ok (decide (text[i]? = some c ∨ text[i]? = some d)) : Run ε Bool) := by
  rw [isAt_eq]
  cases text[i]? <;> simp [beq_eq_decide]

/-- A string is scanned byte by byte, two bytes after a backslash: the index falls behind neither the
text nor the loop's fuel. -/
theorem stringLoop_eq (hi : i ≤ text.length) :
    loop (stringRound text) (text.length + 1) i = .of (skipStringBody (text.drop i) i) := by
  refine scan_follows (R := fun i x => x = skipStringBody (text.drop i) i) id ?_ hi rfl
    (Nat.lt_succ_self _)
  rintro i _ hi rfl
  have hat : At text i (text.drop i) := ⟨hi, rfl⟩
  cases hs : text.drop i with
  | nil =>
    rw [hs] at hat
    have hlen := hat.length
    simp only [List.length_nil] at hlen
    rw [stringRound, if_neg (by omega)]
    rfl
  | cons c s =>
    rw [hs] at hat
    have hnext := hat.next
    rw [stringRound, if_pos hat.lt, get_of_some hat.get_cons, Run.ok_bind]
    by_cases h22 : c = 0x22
    · rw [h22, skipStringBody_quote]
      rfl
    by_cases h5C : c = 0x5C
    · cases s with
      | nil =>
        have hlen := hnext.length
        simp only [List.length_nil] at hlen
        rw [if_neg h22, if_pos h5C, if_pos (by omega), h5C, skipStringBody.eq_def]
        rfl
      | cons e s =>
        have hlt := hnext.lt
        rw [if_neg h22, if_pos h5C, if_neg (by omega), h5C, skipStringBody_escape]
        exact ⟨Nat.lt_add_of_pos_right Nat.two_pos, hlt, by rw [hnext.next.2]⟩
    · rw [if_neg h22, if_neg h5C, skipStringBody_plain h22 h5C]
      exact ⟨Nat.lt_succ_self i, hat.lt, by rw [hnext.2]⟩

theorem skipStringToken_eq : skipStringToken text i = .of (Wire.skipStringToken text i) := by
  rw [skipStringToken, isAt_beq, Run.ok_bind, Wire.skipStringToken]
  by_cases h : text[i]? = some 0x22
  · rw [if_pos h, ← stringLoop_eq (lt_of_get h)]
    simp [h]
  · simp [h]

theorem skipSign_eq : (skipSign text i : Run ε Nat) = .ok (Wire.skipSign text i) := by
  rw [skipSign, isAt_or, Run.ok_bind, Wire.skipSign]
  by_cases h : text[i]? = some 0x2D ∨ text[i]? = some 0x2B
  · simp only [h, decide_true, if_true, Run.pure_eq]
  · simp only [h, decide_false, if_false, Run.pure_eq, Bool.false_eq_true]

theorem skipDigits_eq {a : Bool × Nat} (ha : a.2 ≤ text.length) :
    (skipDigits text a : Run ε (Bool × Nat)) = .ok (Wire.skipDigits text a) := by
  refine scan_follows (R := fun a x => x = .ok (Wire.skipDigits text a)) Prod.snd ?_ ha rfl
    (Nat.lt_succ_self _)
  rintro ⟨d, i⟩ _ hi rfl
  rw [isAt_eq, Run.ok_bind]
  have hat : At text i (text.drop i) := ⟨hi, rfl⟩
  cases hs : text.drop i with
  | nil =>
    rw [hs] at hat
    simp [hat.get, Round, Wire.skipDigits, hs]
  | cons c s =>
    rw [hs] at hat
    by_cases hc : Decimal.isDigit c = true
    · have hnext : text.drop (i + 1) = s := hat.next.2
      simp only [hat.get, List.head?_cons, Option.any_some, hc, if_true, Run.pure_eq, Round,
        Wire.skipDigits, hs, hnext, List.takeWhile_cons_of_pos, List.length_cons]
      refine ⟨Nat.lt_succ_self i, hat.lt, ?_⟩
      simp
      omega
    · simp [hat.get, hc, Round, Wire.skipDigits, hs]

theorem skipFraction_eq {a : Bool × Nat} :
    (skipFraction text a : Run ε (Bool × Nat)) = .ok (Wire.skipFraction text a) := by
  rw [skipFraction, isAt_beq, Run.ok_bind, Wire.skipFraction]
  by_cases h : text[a.2]? = some 0x2E
  · simpa [h] using skipDigits_eq (a := (a.1, a.2 + 1)) (lt_of_get h)
  · simp [h]

theorem skipExponent_eq {a : Bool × Nat} :
    (skipExponent text a : Run ε (Bool × Nat)) = .ok (Wire.skipExponent text a) := by
  rw [skipExponent, isAt_or, Run.ok_bind, Wire.skipExponent]
  by_cases h : text[a.2]? = some 0x65 ∨ text[a.2]? = some 0x45
  · have hi : a.2 + 1 ≤ text.length := by
      obtain h | h := h
      · exact lt_of_get h
      · exact lt_of_get h
    obtain ⟨sign, -, hsign⟩ := skipSign_span hi
    simpa [h, skipSign_eq] using
      skipDigits_eq (a := (a.1, Wire.skipSign text (a.2 + 1))) hsign.right_le
  · simp [h]

theorem skipNumberToken_eq (hi : i ≤ text.length) :
    (skipNumberToken text i : Run ε (Bool × Nat)) = .ok (Wire.skipNumberToken text i) := by
  obtain ⟨sign, -, hsign⟩ := skipSign_span hi
  rw [skipNumberToken, skipSign_eq, Run.ok_bind, skipDigits_eq hsign.right_le, Run.ok_bind,
    skipFraction_eq, Run.ok_bind, skipExponent_eq]
  rfl

theorem literalAt_eq (hi : i ≤ text.length) (ch c : UInt8) (token : Bytes) :
    (literalAt text i ch c token : Run ε Bool) =
      .ok (decide (ch = c ∧ hasToken text i token = true)) := by
  unfold literalAt
  by_cases h : ch = c
  · simp [h, viewAtMost_of_le _ hi, hasToken, beq_eq_decide]
  · simp [h]

/-! ## Values -/

/-- A scanner of values agrees with `Wire.skipValueToken` from `lo` on, with any fuel that covers what
is left of the text. -/
def Agrees (text : Bytes) (lo : Nat) (value : Nat → ScanRun Nat) : Prop :=
  ∀ {i} (fuel), lo ≤ i → i ≤ text.length → 3 * (text.length - i) + 1 ≤ fuel →
    value i = .of (Wire.skipValueToken text fuel i)

/-- The end of a round goes on behind the comma, inside the text, or has what the source returns. -/
theorem separated_round {σ α : Type} {close : UInt8} {next : Nat → σ} {stop : Nat → α} {error : Nat → ε}
    {rest : Except ε α} {N : σ → Prop} (hj : j ≤ text.length)
    (hN : text[Wire.skipWs text j]? = some 0x2C → j < Wire.skipWs text (Wire.skipWs text j + 1) →
      Wire.skipWs text (Wire.skipWs text j + 1) ≤ text.length →
      N (next (Wire.skipWs text (Wire.skipWs text j + 1)))) :
    Round N (if text[Wire.skipWs text j]? = some 0x2C then rest
      else if text[Wire.skipWs text j]? = some close then .ok (stop (Wire.skipWs text j))
      else .error (error (Wire.skipWs text j)))
      (do
        let i ← skipWs text j
        if ← isAt (· == 0x2C) text i then
          let i ← skipWs text (i + 1)
          pure (.next (next i))
        else if ← isAt (· == close) text i then pure (.stop (stop i))
        else .error (error i)) := by
  simp only [skipWs_eq hj, Run.ok_bind, isAt_beq, decide_eq_true_eq]
  by_cases hcomma : text[Wire.skipWs text j]? = some 0x2C
  · obtain ⟨hlt, hlen⟩ := skipWs_after hcomma
    rw [if_pos hcomma, if_pos hcomma, skipWs_after_eq hcomma]
    exact hN hcomma (Nat.lt_of_le_of_lt (skipWs_le hj).1 hlt) hlen
  by_cases hclose : text[Wire.skipWs text j]? = some close
  · rw [if_neg hcomma, if_neg hcomma, if_pos hclose, if_pos hclose]
    rfl
  · rw [if_neg hcomma, if_neg hcomma, if_neg hclose, if_neg hclose]
    rfl

/-- Items between brackets, when the items do what the source does. -/
theorem bracketed_eq {α : Type} {first close : UInt8} {empty : Nat → α} {error : ε}
    {items : Nat → Run ε α} (items' : Nat → Except ε α)
    (hitems : text[i]? = some first →
      items (Wire.skipWs text (i + 1)) = .of (items' (Wire.skipWs text (i + 1)))) :
    (do
      if ← isAt (· == first) text i then
        let i ← skipWs text (i + 1)
        if ← isAt (· == close) text i then pure (empty i) else items i
      else .error error) =
      Run.of (if text[i]? = some first then
        if text[Wire.skipWs text (i + 1)]? = some close then .ok (empty (Wire.skipWs text (i + 1)))
        else items' (Wire.skipWs text (i + 1))
      else .error error) := by
  rw [isAt_beq, Run.ok_bind]
  simp only [decide_eq_true_eq]
  by_cases hfirst : text[i]? = some first
  · rw [if_pos hfirst, if_pos hfirst, skipWs_after_eq hfirst, Run.ok_bind, isAt_beq, Run.ok_bind]
    simp only [decide_eq_true_eq]
    by_cases hclose : text[Wire.skipWs text (i + 1)]? = some close
    · rw [if_pos hclose, if_pos hclose]
      rfl
    · rw [if_neg hclose, if_neg hclose]
      exact hitems hfirst
  · rw [if_neg hfirst, if_neg hfirst]
    rfl

section
variable {value : Nat → ScanRun Nat} {lo : Nat}

theorem arrayLoop_eq (hv : Agrees text lo value) (hlo : lo ≤ i) (hi : i ≤ text.length)
    (hf : 3 * (text.length - i) + 2 ≤ fuel) :
    loop (arrayRound value text) (text.length + 1) i = .of (skipArrayLoop text fuel i) := by
  refine scan_follows (R := fun i x => lo ≤ i ∧ ∃ fuel, 3 * (text.length - i) + 2 ≤ fuel ∧
    x = skipArrayLoop text fuel i) id ?_ hi ⟨hlo, fuel, hf, rfl⟩ (Nat.lt_succ_self _)
  rintro i _ (hi : i ≤ text.length) ⟨hlo, fuel, hf, rfl⟩
  obtain ⟨fuel, rfl⟩ : ∃ f, fuel = f + 1 := ⟨fuel - 1, by omega⟩
  rw [arrayRound, skipArrayLoop]
  by_cases hlt : i < text.length
  · rw [if_pos hlt, if_pos hlt, hv fuel hlo hi (by omega)]
    have hwithin := (allWithin text fuel).value hi
    cases hr : Wire.skipValueToken text fuel i with
    | error e => rfl
    | ok j =>
      rw [hr] at hwithin
      obtain ⟨hij, hj⟩ := hwithin
      refine separated_round hj fun hcomma hnext hlen' => ?_
      exact ⟨Nat.lt_trans hij hnext, hlen', by omega, fuel, by omega, if_pos hcomma⟩
  · rw [if_neg hlt, if_neg hlt]
    rfl

/-- A round of the object loop, once the key and its colon have been read. -/
theorem skipObjectLoop_value (hlt : i < text.length) (hk : Wire.skipStringToken text i = .ok k)
    (hcolon : text[Wire.skipWs text k]? = some 0x3A) :
    skipObjectLoop text (fuel + 1) i =
      (Wire.skipValueToken text fuel (Wire.skipWs text (Wire.skipWs text k + 1)) >>= fun j =>
        if text[Wire.skipWs text j]? = some 0x2C then
          skipObjectLoop text fuel (Wire.skipWs text (Wire.skipWs text j + 1))
        else if text[Wire.skipWs text j]? = some 0x7D then .ok (Wire.skipWs text j + 1)
        else .error (lit "Invalid JSON object", Wire.skipWs text j)) := by
  rw [skipObjectLoop, if_pos hlt, hk]
  exact if_pos hcolon

theorem objectLoop_eq (hv : Agrees text lo value) (hlo : lo ≤ i) (hi : i ≤ text.length)
    (hf : 3 * (text.length - i) + 2 ≤ fuel) :
    loop (objectRound value text) (text.length + 1) i = .of (skipObjectLoop text fuel i) := by
  refine scan_follows (R := fun i x => lo ≤ i ∧ ∃ fuel, 3 * (text.length - i) + 2 ≤ fuel ∧
    x = skipObjectLoop text fuel i) id ?_ hi ⟨hlo, fuel, hf, rfl⟩ (Nat.lt_succ_self _)
  rintro i _ (hi : i ≤ text.length) ⟨hlo, fuel, hf, rfl⟩
  obtain ⟨fuel, rfl⟩ : ∃ f, fuel = f + 1 := ⟨fuel - 1, by omega⟩
  rw [objectRound]
  by_cases hlt : i < text.length
  · rw [if_pos hlt, skipStringToken_eq]
    have hkey := within_string hi
    cases hk : Wire.skipStringToken text i with
    | error e =>
      rw [skipObjectLoop, if_pos hlt, hk]
      rfl
    | ok k =>
      rw [hk] at hkey
      obtain ⟨hik, hklen⟩ := hkey
      obtain ⟨hlek, -⟩ := skipWs_le hklen
      simp only [Run.of_ok, Run.ok_bind, skipWs_eq hklen, isAt_beq, decide_eq_true_eq]
      by_cases hcolon : text[Wire.skipWs text k]? = some 0x3A
      · obtain ⟨hltc, hlenc⟩ := skipWs_after hcolon
        rw [if_pos hcolon, skipWs_after_eq hcolon, Run.ok_bind, hv fuel (by omega) hlenc (by omega),
          skipObjectLoop_value hlt hk hcolon]
        have hwithin := (allWithin text fuel).value hlenc
        cases hr : Wire.skipValueToken text fuel (Wire.skipWs text (Wire.skipWs text k + 1)) with
        | error e => rfl
        | ok j =>
          rw [hr] at hwithin
          obtain ⟨hij, hj⟩ := hwithin
          refine separated_round hj fun hcomma hnext hlen' => ?_
          have hgrown : i < Wire.skipWs text (Wire.skipWs text j + 1) := by omega
          exact ⟨hgrown, hlen', by omega, fuel, by omega, if_pos hcomma⟩
      · rw [if_neg hcolon, skipObjectLoop, if_pos hlt, hk]
        exact if_neg hcolon
  · rw [if_neg hlt, skipObjectLoop, if_neg hlt]
    rfl

theorem skipArrayToken_eq (hv : Agrees text lo value) (hlo : lo ≤ i + 1) (hi : i < text.length)
    (hf : 3 * (text.length - i) ≤ fuel) :
    skipArrayToken value text i = .of (Wire.skipArrayToken text fuel i) := by
  obtain ⟨fuel, rfl⟩ : ∃ f, fuel = f + 1 := ⟨fuel - 1, by omega⟩
  rw [Wire.skipArrayToken]
  refine bracketed_eq _ fun hopen => ?_
  obtain ⟨hlt, hlen⟩ := skipWs_after hopen
  have hf' : 3 * (text.length - Wire.skipWs text (i + 1)) + 2 ≤ fuel := by omega
  exact arrayLoop_eq hv (by omega) hlen hf'

theorem skipObjectToken_eq (hv : Agrees text lo value) (hlo : lo ≤ i + 1) (hi : i < text.length)
    (hf : 3 * (text.length - i) ≤ fuel) :
    skipObjectToken value text i = .of (Wire.skipObjectToken text fuel i) := by
  obtain ⟨fuel, rfl⟩ : ∃ f, fuel = f + 1 := ⟨fuel - 1, by omega⟩
  rw [Wire.skipObjectToken]
  refine bracketed_eq _ fun hopen => ?_
  obtain ⟨hlt, hlen⟩ := skipWs_after hopen
  have hf' : 3 * (text.length - Wire.skipWs text (i + 1)) + 2 ≤ fuel := by omega
  exact objectLoop_eq hv (by omega) hlen hf'

end

/-- **The checked scanner does what the plain one does**: a value inside another starts behind its
bracket, so a depth above what is left of the text is never used up. -/
theorem skipValueToken_eq {depth : Nat} (hi : i ≤ text.length) (hd : text.length - i < depth)
    (hf : 3 * (text.length - i) + 1 ≤ fuel) :
    skipValueToken text depth i = .of (Wire.skipValueToken text fuel i) := by
  induction depth generalizing i fuel with
  | zero => omega
  | succ depth ih =>
    obtain ⟨fuel, rfl⟩ : ∃ f, fuel = f + 1 := ⟨fuel - 1, by omega⟩
    obtain ⟨hle, hlen⟩ := skipWs_le hi
    have hv : Agrees text (Wire.skipWs text i + 1) (skipValueToken text depth) :=
      fun fuel hlo hk hf => ih hk (by omega) hf
    rw [skipValueToken, Wire.skipValueToken, skipWs_eq hi, Run.ok_bind]
    cases hch : text[Wire.skipWs text i]? with
    | none =>
      rw [if_pos (List.getElem?_eq_none_iff.1 hch)]
      rfl
    | some ch =>
      have hlt := lt_of_get hch
      have hf' : 3 * (text.length - Wire.skipWs text i) ≤ fuel := by omega
      rw [if_neg (Nat.not_le.2 hlt), get_of_some hch, Run.ok_bind]
      simp only [literalAt_eq hlen, Run.ok_bind, decide_eq_true_eq, skipNumberToken_eq hlen,
        skipStringToken_eq]
      split_ifs with h1 h2 h3 htrue hfalse hnull hany
      · rfl
      · exact skipObjectToken_eq hv (Nat.le_refl _) hlt hf'
      · exact skipArrayToken_eq hv (Nat.le_refl _) hlt hf'
      · rfl
      · rfl
      · rfl
      · rfl
      · rfl

end Bounded

end Phi.Wire
