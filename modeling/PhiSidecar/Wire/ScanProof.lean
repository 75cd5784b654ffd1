import PhiSidecar.Lib.Cursor
import PhiSidecar.Lib.JsonOutline
import PhiSidecar.Wire.Scan

/-!
# The tokenizer consumes every JSON value

The scanners look neither at the escapes of a string nor at where a number has its digits. What they
take for a value is an outline (`Rfc8259.Outline`) with any `NumberToken` in it: a `Token`.

* `skipValueToken_token`: a token, whatever its layout, is consumed up to its last byte when a delimiter
  follows (`Delim`); the fuel `scanFuel` suffices. By induction on the token; the loops are by induction
  on the elements and members (`skipArrayLoop_elems`, `skipObjectLoop_members`).
* `skipValueToken_value`: in particular a JSON value is.
-/

set_option autoImplicit false

namespace Phi.Wire

open Rfc8259 (Ws Digits Elem Member Enclosed Value Ends isNumberByte)
open Cursor

/-- What may follow a value: nothing, whitespace, a comma or a closing bracket. -/
def Delim (s : Bytes) : Prop :=
  ∀ c, s.head? = some c → isWs c = true ∨ c = 0x2C ∨ c = 0x5D ∨ c = 0x7D

theorem Delim.ws {w s : Bytes} (hw : Ws w) (hs : Delim s) : Delim (w ++ s) := by
  cases w with
  | nil => exact hs
  | cons c w => intro d hd; cases hd; exact .inl (hw c (.head _))

theorem Delim.cons {c : UInt8} {s : Bytes} (h : c = 0x2C ∨ c = 0x5D ∨ c = 0x7D) :
    Delim (c :: s) := fun d hd => by cases hd; exact .inr h

/-- A delimiter does not continue a number. -/
theorem Delim.ends {s : Bytes} (h : Delim s) : Ends s := by
  intro c hc
  apply Rfc8259.not_numberByte_of_punct
  obtain hw | rfl | rfl | rfl := h c hc
  · exact Rfc8259.isPunct_of_ws hw
  all_goals rfl

/-! ## Whitespace -/

section
variable {text s w : Bytes} {i : Nat}

theorem skipWs_at (h : At text i (w ++ s)) (hw : Ws w)
    (hs : ∀ c, s.head? = some c → isWs c = false) : skipWs text i = i + w.length := by
  rw [skipWs, h.2, takeWhile_run (p := isWs) hw hs]

theorem skipWs_cons {c : UInt8} (h : At text i (w ++ c :: s)) (hw : Ws w)
    (hc : isWs c = false) : skipWs text i = i + w.length ∧ At text (i + w.length) (c :: s) :=
  ⟨skipWs_at h hw fun _ hd => by cases hd; exact hc, h.skip⟩

theorem skipWs_none {c : UInt8} (h : At text i (c :: s)) (hc : isWs c = false) :
    skipWs text i = i := (skipWs_cons (w := []) h .nil hc).1

end

/-! ## Strings -/

theorem skipStringBody_quote (s : Bytes) (i : Nat) :
    skipStringBody (0x22 :: s) i = .ok (i + 1) := by
  rw [skipStringBody.eq_def]
  rfl

theorem skipStringBody_escape (e : UInt8) (s : Bytes) (i : Nat) :
    skipStringBody (0x5C :: e :: s) i = skipStringBody s (i + 2) := by
  rw [skipStringBody.eq_def]
  rfl

theorem skipStringBody_plain {c : UInt8} (h22 : c ≠ 0x22) (h5C : c ≠ 0x5C) (s : Bytes) (i : Nat) :
    skipStringBody (c :: s) i = skipStringBody s (i + 1) := by
  rw [skipStringBody.eq_def]
  simp only [if_neg h22, if_neg h5C]

theorem skipStringBody_body {b : Bytes} (hb : Enclosed b) (s : Bytes) (i : Nat) :
    skipStringBody (b ++ 0x22 :: s) i = .ok (i + (b.length + 1)) := by
  induction hb generalizing i with
  | nil => rw [List.nil_append, skipStringBody_quote]; simp
  | raw hc _ ih =>
    rw [List.cons_append, skipStringBody_plain hc.1 hc.2, ih, List.length_cons]
    congr 1
    omega
  | esc _ ih =>
    rw [List.cons_append, List.cons_append, skipStringBody_escape, ih]
    simp only [List.length_cons]
    congr 1
    omega

theorem skipStringToken_quoted {text b s : Bytes} {i : Nat}
    (h : At text i (Rfc8259.quoted b ++ s)) (hb : Enclosed b) :
    skipStringToken text i = .ok (i + (Rfc8259.quoted b).length) := by
  simp only [Rfc8259.quoted, List.cons_append, List.append_assoc] at h
  rw [skipStringToken, if_pos h.get_cons, h.next.2, skipStringBody_body hb]
  simp only [Rfc8259.quoted, List.length_cons, List.length_append, List.length_nil]
  congr 1
  omega

/-! ## Numbers -/

def SignToken (sign : Bytes) : Prop := sign = [] ∨ sign = [0x2B] ∨ sign = [0x2D]

inductive FractionToken : Bytes → Prop
  | none : FractionToken []
  | some {ds} : Digits ds → FractionToken (0x2E :: ds)

inductive ExponentToken : Bytes → Prop
  | none : ExponentToken []
  | some {e sign ds} : e = 0x65 ∨ e = 0x45 → SignToken sign → Digits ds →
      ExponentToken (e :: (sign ++ ds))

/-- What `skipNumberToken` passes over: the parts of a number, each with any digits or none, as long as
there is one in all. -/
def NumberToken (n : Bytes) : Prop :=
  ∃ sign ds f e, SignToken sign ∧ Digits ds ∧ FractionToken f ∧ ExponentToken e ∧
    n = sign ++ (ds ++ (f ++ e)) ∧ n.any Decimal.isDigit = true

theorem numberToken_number {n : Bytes} (h : Rfc8259.Number n) : NumberToken n := by
  obtain ⟨m, i, f, e, hm, hi, hf, he, rfl⟩ := h
  obtain ⟨d, ds, rfl, hd, hds⟩ := hi.head
  refine ⟨m, d :: ds, f, e, hm.imp_right .inr, List.forall_mem_cons.2 ⟨hd, hds⟩, ?_, ?_, rfl, ?_⟩
  · cases hf with
    | none => exact .none
    | some _ hds => exact .some hds
  · cases he with
    | none => exact .none
    | some he hsign _ hds => exact .some he hsign hds
  · simp [hd]

theorem SignToken.bytes {sign : Bytes} (h : SignToken sign) :
    (∀ c ∈ sign, isNumberByte c = true) ∧ sign.any Decimal.isDigit = false := by
  obtain rfl | rfl | rfl := h
  · exact ⟨List.forall_mem_nil _, rfl⟩
  · exact ⟨List.forall_mem_singleton.2 rfl, rfl⟩
  · exact ⟨List.forall_mem_singleton.2 rfl, rfl⟩

theorem NumberToken.numeric {n : Bytes} (h : NumberToken n) : Rfc8259.Numeric n := by
  have hdigits : ∀ ds, Digits ds → ∀ c ∈ ds, isNumberByte c = true :=
    fun ds hds c hc => Rfc8259.isNumberByte_of_digit (hds c hc)
  obtain ⟨sign, ds, f, e, hsign, hds, hf, he, rfl, hany⟩ := h
  refine ⟨?_, ?_⟩
  · intro hnil
    rw [hnil] at hany
    cases hany
  · refine List.forall_mem_append.2 ⟨hsign.bytes.1, List.forall_mem_append.2 ⟨hdigits ds hds,
      List.forall_mem_append.2 ⟨?_, ?_⟩⟩⟩
    · cases hf with
      | none => exact List.forall_mem_nil _
      | some hds => exact List.forall_mem_cons.2 ⟨rfl, hdigits _ hds⟩
    · cases he with
      | none => exact List.forall_mem_nil _
      | some he hsign hds =>
        refine List.forall_mem_cons.2 ⟨?_, List.forall_mem_append.2 ⟨hsign.bytes.1, hdigits _ hds⟩⟩
        obtain rfl | rfl := he
        · rfl
        · rfl

section
variable {text s : Bytes} {i : Nat} {b : Bool}

theorem skipSign_token {sign : Bytes} (h : At text i (sign ++ s)) (hsign : SignToken sign)
    (hs : ∀ c, s.head? = some c → c ≠ 0x2D ∧ c ≠ 0x2B) : skipSign text i = i + sign.length := by
  obtain rfl | rfl | rfl := hsign
  · rw [skipSign, if_neg]
    · rfl
    · rw [h.get]
      rintro (he | he)
      · exact (hs _ he).1 rfl
      · exact (hs _ he).2 rfl
  · rw [skipSign, if_pos (.inr h.get_cons)]
    rfl
  · rw [skipSign, if_pos (.inl h.get_cons)]
    rfl

theorem skipDigits_token {ds : Bytes} (h : At text i (ds ++ s)) (hd : Digits ds)
    (hs : ∀ c, s.head? = some c → Decimal.isDigit c = false) :
    skipDigits text (b, i) = (b || ds.any Decimal.isDigit, i + ds.length) := by
  simp only [skipDigits, h.2, takeWhile_run hd hs]
  cases ds with
  | nil => rfl
  | cons d ds => simp [hd d (.head _)]

theorem skipFraction_token {f : Bytes} (h : At text i (f ++ s)) (hf : FractionToken f)
    (hs : ∀ c, s.head? = some c → Decimal.isDigit c = false ∧ c ≠ 0x2E) :
    skipFraction text (b, i) = (b || f.any Decimal.isDigit, i + f.length) := by
  cases hf with
  | none =>
    rw [skipFraction, if_neg]
    · simp
    · rw [h.get]
      exact fun he => (hs _ he).2 rfl
  | some hds =>
    rw [skipFraction, if_pos h.get_cons, skipDigits_token h.next hds fun c hc => (hs c hc).1]
    simp only [List.any_cons, List.length_cons, show Decimal.isDigit 0x2E = false from rfl,
      Bool.false_or]
    congr 1
    omega

/-- No digit is a sign. -/
theorem not_sign_of_digit {c : UInt8} (h : Decimal.isDigit c = true) : c ≠ 0x2D ∧ c ≠ 0x2B := by
  constructor
  · rintro rfl
    exact absurd h (by decide)
  · rintro rfl
    exact absurd h (by decide)

theorem skipExponent_token {e : Bytes} (h : At text i (e ++ s)) (he : ExponentToken e) (hs : Ends s) :
    skipExponent text (b, i) = (b || e.any Decimal.isDigit, i + e.length) := by
  have hend {c : UInt8} (hc : s.head? = some c) := Rfc8259.of_not_numberByte (hs c hc)
  cases he with
  | none =>
    rw [skipExponent, if_neg]
    · simp
    · rw [h.get]
      rintro (hc | hc)
      · exact (hend hc).2.2.2.1 rfl
      · exact (hend hc).2.2.2.2 rfl
  | @some e sign ds he hsign hds =>
    rw [List.cons_append, List.append_assoc] at h
    rw [skipExponent, if_pos (by rw [h.get_cons]; simpa using he)]
    have hsg : skipSign text (i + 1) = i + 1 + sign.length := by
      refine skipSign_token h.next hsign fun c hc => ?_
      cases ds with
      | nil => exact (hend hc).2.1
      | cons =>
        cases hc
        exact not_sign_of_digit (hds c (.head _))
    have he' : Decimal.isDigit e = false := by
      obtain rfl | rfl := he
      · rfl
      · rfl
    rw [hsg, skipDigits_token h.next.skip hds fun c hc => (hend hc).1]
    simp only [List.any_cons, List.any_append, he', hsign.bytes.2, Bool.false_or, List.length_cons,
      List.length_append]
    congr 1
    omega

end

theorem skipNumberToken_token {text n s : Bytes} {i : Nat} (h : At text i (n ++ s))
    (hn : NumberToken n) (hs : Ends s) : skipNumberToken text i = (true, i + n.length) := by
  obtain ⟨sign, ds, f, e, hsign, hds, hf, he, rfl, hany⟩ := hn
  simp only [List.append_assoc] at h
  have hend {c : UInt8} (hc : s.head? = some c) := Rfc8259.of_not_numberByte (hs c hc)
  -- what comes after the fraction, after the digits and after the sign
  have hexp : ∀ c, (e ++ s).head? = some c →
      Decimal.isDigit c = false ∧ c ≠ 0x2E ∧ c ≠ 0x2D ∧ c ≠ 0x2B := by
    intro c hc
    cases he with
    | none => exact ⟨(hend hc).1, (hend hc).2.2.1, (hend hc).2.1⟩
    | some he _ _ =>
      cases hc
      obtain rfl | rfl := he
      · decide
      · decide
  have hfrac : ∀ c, (f ++ (e ++ s)).head? = some c →
      Decimal.isDigit c = false ∧ c ≠ 0x2D ∧ c ≠ 0x2B := by
    intro c hc
    cases hf with
    | none => exact ⟨(hexp c hc).1, (hexp c hc).2.2⟩
    | some _ =>
      cases hc
      decide
  have hint : ∀ c, (ds ++ (f ++ (e ++ s))).head? = some c → c ≠ 0x2D ∧ c ≠ 0x2B := by
    intro c hc
    cases ds with
    | nil => exact (hfrac c hc).2
    | cons =>
      cases hc
      exact not_sign_of_digit (hds c (.head _))
  rw [skipNumberToken, skipSign_token h hsign hint,
    skipDigits_token h.skip hds fun c hc => (hfrac c hc).1,
    skipFraction_token h.skip.skip hf fun c hc => ⟨(hexp c hc).1, (hexp c hc).2.1⟩,
    skipExponent_token h.skip.skip.skip he hs]
  simp only [List.any_append, hsign.bytes.2, Bool.false_or, ← Bool.or_assoc] at hany ⊢
  rw [hany]
  simp only [List.length_append]
  congr 1
  omega

/-! ## Values -/

/-- A value as the tokenizer sees it. -/
abbrev Token (v : Bytes) : Prop := Rfc8259.Outline NumberToken v

theorem token_value {v : Bytes} (hv : Value v) : Token v := hv.outline fun _ => numberToken_number

theorem Token.head {v : Bytes} (hv : Token v) : ∃ c s, v = c :: s ∧ isWs c = false ∧ c ≠ 0x5D :=
  Rfc8259.Outline.head (fun _ => NumberToken.numeric) hv

/-- What the tokenizer does on the value `v`, at any place and with any delimiter after it. -/
def Consumes (v : Bytes) : Prop := ∀ {text rest : Bytes} {i fuel : Nat}, At text i (v ++ rest) →
  Delim rest → 3 * (text.length - i) + 1 ≤ fuel → skipValueToken text fuel i = .ok (i + v.length)

theorem hasToken_at {text t s : Bytes} {i : Nat} (h : At text i (t ++ s)) :
    hasToken text i t = true := by
  rw [hasToken, h.slice, beq_self_eq_true]

/-- `skipValueToken` looks at the first byte that is no whitespace. -/
theorem skipValueToken_peek {text s : Bytes} {i fuel : Nat} {c : UInt8} (h : At text i (c :: s))
    (hc : isWs c = false) : skipValueToken text (fuel + 1) i =
      if c = 0x22 then skipStringToken text i
      else if c = 0x7B then skipObjectToken text fuel i
      else if c = 0x5B then skipArrayToken text fuel i
      else if c = 0x74 ∧ hasToken text i (lit "true") then .ok (i + 4)
      else if c = 0x66 ∧ hasToken text i (lit "false") then .ok (i + 5)
      else if c = 0x6E ∧ hasToken text i (lit "null") then .ok (i + 4)
      else if (skipNumberToken text i).1 then .ok (skipNumberToken text i).2
      else .error (lit "Invalid JSON value", (skipNumberToken text i).2) := by
  rw [skipValueToken]
  simp only [skipWs_none h hc, h.get_cons]

theorem consumes_number {n : Bytes} (hn : NumberToken n) : Consumes n := by
  intro text rest i fuel h hd hf
  obtain ⟨hne, hbytes⟩ := hn.numeric
  obtain ⟨c, s, rfl⟩ := List.exists_cons_of_ne_nil hne
  obtain ⟨f, rfl⟩ : ∃ f, fuel = f + 1 := ⟨fuel - 1, by omega⟩
  have hc := hbytes c (.head _)
  have hne : ∀ x : UInt8, isNumberByte x = false → c ≠ x := by
    rintro x hx rfl
    rw [hx] at hc
    cases hc
  rw [skipValueToken_peek h (Rfc8259.not_ws_of_numberByte hc).1, if_neg (hne _ (by decide)),
    if_neg (hne _ (by decide)), if_neg (hne _ (by decide)), if_neg fun hh => hne _ (by decide) hh.1,
    if_neg fun hh => hne _ (by decide) hh.1, if_neg fun hh => hne _ (by decide) hh.1,
    skipNumberToken_token h hn hd.ends]
  rfl

theorem consumes_string {b : Bytes} (hb : Enclosed b) : Consumes (Rfc8259.quoted b) := by
  intro text rest i fuel h hd hf
  obtain ⟨f, rfl⟩ : ∃ f, fuel = f + 1 := ⟨fuel - 1, by omega⟩
  rw [skipValueToken_peek (c := 0x22) h (by decide), if_pos rfl, skipStringToken_quoted h hb]

theorem consumes_true : Consumes Rfc8259.trueText := by
  intro text rest i fuel h hd hf
  obtain ⟨f, rfl⟩ : ∃ f, fuel = f + 1 := ⟨fuel - 1, by omega⟩
  rw [skipValueToken_peek (c := 0x74) h (by decide), if_neg (by decide), if_neg (by decide),
    if_neg (by decide), if_pos ⟨rfl, hasToken_at h⟩]
  rfl

theorem consumes_false : Consumes Rfc8259.falseText := by
  intro text rest i fuel h hd hf
  obtain ⟨f, rfl⟩ : ∃ f, fuel = f + 1 := ⟨fuel - 1, by omega⟩
  rw [skipValueToken_peek (c := 0x66) h (by decide), if_neg (by decide), if_neg (by decide),
    if_neg (by decide), if_neg fun hh => absurd hh.1 (by decide), if_pos ⟨rfl, hasToken_at h⟩]
  rfl

theorem consumes_null : Consumes Rfc8259.nullText := by
  intro text rest i fuel h hd hf
  obtain ⟨f, rfl⟩ : ∃ f, fuel = f + 1 := ⟨fuel - 1, by omega⟩
  rw [skipValueToken_peek (c := 0x6E) h (by decide), if_neg (by decide), if_neg (by decide),
    if_neg (by decide), if_neg fun hh => absurd hh.1 (by decide),
    if_neg fun hh => absurd hh.1 (by decide), if_pos ⟨rfl, hasToken_at h⟩]
  rfl

/-! ### Arrays -/

/-- One round of the loop of `skipArrayToken`, from an element whose leading whitespace is
passed. -/
theorem skipArrayLoop_round {text s : Bytes} {i fuel : Nat} {e : Elem} {c : UInt8}
    (hv : Token e.val) (hsp : e.Spaced) (hcon : Consumes e.val) (hc : c = 0x2C ∨ c = 0x5D)
    (h : At text i (e.val ++ (e.after ++ c :: s))) (hf : 3 * (text.length - i) + 1 ≤ fuel) :
    skipArrayLoop text (fuel + 1) i =
      if c = 0x2C then skipArrayLoop text fuel (skipWs text (i + e.val.length + e.after.length + 1))
      else .ok (i + e.val.length + e.after.length + 1) := by
  have hlt : i < text.length := by
    obtain ⟨d, t, he, -, -⟩ := hv.head
    rw [he] at h
    exact h.lt
  have hws : isWs c = false := by rcases hc with rfl | rfl <;> decide
  obtain ⟨hw, hk⟩ := skipWs_cons h.skip hsp.2 hws
  have hd : Delim (c :: s) := .cons (hc.imp_right .inl)
  rw [skipArrayLoop, if_pos hlt, hcon h (hd.ws hsp.2) hf]
  simp only [bind, Except.bind, hw, hk.get_cons, Option.some.injEq]
  rcases hc with rfl | rfl
  · rfl
  · rfl

theorem skipArrayLoop_elems {es : List Elem} {e : Elem} {text rest : Bytes} {i fuel : Nat}
    (hv : ∀ d ∈ e :: es, Token d.val) (hsp : ∀ d ∈ e :: es, d.Spaced)
    (hcon : ∀ d ∈ e :: es, Consumes d.val)
    (h : At text i (e.val ++ (e.after ++ (Rfc8259.commaTail (es.map Elem.text) ++ 0x5D :: rest))))
    (hf : 3 * (text.length - i) + 2 ≤ fuel) :
    ∃ j, skipArrayLoop text fuel i = .ok j ∧ At text j rest := by
  obtain ⟨f, rfl⟩ : ∃ f, fuel = f + 1 := ⟨fuel - 1, by omega⟩
  induction es generalizing e i f with
  | nil =>
    simp only [List.map_nil, Rfc8259.commaTail, List.nil_append] at h
    rw [skipArrayLoop_round (hv _ (.head _)) (hsp _ (.head _)) (hcon _ (.head _)) (.inr rfl) h
      (by omega), if_neg (by decide)]
    exact ⟨_, rfl, h.skip.skip.next⟩
  | cons d es ih =>
    simp only [List.map_cons, Rfc8259.commaTail, Elem.text, List.cons_append,
      List.append_assoc] at h
    have hlen := h.length
    simp only [List.length_append, List.length_cons] at hlen
    obtain ⟨c, t, he, hws, -⟩ := (hv d (.tail _ (.head _))).head
    have hnext := h.skip.skip.next
    rw [skipArrayLoop_round (hv _ (.head _)) (hsp _ (.head _)) (hcon _ (.head _)) (.inl rfl) h
      (by omega), if_pos rfl, skipWs_at hnext (hsp d (.tail _ (.head _))).1 fun x hx => by
        rw [he] at hx
        cases hx
        exact hws]
    obtain ⟨g, rfl⟩ : ∃ g, f = g + 1 := ⟨f - 1, by omega⟩
    exact ih (fun x hx => hv x (.tail _ hx)) (fun x hx => hsp x (.tail _ hx))
      (fun x hx => hcon x (.tail _ hx)) hnext.skip g (by omega)

theorem consumes_array {pad : Bytes} {es : List Elem} (hp : Ws pad)
    (hv : ∀ d ∈ es, Token d.val) (hsp : ∀ d ∈ es, d.Spaced) (hcon : ∀ d ∈ es, Consumes d.val) :
    Consumes (Rfc8259.arrText pad es) := by
  intro text rest i fuel h hd hf
  obtain ⟨f, rfl⟩ : ∃ f, fuel = f + 1 + 1 := by
    have := h.length
    simp only [Rfc8259.arrText, List.length_append, List.length_cons] at this
    exact ⟨fuel - 2, by omega⟩
  have hend : ∀ {j}, At text j rest → j = i + (Rfc8259.arrText pad es).length := by
    intro j hj
    have h1 := hj.length
    have h2 := h.skip.length
    omega
  simp only [Rfc8259.arrText, List.cons_append, List.append_assoc, List.nil_append] at h
  rw [skipValueToken_peek h (by decide), if_neg (by decide), if_neg (by decide), if_pos rfl,
    skipArrayToken, if_pos h.get_cons]
  have hn := h.next
  cases es with
  | nil =>
    simp only [List.map_nil, Rfc8259.commaSep, List.nil_append] at hn
    obtain ⟨hw, hk⟩ := skipWs_cons hn hp (by decide)
    simp only [hw, hk.get_cons, if_true]
    rw [hend hk.next]
  | cons e es =>
    simp only [List.map_cons, Rfc8259.commaSep, Elem.text, List.append_assoc] at hn
    obtain ⟨c, t, he, hws, h5D⟩ := (hv e (.head _)).head
    have hwsp : Ws (pad ++ e.before) := fun x hx =>
      (List.mem_append.1 hx).elim (hp x) ((hsp e (.head _)).1 x)
    rw [← List.append_assoc pad] at hn
    have hw := skipWs_at hn hwsp fun x hx => by rw [he] at hx; cases hx; exact hws
    have hk := hn.skip
    have hlen := h.length
    have hlen' := hk.length
    simp only [List.length_cons] at hlen
    have hfuel : 3 * (text.length - (i + 1 + (pad ++ e.before).length)) + 2 ≤ f := by omega
    obtain ⟨j, hj, hat⟩ := skipArrayLoop_elems hv hsp hcon hk hfuel
    simp only [hw]
    rw [if_neg, hj, hend hat]
    rw [hk.get, he]
    exact fun hx => h5D (Option.some.inj hx)

/-! ### Objects -/

/-- What is left of a member when its leading whitespace is passed. -/
def memberRest (m : Member) : Bytes :=
  Rfc8259.quoted m.key ++ (m.afterKey ++ (0x3A :: (m.beforeVal ++ (m.val ++ m.after))))

/-- One round of the loop of `skipObjectToken`, from a member whose leading whitespace is
passed. -/
theorem skipObjectLoop_round {text s : Bytes} {i fuel : Nat} {m : Member} {c : UInt8}
    (hv : Token m.val) (hsp : m.Spaced ∧ Enclosed m.key) (hcon : Consumes m.val)
    (hc : c = 0x2C ∨ c = 0x7D) (h : At text i (memberRest m ++ c :: s))
    (hf : 3 * (text.length - i) + 1 ≤ fuel) :
    skipObjectLoop text (fuel + 1) i =
      if c = 0x2C then skipObjectLoop text fuel (skipWs text (i + (memberRest m).length + 1))
      else .ok (i + (memberRest m).length + 1) := by
  have hend := h.skip
  obtain ⟨⟨-, hak, hbv, haf⟩, hkey⟩ := hsp
  simp only [memberRest, List.append_assoc, List.cons_append] at h
  obtain ⟨hw1, hk1⟩ := skipWs_cons h.skip hak (by decide)
  obtain ⟨d, t, he, hws, -⟩ := hv.head
  have hw2 := skipWs_at hk1.next hbv fun x hx => by rw [he] at hx; cases hx; exact hws
  have hwc : isWs c = false := by rcases hc with rfl | rfl <;> decide
  have hk2 := hk1.next.skip
  obtain ⟨hw3, -⟩ := skipWs_cons hk2.skip haf hwc
  have hd : Delim (c :: s) := .cons (hc.imp_right .inr)
  have hpos : i + (memberRest m).length =
      i + (Rfc8259.quoted m.key).length + m.afterKey.length + 1 + m.beforeVal.length +
        m.val.length + m.after.length := by
    simp only [memberRest, List.length_append, List.length_cons]
    omega
  rw [skipObjectLoop, if_pos h.lt, skipStringToken_quoted h hkey]
  simp only [bind, Except.bind, hw1, hk1.get_cons, if_true, hw2]
  rw [hcon hk2 (hd.ws haf) (by omega)]
  simp only [hw3, ← hpos, hend.get_cons, Option.some.injEq]
  rcases hc with rfl | rfl
  · rfl
  · rfl

theorem skipObjectLoop_members {ms : List Member} {m : Member} {text rest : Bytes} {i fuel : Nat}
    (hv : ∀ d ∈ m :: ms, Token d.val) (hsp : ∀ d ∈ m :: ms, d.Spaced ∧ Enclosed d.key)
    (hcon : ∀ d ∈ m :: ms, Consumes d.val)
    (h : At text i (memberRest m ++ (Rfc8259.commaTail (ms.map Member.text) ++ 0x7D :: rest)))
    (hf : 3 * (text.length - i) + 2 ≤ fuel) :
    ∃ j, skipObjectLoop text fuel i = .ok j ∧ At text j rest := by
  obtain ⟨f, rfl⟩ : ∃ f, fuel = f + 1 := ⟨fuel - 1, by omega⟩
  induction ms generalizing m i f with
  | nil =>
    simp only [List.map_nil, Rfc8259.commaTail, List.nil_append] at h
    rw [skipObjectLoop_round (hv _ (.head _)) (hsp _ (.head _)) (hcon _ (.head _)) (.inr rfl) h
      (by omega), if_neg (by decide)]
    exact ⟨_, rfl, h.skip.next⟩
  | cons d ms ih =>
    have htext : d.text = d.before ++ memberRest d := rfl
    simp only [List.map_cons, Rfc8259.commaTail, htext, List.cons_append, List.append_assoc] at h
    have hlen := h.length
    simp only [List.length_append, List.length_cons] at hlen
    have hnext := h.skip.next
    rw [skipObjectLoop_round (hv _ (.head _)) (hsp _ (.head _)) (hcon _ (.head _)) (.inl rfl) h
      (by omega), if_pos rfl, skipWs_at hnext (hsp d (.tail _ (.head _))).1.1 fun x hx => by
        cases hx
        decide]
    obtain ⟨g, rfl⟩ : ∃ g, f = g + 1 := by
      have : 0 < (memberRest m).length := by simp [memberRest, Rfc8259.quoted]
      exact ⟨f - 1, by omega⟩
    exact ih (fun x hx => hv x (.tail _ hx)) (fun x hx => hsp x (.tail _ hx))
      (fun x hx => hcon x (.tail _ hx)) hnext.skip g (by omega)

/-- The scanner of objects stops behind the object, whatever follows. -/
theorem skipObjectToken_objText {text rest pad : Bytes} {ms : List Member} {i fuel : Nat} (hp : Ws pad)
    (hv : ∀ d ∈ ms, Token d.val) (hsp : ∀ d ∈ ms, d.Spaced ∧ Enclosed d.key)
    (hcon : ∀ d ∈ ms, Consumes d.val) (h : At text i (Rfc8259.objText pad ms ++ rest))
    (hf : 3 * (text.length - i) ≤ fuel) :
    skipObjectToken text fuel i = .ok (i + (Rfc8259.objText pad ms).length) := by
  obtain ⟨f, rfl⟩ : ∃ f, fuel = f + 1 := by
    have := h.length
    simp only [Rfc8259.objText, List.length_append, List.length_cons] at this
    exact ⟨fuel - 1, by omega⟩
  have hend : ∀ {j}, At text j rest → j = i + (Rfc8259.objText pad ms).length := by
    intro j hj
    have h1 := hj.length
    have h2 := h.skip.length
    omega
  simp only [Rfc8259.objText, List.cons_append, List.append_assoc, List.nil_append] at h
  rw [skipObjectToken, if_pos h.get_cons]
  have hn := h.next
  cases ms with
  | nil =>
    simp only [List.map_nil, Rfc8259.commaSep, List.nil_append] at hn
    obtain ⟨hw, hk⟩ := skipWs_cons hn hp (by decide)
    simp only [hw, hk.get_cons, if_true]
    rw [hend hk.next]
  | cons m ms =>
    have htext : m.text = m.before ++ memberRest m := rfl
    simp only [List.map_cons, Rfc8259.commaSep, htext, List.append_assoc] at hn
    have hwsp : Ws (pad ++ m.before) := fun x hx =>
      (List.mem_append.1 hx).elim (hp x) ((hsp m (.head _)).1.1 x)
    rw [← List.append_assoc pad] at hn
    have hw := skipWs_at hn hwsp fun x hx => by cases hx; decide
    have hk := hn.skip
    have hlen := h.length
    have hlen' := hk.length
    simp only [List.length_cons] at hlen
    have hfuel : 3 * (text.length - (i + 1 + (pad ++ m.before).length)) + 2 ≤ f := by omega
    obtain ⟨j, hj, hat⟩ := skipObjectLoop_members hv hsp hcon hk hfuel
    simp only [hw]
    rw [if_neg, hj, hend hat]
    rw [hk.get]
    exact fun hx => absurd (Option.some.inj hx) (by decide)

theorem consumes_object {pad : Bytes} {ms : List Member} (hp : Ws pad)
    (hv : ∀ d ∈ ms, Token d.val) (hsp : ∀ d ∈ ms, d.Spaced ∧ Enclosed d.key)
    (hcon : ∀ d ∈ ms, Consumes d.val) : Consumes (Rfc8259.objText pad ms) := by
  intro text rest i fuel h hd hf
  obtain ⟨f, rfl⟩ : ∃ f, fuel = f + 1 := ⟨fuel - 1, by omega⟩
  have hbrace : At text i (0x7B :: _) := h
  rw [skipValueToken_peek hbrace (by decide), if_neg (by decide), if_pos rfl,
    skipObjectToken_objText hp hv hsp hcon h (by omega)]

/-- The tokenizer consumes every token up to its last byte. -/
theorem skipValueToken_token {v : Bytes} (hv : Token v) : Consumes v := by
  induction hv with
  | str hb => exact consumes_string hb
  | num hn => exact consumes_number hn
  | tru => exact consumes_true
  | fls => exact consumes_false
  | null => exact consumes_null
  | arr hp hsp hv ih => exact consumes_array hp hv hsp fun d hd => ih d hd
  | obj hp hsp hv ih => exact consumes_object hp hv hsp fun d hd => ih d hd

/-- **It consumes every JSON value.** -/
theorem skipValueToken_value {v : Bytes} (hv : Value v) : Consumes v :=
  skipValueToken_token (token_value hv)

end Phi.Wire
