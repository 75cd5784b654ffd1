import PhiSidecar.Wire.StringTokens

/-!
# What the scanners accept (`sidecar.cpp`: `skipNumberToken`, `skipArrayToken`, `skipObjectToken`,
`skipValueToken`)

The other half of `skipValueToken_token`: the text between the position where a scanner starts and the
position that it gives back (`Cursor.Span`) is a token.

* `skipNumberToken_span`: a number has the parts of a number, and a digit.
* `reads`: by induction on the fuel, for the five scanners of values at once.
* `skipObjectToken_span`, `skipArrayToken_span`: an object is its members, an array its elements.
* `parseObjectMembers_span`: a text that is parsed begins with an object, and the map has the members
  of that object; so every value in it is a token (`parseObjectMembers_tokens`). A token has at least
  one character, so an empty view is what `member` gives for an absent key and for nothing else
  (`member_eq_nil`).
-/

set_option autoImplicit false

namespace Phi.Wire

open Phi.V1
open Rfc8259 (Ws Digits Elem Member Enclosed Meaning arrText objText commaSep quoted)
open Cursor

variable {text : Bytes} {i j k fuel : Nat}

/-! ## Whitespace, strings and numbers -/

theorem skipWs_span (hi : i ≤ text.length) : ∃ w, Ws w ∧ Span text i (skipWs text i) w :=
  ⟨_, fun _ hc => List.mem_takeWhile_imp (p := isWs) hc, Span.takeWhile isWs hi⟩

theorem skipWs_idem (hi : i ≤ text.length) : skipWs text (skipWs text i) = skipWs text i := by
  have hdrop : text.drop (skipWs text i) = (text.drop i).dropWhile isWs := by
    obtain ⟨s, hat, hat'⟩ := Span.takeWhile isWs hi
    rw [skipWs, hat'.2]
    rw [hat.2.symm.trans List.takeWhile_append_dropWhile.symm |> List.append_cancel_left]
  have hnone : ((text.drop i).dropWhile isWs).takeWhile isWs = [] := by
    cases hd : (text.drop i).dropWhile isWs with
    | nil => rfl
    | cons c s =>
      have := List.head?_dropWhile_not isWs (text.drop i)
      rw [hd] at this
      exact List.takeWhile_cons_of_neg (by simpa using this)
  rw [skipWs, hdrop, hnone]
  rfl

theorem skipStringToken_span (h : skipStringToken text i = .ok j) :
    ∃ b, Enclosed b ∧ Span text i j (quoted b) := by
  obtain ⟨b, rest, hb, hat, rfl⟩ := skipStringToken_ok h
  exact ⟨b, hb, hat.span⟩

theorem skipSign_span (hi : i ≤ text.length) :
    ∃ sign, SignToken sign ∧ Span text i (skipSign text i) sign := by
  unfold skipSign
  split
  · next h =>
    obtain h | h := h
    · exact ⟨_, .inr (.inr rfl), .get h⟩
    · exact ⟨_, .inr (.inl rfl), .get h⟩
  · exact ⟨[], .inl rfl, .refl hi⟩

/-- What a scanner of a part of a number passes over, and what it says of its digits. -/
structure PartSpan (text : Bytes) (a a' : Bool × Nat) (part : Bytes) : Prop where
  span : Span text a.2 a'.2 part
  digit : a'.1 = (a.1 || part.any Decimal.isDigit)

theorem skipDigits_span {a : Bool × Nat} (hi : a.2 ≤ text.length) :
    ∃ ds, Digits ds ∧ PartSpan text a (skipDigits text a) ds := by
  refine ⟨_, fun _ hc => List.mem_takeWhile_imp hc, Span.takeWhile Decimal.isDigit hi, ?_⟩
  simp only [skipDigits]
  cases hrun : (text.drop a.2).takeWhile Decimal.isDigit with
  | nil => rfl
  | cons d ds =>
    have hd : Decimal.isDigit d = true :=
      List.mem_takeWhile_imp (l := text.drop a.2) (hrun ▸ .head _)
    simp [hd]

theorem skipFraction_span {a : Bool × Nat} (hi : a.2 ≤ text.length) :
    ∃ f, FractionToken f ∧ PartSpan text a (skipFraction text a) f := by
  unfold skipFraction
  split
  · next h =>
    have hdot := Span.get h
    obtain ⟨ds, hds, hspan, hdigit⟩ := skipDigits_span (a := (a.1, a.2 + 1)) hdot.right_le
    exact ⟨_, .some hds, hdot.append hspan, hdigit⟩
  · exact ⟨[], .none, .refl hi, by simp⟩

theorem skipExponent_span {a : Bool × Nat} (hi : a.2 ≤ text.length) :
    ∃ e, ExponentToken e ∧ PartSpan text a (skipExponent text a) e := by
  unfold skipExponent
  split
  · next h =>
    obtain ⟨c, hc, hget⟩ : ∃ c, (c = 0x65 ∨ c = 0x45) ∧ text[a.2]? = some c := by
      obtain h | h := h
      · exact ⟨_, .inl rfl, h⟩
      · exact ⟨_, .inr rfl, h⟩
    have he := Span.get hget
    obtain ⟨sign, hsign, hsignSpan⟩ := skipSign_span he.right_le
    obtain ⟨ds, hds, hspan, hdigit⟩ :=
      skipDigits_span (a := (a.1, skipSign text (a.2 + 1))) hsignSpan.right_le
    refine ⟨_, .some hc hsign hds, he.append (hsignSpan.append hspan), ?_⟩
    have hc' : Decimal.isDigit c = false := by
      obtain rfl | rfl := hc
      · rfl
      · rfl
    rw [hdigit]
    simp [hc', hsign.bytes.2]
  · exact ⟨[], .none, .refl hi, by simp⟩

theorem skipNumberToken_span (hi : i ≤ text.length) (h : skipNumberToken text i = (true, j)) :
    ∃ n, NumberToken n ∧ Span text i j n := by
  obtain ⟨sign, hsign, hsignSpan⟩ := skipSign_span hi
  obtain ⟨ds, hds, hdigits, hd⟩ :=
    skipDigits_span (a := (false, skipSign text i)) hsignSpan.right_le
  obtain ⟨f, hf, hfraction, hfd⟩ := skipFraction_span hdigits.right_le
  obtain ⟨e, he, hexponent, hed⟩ := skipExponent_span hfraction.right_le
  have hspan := hsignSpan.append (hdigits.append (hfraction.append hexponent))
  have hresult : skipExponent text (skipFraction text (skipDigits text (false, skipSign text i))) =
      (true, j) := h
  rw [hresult] at hspan hed
  refine ⟨_, ⟨sign, ds, f, e, hsign, hds, hf, he, rfl, ?_⟩, hspan⟩
  rw [hfd, hd] at hed
  simp only [List.any_append, hsign.bytes.2, Bool.false_or, ← Bool.or_assoc] at hed ⊢
  exact hed.symm

/-! ## Values -/

theorem ok_of_bind {ε α β : Type} {x : Except ε α} {f : α → Except ε β} {b : β}
    (h : (x >>= f) = .ok b) : ∃ a, x = .ok a ∧ f a = .ok b := by
  cases x with
  | error e => cases h
  | ok a => exact ⟨a, rfl, h⟩

theorem hasToken_span {token : Bytes} (hi : i ≤ text.length) (h : hasToken text i token = true) :
    Span text i (i + token.length) token := .of_take hi (beq_iff_eq.1 h)

/-- Elements as the tokenizer sees them. -/
def Elements (es : List Elem) : Prop := (∀ e ∈ es, e.Spaced) ∧ ∀ e ∈ es, Token e.val

/-- Members as the tokenizer sees them. -/
def Members (ms : List Member) : Prop :=
  (∀ m ∈ ms, m.Spaced ∧ Enclosed m.key) ∧ ∀ m ∈ ms, Token m.val

/-- What the scanners of values pass over with a fuel. A loop starts behind whitespace, which is the
first that its items have before them. -/
structure Reads (text : Bytes) (fuel : Nat) : Prop where
  value : ∀ {i j}, i ≤ text.length → skipValueToken text fuel i = .ok j →
    ∃ v, Token v ∧ Span text (skipWs text i) j v
  array : ∀ {i j}, skipArrayToken text fuel i = .ok j →
    ∃ pad es, Ws pad ∧ Elements es ∧ Span text i j (arrText pad es)
  arrayLoop : ∀ {i j}, i ≤ text.length → skipArrayLoop text fuel (skipWs text i) = .ok j →
    ∃ e es, Elements (e :: es) ∧ Span text i j (commaSep ((e :: es).map Elem.text) ++ [0x5D])
  object : ∀ {i j}, skipObjectToken text fuel i = .ok j →
    ∃ pad ms, Ws pad ∧ Members ms ∧ Span text i j (objText pad ms)
  objectLoop : ∀ {i j}, i ≤ text.length → skipObjectLoop text fuel (skipWs text i) = .ok j →
    ∃ m ms, Members (m :: ms) ∧ Span text i j (commaSep ((m :: ms).map Member.text) ++ [0x7D])

theorem Reads.zero (text : Bytes) : Reads text 0 := by
  constructor <;> intros <;>
    simp_all [skipValueToken, skipArrayToken, skipArrayLoop, skipObjectToken, skipObjectLoop]

theorem Reads.value_succ (ih : Reads text fuel) (hi : i ≤ text.length)
    (h : skipValueToken text (fuel + 1) i = .ok j) : ∃ v, Token v ∧ Span text (skipWs text i) j v := by
  obtain ⟨w, -, hw⟩ := skipWs_span hi
  have hlen := hw.right_le
  rw [skipValueToken] at h
  simp only at h
  split at h
  · cases h
  · split_ifs at h with h1 h2 h3 htrue hfalse hnull hdigit
    · obtain ⟨b, hb, hspan⟩ := skipStringToken_span h
      exact ⟨_, .str hb, hspan⟩
    · obtain ⟨pad, ms, hp, hms, hspan⟩ := ih.object h
      exact ⟨_, .obj hp hms.1 hms.2, hspan⟩
    · obtain ⟨pad, es, hp, hes, hspan⟩ := ih.array h
      exact ⟨_, .arr hp hes.1 hes.2, hspan⟩
    · cases h
      exact ⟨_, .tru, hasToken_span hlen htrue.2⟩
    · cases h
      exact ⟨_, .fls, hasToken_span hlen hfalse.2⟩
    · cases h
      exact ⟨_, .null, hasToken_span hlen hnull.2⟩
    · cases h
      obtain ⟨n, hn, hspan⟩ := skipNumberToken_span hlen (Prod.ext hdigit rfl)
      exact ⟨n, .num hn, hspan⟩

theorem Reads.array_succ (ih : Reads text fuel) (h : skipArrayToken text (fuel + 1) i = .ok j) :
    ∃ pad es, Ws pad ∧ Elements es ∧ Span text i j (arrText pad es) := by
  rw [skipArrayToken] at h
  split at h
  · next hopen =>
    simp only at h
    have hlen := (Span.get hopen).right_le
    split at h
    · next hclose =>
      cases h
      obtain ⟨w, hw, hspan⟩ := skipWs_span hlen
      exact ⟨w, [], hw, ⟨List.forall_mem_nil _, List.forall_mem_nil _⟩,
        .cons hopen (hspan.append (.get hclose))⟩
    · obtain ⟨e, es, hes, hspan⟩ := ih.arrayLoop hlen h
      exact ⟨[], e :: es, .nil, hes, .cons hopen hspan⟩
  · cases h

theorem Reads.arrayLoop_succ (ih : Reads text fuel) (hi : i ≤ text.length)
    (h : skipArrayLoop text (fuel + 1) (skipWs text i) = .ok j) :
    ∃ e es, Elements (e :: es) ∧ Span text i j (commaSep ((e :: es).map Elem.text) ++ [0x5D]) := by
  obtain ⟨before, hbefore, hspanBefore⟩ := skipWs_span hi
  rw [skipArrayLoop] at h
  split_ifs at h
  obtain ⟨k, hk, h⟩ := ok_of_bind h
  obtain ⟨v, hv, hspan⟩ := ih.value hspanBefore.right_le hk
  rw [skipWs_idem hi] at hspan
  obtain ⟨after, hafter, hspanAfter⟩ := skipWs_span hspan.right_le
  have helem : Span text i (skipWs text k) (Elem.text { before, val := v, after }) :=
    hspanBefore.append (hspan.append hspanAfter)
  simp only at h
  split_ifs at h with hcomma hclose
  · have hget := Span.get hcomma
    obtain ⟨e, es, hes, hrest⟩ := ih.arrayLoop hget.right_le h
    refine ⟨{ before, val := v, after }, e :: es, ⟨?_, ?_⟩, ?_⟩
    · exact List.forall_mem_cons.2 ⟨⟨hbefore, hafter⟩, hes.1⟩
    · exact List.forall_mem_cons.2 ⟨hv, hes.2⟩
    · have hall := helem.append (hget.append hrest)
      simpa [commaSep, Rfc8259.commaTail] using hall
  · cases h
    refine ⟨{ before, val := v, after }, [], ⟨?_, ?_⟩, ?_⟩
    · exact List.forall_mem_singleton.2 ⟨hbefore, hafter⟩
    · exact List.forall_mem_singleton.2 hv
    · have hall := helem.append (.get hclose)
      simpa [commaSep, Rfc8259.commaTail] using hall

theorem Reads.object_succ (ih : Reads text fuel) (h : skipObjectToken text (fuel + 1) i = .ok j) :
    ∃ pad ms, Ws pad ∧ Members ms ∧ Span text i j (objText pad ms) := by
  rw [skipObjectToken] at h
  split at h
  · next hopen =>
    simp only at h
    have hlen := (Span.get hopen).right_le
    split at h
    · next hclose =>
      cases h
      obtain ⟨w, hw, hspan⟩ := skipWs_span hlen
      exact ⟨w, [], hw, ⟨List.forall_mem_nil _, List.forall_mem_nil _⟩,
        .cons hopen (hspan.append (.get hclose))⟩
    · obtain ⟨m, ms, hms, hspan⟩ := ih.objectLoop hlen h
      exact ⟨[], m :: ms, .nil, hms, .cons hopen hspan⟩
  · cases h

/-- A key, a colon and a value, with the whitespace around them. -/
theorem member_span {l : Nat} {v : Bytes} (hi : i ≤ text.length)
    (hk : skipStringToken text (skipWs text i) = .ok k) (hcolon : text[skipWs text k]? = some 0x3A)
    (hspan : Span text (skipWs text (skipWs text k + 1)) l v) :
    ∃ m : Member, (m.Spaced ∧ Enclosed m.key) ∧ m.val = v ∧ slice text (skipWs text i) k = quoted m.key ∧
      Span text i (skipWs text l) m.text := by
  obtain ⟨before, hbefore, hspanBefore⟩ := skipWs_span hi
  obtain ⟨key, hkey, hspanKey⟩ := skipStringToken_span hk
  obtain ⟨afterKey, hafterKey, hspanAfterKey⟩ := skipWs_span hspanKey.right_le
  have hget := Span.get hcolon
  obtain ⟨beforeVal, hbeforeVal, hspanBeforeVal⟩ := skipWs_span hget.right_le
  obtain ⟨after, hafter, hspanAfter⟩ := skipWs_span hspan.right_le
  exact ⟨{ before, key, afterKey, beforeVal, val := v, after },
    ⟨⟨hbefore, hafterKey, hbeforeVal, hafter⟩, hkey⟩, rfl, hspanKey.slice,
    hspanBefore.append (hspanKey.append (hspanAfterKey.append (hget.append
      (hspanBeforeVal.append (hspan.append hspanAfter)))))⟩

/-- The last member, with the closing brace. -/
theorem members_last {m : Member} (hm : m.Spaced ∧ Enclosed m.key) (hv : Token m.val)
    (hspan : Span text i j m.text) (hclose : text[j]? = some 0x7D) :
    Members [m] ∧ Span text i (j + 1) (commaSep ([m].map Member.text) ++ [0x7D]) := by
  refine ⟨⟨List.forall_mem_singleton.2 hm, List.forall_mem_singleton.2 hv⟩, ?_⟩
  simpa [commaSep, Rfc8259.commaTail] using hspan.append (.get hclose)

/-- A member before others. -/
theorem members_more {m n : Member} {ms : List Member} (hm : m.Spaced ∧ Enclosed m.key) (hv : Token m.val)
    (hspan : Span text i j m.text) (hcomma : text[j]? = some 0x2C) (hms : Members (n :: ms))
    (hrest : Span text (j + 1) k (commaSep ((n :: ms).map Member.text) ++ [0x7D])) :
    Members (m :: n :: ms) ∧ Span text i k (commaSep ((m :: n :: ms).map Member.text) ++ [0x7D]) := by
  refine ⟨⟨List.forall_mem_cons.2 ⟨hm, hms.1⟩, List.forall_mem_cons.2 ⟨hv, hms.2⟩⟩, ?_⟩
  simpa [commaSep, Rfc8259.commaTail] using hspan.append (.cons hcomma hrest)

theorem Reads.objectLoop_succ (ih : Reads text fuel) (hi : i ≤ text.length)
    (h : skipObjectLoop text (fuel + 1) (skipWs text i) = .ok j) :
    ∃ m ms, Members (m :: ms) ∧ Span text i j (commaSep ((m :: ms).map Member.text) ++ [0x7D]) := by
  rw [skipObjectLoop] at h
  split_ifs at h
  obtain ⟨k, hk, h⟩ := ok_of_bind h
  simp only at h
  split_ifs at h with hcolon
  have hlen := (Span.get hcolon).right_le
  obtain ⟨w, -, hw⟩ := skipWs_span hlen
  obtain ⟨l, hl, h⟩ := ok_of_bind h
  obtain ⟨v, hv, hspan⟩ := ih.value hw.right_le hl
  rw [skipWs_idem hlen] at hspan
  obtain ⟨m, hm, rfl, -, hmember⟩ := member_span hi hk hcolon hspan
  split_ifs at h with hcomma hclose
  · obtain ⟨n, ms, hms, hrest⟩ := ih.objectLoop (Span.get hcomma).right_le h
    exact ⟨m, n :: ms, members_more hm hv hmember hcomma hms hrest⟩
  · cases h
    exact ⟨m, [], members_last hm hv hmember hclose⟩

theorem reads (text : Bytes) : ∀ fuel, Reads text fuel
  | 0 => .zero text
  | fuel + 1 => by
    have ih := reads text fuel
    exact ⟨ih.value_succ, ih.array_succ, ih.arrayLoop_succ, ih.object_succ, ih.objectLoop_succ⟩

theorem skipObjectToken_span (h : skipObjectToken text fuel i = .ok j) :
    ∃ pad ms, Ws pad ∧ Members ms ∧ slice text i j = objText pad ms := by
  obtain ⟨pad, ms, hp, hms, hspan⟩ := (reads text fuel).object h
  exact ⟨pad, ms, hp, hms, hspan.slice⟩

theorem skipArrayToken_span (h : skipArrayToken text fuel i = .ok j) :
    ∃ pad es, Ws pad ∧ Elements es ∧ slice text i j = arrText pad es := by
  obtain ⟨pad, es, hp, hes, hspan⟩ := (reads text fuel).array h
  exact ⟨pad, es, hp, hes, hspan.slice⟩

/-- The text is an object with these members. -/
def ObjectSpan (span : Bytes) (ms : List Member) : Prop := ∃ pad, Ws pad ∧ Members ms ∧ span = objText pad ms

/-- A token that begins with a brace is an object. -/
theorem objectSpan_of_token {v : Bytes} (hv : Token v) (hbrace : v.head? = some 0x7B) :
    ∃ ms, ObjectSpan v ms := by
  cases hv with
  | obj hp hs hv => exact ⟨_, _, hp, ⟨hs, hv⟩, rfl⟩
  | num hn =>
    obtain ⟨hne, hbytes⟩ := hn.numeric
    obtain ⟨c, s, rfl⟩ := List.exists_cons_of_ne_nil hne
    cases hbrace
    exact absurd (hbytes _ (.head _)) (by decide)
  | str => cases hbrace
  | tru => cases hbrace
  | fls => cases hbrace
  | null => cases hbrace
  | arr => cases hbrace

/-! ## Members -/

theorem mapError_ok_iff {ε ε' α : Type} {f : ε → ε'} {x : Except ε α} {a : α} :
    x.mapError f = .ok a ↔ x = .ok a := by
  cases x <;> simp [Except.mapError]

/-- The values of a map are tokens. -/
def Tokens (m : MemberMap) : Prop := ∀ e ∈ m.entries, Token e.2

/-- What holds of the entries of a map and of a new one holds of the entries with it. -/
theorem forall_insertOrAssign {P : Bytes × Bytes → Prop} {m : MemberMap} {key v : Bytes}
    (h : ∀ e ∈ m.entries, P e) (hv : P (key, v)) : ∀ e ∈ (m.insertOrAssign key v).entries, P e := by
  obtain ⟨es⟩ := m
  show ∀ e ∈ MemberMap.insertEntry key v es, P e
  induction es with
  | nil => exact List.forall_mem_singleton.2 hv
  | cons d es ih =>
    have hes : ∀ e ∈ es, P e := fun e he => h e (.tail _ he)
    rw [MemberMap.insertEntry]
    split
    · next heq => exact List.forall_mem_cons.2 ⟨heq ▸ hv, hes⟩
    · exact List.forall_mem_cons.2 ⟨h d (.head _), ih hes⟩

/-- The loop passes over members up to a brace, and stores each under what its key means. -/
theorem parseMembersLoop_span {m out : MemberMap} (hi : i ≤ text.length)
    (h : parseMembersLoop text fuel (skipWs text i) out = .ok m) : ∃ (p : Keyed) (kms : List Keyed) (j : Nat),
      (∀ q ∈ p :: kms, Meaning q.2.key q.1) ∧ m = insertAll out (p :: kms) ∧
      Members ((p :: kms).map Prod.snd) ∧
      Span text i j (commaSep (((p :: kms).map Prod.snd).map Member.text) ++ [0x7D]) := by
  induction fuel generalizing i out with
  | zero => cases h
  | succ fuel ih =>
    rw [parseMembersLoop] at h
    split_ifs at h
    obtain ⟨j, hj, h⟩ := ok_of_bind h
    obtain ⟨key, hkey, h⟩ := ok_of_bind h
    simp only at h
    split_ifs at h with hcolon
    obtain ⟨l, hl, h⟩ := ok_of_bind h
    have hlen := (Span.get hcolon).right_le
    obtain ⟨w, -, hw⟩ := skipWs_span hlen
    obtain ⟨v, hv, hspan⟩ := (reads text _).value hw.right_le (mapError_ok_iff.1 hl)
    rw [skipWs_idem hlen] at hspan
    have hval : trim (slice text (skipWs text (skipWs text j + 1)) l) = v := by
      rw [slice, hspan.slice, trim_token_self hv]
    obtain ⟨n, hn, rfl, hname, hmember⟩ := member_span hi (mapError_ok_iff.1 hj) hcolon hspan
    rw [hval] at h
    rw [hname] at hkey
    have hmeaning : Meaning n.key key := (memberKey_iff hn.2).1 hkey
    split_ifs at h with hcomma hclose
    · obtain ⟨p, kms, k, hmeanings, rfl, hms, hrest⟩ := ih (Span.get hcomma).right_le h
      exact ⟨(key, n), p :: kms, k, List.forall_mem_cons.2 ⟨hmeaning, hmeanings⟩, rfl,
        members_more hn hv hmember hcomma hms hrest⟩
    · cases h
      exact ⟨(key, n), [], _, List.forall_mem_singleton.2 hmeaning, rfl,
        members_last hn hv hmember hclose⟩

/-- **The text that `parseObjectMembers` accepts begins with an object**, whose members it stores under
what their keys mean. -/
theorem parseObjectMembers_span {m : MemberMap} (h : parseObjectMembers text = .ok m) :
    ∃ (pad : Bytes) (kms : List Keyed) (j : Nat), Ws pad ∧ (∀ p ∈ kms, Meaning p.2.key p.1) ∧
      m = insertAll {} kms ∧ Members (kms.map Prod.snd) ∧
      Span (trim text) 0 j (objText pad (kms.map Prod.snd)) := by
  unfold parseObjectMembers at h
  simp only at h
  split_ifs at h with hopen hclose
  · cases h
    obtain ⟨w, hw, hspan⟩ := skipWs_span (Span.get hopen).right_le
    exact ⟨w, [], _, hw, List.forall_mem_nil _, rfl, ⟨List.forall_mem_nil _, List.forall_mem_nil _⟩,
      .cons hopen (hspan.append (.get hclose))⟩
  · obtain ⟨p, kms, j, hmeanings, rfl, hms, hspan⟩ := parseMembersLoop_span (Span.get hopen).right_le h
    exact ⟨[], p :: kms, j, .nil, hmeanings, rfl, hms, .cons hopen hspan⟩

/-- What a map stores was there or is one of the members. -/
theorem mem_insertAll {kms : List Keyed} {out : MemberMap} {e : Bytes × Bytes}
    (he : e ∈ (insertAll out kms).entries) : e ∈ out.entries ∨ ∃ p ∈ kms, e = (p.1, p.2.val) := by
  induction kms generalizing out with
  | nil => exact .inl he
  | cons p kms ih =>
    rw [insertAll, List.foldl_cons] at he
    obtain he | ⟨q, hq, rfl⟩ := ih he
    · have hone : e ∈ out.entries ∨ e = (p.1, p.2.val) :=
        forall_insertOrAssign (P := fun e => e ∈ out.entries ∨ e = (p.1, p.2.val))
          (fun _ he => .inl he) (.inr rfl) e he
      rcases hone with he | rfl
      · exact .inl he
      · exact .inr ⟨p, .head _, rfl⟩
    · exact .inr ⟨q, .tail _ hq, rfl⟩

/-- Every value that `parseObjectMembers` stores is a token. -/
theorem parseObjectMembers_tokens {m : MemberMap} (h : parseObjectMembers text = .ok m) : Tokens m := by
  obtain ⟨pad, kms, j, -, -, rfl, hms, -⟩ := parseObjectMembers_span h
  intro e he
  obtain he | ⟨p, hp, rfl⟩ := mem_insertAll he
  · cases he
  · exact hms.2 _ (List.mem_map_of_mem hp)

/-- The value of a key is a token, if there is one. -/
theorem Tokens.member {m : MemberMap} (h : Tokens m) {key : Bytes} (hne : member m key ≠ []) :
    Token (member m key) := by
  rw [Wire.member, MemberMap.value] at hne ⊢
  cases hl : m.entries.lookup key with
  | none =>
    rw [hl] at hne
    exact absurd rfl hne
  | some v =>
    obtain ⟨l₁, l₂, hm, -⟩ := List.lookup_eq_some_iff.1 hl
    exact h (key, v) (hm ▸ List.mem_append_right l₁ (.head l₂))

/-- The members of an object all have a value. -/
def Nonempty (m : MemberMap) : Prop := ∀ e ∈ m.entries, e.2 ≠ []

theorem parseObjectMembers_nonempty {text : Bytes} {m : MemberMap}
    (h : parseObjectMembers text = .ok m) : Nonempty m := by
  intro e he hnil
  obtain ⟨c, s, hc, -⟩ := (parseObjectMembers_tokens h e he).head
  rw [hnil] at hc
  cases hc

/-- An empty view stands for an absent member. -/
theorem member_eq_nil {m : MemberMap} (h : Nonempty m) (key : Bytes) :
    member m key = [] ↔ m.entries.lookup key = none := by
  rw [member, MemberMap.value]
  cases hl : m.entries.lookup key with
  | none => simp
  | some v =>
    obtain ⟨l₁, l₂, hm, -⟩ := List.lookup_eq_some_iff.1 hl
    have hv : v ≠ [] := h (key, v) (hm ▸ List.mem_append_right l₁ (.head l₂))
    simpa using hv

end Phi.Wire
