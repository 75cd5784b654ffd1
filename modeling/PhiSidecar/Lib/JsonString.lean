import PhiSidecar.Lib.Json

/-!
# JSON strings with any raw bytes

A reader that does not look at the bytes between the escapes still finds the end of a string and can
decode its escapes. `Enclosed b`: a quote after `b` is the first that ends the string. `Escapes b`: the
escapes of `b` are those of RFC 8259, and its surrogates come in pairs. `Meaning b t`: with every raw
byte standing for itself, `b` is `t`. Where the raw bytes are those that the grammar admits, that is
`Denotes` (`Meaning.denotes`).

`Utf8 l` says that `l` is the UTF-8 form of a text. An ASCII byte stands for itself in it, so a text
may be cut at one (`utf8_cut`); with that a string of UTF-8 means one (`Meaning.utf8`).
-/

set_option autoImplicit false

namespace Rfc8259

/-! ## Bodies -/

/-- A byte of a string that neither ends it nor begins an escape. -/
def Raw (c : UInt8) : Prop := c ≠ 0x22 ∧ c ≠ 0x5C

/-- What may stand between two quotes, for a reader that skips the byte after a backslash. -/
inductive Enclosed : List UInt8 → Prop
  | nil : Enclosed []
  | raw {c s} : Raw c → Enclosed s → Enclosed (c :: s)
  | esc {e s} : Enclosed s → Enclosed (0x5C :: e :: s)

/-- Every escape is one of the grammar, and every surrogate is one of an adjacent pair. -/
inductive Escapes : List UInt8 → Prop
  | nil : Escapes []
  | raw {c s} : Raw c → Escapes s → Escapes (c :: s)
  | esc {e b s} : simpleEscape e = some b → Escapes s → Escapes (0x5C :: e :: s)
  | unicode {a b c d u s} : hex4 a b c d = some u → u < 0xD800 ∨ 0xDFFF < u → Escapes s →
      Escapes (0x5C :: 0x75 :: a :: b :: c :: d :: s)
  | pair {a b c d a' b' c' d' s} {hi lo : Nat} : hex4 a b c d = some hi →
      hex4 a' b' c' d' = some lo → 0xD800 ≤ hi → hi ≤ 0xDBFF → 0xDC00 ≤ lo → lo ≤ 0xDFFF →
      Escapes s →
      Escapes (0x5C :: 0x75 :: a :: b :: c :: d :: 0x5C :: 0x75 :: a' :: b' :: c' :: d' :: s)

/-- The bytes that the body stands for: a `\u` escape or pair is the UTF-8 form of its code point. -/
inductive Meaning : List UInt8 → List UInt8 → Prop
  | nil : Meaning [] []
  | raw {c s t} : Raw c → Meaning s t → Meaning (c :: s) (c :: t)
  | esc {e b s t} : simpleEscape e = some b → Meaning s t → Meaning (0x5C :: e :: s) (b :: t)
  | unicode {a b c d s t} {ch : Char} : hex4 a b c d = some ch.toNat → Meaning s t →
      Meaning (0x5C :: 0x75 :: a :: b :: c :: d :: s) (String.utf8EncodeChar ch ++ t)
  | pair {a b c d a' b' c' d' s t} {hi lo : Nat} {ch : Char} : hex4 a b c d = some hi →
      hex4 a' b' c' d' = some lo → 0xD800 ≤ hi → hi ≤ 0xDBFF → 0xDC00 ≤ lo → lo ≤ 0xDFFF →
      ch.toNat = 0x10000 + (hi - 0xD800) * 0x400 + (lo - 0xDC00) → Meaning s t →
      Meaning (0x5C :: 0x75 :: a :: b :: c :: d :: 0x5C :: 0x75 :: a' :: b' :: c' :: d' :: s)
        (String.utf8EncodeChar ch ++ t)

variable {b s t : List UInt8}

theorem char_not_surrogate (ch : Char) : ch.toNat < 0xD800 ∨ 0xDFFF < ch.toNat := by
  have := ch.valid
  simp only [UInt32.isValidChar, Nat.isValidChar] at this
  show ch.val.toNat < _ ∨ _ < ch.val.toNat
  omega

/-- A body with such escapes has a meaning. -/
theorem Escapes.meaning (h : Escapes b) : ∃ t, Meaning b t := by
  induction h with
  | nil => exact ⟨_, .nil⟩
  | raw hc _ ih =>
    obtain ⟨t, ht⟩ := ih
    exact ⟨_, .raw hc ht⟩
  | esc he _ ih =>
    obtain ⟨t, ht⟩ := ih
    exact ⟨_, .esc he ht⟩
  | unicode hu hs _ ih =>
    obtain ⟨t, ht⟩ := ih
    have hlt := hex4_lt hu
    obtain ⟨ch, rfl⟩ := exists_char hs (by omega)
    exact ⟨_, .unicode hu ht⟩
  | @pair _ _ _ _ _ _ _ _ _ hi lo hh hl h1 h2 h3 h4 _ ih =>
    obtain ⟨t, ht⟩ := ih
    obtain ⟨ch, hch⟩ := exists_char (u := 0x10000 + (hi - 0xD800) * 0x400 + (lo - 0xDC00))
      (.inr (by omega)) (by omega)
    exact ⟨_, .pair hh hl h1 h2 h3 h4 hch ht⟩

theorem Meaning.escapes (h : Meaning b t) : Escapes b := by
  induction h with
  | nil => exact .nil
  | raw hc _ ih => exact .raw hc ih
  | esc he _ ih => exact .esc he ih
  | @unicode _ _ _ _ _ _ ch hu _ ih => exact .unicode hu (char_not_surrogate ch) ih
  | pair hh hl h1 h2 h3 h4 _ _ ih => exact .pair hh hl h1 h2 h3 h4 ih

theorem hexVal_raw {c : UInt8} {v : Nat} (h : hexVal c = some v) : Raw c := by
  constructor <;> rintro rfl <;> cases h

theorem hex4_raw {a b c d : UInt8} {u : Nat} (h : hex4 a b c d = some u) :
    Raw a ∧ Raw b ∧ Raw c ∧ Raw d := by
  simp only [hex4, Option.bind_eq_bind, Option.bind_eq_some_iff, Option.pure_def] at h
  obtain ⟨_, ha, _, hb, _, hc, _, hd, -⟩ := h
  exact ⟨hexVal_raw ha, hexVal_raw hb, hexVal_raw hc, hexVal_raw hd⟩

theorem Plain.raw {c : UInt8} (h : Plain c) : Raw c := ⟨h.2.1, h.2.2⟩

/-- What the grammar says a string denotes is its meaning. -/
theorem Denotes.meaning (h : Denotes b t) : Meaning b t := by
  induction h with
  | nil => exact .nil
  | plain hc _ ih => exact .raw hc.raw ih
  | esc he _ ih => exact .esc he ih
  | unicode hu _ ih => exact .unicode hu ih
  | pair hh hl h1 h2 h3 h4 hch _ ih => exact .pair hh hl h1 h2 h3 h4 hch ih

/-- Without raw control characters the meaning is what the grammar says. -/
theorem Meaning.denotes (h : Meaning b t) (hb : ∀ c ∈ b, 0x20 ≤ c) : Denotes b t := by
  induction h with
  | nil => exact .nil
  | raw hc _ ih =>
    exact .plain ⟨hb _ (.head _), hc.1, hc.2⟩ (ih fun c hc => hb c (.tail _ hc))
  | esc he _ ih => exact .esc he (ih fun c hc => hb c (.tail _ (.tail _ hc)))
  | unicode hu _ ih =>
    refine .unicode hu (ih fun c hc => hb c ?_)
    simp [hc]
  | pair hh hl h1 h2 h3 h4 hch _ ih =>
    refine .pair hh hl h1 h2 h3 h4 hch (ih fun c hc => hb c ?_)
    simp [hc]

/-! ### Reading up to the closing quote -/

theorem Enclosed.peel {r : List UInt8} {c : UInt8} (hs : Enclosed s) (hc : Raw c)
    (h : s ++ [0x22] = c :: r) : ∃ s', s = c :: s' ∧ r = s' ++ [0x22] ∧ Enclosed s' := by
  cases hs with
  | nil => exact absurd (List.cons.inj h).1.symm hc.1
  | raw _ hs =>
    obtain ⟨rfl, rfl⟩ := List.cons.inj h
    exact ⟨_, rfl, rfl, hs⟩
  | esc _ => exact absurd (List.cons.inj h).1.symm hc.2

theorem Enclosed.peel_esc {r : List UInt8} {e : UInt8} (hs : Enclosed s)
    (h : s ++ [0x22] = 0x5C :: e :: r) :
    ∃ s', s = 0x5C :: e :: s' ∧ r = s' ++ [0x22] ∧ Enclosed s' := by
  cases hs with
  | nil => cases h
  | raw hc _ => exact absurd (List.cons.inj h).1 hc.2
  | esc hs =>
    obtain ⟨rfl, rfl⟩ := List.cons.inj (List.cons.inj h).2
    exact ⟨_, rfl, rfl, hs⟩

/-- No hexadecimal digit is the closing quote. -/
theorem Enclosed.peel_hex4 {r : List UInt8} {a b c d : UInt8} {u : Nat} (hs : Enclosed s)
    (hu : hex4 a b c d = some u) (h : s ++ [0x22] = a :: b :: c :: d :: r) :
    ∃ s', s = a :: b :: c :: d :: s' ∧ r = s' ++ [0x22] ∧ Enclosed s' := by
  obtain ⟨ha, hb, hc, hd⟩ := hex4_raw hu
  obtain ⟨s, rfl, h, hs⟩ := hs.peel ha h
  obtain ⟨s, rfl, h, hs⟩ := hs.peel hb h.symm
  obtain ⟨s, rfl, h, hs⟩ := hs.peel hc h.symm
  obtain ⟨s, rfl, h, hs⟩ := hs.peel hd h.symm
  exact ⟨s, rfl, h, hs⟩

/-! ## UTF-8 -/

/-- The UTF-8 form of some characters. -/
def Utf8 (l : List UInt8) : Prop := ∃ cs : List Char, l = cs.flatMap String.utf8EncodeChar

theorem Utf8.nil : Utf8 [] := ⟨[], rfl⟩

theorem Utf8.char (ch : Char) : Utf8 (String.utf8EncodeChar ch) := ⟨[ch], by simp⟩

theorem Utf8.append {l l' : List UInt8} (h : Utf8 l) (h' : Utf8 l') : Utf8 (l ++ l') := by
  obtain ⟨cs, rfl⟩ := h
  obtain ⟨cs', rfl⟩ := h'
  exact ⟨cs ++ cs', List.flatMap_append.symm⟩

/-- A character is one ASCII byte, or bytes none of which is ASCII. -/
theorem utf8EncodeChar_cases (ch : Char) :
    (∃ c : UInt8, String.utf8EncodeChar ch = [c]) ∨ ∀ c ∈ String.utf8EncodeChar ch, 0x80 ≤ c := by
  have hbyte (n m k : Nat) (hm : 0 < m) (hk : 0x80 ≤ k) (hmk : m + k ≤ 0x100) :
      0x80 ≤ UInt8.ofNat (n % m + k) := by
    have hn := Nat.mod_lt n hm
    rw [UInt8.le_iff_toNat_le, UInt8.toNat_ofNat_of_lt' (by simp only [UInt8.size]; omega)]
    show 0x80 ≤ _
    omega
  unfold String.utf8EncodeChar
  dsimp only
  split_ifs
  · exact .inl ⟨_, rfl⟩
  · refine .inr (List.forall_mem_cons.2 ⟨?_, List.forall_mem_singleton.2 ?_⟩)
    · exact hbyte _ 0x20 0xC0 (by decide) (by decide) (by decide)
    · exact hbyte _ 0x40 0x80 (by decide) (by decide) (by decide)
  · refine .inr (List.forall_mem_cons.2 ⟨?_, List.forall_mem_cons.2 ⟨?_,
      List.forall_mem_singleton.2 ?_⟩⟩)
    · exact hbyte _ 0x10 0xE0 (by decide) (by decide) (by decide)
    · exact hbyte _ 0x40 0x80 (by decide) (by decide) (by decide)
    · exact hbyte _ 0x40 0x80 (by decide) (by decide) (by decide)
  · refine .inr (List.forall_mem_cons.2 ⟨?_, List.forall_mem_cons.2 ⟨?_, List.forall_mem_cons.2 ⟨?_,
      List.forall_mem_singleton.2 ?_⟩⟩⟩)
    · exact hbyte _ 0x08 0xF0 (by decide) (by decide) (by decide)
    · exact hbyte _ 0x40 0x80 (by decide) (by decide) (by decide)
    · exact hbyte _ 0x40 0x80 (by decide) (by decide) (by decide)
    · exact hbyte _ 0x40 0x80 (by decide) (by decide) (by decide)

/-- An ASCII byte is a character. -/
theorem utf8_ascii {c : UInt8} (hc : c < 0x80) : Utf8 [c] := by
  have hlt : c.toNat < 0x80 := hc
  obtain ⟨ch, hch⟩ := exists_char (u := c.toNat) (.inl (by omega)) (by omega)
  have hval : ch.val.toNat = c.toNat := hch
  refine ⟨[ch], ?_⟩
  rw [List.flatMap_singleton, String.utf8EncodeChar]
  simp only [hval]
  rw [if_pos (by omega), UInt8.ofNat_toNat]

/-- It is one wherever it stands. -/
theorem utf8_cut {p : List UInt8} {c : UInt8} (hc : c < 0x80) :
    Utf8 (p ++ c :: s) ↔ Utf8 p ∧ Utf8 s := by
  constructor
  · rintro ⟨cs, h⟩
    induction cs generalizing p with
    | nil => simp at h
    | cons ch cs ih =>
      rw [List.flatMap_cons] at h
      obtain ⟨r, hch, hr⟩ | ⟨r, rfl, hr⟩ := List.append_eq_append_iff.1 h
      · cases r with
        | nil =>
          obtain ⟨-, hs⟩ := @ih [] hr
          rw [List.append_nil] at hch
          exact ⟨hch ▸ .char ch, hs⟩
        | cons d r =>
          -- the byte is in the first character, so it is that character
          obtain ⟨rfl, rfl⟩ := List.cons.inj hr
          obtain ⟨d, hd⟩ | hall := utf8EncodeChar_cases ch
          · rw [hd] at hch
            obtain ⟨rfl, hone⟩ | ⟨q, rfl, hone⟩ := List.cons_eq_append_iff.1 hch
            · obtain ⟨-, rfl⟩ := List.cons.inj hone
              exact ⟨.nil, cs, rfl⟩
            · simp at hone
          · have hge := hall c (hch ▸ List.mem_append_right p (.head r))
            exact absurd hc (UInt8.not_lt.2 hge)
      · obtain ⟨hp, hs⟩ := ih hr.symm
        exact ⟨(Utf8.char ch).append hp, hs⟩
  · rintro ⟨hp, hs⟩
    have hcs := (utf8_ascii hc).append hs
    exact hp.append hcs

theorem hexVal_ascii {c : UInt8} {v : Nat} (h : hexVal c = some v) : c < 0x80 := by
  have hle (d : UInt8) (hd : c ≤ d) (hd' : d < 0x80) : c < 0x80 := UInt8.lt_of_le_of_lt hd hd'
  unfold hexVal at h
  split_ifs at h with h1 h2 h3
  · exact hle 0x39 h1.2 (by decide)
  · exact hle 0x66 h2.2 (by decide)
  · exact hle 0x46 h3.2 (by decide)

theorem hex4_ascii {a b c d : UInt8} {u : Nat} (h : hex4 a b c d = some u) :
    a < 0x80 ∧ b < 0x80 ∧ c < 0x80 ∧ d < 0x80 := by
  simp only [hex4, Option.bind_eq_bind, Option.bind_eq_some_iff, Option.pure_def] at h
  obtain ⟨_, ha, _, hb, _, hc, _, hd, -⟩ := h
  exact ⟨hexVal_ascii ha, hexVal_ascii hb, hexVal_ascii hc, hexVal_ascii hd⟩

theorem simpleEscape_ascii {e b : UInt8} (h : simpleEscape e = some b) : e < 0x80 ∧ b < 0x80 := by
  unfold simpleEscape at h
  split_ifs at h <;> subst_vars <;> cases h <;> decide

/-- What stands after a `\u` escape. -/
theorem utf8_cut_unicode {p : List UInt8} {a b c d : UInt8} {u : Nat} (h : hex4 a b c d = some u)
    (hs : Utf8 (p ++ 0x5C :: 0x75 :: a :: b :: c :: d :: s)) : Utf8 p ∧ Utf8 s := by
  obtain ⟨ha, hb, hc, hd⟩ := hex4_ascii h
  obtain ⟨hp, hs⟩ := (utf8_cut (by decide)).1 hs
  have hs := ((utf8_cut (p := []) (by decide)).1 hs).2
  have hs := ((utf8_cut (p := []) ha).1 hs).2
  have hs := ((utf8_cut (p := []) hb).1 hs).2
  have hs := ((utf8_cut (p := []) hc).1 hs).2
  exact ⟨hp, ((utf8_cut (p := []) hd).1 hs).2⟩

/-- **A body of UTF-8 means UTF-8**, after any bytes `p` that begin a character which the body may
complete. -/
theorem Meaning.utf8_append (h : Meaning b t) {p : List UInt8} (hb : Utf8 (p ++ b)) : Utf8 (p ++ t) := by
  induction h generalizing p with
  | nil => exact hb
  | @raw c s t _ _ ih =>
    have hs : Utf8 ((p ++ [c]) ++ s) := by
      rw [List.append_assoc]
      exact hb
    have ht := ih hs
    rw [List.append_assoc] at ht
    exact ht
  | esc he _ ih =>
    obtain ⟨hascii, hb'⟩ := simpleEscape_ascii he
    obtain ⟨hp, hs⟩ := (utf8_cut (by decide)).1 hb
    have hs := ((utf8_cut (p := []) hascii).1 hs).2
    exact (utf8_cut hb').2 ⟨hp, ih (p := []) hs⟩
  | unicode hu _ ih =>
    obtain ⟨hp, hs⟩ := utf8_cut_unicode hu hb
    exact hp.append ((Utf8.char _).append (ih (p := []) hs))
  | pair hh hl _ _ _ _ _ _ ih =>
    obtain ⟨hp, hs⟩ := utf8_cut_unicode hh hb
    obtain ⟨-, hs⟩ := utf8_cut_unicode (p := []) hl hs
    exact hp.append ((Utf8.char _).append (ih (p := []) hs))

theorem Meaning.utf8 (h : Meaning b t) (hb : Utf8 b) : Utf8 t := h.utf8_append (p := []) hb

theorem utf8_quoted {b : List UInt8} (h : Utf8 (quoted b)) : Utf8 b := by
  obtain ⟨-, h⟩ := (utf8_cut (p := []) (by decide)).1 h
  exact ((utf8_cut (by decide)).1 h).1

end Rfc8259
