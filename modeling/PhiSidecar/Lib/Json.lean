import PhiSidecar.Lib.Decimal

/-!
# The JSON grammar over bytes (RFC 8259)

`Value v`: the bytes `v` are one JSON value, with no whitespace around it. Arrays and objects are
given by their elements and members together with the whitespace around each part (`Elem`,
`Member`), so a value of any layout is one of `arrText`/`objText`. `StrBody b` is what may stand
between the quotes of a string and `Denotes b t` says which bytes `t` it denotes (UTF-8 for `\u`
escapes); `Denotes` has no rule for an unpaired surrogate.

Bytes: `0x22` is `"`, `0x5C` is `\`, `0x2C` is `,`, `0x3A` is `:`, `0x5B 0x5D` are `[ ]`,
`0x7B 0x7D` are `{ }`.
-/

set_option autoImplicit false

namespace Rfc8259

/-! ## Whitespace and numbers -/

def isWs (c : UInt8) : Bool := c == 0x20 || c == 0x09 || c == 0x0A || c == 0x0D

/-- Insignificant whitespace. -/
def Ws (w : List UInt8) : Prop := ∀ c ∈ w, isWs c = true

def Digits (ds : List UInt8) : Prop := ∀ c ∈ ds, Decimal.isDigit c = true

/-- `int`: `0`, or digits that do not begin with `0`. -/
inductive IntPart : List UInt8 → Prop
  | zero : IntPart [0x30]
  | pos {d ds} : Decimal.isDigit d = true → d ≠ 0x30 → Digits ds → IntPart (d :: ds)

/-- `frac`, if present. -/
inductive Frac : List UInt8 → Prop
  | none : Frac []
  | some {ds} : ds ≠ [] → Digits ds → Frac (0x2E :: ds)

/-- `exp`, if present. -/
inductive Exp : List UInt8 → Prop
  | none : Exp []
  | some {e sign ds} : e = 0x65 ∨ e = 0x45 → sign = [] ∨ sign = [0x2B] ∨ sign = [0x2D] →
      ds ≠ [] → Digits ds → Exp (e :: (sign ++ ds))

/-- `number`. -/
def Number (n : List UInt8) : Prop :=
  ∃ m i f e, (m = [] ∨ m = [0x2D]) ∧ IntPart i ∧ Frac f ∧ Exp e ∧ n = m ++ (i ++ (f ++ e))

/-! ## Strings -/

/-- The byte a two-character escape denotes. -/
def simpleEscape (e : UInt8) : Option UInt8 :=
  if e = 0x22 then some 0x22 else if e = 0x5C then some 0x5C else if e = 0x2F then some 0x2F
  else if e = 0x62 then some 0x08 else if e = 0x66 then some 0x0C else if e = 0x6E then some 0x0A
  else if e = 0x72 then some 0x0D else if e = 0x74 then some 0x09 else none

/-- The value of a hexadecimal digit. -/
def hexVal (c : UInt8) : Option Nat :=
  if 0x30 ≤ c ∧ c ≤ 0x39 then some (c.toNat - 0x30)
  else if 0x61 ≤ c ∧ c ≤ 0x66 then some (c.toNat - 0x61 + 10)
  else if 0x41 ≤ c ∧ c ≤ 0x46 then some (c.toNat - 0x41 + 10) else none

/-- The value of four hexadecimal digits. -/
def hex4 (a b c d : UInt8) : Option Nat := do
  let a ← hexVal a
  let b ← hexVal b
  let c ← hexVal c
  let d ← hexVal d
  return ((a * 16 + b) * 16 + c) * 16 + d

/-- An unescaped character of a string. -/
def Plain (c : UInt8) : Prop := 0x20 ≤ c ∧ c ≠ 0x22 ∧ c ≠ 0x5C

instance : DecidablePred Plain := fun _ => inferInstanceAs (Decidable (_ ∧ _ ∧ _))

/-- What may stand between the quotes of a string. -/
inductive StrBody : List UInt8 → Prop
  | nil : StrBody []
  | plain {c s} : Plain c → StrBody s → StrBody (c :: s)
  | esc {e b s} : simpleEscape e = some b → StrBody s → StrBody (0x5C :: e :: s)
  | unicode {a b c d u s} : hex4 a b c d = some u → StrBody s →
      StrBody (0x5C :: 0x75 :: a :: b :: c :: d :: s)

/-- The bytes a string body denotes: a `\u` escape or surrogate pair is the UTF-8 form of its code
point. -/
inductive Denotes : List UInt8 → List UInt8 → Prop
  | nil : Denotes [] []
  | plain {c s t} : Plain c → Denotes s t → Denotes (c :: s) (c :: t)
  | esc {e b s t} : simpleEscape e = some b → Denotes s t → Denotes (0x5C :: e :: s) (b :: t)
  | unicode {a b c d s t} {ch : Char} : hex4 a b c d = some ch.toNat → Denotes s t →
      Denotes (0x5C :: 0x75 :: a :: b :: c :: d :: s) (String.utf8EncodeChar ch ++ t)
  | pair {a b c d a' b' c' d' s t} {hi lo : Nat} {ch : Char} : hex4 a b c d = some hi →
      hex4 a' b' c' d' = some lo → 0xD800 ≤ hi → hi ≤ 0xDBFF → 0xDC00 ≤ lo → lo ≤ 0xDFFF →
      ch.toNat = 0x10000 + (hi - 0xD800) * 0x400 + (lo - 0xDC00) → Denotes s t →
      Denotes (0x5C :: 0x75 :: a :: b :: c :: d :: 0x5C :: 0x75 :: a' :: b' :: c' :: d' :: s)
        (String.utf8EncodeChar ch ++ t)

/-- Without escapes the text denotes itself. -/
theorem Denotes.of_plain {s : List UInt8} (h : ∀ c ∈ s, Plain c) : Denotes s s := by
  induction s with
  | nil => exact .nil
  | cons c s ih => exact .plain (h c (.head _)) (ih fun c hc => h c (.tail _ hc))

theorem Denotes.body {s t : List UInt8} (h : Denotes s t) : StrBody s := by
  induction h with
  | nil => exact .nil
  | plain hc _ ih => exact .plain hc ih
  | esc he _ ih => exact .esc he ih
  | unicode hu _ ih => exact .unicode hu ih
  | pair hh hl _ _ _ _ _ _ ih => exact .unicode hh (.unicode hl ih)

/-- A string body without an unpaired surrogate escape. -/
inductive Paired : List UInt8 → Prop
  | nil : Paired []
  | plain {c s} : Plain c → Paired s → Paired (c :: s)
  | esc {e b s} : simpleEscape e = some b → Paired s → Paired (0x5C :: e :: s)
  | unicode {a b c d u s} : hex4 a b c d = some u → u < 0xD800 ∨ 0xDFFF < u → Paired s →
      Paired (0x5C :: 0x75 :: a :: b :: c :: d :: s)
  | pair {a b c d a' b' c' d' s} {hi lo : Nat} : hex4 a b c d = some hi →
      hex4 a' b' c' d' = some lo → 0xD800 ≤ hi → hi ≤ 0xDBFF → 0xDC00 ≤ lo → lo ≤ 0xDFFF →
      Paired s →
      Paired (0x5C :: 0x75 :: a :: b :: c :: d :: 0x5C :: 0x75 :: a' :: b' :: c' :: d' :: s)

theorem hexVal_lt {c : UInt8} {v : Nat} (h : hexVal c = some v) : v < 16 := by
  simp only [hexVal, UInt8.le_iff_toNat_le, UInt8.reduceToNat] at h
  split at h
  · cases h; omega
  · split at h
    · cases h; omega
    · split at h
      · cases h; omega
      · cases h

theorem hex4_lt {a b c d : UInt8} {u : Nat} (h : hex4 a b c d = some u) : u < 0x10000 := by
  simp only [hex4, Option.bind_eq_bind, Option.bind_eq_some_iff, Option.pure_def] at h
  obtain ⟨va, ha, vb, hb, vc, hc, vd, hd, hu⟩ := h
  cases hu
  have h1 := hexVal_lt ha
  have h2 := hexVal_lt hb
  have h3 := hexVal_lt hc
  have h4 := hexVal_lt hd
  omega

/-- A code point that is no surrogate is a character. -/
theorem exists_char {u : Nat} (hs : u < 0xD800 ∨ 0xDFFF < u) (h : u < 0x110000) :
    ∃ ch : Char, ch.toNat = u := by
  have hv : Nat.isValidChar u := by
    simp only [Nat.isValidChar]
    omega
  exact ⟨Char.ofNatAux u hv, rfl⟩

/-- Such a body denotes a text. -/
theorem Paired.denotes {s : List UInt8} (h : Paired s) : ∃ t, Denotes s t := by
  induction h with
  | nil => exact ⟨_, .nil⟩
  | plain hc _ ih =>
    obtain ⟨t, ht⟩ := ih
    exact ⟨_, .plain hc ht⟩
  | esc he _ ih =>
    obtain ⟨t, ht⟩ := ih
    exact ⟨_, .esc he ht⟩
  | unicode hu hs _ ih =>
    obtain ⟨t, ht⟩ := ih
    have hlt := hex4_lt hu
    obtain ⟨ch, rfl⟩ := exists_char hs (by omega)
    exact ⟨_, .unicode hu ht⟩
  | @pair a b c d a' b' c' d' s hi lo hh hl h1 h2 h3 h4 _ ih =>
    obtain ⟨t, ht⟩ := ih
    obtain ⟨ch, hch⟩ := exists_char (u := 0x10000 + (hi - 0xD800) * 0x400 + (lo - 0xDC00))
      (.inr (by omega)) (by omega)
    exact ⟨_, .pair hh hl h1 h2 h3 h4 hch ht⟩

/-- A string token. -/
def quoted (b : List UInt8) : List UInt8 := 0x22 :: (b ++ [0x22])

/-! ## Values -/

/-- Texts, each after a comma. -/
def commaTail : List (List UInt8) → List UInt8
  | [] => []
  | a :: l => 0x2C :: (a ++ commaTail l)

/-- Texts separated by commas. -/
def commaSep : List (List UInt8) → List UInt8
  | [] => []
  | a :: l => a ++ commaTail l

/-- One element of an array, with the whitespace around it. -/
structure Elem where
  before : List UInt8 := []
  val : List UInt8
  after : List UInt8 := []

def Elem.text (e : Elem) : List UInt8 := e.before ++ (e.val ++ e.after)

def Elem.Spaced (e : Elem) : Prop := Ws e.before ∧ Ws e.after

/-- One member of an object, with the whitespace around its parts; `key` is the string body. -/
structure Member where
  before : List UInt8 := []
  key : List UInt8
  afterKey : List UInt8 := []
  beforeVal : List UInt8 := []
  val : List UInt8
  after : List UInt8 := []

def Member.text (m : Member) : List UInt8 :=
  m.before ++ (quoted m.key ++ (m.afterKey ++ (0x3A :: (m.beforeVal ++ (m.val ++ m.after)))))

def Member.Spaced (m : Member) : Prop :=
  Ws m.before ∧ Ws m.afterKey ∧ Ws m.beforeVal ∧ Ws m.after

def arrText (pad : List UInt8) (es : List Elem) : List UInt8 :=
  0x5B :: (pad ++ (commaSep (es.map Elem.text) ++ [0x5D]))

def objText (pad : List UInt8) (ms : List Member) : List UInt8 :=
  0x7B :: (pad ++ (commaSep (ms.map Member.text) ++ [0x7D]))

def trueText : List UInt8 := [0x74, 0x72, 0x75, 0x65]
def falseText : List UInt8 := [0x66, 0x61, 0x6C, 0x73, 0x65]
def nullText : List UInt8 := [0x6E, 0x75, 0x6C, 0x6C]

/-- The bytes are one JSON value. -/
inductive Value : List UInt8 → Prop
  | str {b} : StrBody b → Value (quoted b)
  | num {n} : Number n → Value n
  | tru : Value trueText
  | fls : Value falseText
  | null : Value nullText
  | arr {pad es} : Ws pad → (∀ e ∈ es, e.Spaced) → (∀ e ∈ es, Value e.val) →
      Value (arrText pad es)
  | obj {pad ms} : Ws pad → (∀ m ∈ ms, m.Spaced ∧ StrBody m.key) → (∀ m ∈ ms, Value m.val) →
      Value (objText pad ms)

/-! ## How values begin and end -/

theorem Ws.nil : Ws [] := fun _ h => absurd h List.not_mem_nil

theorem IntPart.head {i : List UInt8} (h : IntPart i) :
    ∃ d ds, i = d :: ds ∧ Decimal.isDigit d = true ∧ Digits ds := by
  cases h with
  | zero => exact ⟨_, _, rfl, by decide, fun _ h => absurd h List.not_mem_nil⟩
  | pos hd _ hds => exact ⟨_, _, rfl, hd, hds⟩

/-- A number begins with a minus sign or a digit. -/
theorem Number.head {n : List UInt8} (h : Number n) :
    ∃ c s, n = c :: s ∧ (c = 0x2D ∨ Decimal.isDigit c = true) := by
  obtain ⟨m, i, f, e, rfl | rfl, hi, -, -, rfl⟩ := h
  · obtain ⟨d, ds, rfl, hd, -⟩ := hi.head
    exact ⟨d, ds ++ (f ++ e), rfl, .inr hd⟩
  · exact ⟨0x2D, i ++ (f ++ e), rfl, .inl rfl⟩

/-! ## Printed integers -/

open Decimal in
theorem natText_intPart (n : Nat) : IntPart (natText n) := by
  rcases Nat.eq_zero_or_pos n with rfl | h
  · exact .zero
  · obtain ⟨d, ds, he, hd, h0, hds⟩ := natText_head h
    rw [he]
    exact .pos hd h0 hds

open Decimal in
/-- The text of an integer is a JSON number. -/
theorem intText_number (z : Int) : Number (intText z) := by
  cases z with
  | ofNat n => exact ⟨[], _, [], [], .inl rfl, natText_intPart n, .none, .none, by simp [intText]⟩
  | negSucc n =>
    exact ⟨[0x2D], _, [], [], .inr rfl, natText_intPart (n + 1), .none, .none, by simp [intText]⟩

end Rfc8259
