import PhiSidecar.Lib.Binary64Text
import PhiSidecar.Wire.Build
import PhiSidecar.Wire.Rendering

/-!
# Documents: what a JSON text built by the SDK says

A `Doc` is the content of a message: named fields and lists down to scalars and raw JSON arguments.
`Doc.Reads d t` says that reading the token `t` with the SDK's own parsers gives `d`, through every
object and list. A double is read as what 15 significant digits of it are (`readDouble`), whatever
finds the nearest double to a number (`Converts`). `Doc.Shows d text` says that `text` is a JSON value,
up to whitespace around it, that reads as `d`; `Out.Says o p fs` says it of the fields of an object
under construction.

* `quoted_denotes`: `jsonQuoted` denotes the bytes it was given, whatever they are.
* `Out.Says.field`, `Shows.arr`, `Out.Says.close`, `Out.Says.envelope`: **each building step of the
  SDK adds one field or element to what the text says**.
-/

set_option autoImplicit false

namespace Phi.Wire

open Phi.V1
open Rfc8259 (Ws Member StrBody Value Denotes commaSep)

inductive Doc
  | null
  | bool (b : Bool)
  | int (z : Int)
  | uint (n : UInt64)
  | double (d : Double)
  | text (s : Bytes)
  /-- JSON text handed in by the caller. -/
  | raw (json : Bytes)
  | arr (es : List Doc)
  | obj (fs : List (Bytes × Doc))

/-- `parseDouble` on JSON numbers: the nearest double, and none beyond the largest. -/
def Converts (parseDouble : Bytes → Option Double) : Prop :=
  ∀ t, Rfc8259.Number t → parseDouble t =
    (Binary64.nearest (Binary64.readNumber t).1 (Binary64.readNumber t).2).map Double.mk

example : ∃ parseDouble, Converts parseDouble := ⟨_, fun _ _ => rfl⟩

/-- What is read of a double that is written as `q`: an integer if it is one of at most 15 digits. -/
def readDouble (d : Double) (q : ℚ) : Option ScalarValue :=
  if Binary64.Whole 15 q then some (.int (Int64.ofInt q.num))
  else (Binary64.nearest (Binary64.isNegative d.bits) |q|).map fun bits => .double ⟨bits⟩

namespace Doc

mutual

/-- Reading the token gives the document. -/
def Reads : Doc → Bytes → Prop
  | .null, t => ∀ parseDouble, parseScalarValueToken parseDouble t = some .null
  | .bool b, t => ∀ parseDouble, parseScalarValueToken parseDouble t = some (.bool b)
  | .int z, t => ∃ i : Int64, parseInt64 t = some i ∧ i.toInt = z
  | .uint n, t => parseUInt64 t = some n
  | .double d, t =>
    if Binary64.isFinite d.bits then
      ∃ q, Binary64.RoundsTo 15 (Binary64.value d.bits) q ∧
        ∀ parseDouble, Converts parseDouble → parseScalarValueToken parseDouble t = readDouble d q
    else ∀ parseDouble, parseScalarValueToken parseDouble t = some .null
  | .text s, t => decodeJsonString t = .ok s
  | .raw json, t => t = trim json
  | .arr es, t => ∃ ts, parseArrayElements t = .ok ts ∧ ReadsAll es ts
  | .obj fs, t =>
    ∃ m, parseObjectMembers t = .ok m ∧ (m.entries.map Prod.fst).Nodup ∧ ReadsFields fs m.entries

/-- As many elements, in order. -/
def ReadsAll : List Doc → List Bytes → Prop
  | [], [] => True
  | d :: ds, t :: ts => Reads d t ∧ ReadsAll ds ts
  | _, _ => False

/-- The same fields, in order. -/
def ReadsFields : List (Bytes × Doc) → List (Bytes × Bytes) → Prop
  | [], [] => True
  | f :: fs, e :: es => e.1 = f.1 ∧ Reads f.2 e.2 ∧ ReadsFields fs es
  | _, _ => False

end

/-- JSON text with whitespace around it. -/
def RawJson (json : Bytes) : Prop := ∃ w v w', Ws w ∧ Value v ∧ Ws w' ∧ json = w ++ (v ++ w')

/-- The range of `int64_t`. -/
def Fits (z : Int) : Prop := -2 ^ 63 ≤ z ∧ z < 2 ^ 63

/-- The document of a scalar. -/
def ofScalar : ScalarValue → Doc
  | .null => .null
  | .bool b => .bool b
  | .int i => .int i.toInt
  | .double d => .double d
  | .text s => .text s

end Doc

/-! ## Quoted strings -/

/-- A control character is a code point of one byte, and its `\u00` escape has that value. -/
theorem control_char : ∀ n < 32,
    Rfc8259.hex4 0x30 0x30 (kHex (UInt8.ofNat n >>> 4 &&& 0x0F)) (kHex (UInt8.ofNat n &&& 0x0F)) =
        some (Char.ofNat n).toNat ∧
      String.utf8EncodeChar (Char.ofNat n) = [UInt8.ofNat n] := by
  decide +kernel

/-- The text of one character denotes it. -/
theorem quotedChar_denotes (ch : UInt8) {s t : Bytes} (h : Denotes s t) :
    Denotes (quotedChar ch ++ s) (ch :: t) := by
  unfold quotedChar
  split_ifs with h1 h2 h3 h4 h5 h6 h7 h8
  · subst h1; exact .esc rfl h
  · subst h2; exact .esc rfl h
  · subst h3; exact .esc rfl h
  · subst h4; exact .esc rfl h
  · subst h5; exact .esc rfl h
  · subst h6; exact .esc rfl h
  · subst h7; exact .esc rfl h
  · obtain ⟨hx, hu⟩ := control_char ch.toNat h8
    rw [UInt8.ofNat_toNat] at hx hu
    have := Denotes.unicode hx h
    rwa [hu] at this
  · have h20 : 0x20 ≤ ch := UInt8.not_lt.1 h8
    exact .plain ⟨h20, h1, h2⟩ h

/-- **`jsonQuoted` denotes its argument**. -/
theorem quoted_denotes (text : Bytes) : Denotes (text.flatMap quotedChar) text := by
  induction text with
  | nil => exact .nil
  | cons ch text ih => exact quotedChar_denotes ch ih

theorem jsonQuoted_eq (text : Bytes) : jsonQuoted text = Rfc8259.quoted (text.flatMap quotedChar) :=
  rfl

theorem jsonQuoted_value (text : Bytes) : Value (jsonQuoted text) := .str (quoted_denotes text).body

/-! ## Scalars -/

theorem boolJson_value (b : Bool) : Value (boolJson b) := by
  cases b
  · exact .fls
  · exact .tru

theorem doubleJson_value (d : Double) : Value (doubleJson d) := by
  unfold doubleJson
  split_ifs
  · exact .num (Binary64.generalText_number 15 d.bits)
  · exact .null

theorem toStringI_value (z : Int) : Value (toStringI z) := .num (Rfc8259.intText_number z)

theorem toStringU_value (n : Nat) : Value (toStringU n) :=
  .num (Rfc8259.intText_number (Int.ofNat n))

theorem parseInt64_toStringI {z : Int} (h : Doc.Fits z) :
    ∃ i : Int64, parseInt64 (toStringI z) = some i ∧ i.toInt = z := by
  have hi : (Int64.ofInt z).toInt = z := Int64.toInt_ofInt_of_le h.1 h.2
  exact ⟨Int64.ofInt z, parseInt64_of (toStringI_value z) (by rw [hi]; exact Decimal.readInt_intText z),
    hi⟩

theorem parseUInt64_toStringU (n : UInt64) : parseUInt64 (toStringU n.toNat) = some n :=
  parseUInt64_of (toStringU_value _) (Decimal.readNat_natText _)

/-- A number with a point or an exponent is a double. -/
theorem parseScalarValueToken_fractional {t : Bytes} (h : Rfc8259.Number t) (hf : Binary64.Fractional t)
    (parseDouble : Bytes → Option Double) :
    parseScalarValueToken parseDouble t = (parseDouble t).map .double := by
  obtain ⟨c, s, ht, hc⟩ := h.head
  have hne : ∀ d : UInt8, d ≠ 0x2D → Decimal.isDigit d = false → t.head? ≠ some d := by
    rintro d hminus hdigit hd
    rw [ht, List.head?_cons, Option.some.injEq] at hd
    subst hd
    obtain rfl | hc := hc
    · exact hminus rfl
    · cases hc.symm.trans hdigit
  have hword : ∀ l : Bytes, (∃ d, l.head? = some d ∧ d ≠ 0x2D ∧ Decimal.isDigit d = false) → t ≠ l := by
    rintro l ⟨d, hd, hminus, hdigit⟩ rfl
    exact hne d hminus hdigit hd
  have hpoint : t.any (fun c => c == 0x2E || c == 0x65 || c == 0x45) = true := by
    obtain ⟨c, hc, hf⟩ := hf
    refine List.any_eq_true.2 ⟨c, hc, ?_⟩
    simpa [Binary64.isExp, or_assoc] using hf
  unfold parseScalarValueToken
  simp only [trim_value_self (.num h)]
  rw [if_neg (by rw [ht]; exact List.cons_ne_nil _ _), if_neg (hne _ (by decide) (by decide)),
    if_neg (hword _ ⟨0x74, rfl, by decide, by decide⟩), if_neg (hword _ ⟨0x66, rfl, by decide, by decide⟩),
    if_neg (hword _ ⟨0x6E, rfl, by decide, by decide⟩), if_pos hpoint]

/-- A digit string behind an optional minus sign. -/
theorem readInt_signText (negative : Bool) (n : Nat) :
    Decimal.readInt (Binary64.signText negative ++ Decimal.natText n) =
      some (if negative then -(n : Int) else n) := by
  cases negative with
  | false => exact Decimal.readInt_natText n
  | true =>
    show (Decimal.readNat (Decimal.natText n)).map _ = _
    rw [Decimal.readNat_natText]
    rfl

/-- **A finite double is read as what 15 significant digits of it are.** -/
theorem doubleJson_reads {d : Double} (hd : Binary64.isFinite d.bits = true) :
    ∃ q, Binary64.RoundsTo 15 (Binary64.value d.bits) q ∧ ∀ parseDouble, Converts parseDouble →
      parseScalarValueToken parseDouble (doubleJson d) = readDouble d q := by
  have hv := doubleJson_value d
  rw [doubleJson, if_pos hd] at hv ⊢
  have hnumber := Binary64.generalText_number 15 d.bits
  obtain ⟨q, hq, hrounds, hread, htext⟩ := Binary64.generalText_reads (p := 15) (by decide) d.bits
  refine ⟨if Binary64.isNegative d.bits then -q else q, ?_, fun parseDouble hconv => ?_⟩
  · unfold Binary64.value
    split_ifs
    · exact hrounds.neg
    · exact hrounds
  · have hwhole : Binary64.Whole 15 (if Binary64.isNegative d.bits then -q else q) ↔ Binary64.Whole 15 q := by
      split_ifs
      · exact Binary64.Whole.neg
      · rfl
    have habs : |if Binary64.isNegative d.bits then -q else q| = q := by
      split_ifs
      · rw [abs_neg, abs_of_nonneg hq]
      · exact abs_of_nonneg hq
    unfold readDouble
    rw [habs]
    obtain ⟨hfrac, hnot⟩ | ⟨n, rfl, hn, htext⟩ := htext
    · rw [if_neg (hwhole.not.2 hnot), parseScalarValueToken_fractional hnumber hfrac, hconv _ hnumber, hread,
        Option.map_map]
      rfl
    · have hsmall : Binary64.Whole 15 (n : ℚ) :=
        ⟨Rat.den_natCast n, by rw [abs_of_nonneg hq]; exact_mod_cast hn⟩
      rw [if_pos (hwhole.2 hsmall)]
      have hnum : (if Binary64.isNegative d.bits then -(n : ℚ) else n).num =
          if Binary64.isNegative d.bits then -(n : Int) else n := by
        split_ifs
        · rw [Rat.neg_num, Rat.num_natCast]
        · exact Rat.num_natCast n
      refine parseScalarValueToken_isScalar (.int ⟨hv, ?_⟩) parseDouble
      rw [htext, readInt_signText, hnum, Int64.toInt_ofInt_of_le]
      · split_ifs <;> omega
      · split_ifs <;> omega

/-! ## Documents and texts -/

namespace Doc

/-- A JSON value that reads as the document. -/
structure Exact (d : Doc) (v : Bytes) : Prop where
  value : Value v
  reads : d.Reads v

/-- A JSON value between whitespace that reads as the document. -/
def Shows (d : Doc) (text : Bytes) : Prop :=
  ∃ w v w', Ws w ∧ Value v ∧ Ws w' ∧ text = w ++ (v ++ w') ∧ d.Reads v

theorem Exact.shows {d : Doc} {v : Bytes} (h : d.Exact v) : d.Shows v :=
  ⟨[], v, [], .nil, h.value, .nil, by simp, h.reads⟩

namespace Shows

theorem of_value {d : Doc} {v : Bytes} (hv : Value v) (h : d.Reads v) : d.Shows v :=
  Exact.shows ⟨hv, h⟩

theorem null : Doc.null.Shows (lit "null") := of_value .null fun _ => parseScalarValueToken_isScalar .null _

theorem bool (b : Bool) : (Doc.bool b).Shows (boolJson b) :=
  of_value (boolJson_value b) fun _ => by
    cases b with
    | false => exact parseScalarValueToken_isScalar (.bool false) _
    | true => exact parseScalarValueToken_isScalar (.bool true) _

theorem int {z : Int} (h : Fits z) : (Doc.int z).Shows (toStringI z) :=
  of_value (toStringI_value z) (parseInt64_toStringI h)

theorem uint (n : UInt64) : (Doc.uint n).Shows (toStringU n.toNat) :=
  of_value (toStringU_value _) (parseUInt64_toStringU n)

theorem double (d : Double) : (Doc.double d).Shows (doubleJson d) := by
  refine of_value (doubleJson_value d) ?_
  unfold Doc.Reads
  split_ifs with hd
  · exact doubleJson_reads hd
  · intro parseDouble
    rw [doubleJson, if_neg hd]
    exact parseScalarValueToken_isScalar .null _

theorem text (s : Bytes) : (Doc.text s).Shows (jsonQuoted s) :=
  of_value (jsonQuoted_value s) (decodeJsonString_quoted (quoted_denotes s))

theorem raw {json : Bytes} (h : RawJson json) : (Doc.raw json).Shows json := by
  obtain ⟨w, v, w', hw, hv, hw', rfl⟩ := h
  exact ⟨w, v, w', hw, hv, hw', rfl, (trim_value hv hw hw').symm⟩

theorem raw_trim {json : Bytes} (h : RawJson json) : (Doc.raw json).Shows (trim json) := by
  obtain ⟨w, v, w', hw, hv, hw', rfl⟩ := h
  have ht := trim_value hv hw hw'
  rw [ht]
  exact of_value hv ht.symm

theorem scalar : ∀ v : ScalarValue, (ofScalar v).Shows (scalarJson v)
  | .null => null
  | .bool b => bool b
  | .int i => int ⟨Int64.le_toInt i, Int64.toInt_lt i⟩
  | .double d => double d
  | .text s => text s

end Shows

/-! ### Arrays -/

theorem foldl_appendElement (ts : List Bytes) : ∀ (o : Out), o.first = false →
    (ts.foldl appendElement o).out = o.out ++ Rfc8259.commaTail ts := by
  induction ts with
  | nil => intro o _; simp [Rfc8259.commaTail]
  | cons t ts ih =>
    intro o ho
    rw [List.foldl_cons, ih _ rfl, appendElement, ho]
    simp [Rfc8259.commaTail]

theorem arrayJson_eq (ts : List Bytes) : arrayJson ts = 0x5B :: (commaSep ts ++ [0x5D]) := by
  unfold arrayJson
  cases ts with
  | nil => rfl
  | cons t ts =>
    rw [List.foldl_cons, foldl_appendElement ts _ rfl]
    simp [appendElement, commaSep]

theorem elems_of_shows {ds : List Doc} {ts : List Bytes} (h : List.Forall₂ Shows ds ts) :
    ∃ els : List Rfc8259.Elem, els.map Rfc8259.Elem.text = ts ∧
      (∀ e ∈ els, Value e.val ∧ e.Spaced) ∧ ReadsAll ds (els.map Rfc8259.Elem.val) := by
  induction h with
  | nil => exact ⟨[], rfl, by simp, trivial⟩
  | cons hd _ ih =>
    obtain ⟨w, v, w', hw, hv, hw', rfl, hr⟩ := hd
    obtain ⟨els, rfl, hgood, hreads⟩ := ih
    exact ⟨⟨w, v, w'⟩ :: els, rfl, List.forall_mem_cons.2 ⟨⟨hv, hw, hw'⟩, hgood⟩, hr, hreads⟩

theorem Shows.arr {ds : List Doc} {ts : List Bytes} (h : List.Forall₂ Shows ds ts) :
    (Doc.arr ds).Shows (arrayJson ts) := by
  obtain ⟨els, rfl, hgood, hreads⟩ := elems_of_shows h
  have hv : Value (Rfc8259.arrText [] els) :=
    .arr .nil (fun e he => (hgood e he).2) (fun e he => (hgood e he).1)
  have hp := parseArrayElements_arrText .nil .nil .nil hgood
  rw [List.nil_append, List.append_nil] at hp
  rw [arrayJson_eq]
  exact .of_value hv ⟨_, hp, hreads⟩

/-- A list of entities, each of which shows its document. -/
theorem Shows.list {α : Type*} {xs : List α} {f : α → Doc} {g : α → Bytes}
    (h : ∀ x ∈ xs, (f x).Shows (g x)) : (Doc.arr (xs.map f)).Shows (arrayJson (xs.map g)) := by
  refine .arr ?_
  rw [List.forall₂_map_left_iff, List.forall₂_map_right_iff]
  exact List.forall₂_same.2 h

/-! ### Objects -/

/-- A member with no whitespace of its own. -/
def memberText (kv : Bytes × Bytes) : Bytes := jsonQuoted kv.1 ++ 0x3A :: kv.2

/-- A member text for a field. -/
def FieldShows (f : Bytes × Doc) (kv : Bytes × Bytes) : Prop := kv.1 = f.1 ∧ f.2.Shows kv.2

theorem members_of_shows {fs : List (Bytes × Doc)} {kvs : List (Bytes × Bytes)}
    (h : List.Forall₂ FieldShows fs kvs) : ∃ kms : List Keyed,
      kms.map (fun p => p.2.text) = kvs.map memberText ∧ (∀ p ∈ kms, GoodMember p) ∧
      kms.map Prod.fst = fs.map Prod.fst ∧ ReadsFields fs (kms.map fun p => (p.1, p.2.val)) := by
  induction h with
  | nil => exact ⟨[], rfl, by simp, rfl, trivial⟩
  | @cons f kv _ _ hf _ ih =>
    obtain ⟨hk, w, v, w', hw, hv, hw', ht, hr⟩ := hf
    obtain ⟨kms, hkms, hgood, hkeys, hreads⟩ := ih
    refine ⟨(f.1, { key := f.1.flatMap quotedChar, beforeVal := w, val := v, after := w' }) :: kms,
      ?_, ?_, ?_, rfl, hr, hreads⟩
    · rw [List.map_cons, List.map_cons, hkms, memberText, hk, ht, jsonQuoted_eq]
      rfl
    · exact List.forall_mem_cons.2 ⟨⟨hv, ⟨.nil, .nil, hw, hw'⟩, quoted_denotes f.1⟩, hgood⟩
    · rw [List.map_cons, hkeys]
      rfl

theorem Exact.obj {fs : List (Bytes × Doc)} {kvs : List (Bytes × Bytes)}
    (hn : (fs.map Prod.fst).Nodup) (h : List.Forall₂ FieldShows fs kvs) :
    (Doc.obj fs).Exact (0x7B :: (commaSep (kvs.map memberText) ++ [0x7D])) := by
  obtain ⟨kms, htext, hgood, hkeys, hreads⟩ := members_of_shows h
  have hn : (kms.map Prod.fst).Nodup := hkeys ▸ hn
  have hv : Value (Rfc8259.objText [] (kms.map Prod.snd)) := by
    refine .obj .nil (fun m hm => ?_) (fun m hm => ?_) <;>
      obtain ⟨p, hp, rfl⟩ := List.mem_map.1 hm
    · exact ⟨(hgood p hp).spaced, (hgood p hp).key.body⟩
    · exact (hgood p hp).value
  have hp := parseObjectMembers_objText .nil .nil .nil hgood
  rw [List.nil_append, List.append_nil] at hp
  have he := @entries_of_nodup kms {} (by simpa using hn)
  rw [List.nil_append] at he
  have ht : 0x7B :: (commaSep (kvs.map memberText) ++ [0x7D]) =
      Rfc8259.objText [] (kms.map Prod.snd) := by
    rw [Rfc8259.objText, List.map_map, ← htext]
    rfl
  rw [ht]
  exact ⟨hv, _, hp, by rw [he, List.map_map]; exact hn, by rw [he]; exact hreads⟩

end Doc

namespace Out

open Doc

/-- What an object under construction says: the fields so far, after the prefix `p`, with names
among `ks`. -/
def Says (o : Out) (p : Bytes) (ks : List String) (fs : List (Bytes × Doc)) : Prop :=
  (∃ kvs, o = ⟨p ++ commaSep (kvs.map memberText), kvs.isEmpty⟩ ∧
    List.Forall₂ FieldShows fs kvs) ∧ (fs.map Prod.fst).Sublist (ks.map lit)

theorem Says.start (p : Bytes) : Says ⟨p, true⟩ p [] [] :=
  ⟨⟨[], by simp [commaSep], .nil⟩, .refl _⟩

theorem commaSep_concat (l : List Bytes) (a : Bytes) :
    commaSep (l ++ [a]) = commaSep l ++ ((if l.isEmpty then [] else [0x2C]) ++ a) := by
  cases l with
  | nil => simp [commaSep, Rfc8259.commaTail]
  | cons b l =>
    have : Rfc8259.commaTail (l ++ [a]) = Rfc8259.commaTail l ++ 0x2C :: a := by
      induction l with
      | nil => simp [Rfc8259.commaTail]
      | cons c l ih => simp [Rfc8259.commaTail, ih]
    simp [commaSep, this]

section
variable {o : Out} {p : Bytes} {ks : List String} {fs : List (Bytes × Doc)} {key : String} {d : Doc}
  {value : Bytes}

/-- One more field. -/
theorem Says.field (h : o.Says p ks fs) (hd : d.Shows value) :
    (o.field key value).Says p (ks ++ [key]) (fs ++ [(lit key, d)]) := by
  obtain ⟨⟨kvs, rfl, hkvs⟩, hks⟩ := h
  refine ⟨⟨kvs ++ [(lit key, value)], ?_, ?_⟩, ?_⟩
  · simp [Out.field, appendFieldPrefix, commaSep_concat, memberText]
  · exact List.rel_append hkvs (.cons ⟨rfl, hd⟩ .nil)
  · rw [List.map_append, List.map_append]
    exact hks.append (.refl _)

/-- An optional field. -/
theorem Says.fieldIf {c : Bool} (h : o.Says p ks fs) (hd : c = true → d.Shows value) :
    (o.fieldIf c key value).Says p (ks ++ [key]) (fs ++ if c then [(lit key, d)] else []) := by
  cases c with
  | true => exact h.field (hd rfl)
  | false =>
    refine ⟨by simpa [Out.fieldIf] using h.1, ?_⟩
    simp only [Bool.false_eq_true, if_false, List.append_nil, List.map_append]
    exact h.2.trans (List.sublist_append_left _ _)

theorem Says.close (h : o.Says [0x7B] ks fs) (hn : (ks.map lit).Nodup) :
    (Doc.obj fs).Shows o.close := by
  obtain ⟨⟨kvs, rfl, hkvs⟩, hks⟩ := h
  exact (Exact.obj (hks.nodup hn) hkvs).shows

end

end Out

end Phi.Wire
