import PhiSidecar.Lib.Cursor
import PhiSidecar.Lib.JsonString

/-!
# JSON values in outline

A reader that finds the end of a value without a look at its strings and numbers takes more than the
grammar. `Outline N` is what it takes: the brackets, commas and colons of a value, anything between
quotes for a string, and for a number what meets `N`. `Lexical` is the other half: the bytes are tokens
of the grammar, in any order.

* `Outline.value`: an outline made of tokens of the grammar is a value (`Outline.value_iff`).
-/

set_option autoImplicit false

namespace Rfc8259

/-! ## Outlines -/

/-- A value, up to what its strings and numbers are. -/
inductive Outline (N : List UInt8 → Prop) : List UInt8 → Prop
  | str {b} : Enclosed b → Outline N (quoted b)
  | num {n} : N n → Outline N n
  | tru : Outline N trueText
  | fls : Outline N falseText
  | null : Outline N nullText
  | arr {pad es} : Ws pad → (∀ e ∈ es, e.Spaced) → (∀ e ∈ es, Outline N e.val) →
      Outline N (arrText pad es)
  | obj {pad ms} : Ws pad → (∀ m ∈ ms, m.Spaced ∧ Enclosed m.key) → (∀ m ∈ ms, Outline N m.val) →
      Outline N (objText pad ms)

variable {N : List UInt8 → Prop} {b n r s v w : List UInt8} {c : UInt8}

/-- A string of the grammar ends at the first quote that is not escaped. -/
theorem StrBody.enclosed (h : StrBody b) : Enclosed b := by
  induction h with
  | nil => exact .nil
  | plain hc _ ih => exact .raw hc.raw ih
  | esc _ _ ih => exact .esc ih
  | unicode hu _ ih =>
    obtain ⟨h1, h2, h3, h4⟩ := hex4_raw hu
    exact .esc (.raw h1 (.raw h2 (.raw h3 (.raw h4 ih))))

theorem Value.outline (hN : ∀ n, Number n → N n) (h : Value v) : Outline N v := by
  induction h with
  | str hb => exact .str hb.enclosed
  | num hn => exact .num (hN _ hn)
  | tru => exact .tru
  | fls => exact .fls
  | null => exact .null
  | arr hp hs _ ih => exact .arr hp hs ih
  | obj hp hs _ ih => exact .obj hp (fun m hm => ⟨(hs m hm).1, (hs m hm).2.enclosed⟩) ih

/-- The end of a string is where its body says. -/
theorem Enclosed.unique {b' s' : List UInt8} (h : Enclosed b) (h' : Enclosed b')
    (he : b ++ 0x22 :: s = b' ++ 0x22 :: s') : b = b' ∧ s = s' := by
  induction h generalizing b' with
  | nil =>
    cases h' with
    | nil => exact ⟨rfl, (List.cons.inj he).2⟩
    | raw hc _ => exact absurd (List.cons.inj he).1.symm hc.1
    | esc _ => exact absurd (List.cons.inj he).1 (by decide)
  | @raw c t hc _ ih =>
    cases h' with
    | nil => exact absurd (List.cons.inj he).1 hc.1
    | raw _ h' =>
      obtain ⟨rfl, htail⟩ := List.cons.inj he
      obtain ⟨rfl, hs⟩ := ih h' htail
      exact ⟨rfl, hs⟩
    | esc _ => exact absurd (List.cons.inj he).1 hc.2
  | @esc e t _ ih =>
    cases h' with
    | nil => exact absurd (List.cons.inj he).1 (by decide)
    | raw hc _ => exact absurd (List.cons.inj he).1.symm hc.2
    | esc h' =>
      obtain ⟨rfl, htail⟩ := List.cons.inj (List.cons.inj he).2
      obtain ⟨rfl, hs⟩ := ih h' htail
      exact ⟨rfl, hs⟩

/-! ## Tokens -/

/-- A byte that a number is made of. -/
def isNumberByte (c : UInt8) : Bool :=
  Decimal.isDigit c || c == 0x2D || c == 0x2B || c == 0x2E || c == 0x65 || c == 0x45

/-- Bytes that a number may consist of. -/
def Numeric (n : List UInt8) : Prop := n ≠ [] ∧ ∀ c ∈ n, isNumberByte c = true

/-- A byte that is a token of its own, or whitespace. -/
def isPunct (c : UInt8) : Bool :=
  isWs c || c == 0x2C || c == 0x3A || c == 0x5B || c == 0x5D || c == 0x7B || c == 0x7D

/-- No number goes on. -/
def Ends (s : List UInt8) : Prop := ∀ c, s.head? = some c → isNumberByte c = false

/-- Tokens of the grammar, in any order, with any whitespace in between. -/
inductive Lexical : List UInt8 → Prop
  | nil : Lexical []
  | punct (c : UInt8) (s : List UInt8) : isPunct c = true → Lexical s → Lexical (c :: s)
  | str (b s : List UInt8) : StrBody b → Lexical s → Lexical (quoted b ++ s)
  | num (n s : List UInt8) : Number n → Ends s → Lexical s → Lexical (n ++ s)
  | tru (s : List UInt8) : Lexical s → Lexical (trueText ++ s)
  | fls (s : List UInt8) : Lexical s → Lexical (falseText ++ s)
  | null (s : List UInt8) : Lexical s → Lexical (nullText ++ s)

theorem isNumberByte_of_digit (h : Decimal.isDigit c = true) : isNumberByte c = true := by
  simp [isNumberByte, h]

theorem of_not_numberByte (h : isNumberByte c = false) :
    Decimal.isDigit c = false ∧ (c ≠ 0x2D ∧ c ≠ 0x2B) ∧ c ≠ 0x2E ∧ c ≠ 0x65 ∧ c ≠ 0x45 := by
  simp only [isNumberByte, Bool.or_eq_false_iff, beq_eq_false_iff_ne] at h
  obtain ⟨⟨⟨⟨⟨hd, h1⟩, h2⟩, h3⟩, h4⟩, h5⟩ := h
  exact ⟨hd, ⟨h1, h2⟩, h3, h4, h5⟩

theorem not_numberByte_of_punct (h : isPunct c = true) : isNumberByte c = false := by
  simp only [isPunct, isWs, Bool.or_eq_true, beq_iff_eq] at h
  obtain ((((((((rfl | rfl) | rfl) | rfl) | rfl) | rfl) | rfl) | rfl) | rfl) | rfl := h
  all_goals decide

theorem isPunct_of_ws (h : isWs c = true) : isPunct c = true := by
  simp [isPunct, h]

theorem Ends.punct (h : isPunct c = true) : Ends (c :: s) := fun d hd => by
  cases hd
  exact not_numberByte_of_punct h

theorem Ends.ws (hw : Ws w) (hs : Ends s) : Ends (w ++ s) := by
  cases w with
  | nil => exact hs
  | cons c w => exact .punct (isPunct_of_ws (hw c (.head _)))

theorem Number.numeric (h : Number n) : Numeric n := by
  have hdigits : ∀ ds, Digits ds → ∀ c ∈ ds, isNumberByte c = true :=
    fun ds hds c hc => isNumberByte_of_digit (hds c hc)
  obtain ⟨m, i, f, e, hm, hi, hf, he, rfl⟩ := h
  obtain ⟨d, ds, rfl, hd, hds⟩ := hi.head
  refine ⟨by simp, fun c hc => ?_⟩
  simp only [List.mem_append, List.mem_cons] at hc
  obtain hc | (rfl | hc) | hc | hc := hc
  · obtain rfl | rfl := hm
    · cases hc
    · rw [List.mem_singleton.1 hc]
      decide
  · exact isNumberByte_of_digit hd
  · exact hdigits ds hds c hc
  · cases hf with
    | none => cases hc
    | some _ hds =>
      obtain rfl | hc := List.mem_cons.1 hc
      · decide
      · exact hdigits _ hds c hc
  · cases he with
    | none => cases hc
    | some he hsign _ hds =>
      obtain rfl | hc := List.mem_cons.1 hc
      · obtain rfl | rfl := he
        · decide
        · decide
      obtain hc | hc := List.mem_append.1 hc
      · obtain rfl | rfl | rfl := hsign
        · cases hc
        · rw [List.mem_singleton.1 hc]
          decide
        · rw [List.mem_singleton.1 hc]
          decide
      · exact hdigits _ hds c hc

/-! ### How outlines begin and end -/

theorem not_ws_of_numberByte (h : isNumberByte c = true) : isWs c = false ∧ c ≠ 0x5D := by
  refine ⟨Bool.eq_false_iff.2 fun hw => ?_, ?_⟩
  · rw [not_numberByte_of_punct (isPunct_of_ws hw)] at h
    cases h
  · rintro rfl
    exact absurd h (by decide)

/-- An outline begins with a byte that is neither whitespace nor a closing bracket. -/
theorem Outline.head (hN : ∀ n, N n → Numeric n) (h : Outline N v) :
    ∃ c s, v = c :: s ∧ isWs c = false ∧ c ≠ 0x5D := by
  cases h with
  | num hn =>
    obtain ⟨hne, hbytes⟩ := hN _ hn
    obtain ⟨c, s, rfl⟩ := List.exists_cons_of_ne_nil hne
    exact ⟨c, s, rfl, not_ws_of_numberByte (hbytes c (.head _))⟩
  | str | tru | fls | null | arr | obj => exact ⟨_, _, rfl, by decide, by decide⟩

/-- It ends with a byte that is no whitespace. -/
theorem Outline.last (hN : ∀ n, N n → Numeric n) (h : Outline N v) :
    ∃ s c, v = s ++ [c] ∧ isWs c = false := by
  cases h with
  | num hn =>
    obtain ⟨hne, hbytes⟩ := hN _ hn
    exact ⟨_, _, (List.dropLast_append_getLast hne).symm,
      (not_ws_of_numberByte (hbytes _ (List.getLast_mem hne))).1⟩
  | @str b _ => exact ⟨0x22 :: b, 0x22, rfl, by decide⟩
  | tru => exact ⟨[_, _, _], _, rfl, by decide⟩
  | fls => exact ⟨[_, _, _, _], _, rfl, by decide⟩
  | null => exact ⟨[_, _, _], _, rfl, by decide⟩
  | @arr pad es _ _ _ =>
    exact ⟨0x5B :: (pad ++ commaSep (es.map Elem.text)), 0x5D, by simp [arrText], by decide⟩
  | @obj pad ms _ _ _ =>
    exact ⟨0x7B :: (pad ++ commaSep (ms.map Member.text)), 0x7D, by simp [objText], by decide⟩

theorem Value.head (h : Value v) : ∃ c s, v = c :: s ∧ isWs c = false ∧ c ≠ 0x5D :=
  (h.outline fun _ hn => hn).head fun _ => Number.numeric

/-! ### The first token -/

theorem Lexical.of_punct (hc : isPunct c = true) (h : Lexical (c :: s)) : Lexical s := by
  generalize hl : c :: s = l at h
  cases h with
  | nil => cases hl
  | punct _ _ _ h => exact (List.cons.inj hl).2 ▸ h
  | str =>
    rw [(List.cons.inj hl).1] at hc
    exact absurd hc (by decide)
  | num n s hn =>
    obtain ⟨d, ds, rfl, -⟩ := hn.head
    have hd := hn.numeric.2 d (.head _)
    rw [← (List.cons.inj hl).1, not_numberByte_of_punct hc] at hd
    cases hd
  | tru | fls | null =>
    rw [(List.cons.inj hl).1] at hc
    exact absurd hc (by decide)

theorem Lexical.of_ws (hw : Ws w) (h : Lexical (w ++ s)) : Lexical s := by
  induction w with
  | nil => exact h
  | cons c w ih =>
    exact ih (fun d hd => hw d (.tail _ hd)) (h.of_punct (isPunct_of_ws (hw c (.head _))))

theorem Lexical.of_str (hb : Enclosed b) (h : Lexical (quoted b ++ s)) : StrBody b ∧ Lexical s := by
  generalize hl : quoted b ++ s = l at h
  cases h with
  | nil => cases hl
  | punct c _ hc =>
    rw [← (List.cons.inj hl).1] at hc
    exact absurd hc (by decide)
  | str b' s' hb' h =>
    simp only [quoted, List.cons_append, List.append_assoc, List.nil_append, List.cons.injEq,
      true_and] at hl
    obtain ⟨rfl, rfl⟩ := hb.unique hb'.enclosed hl
    exact ⟨hb', h⟩
  | num n s hn =>
    obtain ⟨d, ds, rfl, -⟩ := hn.head
    have hd := hn.numeric.2 d (.head _)
    rw [← (List.cons.inj hl).1] at hd
    exact absurd hd (by decide)
  | tru | fls | null => exact absurd (List.cons.inj hl).1 (by decide)

/-- The longest run of number bytes is one number. -/
theorem Lexical.of_num (hn : Numeric n) (hs : Ends s) (h : Lexical (n ++ s)) :
    Number n ∧ Lexical s := by
  obtain ⟨d, ds, rfl⟩ := List.exists_cons_of_ne_nil hn.1
  have hd := hn.2 d (.head _)
  generalize hl : d :: ds ++ s = l at h
  cases h with
  | nil => cases hl
  | punct c _ hc =>
    rw [(List.cons.inj hl).1, not_numberByte_of_punct hc] at hd
    cases hd
  | num m t hm ht h =>
    have hrun {x y : List UInt8} (hx : ∀ c ∈ x, isNumberByte c = true) (hy : Ends y) :
        (x ++ y).takeWhile isNumberByte = x := Cursor.takeWhile_run hx hy
    have hsame : d :: ds = m := by
      rw [← hrun hn.2 hs, hl, hrun hm.numeric.2 ht]
    rw [hsame] at hl ⊢
    exact ⟨hm, List.append_cancel_left hl ▸ h⟩
  | str | tru | fls | null =>
    rw [(List.cons.inj hl).1] at hd
    exact absurd hd (by decide)

theorem Lexical.of_literal {l : List UInt8} (hlit : l = trueText ∨ l = falseText ∨ l = nullText)
    (h : Lexical (l ++ s)) : Lexical s := by
  obtain ⟨c, t, rfl, hp, hn, hq⟩ : ∃ c t, l = c :: t ∧ isPunct c = false ∧ isNumberByte c = false ∧
      c ≠ 0x22 := by
    obtain rfl | rfl | rfl := hlit
    · exact ⟨_, _, rfl, by decide, by decide, by decide⟩
    · exact ⟨_, _, rfl, by decide, by decide, by decide⟩
    · exact ⟨_, _, rfl, by decide, by decide, by decide⟩
  have hsame {u s' : List UInt8} (hu : u = trueText ∨ u = falseText ∨ u = nullText)
      (he : c :: t ++ s = u ++ s') : s = s' := by
    obtain hl | hl | hl := hlit <;> obtain rfl | rfl | rfl := hu
    all_goals
      rw [hl] at he
      first
      | exact List.append_cancel_left he
      | exact absurd (List.cons.inj he).1 (by decide)
  generalize hl : c :: t ++ s = x at h
  cases h with
  | nil => cases hl
  | punct d _ hd =>
    rw [← (List.cons.inj hl).1, hp] at hd
    cases hd
  | str => exact absurd (List.cons.inj hl).1 hq
  | num m _ hm =>
    obtain ⟨d, ds, rfl, -⟩ := hm.head
    have hd := hm.numeric.2 d (.head _)
    rw [← (List.cons.inj hl).1, hn] at hd
    cases hd
  | tru _ h => exact hsame (.inl rfl) hl ▸ h
  | fls _ h => exact hsame (.inr (.inl rfl)) hl ▸ h
  | null _ h => exact hsame (.inr (.inr rfl)) hl ▸ h

/-! ## Values -/

section
variable {α : Type*} {f : α → List UInt8} {Q : α → Prop} {l : List α}

/-- Texts with commas in between, each of which can be read off the front of a text. -/
theorem Lexical.of_commaTail
    (hf : ∀ a ∈ l, ∀ t, Ends t → Lexical (f a ++ t) → Q a ∧ Lexical t) (hr : Ends r)
    (h : Lexical (commaTail (l.map f) ++ r)) : (∀ a ∈ l, Q a) ∧ Lexical r := by
  induction l with
  | nil => exact ⟨List.forall_mem_nil _, h⟩
  | cons a l ih =>
    simp only [List.map_cons, commaTail, List.cons_append, List.append_assoc] at h
    have hends : Ends (commaTail (l.map f) ++ r) := by
      cases l with
      | nil => exact hr
      | cons => exact .punct (by decide)
    obtain ⟨ha, h⟩ := hf a (.head _) _ hends (h.of_punct (by decide))
    obtain ⟨hl, h⟩ := ih (fun b hb => hf b (.tail _ hb)) h
    exact ⟨List.forall_mem_cons.2 ⟨ha, hl⟩, h⟩

theorem Lexical.of_commaSep
    (hf : ∀ a ∈ l, ∀ t, Ends t → Lexical (f a ++ t) → Q a ∧ Lexical t) (hr : Ends r)
    (h : Lexical (commaSep (l.map f) ++ r)) : (∀ a ∈ l, Q a) ∧ Lexical r := by
  cases l with
  | nil => exact ⟨List.forall_mem_nil _, h⟩
  | cons a l =>
    -- with a comma in front it is a tail
    have htail : Lexical (commaTail ((a :: l).map f) ++ r) := .punct _ _ (by decide) h
    exact Lexical.of_commaTail hf hr htail

theorem Lexical.commaTail
    (hf : ∀ a ∈ l, ∀ t, Ends t → Lexical t → Lexical (f a ++ t)) (hr : Ends r) (h : Lexical r) :
    Lexical (Rfc8259.commaTail (l.map f) ++ r) := by
  induction l with
  | nil => exact h
  | cons a l ih =>
    simp only [List.map_cons, Rfc8259.commaTail, List.cons_append, List.append_assoc]
    have hends : Ends (Rfc8259.commaTail (l.map f) ++ r) := by
      cases l with
      | nil => exact hr
      | cons => exact .punct (by decide)
    exact .punct _ _ (by decide) (hf a (.head _) _ hends (ih fun b hb => hf b (.tail _ hb)))

theorem Lexical.commaSep
    (hf : ∀ a ∈ l, ∀ t, Ends t → Lexical t → Lexical (f a ++ t)) (hr : Ends r) (h : Lexical r) :
    Lexical (Rfc8259.commaSep (l.map f) ++ r) := by
  cases l with
  | nil => exact h
  | cons a l => exact (Lexical.commaTail (l := a :: l) hf hr h).of_punct (by decide)

end

theorem Lexical.ws (hw : Ws w) (h : Lexical s) : Lexical (w ++ s) := by
  induction w with
  | nil => exact h
  | cons c w ih =>
    exact .punct _ _ (isPunct_of_ws (hw c (.head _))) (ih fun d hd => hw d (.tail _ hd))

/-- **An outline of tokens of the grammar is a value**, whatever follows it. -/
theorem Outline.value (hN : ∀ n, N n → Numeric n) (hv : Outline N v)
    (hr : Ends r) (h : Lexical (v ++ r)) : Value v ∧ Lexical r := by
  induction hv generalizing r with
  | str hb =>
    obtain ⟨hb, h⟩ := h.of_str hb
    exact ⟨.str hb, h⟩
  | num hn =>
    obtain ⟨hn, h⟩ := h.of_num (hN _ hn) hr
    exact ⟨.num hn, h⟩
  | tru => exact ⟨.tru, h.of_literal (.inl rfl)⟩
  | fls => exact ⟨.fls, h.of_literal (.inr (.inl rfl))⟩
  | null => exact ⟨.null, h.of_literal (.inr (.inr rfl))⟩
  | @arr pad es hp hs _ ih =>
    simp only [arrText, List.cons_append, List.append_assoc, List.nil_append] at h
    have helems := (h.of_punct (by decide)).of_ws hp
    obtain ⟨hes, h⟩ := helems.of_commaSep (Q := fun e => Value e.val) (fun e he t ht h => by
      simp only [Elem.text, List.append_assoc] at h
      obtain ⟨hval, h⟩ := ih e he (.ws (hs e he).2 ht) (h.of_ws (hs e he).1)
      exact ⟨hval, h.of_ws (hs e he).2⟩) (.punct (by decide))
    exact ⟨.arr hp hs hes, h.of_punct (by decide)⟩
  | @obj pad ms hp hs _ ih =>
    simp only [objText, List.cons_append, List.append_assoc, List.nil_append] at h
    have hmembers := (h.of_punct (by decide)).of_ws hp
    obtain ⟨hms, h⟩ := hmembers.of_commaSep (Q := fun m => StrBody m.key ∧ Value m.val)
      (fun m hm t ht h => by
        obtain ⟨⟨hbefore, hafterKey, hbeforeVal, hafter⟩, hkey⟩ := hs m hm
        simp only [Member.text, List.append_assoc, List.cons_append] at h
        obtain ⟨hbody, h⟩ := (h.of_ws hbefore).of_str hkey
        have hcolon := (h.of_ws hafterKey).of_punct (by decide)
        obtain ⟨hval, h⟩ := ih m hm (.ws hafter ht) (hcolon.of_ws hbeforeVal)
        exact ⟨⟨hbody, hval⟩, h.of_ws hafter⟩) (.punct (by decide))
    exact ⟨.obj hp (fun m hm => ⟨(hs m hm).1, (hms m hm).1⟩) (fun m hm => (hms m hm).2),
      h.of_punct (by decide)⟩

/-- A value consists of tokens of the grammar. -/
theorem Value.lexical (hv : Value v) (hr : Ends r) (h : Lexical r) : Lexical (v ++ r) := by
  induction hv generalizing r with
  | str hb => exact .str _ _ hb h
  | num hn => exact .num _ _ hn hr h
  | tru => exact .tru _ h
  | fls => exact .fls _ h
  | null => exact .null _ h
  | @arr pad es hp hs _ ih =>
    simp only [arrText, List.cons_append, List.append_assoc, List.nil_append]
    refine .punct _ _ (by decide) (.ws hp (.commaSep (fun e he t ht h => ?_) (.punct (by decide))
      (.punct _ _ (by decide) h)))
    simp only [Elem.text, List.append_assoc]
    exact .ws (hs e he).1 (ih e he (.ws (hs e he).2 ht) (.ws (hs e he).2 h))
  | @obj pad ms hp hs _ ih =>
    simp only [objText, List.cons_append, List.append_assoc, List.nil_append]
    refine .punct _ _ (by decide) (.ws hp (.commaSep (fun m hm t ht h => ?_) (.punct (by decide))
      (.punct _ _ (by decide) h)))
    obtain ⟨⟨hbefore, hafterKey, hbeforeVal, hafter⟩, hkey⟩ := hs m hm
    simp only [Member.text, List.append_assoc, List.cons_append]
    exact .ws hbefore (.str _ _ hkey (.ws hafterKey (.punct _ _ (by decide) (.ws hbeforeVal
      (ih m hm (.ws hafter ht) (.ws hafter h))))))

theorem Outline.value_iff (hN : ∀ n, N n → Numeric n)
    (hv : Outline N v) : Value v ↔ Lexical v := by
  constructor
  · intro h
    have := h.lexical (r := []) nofun .nil
    rwa [List.append_nil] at this
  · intro h
    exact (hv.value (r := []) hN nofun (by rwa [List.append_nil])).1

end Rfc8259
