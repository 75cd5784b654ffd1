import Mathlib.Data.List.Basic

/-!
# Splitting a stream into items

A `Splitter` looks at the front of a stream: an item and its length, a violation, or too little to
tell. What it has said once does not change when more of the stream arrives (`mono`). `parse` is the
reference parser: items from the front until the first violation or the end of what is there.
`feed` is the incremental parser, which keeps only the unconsumed rest between chunks.

* `parse_append`: **what is parsed of a prefix stays, and parsing goes on with the rest**.
* `parse_items_append_iff`: a prefix has all the items if it reaches to the end of the last one.
* `feed_eq_parse`: **feeding chunks parses their concatenation**, however it is cut.
-/

set_option autoImplicit false

namespace Stream

universe u v

/-- What the front of a stream holds. -/
inductive Next (β : Type v)
  | more
  | bad
  | item (b : β) (n : Nat)

/-- How to split a stream into items. -/
structure Splitter (α : Type u) (β : Type v) where
  next : List α → Next β
  pos : ∀ {s b n}, next s = .item b n → 0 < n ∧ n ≤ s.length
  mono : ∀ {s} (t), next s ≠ .more → next (s ++ t) = next s

/-- The items of a stream, whether they end in a violation, and what is left. -/
structure Parse (α : Type u) (β : Type v) where
  items : List β
  bad : Bool
  rest : List α

variable {α : Type u} {β : Type v} (D : Splitter α β)

namespace Splitter

/-- The reference parser. -/
def parse (s : List α) : Parse α β :=
  match _h : D.next s with
  | .more => ⟨[], false, s⟩
  | .bad => ⟨[], true, s⟩
  | .item b n =>
    let p := parse (s.drop n)
    ⟨b :: p.items, p.bad, p.rest⟩
termination_by s.length
decreasing_by
  have := D.pos _h
  rw [List.length_drop]
  omega

variable {D} {s : List α}

theorem parse_more (h : D.next s = .more) : D.parse s = ⟨[], false, s⟩ := by
  rw [parse.eq_def]
  split <;> simp_all

theorem parse_bad (h : D.next s = .bad) : D.parse s = ⟨[], true, s⟩ := by
  rw [parse.eq_def]
  split <;> simp_all

theorem parse_item {b : β} {n : Nat} (h : D.next s = .item b n) :
    D.parse s = ⟨b :: (D.parse (s.drop n)).items, (D.parse (s.drop n)).bad,
      (D.parse (s.drop n)).rest⟩ := by
  rw [parse.eq_def]
  split
  · next h' => rw [h] at h'; cases h'
  · next h' => rw [h] at h'; cases h'
  · next h' => rw [h] at h'; cases h'; rfl

/-- Induction along the reference parser. -/
theorem parse_induction {motive : List α → Prop} (more : ∀ s, D.next s = .more → motive s)
    (bad : ∀ s, D.next s = .bad → motive s)
    (item : ∀ s b n, D.next s = .item b n → motive (s.drop n) → motive s) (s : List α) :
    motive s := by
  fun_induction D.parse s with
  | case1 s h => exact more s h
  | case2 s h => exact bad s h
  | case3 s b n h _ ih => exact item s b n h ih

/-- Parsing stopped in front of a violation, or for want of more. -/
theorem parse_stop (s : List α) :
    D.next (D.parse s).rest = if (D.parse s).bad then .bad else .more := by
  induction s using parse_induction (D := D) with
  | more s h => simp only [parse_more h, h, Bool.false_eq_true, if_false]
  | bad s h => simp only [parse_bad h, h, if_true]
  | item s b n h ih => rw [parse_item h, ih]

/-- **What is parsed of a prefix stays, and parsing goes on with the rest.** -/
theorem parse_append (s t : List α) :
    D.parse (s ++ t) =
      ⟨(D.parse s).items ++ (D.parse ((D.parse s).rest ++ t)).items,
        (D.parse ((D.parse s).rest ++ t)).bad, (D.parse ((D.parse s).rest ++ t)).rest⟩ := by
  induction s using parse_induction (D := D) with
  | more s h => rw [parse_more h]; rfl
  | bad s h => rw [parse_bad h]; rfl
  | item s b n h ih =>
    have hn := (D.pos h).2
    have h' : D.next (s ++ t) = .item b n := by rw [D.mono t (by rw [h]; simp), h]
    rw [parse_item h', parse_item h, List.drop_append_of_le_length hn, ih]
    rfl

/-- After a violation nothing more is parsed. -/
theorem parse_append_bad {s : List α} (h : (D.parse s).bad = true) (t : List α) :
    (D.parse (s ++ t)).items = (D.parse s).items ∧ (D.parse (s ++ t)).bad = true := by
  have hb := parse_stop (D := D) s
  rw [h, if_pos rfl] at hb
  have hb' : D.next ((D.parse s).rest ++ t) = .bad := by rw [D.mono t (by rw [hb]; simp), hb]
  rw [parse_append, parse_bad hb']
  exact ⟨List.append_nil _, rfl⟩

/-- What has arrived of a stream without a violation is parsed as the first of its items. -/
theorem parse_isPrefix {s t : List α} (h : s <+: t) (ht : (D.parse t).bad = false) :
    (D.parse s).bad = false ∧ (D.parse s).items <+: (D.parse t).items := by
  obtain ⟨later, rfl⟩ := h
  refine ⟨?_, ?_⟩
  · by_contra hbad
    have hb := (parse_append_bad (by simpa using hbad) later).2
    rw [ht] at hb
    cases hb
  · rw [parse_append]
    exact List.prefix_append _ _

theorem parse_rest_le (s : List α) : (D.parse s).rest.length ≤ s.length := by
  induction s using parse_induction (D := D) with
  | more s h => exact Nat.le_of_eq (congrArg (·.rest.length) (parse_more h))
  | bad s h => exact Nat.le_of_eq (congrArg (·.rest.length) (parse_bad h))
  | item s b n h ih =>
    rw [parse_item h]
    rw [List.length_drop] at ih
    exact Nat.le_trans ih (Nat.sub_le _ _)

/-- **When a prefix has all the items**: where an item can be told as soon as its last element is there,
the prefix must reach to the end of the last item. -/
theorem parse_items_append_iff
    (hlocal : ∀ {r t b n}, D.next (r ++ t) = .item b n → n ≤ r.length → D.next r ≠ .more) {s : List α}
    (hs : (D.parse s).bad = false) (t : List α) :
    (D.parse (s ++ t)).items = (D.parse s).items ↔
      (s ++ t).length - (D.parse (s ++ t)).rest.length ≤ s.length := by
  have hstop := parse_stop (D := D) s
  have hle := parse_rest_le (D := D) s
  rw [hs, if_neg nofun] at hstop
  rw [parse_append, List.length_append]
  generalize (D.parse s).rest = r at hstop hle
  cases hnext : D.next (r ++ t) with
  | more =>
    rw [parse_more hnext, List.length_append]
    exact iff_of_true (List.append_nil _) (by omega)
  | bad =>
    rw [parse_bad hnext, List.length_append]
    exact iff_of_true (List.append_nil _) (by omega)
  | item b n =>
    have hlong : r.length < n := by
      by_contra hshort
      exact hlocal hnext (Nat.le_of_not_lt hshort) hstop
    have hrest := parse_rest_le (D := D) ((r ++ t).drop n)
    have hn := (D.pos hnext).2
    rw [List.length_drop, List.length_append] at hrest
    rw [List.length_append] at hn
    rw [parse_item hnext]
    refine iff_of_false (fun h => ?_) (by dsimp only; omega)
    exact absurd (List.append_right_eq_self.1 h) (List.cons_ne_nil _ _)

variable (D)

/-- One chunk: parse the rest kept so far with the chunk after it; nothing after a violation. -/
def feedStep (p : Parse α β) (chunk : List α) : Parse α β :=
  if p.bad then p
  else
    let q := D.parse (p.rest ++ chunk)
    ⟨p.items ++ q.items, q.bad, q.rest⟩

/-- The incremental parser. -/
def feed (chunks : List (List α)) : Parse α β := chunks.foldl D.feedStep ⟨[], false, []⟩

variable {D}

/-- A parse and the state of a feed agree: everything while there is no violation, the items and
the violation afterwards. -/
structure Agree (p q : Parse α β) : Prop where
  items : p.items = q.items
  bad : p.bad = q.bad
  rest : q.bad = false → p.rest = q.rest

theorem Agree.feedStep {p : Parse α β} {s : List α} (h : Agree p (D.parse s)) (chunk : List α) :
    Agree (D.feedStep p chunk) (D.parse (s ++ chunk)) := by
  unfold Splitter.feedStep
  rw [h.bad]
  cases hb : (D.parse s).bad with
  | true =>
    obtain ⟨hi, hb'⟩ := parse_append_bad hb chunk
    rw [if_pos rfl]
    exact ⟨by rw [hi, h.items], by rw [hb', h.bad, hb], fun hf => by rw [hb'] at hf; cases hf⟩
  | false =>
    rw [if_neg (by decide), parse_append s chunk, h.rest hb, h.items]
    exact ⟨rfl, rfl, fun _ => rfl⟩

/-- **Feeding chunks parses their concatenation.** -/
theorem feed_eq_parse (h0 : D.next [] = .more) (chunks : List (List α)) :
    Agree (D.feed chunks) (D.parse chunks.flatten) := by
  have hstart : Agree (⟨[], false, []⟩ : Parse α β) (D.parse []) := by
    rw [parse_more h0]
    exact ⟨rfl, rfl, fun _ => rfl⟩
  suffices h : ∀ (p : Parse α β) s, Agree p (D.parse s) →
      Agree (chunks.foldl D.feedStep p) (D.parse (s ++ chunks.flatten)) from h _ [] hstart
  intro p s hp
  induction chunks generalizing p s with
  | nil => simpa using hp
  | cons c cs ih =>
    rw [List.foldl_cons, List.flatten_cons, ← List.append_assoc]
    exact ih _ _ (hp.feedStep c)

end Splitter

end Stream
