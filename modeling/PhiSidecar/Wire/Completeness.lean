import PhiSidecar.Wire.MembersProof

/-!
# The object parser accepts every object, and the last member of a key wins

`parseObjectMembers_complete`: an object text of any layout, with any values, is accepted if no
top-level key has an unpaired surrogate escape, and `MemberMap.value` then gives for each key the
text of the last value with that key, however the key is written.

* `value_insertOrAssign`: what an assignment changes.
* `value_insertAll_last`, `value_insertAll_none`: what a sequence of assignments leaves.
-/

set_option autoImplicit false

namespace Phi.Wire

open Rfc8259 (Ws Member Value Denotes Paired)

/-! ## Assignments -/

theorem lookup_insertEntry (k v k' : Bytes) (es : List (Bytes × Bytes)) :
    (MemberMap.insertEntry k v es).lookup k' = if k' = k then some v else es.lookup k' := by
  induction es with
  | nil =>
    rw [MemberMap.insertEntry, List.lookup_cons]
    by_cases hk : k' = k
    · rw [if_pos hk, show (k' == k) = true by simpa using hk]
    · rw [if_neg hk, show (k' == k) = false by simpa using hk]
  | cons e es ih =>
    rw [MemberMap.insertEntry]
    by_cases he : e.1 = k
    · rw [if_pos he, List.lookup_cons, List.lookup_cons, he]
      by_cases hk : k' = k
      · rw [if_pos hk, show (k' == k) = true by simpa using hk]
      · rw [if_neg hk, show (k' == k) = false by simpa using hk]
    · rw [if_neg he, List.lookup_cons, List.lookup_cons, ih]
      by_cases hk : k' = e.1
      · have hne : k' ≠ k := hk ▸ he
        simp only [if_neg hne]
      · rw [show (k' == e.1) = false by simpa using hk]

/-- An assignment changes the value of its key only. -/
theorem value_insertOrAssign (m : MemberMap) (k v k' : Bytes) :
    (m.insertOrAssign k v).value k' = if k' = k then v else m.value k' := by
  rw [MemberMap.value, MemberMap.insertOrAssign, lookup_insertEntry]
  by_cases hk : k' = k
  · rw [if_pos hk, if_pos hk, Option.getD_some]
  · rw [if_neg hk, if_neg hk, MemberMap.value]

theorem value_insertAll_none {kms : List Keyed} {k : Bytes} (out : MemberMap)
    (h : ∀ p ∈ kms, p.1 ≠ k) : (insertAll out kms).value k = out.value k := by
  induction kms generalizing out with
  | nil => rfl
  | cons p kms ih =>
    rw [insertAll, List.foldl_cons]
    refine (ih _ fun q hq => h q (.tail _ hq)).trans ?_
    rw [value_insertOrAssign, if_neg (h p (.head _)).symm]

theorem value_insertAll_last {kms : List Keyed} {p : Keyed} (before : List Keyed)
    (out : MemberMap) (h : ∀ q ∈ kms, q.1 ≠ p.1) :
    (insertAll out (before ++ p :: kms)).value p.1 = p.2.val := by
  rw [insertAll, List.foldl_append, List.foldl_cons]
  refine (value_insertAll_none _ h).trans ?_
  rw [value_insertOrAssign, if_pos rfl]

/-! ## Keys -/

/-- A string body denotes one text. -/
theorem denotes_unique {b t t' : Bytes} (h : Denotes b t) (h' : Denotes b t') : t = t' := by
  have e := (decodeChars_denotes h).symm.trans (decodeChars_denotes h')
  exact Except.ok.inj e

/-- The members of an object, each with the key it denotes. -/
theorem exists_keyed {ms : List Member}
    (h : ∀ m ∈ ms, m.Spaced ∧ Paired m.key ∧ Value m.val) :
    ∃ kms : List Keyed, kms.map Prod.snd = ms ∧ ∀ p ∈ kms, GoodMember p := by
  induction ms with
  | nil => exact ⟨[], rfl, fun _ hp => by cases hp⟩
  | cons m ms ih =>
    obtain ⟨kms, hkms, hg⟩ := ih fun n hn => h n (.tail _ hn)
    obtain ⟨hs, hk, hv⟩ := h m (.head _)
    obtain ⟨t, ht⟩ := hk.denotes
    refine ⟨(t, m) :: kms, by rw [List.map_cons, hkms], fun p hp => ?_⟩
    obtain rfl | hp := List.mem_cons.1 hp
    · exact ⟨hv, hs, ht⟩
    · exact hg p hp

/-! ## Completeness -/

/-- `m` is the last of the members whose key denotes `k`. -/
def IsLast (ms : List Member) (k : Bytes) (m : Member) : Prop :=
  ∃ before after, ms = before ++ m :: after ∧ Denotes m.key k ∧ ∀ n ∈ after, ¬ Denotes n.key k

/-- **The object parser accepts every object text**, and gives for every key the text of the last
value with that key, or nothing if no member has it. -/
theorem parseObjectMembers_complete {w w' pad : Bytes} {ms : List Member} (hw : Ws w)
    (hw' : Ws w') (hp : Ws pad) (hm : ∀ m ∈ ms, m.Spaced ∧ Paired m.key ∧ Value m.val) :
    ∃ out, parseObjectMembers (w ++ (Rfc8259.objText pad ms ++ w')) = .ok out ∧
      ∀ k, (∀ m, IsLast ms k m → out.value k = m.val) ∧
        ((∀ m ∈ ms, ¬ Denotes m.key k) → out.value k = []) := by
  obtain ⟨kms, rfl, hg⟩ := exists_keyed hm
  refine ⟨_, parseObjectMembers_objText hw hw' hp hg, fun k => ⟨?_, fun hk => ?_⟩⟩
  · rintro m ⟨before, after, hsplit, hkey, hafter⟩
    obtain ⟨kb, ka, rfl, rfl, hka⟩ := List.map_eq_append_iff.1 hsplit
    obtain ⟨p, kms, rfl, rfl, rfl⟩ := List.map_eq_cons_iff.1 hka
    have hpk : p.1 = k := denotes_unique (hg p (by simp)).key hkey
    subst hpk
    refine value_insertAll_last kb {} fun q hq he => ?_
    refine hafter q.2 (List.mem_map.2 ⟨q, hq, rfl⟩) ?_
    rw [← he]
    exact (hg q (by simp [hq])).key
  · refine value_insertAll_none {} fun p hpm he => hk p.2 (List.mem_map.2 ⟨p, hpm, rfl⟩) ?_
    rw [← he]
    exact (hg p hpm).key

/-- The key `a` twice, the second time as an escape, with structural characters in a string. -/
theorem parseObjectMembers_complete_escaped :
    let ms : List Member :=
      [{ key := lit "a", val := lit "1" },
        { before := [0x20], key := lit "\\u0061", beforeVal := [0x0A], val := lit "\"]\x7d,\"" }]
    ∃ out, parseObjectMembers ([] ++ (Rfc8259.objText [] ms ++ [0x20])) = .ok out ∧
      ∀ k, (∀ m, IsLast ms k m → out.value k = m.val) ∧
        ((∀ m ∈ ms, ¬ Denotes m.key k) → out.value k = []) := by
  intro ms
  have hdigit : Rfc8259.Number (lit "1") :=
    ⟨[], [0x31], [], [], .inl rfl, .pos (by decide) (by decide) (fun _ h => by cases h), .none,
      .none, rfl⟩
  have hbody : Rfc8259.StrBody (lit "]\x7d,") :=
    .plain (by decide) (.plain (by decide) (.plain (by decide) .nil))
  refine parseObjectMembers_complete .nil (by simp [Ws]; decide) .nil fun m hm => ?_
  simp only [ms, List.mem_cons, List.not_mem_nil, or_false] at hm
  obtain rfl | rfl := hm
  · exact ⟨⟨.nil, .nil, .nil, .nil⟩, .plain (by decide) .nil, .num hdigit⟩
  · refine ⟨⟨by simp [Ws]; decide, .nil, by simp [Ws]; decide, .nil⟩, ?_, .str hbody⟩
    exact .unicode (u := 0x61) (by decide) (.inl (by decide)) .nil

end Phi.Wire
