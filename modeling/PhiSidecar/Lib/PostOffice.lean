import Mathlib.Data.List.Nodup
import PhiSidecar.Lib.Machine

/-!
# Mail to addresses whose boxes come and go

A `PostOffice` has boxes, numbered in the order in which they were set up, each for one address; at
any time an address has at most one open box. A letter goes to the open box of its address, or back;
a circular goes to every open box. Every piece of mail is entered in the log with where it went.

* `run_sorted`: **in every run a letter is only ever in a box of its own address, and a box gets all
  of the mail for its address between the first and the last piece that it gets**.
-/

set_option autoImplicit false

universe u v

/-- A piece of mail, with where it went. -/
inductive PostOffice.Entry (κ : Type u) (μ : Type v)
  | letter (address : κ) (mail : μ) (box : Option Nat)
  | circular (mail : μ) (boxes : List Nat)

structure PostOffice (κ : Type u) (μ : Type v) where
  /-- The address of each box. -/
  owners : List κ := []
  /-- The open boxes. -/
  current : List (κ × Nat) := []
  log : List (PostOffice.Entry κ μ) := []

namespace PostOffice

variable {κ : Type u} {μ : Type v}

namespace Entry

/-- What the entry puts into a box. -/
def mailIn (n : Nat) : Entry κ μ → Option μ
  | letter _ mail box => if box = some n then some mail else none
  | circular mail boxes => if n ∈ boxes then some mail else none

/-- The letter, with its address. -/
def letter? : Entry κ μ → Option (κ × μ)
  | letter address mail _ => some (address, mail)
  | circular _ _ => none

/-- The mail is for an address. -/
def IsFor (k : κ) : Entry κ μ → Prop
  | letter address _ _ => address = k
  | circular _ _ => True

/-- The mail went to a box. -/
def Reaches (n : Nat) : Entry κ μ → Prop
  | letter _ _ box => box = some n
  | circular _ boxes => n ∈ boxes

end Entry

/-- What is in a box. -/
def contents (log : List (Entry κ μ)) (n : Nat) : List μ := log.filterMap (·.mailIn n)

/-- The letters, in the order in which they were posted. -/
def letters (log : List (Entry κ μ)) : List (κ × μ) := log.filterMap (·.letter?)

inductive Act (κ : Type u) (μ : Type v)
  /-- A new box, and open. -/
  | openBox (address : κ)
  /-- A new box that is never opened. -/
  | discard (address : κ)
  | closeBox (address : κ)
  | post (address : κ) (mail : μ)
  | circulate (mail : μ)

section
variable [BEq κ]

/-- The open box of an address. -/
def box (s : PostOffice κ μ) (address : κ) : Option Nat := s.current.lookup address

def step (s : PostOffice κ μ) : Act κ μ → Option (PostOffice κ μ)
  | .openBox address =>
    if (s.box address).isSome then none
    else
      some { s with owners := s.owners ++ [address]
                    current := s.current ++ [(address, s.owners.length)] }
  | .discard address => some { s with owners := s.owners ++ [address] }
  | .closeBox address => some { s with current := s.current.filter (·.1 != address) }
  | .post address mail => some { s with log := s.log ++ [.letter address mail (s.box address)] }
  | .circulate mail => some { s with log := s.log ++ [.circular mail (s.current.map Prod.snd)] }

def machine (κ : Type u) (μ : Type v) [BEq κ] : Lts.Machine (PostOffice κ μ) (Act κ μ) :=
  ⟨step⟩

end

theorem contents_snoc (log : List (Entry κ μ)) (e : Entry κ μ) (n : Nat) :
    contents (log ++ [e]) n = contents log n ++ (e.mailIn n).toList := by
  rw [contents, List.filterMap_append]
  cases h : e.mailIn n <;> simp [contents, h]

/-- A box gets what reaches it. -/
theorem mailIn_isSome {e : Entry κ μ} {n : Nat} : (e.mailIn n).isSome ↔ e.Reaches n := by
  cases e with
  | letter k m box => simp [Entry.mailIn, Entry.Reaches]
  | circular m boxes => simp [Entry.mailIn, Entry.Reaches]

theorem contents_fresh {log : List (Entry κ μ)} {n : Nat} (h : ∀ e ∈ log, ¬ e.Reaches n) :
    contents log n = [] := by
  rw [contents, List.filterMap_eq_nil_iff]
  intro e he
  rw [← Option.not_isSome_iff_eq_none, mailIn_isSome]
  exact h e he

/-! ## The invariant -/

/-- Once a box has got something, it gets everything for its address, up to the end of the log. -/
def Open (k : κ) (n : Nat) (log : List (Entry κ μ)) : Prop :=
  ∀ before e after, log = before ++ e :: after → e.Reaches n → ∀ x ∈ after, x.IsFor k → x.Reaches n

/-- Between two pieces of mail a box gets everything for its address. -/
def Uninterrupted (k : κ) (n : Nat) (log : List (Entry κ μ)) : Prop :=
  ∀ before e between e' after, log = before ++ e :: (between ++ e' :: after) → e.Reaches n →
    e'.Reaches n → ∀ x ∈ between, x.IsFor k → x.Reaches n

structure Sorted (s : PostOffice κ μ) : Prop where
  owner : ∀ p ∈ s.current, s.owners[p.2]? = some p.1
  addresses : (s.current.map Prod.fst).Nodup
  /-- The mail is in a box that was set up. -/
  letter : ∀ e ∈ s.log, ∀ n, e.Reaches n → ∃ k, s.owners[n]? = some k ∧ e.IsFor k
  opened : ∀ p ∈ s.current, Open p.1 p.2 s.log
  uninterrupted : ∀ n k, s.owners[n]? = some k → Uninterrupted k n s.log

variable {k : κ} {n : Nat} {log : List (Entry κ μ)} {e : Entry κ μ}

theorem Open.uninterrupted (h : Open k n log) : Uninterrupted k n log :=
  fun before e _ _ _ hlog he _ x hx hfor =>
    h before e _ hlog he x (List.mem_append_left _ hx) hfor

/-- The last entry of a longer log. -/
theorem split_snoc {α : Type u} {l before after : List α} {x y : α} (h : l ++ [x] = before ++ y :: after) :
    (before = l ∧ y = x ∧ after = []) ∨ ∃ rest, after = rest ++ [x] ∧ l = before ++ y :: rest := by
  rcases List.eq_nil_or_concat after with rfl | ⟨rest, z, rfl⟩
  · obtain ⟨hfront, hlast⟩ := List.append_inj' h rfl
    exact .inl ⟨hfront.symm, (List.singleton_inj.1 hlast).symm, rfl⟩
  · have hsplit : l ++ [x] = (before ++ y :: rest) ++ [z] := by
      rw [h]
      simp
    obtain ⟨hfront, hlast⟩ := List.append_inj' hsplit rfl
    obtain rfl := List.singleton_inj.1 hlast
    exact .inr ⟨rest, by simp, hfront⟩

/-- An open box gets the next piece of mail, if it is for its address. -/
theorem Open.snoc (h : Open k n log) (he : e.IsFor k → e.Reaches n) : Open k n (log ++ [e]) := by
  intro before x after hlog hx y hy hfor
  obtain ⟨-, -, rfl⟩ | ⟨rest, rfl, hrest⟩ := split_snoc hlog
  · cases hy
  · obtain hy | hy := List.mem_append.1 hy
    · exact h before x rest hrest hx y hy hfor
    · obtain rfl := List.mem_singleton.1 hy
      exact he hfor

/-- Any other box gets nothing more. -/
theorem Uninterrupted.snoc (h : Uninterrupted k n log) (he : ¬ e.Reaches n) :
    Uninterrupted k n (log ++ [e]) := by
  intro before x between y after hlog hx hy z hz hfor
  have hlast : log ++ [e] = (before ++ x :: between) ++ y :: after := by
    rw [hlog]
    simp
  obtain ⟨-, rfl, -⟩ | ⟨rest, -, hrest⟩ := split_snoc hlast
  · exact absurd hy he
  · refine h before x between y rest ?_ hx hy z hz hfor
    rw [hrest]
    simp

/-- Mail that has not been entered is in no box. -/
theorem open_fresh (h : ∀ e ∈ log, ¬ e.Reaches n) : Open k n log :=
  fun before e after hlog he => absurd he (h e (by rw [hlog]; simp))

theorem Sorted.init : Sorted ({} : PostOffice κ μ) where
  owner := by simp
  addresses := List.nodup_nil
  letter := by simp
  opened := by simp
  uninterrupted := by simp

variable {s t : PostOffice κ μ}

/-- The next box has got nothing yet. -/
theorem Sorted.fresh (hs : s.Sorted) : ∀ e ∈ s.log, ¬ e.Reaches s.owners.length := by
  intro e he hreach
  obtain ⟨k, hk, -⟩ := hs.letter e he _ hreach
  exact absurd (List.getElem?_eq_some_iff.1 hk).1 (Nat.lt_irrefl _)

theorem Sorted.setUp (hs : s.Sorted) (k : κ) : Sorted { s with owners := s.owners ++ [k] } := by
  have howners : ∀ {n : Nat} {k' : κ}, s.owners[n]? = some k' → (s.owners ++ [k])[n]? = some k' :=
    fun h => (List.getElem?_append_left (List.getElem?_eq_some_iff.1 h).1).trans h
  refine ⟨fun p hp => howners (hs.owner p hp), hs.addresses, fun e he n hn => ?_, hs.opened,
    fun n k' hk' => ?_⟩
  · obtain ⟨k', hk', hfor⟩ := hs.letter e he n hn
    exact ⟨k', howners hk', hfor⟩
  · by_cases hn : n < s.owners.length
    · rw [List.getElem?_append_left hn] at hk'
      exact hs.uninterrupted n k' hk'
    · have hlt := (List.getElem?_eq_some_iff.1 hk').1
      rw [List.length_append, List.length_singleton] at hlt
      obtain rfl : n = s.owners.length := by omega
      exact (open_fresh hs.fresh).uninterrupted

/-- Another piece of mail, which goes to open boxes: to all that it is for, and to no other. -/
theorem Sorted.enter (hs : s.Sorted) (e : Entry κ μ)
    (hreach : ∀ n, e.Reaches n → ∃ p ∈ s.current, p.2 = n ∧ e.IsFor p.1)
    (hall : ∀ p ∈ s.current, e.IsFor p.1 → e.Reaches p.2) :
    Sorted { s with log := s.log ++ [e] } := by
  refine ⟨hs.owner, hs.addresses, fun x hx n hn => ?_, fun p hp => (hs.opened p hp).snoc (hall p hp),
    fun n k hk => ?_⟩
  · obtain hx | hx := List.mem_append.1 hx
    · exact hs.letter x hx n hn
    · obtain rfl := List.mem_singleton.1 hx
      obtain ⟨p, hp, rfl, hfor⟩ := hreach n hn
      exact ⟨p.1, hs.owner p hp, hfor⟩
  · by_cases hn : e.Reaches n
    · obtain ⟨p, hp, rfl, -⟩ := hreach n hn
      obtain rfl := Option.some.inj ((hs.owner p hp).symm.trans hk)
      exact ((hs.opened p hp).snoc (hall p hp)).uninterrupted
    · exact (hs.uninterrupted n k hk).snoc hn

variable [BEq κ] [LawfulBEq κ]

/-- The box that is found for an address is its own. -/
theorem mem_of_box {k : κ} {n : Nat} (h : s.box k = some n) : (k, n) ∈ s.current := by
  obtain ⟨l, r, hr, -⟩ := List.lookup_eq_some_iff.1 h
  rw [hr]
  simp

theorem Sorted.box_eq (hs : s.Sorted) {p : κ × Nat} (hp : p ∈ s.current) : s.box p.1 = some p.2 := by
  cases hb : s.box p.1 with
  | none => exact absurd (List.lookup_eq_none_iff.1 hb p hp) (by simp)
  | some n =>
    have he := List.inj_on_of_nodup_map hs.addresses hp (mem_of_box hb) rfl
    rw [he]

/-- **One step keeps the mail sorted.** -/
theorem Sorted.step {a : Act κ μ} (hs : s.Sorted) (h : s.step a = some t) : t.Sorted := by
  cases a with
  | openBox k =>
    simp only [PostOffice.step] at h
    split_ifs at h with hopen
    cases h
    have hnone : s.box k = none := by simpa using hopen
    have hset := hs.setUp k
    refine ⟨List.forall_mem_append.2 ⟨hset.owner, by simp⟩, ?_, hset.letter,
      List.forall_mem_append.2 ⟨hs.opened, by simpa using open_fresh hs.fresh⟩, hset.uninterrupted⟩
    rw [List.map_append, List.nodup_append]
    refine ⟨hs.addresses, List.nodup_singleton _, fun k' hk' k'' hk'' he => ?_⟩
    obtain ⟨p, hp, rfl⟩ := List.mem_map.1 hk'
    have hne := List.lookup_eq_none_iff.1 hnone p hp
    simp_all
  | discard k =>
    cases h
    exact hs.setUp k
  | closeBox k =>
    cases h
    have hsub : (s.current.filter (·.1 != k)).Sublist s.current := List.filter_sublist
    exact ⟨fun p hp => hs.owner p (hsub.subset hp), hs.addresses.sublist (hsub.map _), hs.letter,
      fun p hp => hs.opened p (hsub.subset hp), hs.uninterrupted⟩
  | post k m =>
    cases h
    refine hs.enter _ (fun n hn => ⟨(k, n), mem_of_box hn, rfl, rfl⟩) fun p hp hfor => ?_
    obtain rfl : k = p.1 := hfor
    exact hs.box_eq hp
  | circulate m =>
    cases h
    refine hs.enter _ (fun n hn => ?_) fun p hp _ => List.mem_map.2 ⟨p, hp, rfl⟩
    obtain ⟨p, hp, rfl⟩ := List.mem_map.1 hn
    exact ⟨p, hp, rfl, trivial⟩

/-- **The mail is sorted in every run.** -/
theorem run_sorted {as : List (Act κ μ)} (h : (machine κ μ).run {} as = some s) : s.Sorted :=
  Lts.Machine.run_inv (I := Sorted) (fun _ _ _ hs h => hs.step h) .init h

end PostOffice
