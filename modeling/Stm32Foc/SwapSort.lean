import Mathlib.Data.Prod.Lex
import Mathlib.Logic.Equiv.Basic
import Mathlib.Order.Fin.Basic
import Mathlib.Tactic.Common

/-! # Sorting by adjacent swaps

    Insertion sort in place: the round of an entry swaps it with its left neighbour for
    as long as its key is the smaller.  A swap only rearranges the entries, and what the
    entry has passed is in order, so the rounds sort.  Entries with equal keys are not
    swapped, so they stay in the order they had. -/

namespace SwapSort

universe u v w

variable {α : Type u} {β : Type v} [LinearOrder β] {n : Nat}

/-- Swap the entry at `j` to the left, as long as its key is the smaller. -/
def sink (key : α → β) (entries : Vector α n) : (j : Nat) → j < n → Vector α n
  | 0, _ => entries
  | j + 1, hj =>
      if key (entries.get ⟨j + 1, hj⟩) < key (entries.get ⟨j, Nat.lt_of_succ_lt hj⟩) then
        sink key (entries.swap (j + 1) j hj (Nat.lt_of_succ_lt hj)) j (Nat.lt_of_succ_lt hj)
      else entries

/-- The rounds of the entries from `1` to `i`. -/
def rounds (key : α → β) (entries : Vector α n) : (i : Nat) → i < n → Vector α n
  | 0, _ => entries
  | i + 1, hi => sink key (rounds key entries i (Nat.lt_of_succ_lt hi)) (i + 1) hi

/-! ## Nothing is lost -/

/-- The entries are those of another vector, in some order. -/
def Rearranges (entries original : Vector α n) : Prop :=
  ∃ σ : Equiv.Perm (Fin n), ∀ i, entries.get i = original.get (σ i)

theorem Rearranges.refl (entries : Vector α n) : Rearranges entries entries :=
  ⟨Equiv.refl _, fun _ => rfl⟩

theorem Rearranges.trans {a b c : Vector α n} (h : Rearranges a b) (h' : Rearranges b c) :
    Rearranges a c := by
  obtain ⟨σ, hσ⟩ := h
  obtain ⟨ρ, hρ⟩ := h'
  refine ⟨σ.trans ρ, ?_⟩
  intro i
  rw [hσ, hρ, Equiv.trans_apply]

/-- An entry after a swap. -/
theorem get_swap (entries : Vector α n) {i j : Nat} (hi : i < n) (hj : j < n) (k : Fin n) :
    (entries.swap i j hi hj).get k = entries.get (Equiv.swap ⟨i, hi⟩ ⟨j, hj⟩ k) := by
  rw [Equiv.swap_apply_def]
  show (entries.swap i j hi hj)[k.val] = _
  rw [Vector.getElem_swap]
  by_cases hki : k = ⟨i, hi⟩
  · rw [if_pos hki, if_pos (congrArg Fin.val hki)]
    rfl
  · rw [if_neg hki, if_neg (fun h => hki (Fin.ext h))]
    by_cases hkj : k = ⟨j, hj⟩
    · rw [if_pos hkj, if_pos (congrArg Fin.val hkj)]
      rfl
    · rw [if_neg hkj, if_neg (fun h => hkj (Fin.ext h))]
      rfl

theorem sink_rearranges (key : α → β) :
    ∀ (j : Nat) (hj : j < n) (entries : Vector α n),
      Rearranges (sink key entries j hj) entries := by
  intro j
  induction j with
  | zero => exact fun _ entries => Rearranges.refl entries
  | succ j ih =>
      intro hj entries
      rw [sink]
      split
      · exact (ih _ _).trans ⟨_, get_swap entries hj _⟩
      · exact Rearranges.refl entries

/-- **THE ROUNDS REARRANGE**: sorting loses no entry and adds none. -/
theorem rounds_rearranges (key : α → β) (entries : Vector α n) (i : Nat) (hi : i < n) :
    Rearranges (rounds key entries i hi) entries := by
  induction i with
  | zero => exact Rearranges.refl entries
  | succ i ih => exact (sink_rearranges key _ hi _).trans (ih _)

/-! ## The order -/

/-- The keys up to `last` are in order. -/
def OrderedTo (key : α → β) (entries : Vector α n) (last : Nat) : Prop :=
  ∀ a b : Fin n, a < b → b.val ≤ last → key (entries.get a) ≤ key (entries.get b)

/-- The keys up to `last` are in order, but for the entry at `j`, which is only known to
    come before what is to its right. -/
structure OrderedBut (key : α → β) (entries : Vector α n) (last : Nat) (j : Fin n) :
    Prop where
  others : ∀ a b : Fin n, a < b → b.val ≤ last → a ≠ j → b ≠ j →
    key (entries.get a) ≤ key (entries.get b)
  right : ∀ b : Fin n, j < b → b.val ≤ last → key (entries.get j) ≤ key (entries.get b)

/-- An entry that is no smaller than its left neighbour has found its place. -/
theorem OrderedBut.settled {key : α → β} {entries : Vector α n} {last j : Nat}
    {hj : j + 1 < n} (h : OrderedBut key entries last ⟨j + 1, hj⟩) (hlast : j + 1 ≤ last)
    (hle : key (entries.get ⟨j, Nat.lt_of_succ_lt hj⟩) ≤ key (entries.get ⟨j + 1, hj⟩)) :
    OrderedTo key entries last := by
  intro a b hab hb
  by_cases ha : a = ⟨j + 1, hj⟩
  · rw [ha] at hab ⊢
    exact h.right b hab hb
  by_cases hbj : b = ⟨j + 1, hj⟩
  · rw [hbj] at hab ⊢
    -- everything to the left is at most the left neighbour
    rcases Nat.lt_or_eq_of_le (Nat.le_of_lt_succ hab) with hlt | heq
    · refine le_trans (h.others a ⟨j, Nat.lt_of_succ_lt hj⟩ hlt ?_ ha ?_) hle
      · exact Nat.le_of_succ_le hlast
      · exact fun h => absurd (congrArg Fin.val h) (Nat.ne_of_lt (Nat.lt_succ_self j))
    · rw [show a = ⟨j, Nat.lt_of_succ_lt hj⟩ from Fin.ext heq]
      exact hle
  · exact h.others a b hab hb ha hbj

/-- A swap moves the entry that is out of order one place to the left. -/
theorem OrderedBut.swapped {key : α → β} {entries : Vector α n} {last j : Nat}
    {hj : j + 1 < n} (h : OrderedBut key entries last ⟨j + 1, hj⟩) (hlast : j + 1 ≤ last)
    (hlt : key (entries.get ⟨j + 1, hj⟩) < key (entries.get ⟨j, Nat.lt_of_succ_lt hj⟩)) :
    OrderedBut key (entries.swap (j + 1) j hj (Nat.lt_of_succ_lt hj)) last
      ⟨j, Nat.lt_of_succ_lt hj⟩ := by
  have hne : (⟨j, Nat.lt_of_succ_lt hj⟩ : Fin n) ≠ ⟨j + 1, hj⟩ :=
    fun h => absurd (congrArg Fin.val h) (Nat.ne_of_lt (Nat.lt_succ_self j))
  have hother : ∀ k : Fin n, k ≠ ⟨j + 1, hj⟩ → k ≠ ⟨j, Nat.lt_of_succ_lt hj⟩ →
      (entries.swap (j + 1) j hj (Nat.lt_of_succ_lt hj)).get k = entries.get k := by
    intro k hk hk'
    rw [get_swap, Equiv.swap_apply_of_ne_of_ne hk hk']
  have hleft : (entries.swap (j + 1) j hj (Nat.lt_of_succ_lt hj)).get ⟨j + 1, hj⟩
      = entries.get ⟨j, Nat.lt_of_succ_lt hj⟩ := by
    rw [get_swap, Equiv.swap_apply_left]
  have hright : (entries.swap (j + 1) j hj (Nat.lt_of_succ_lt hj)).get
      ⟨j, Nat.lt_of_succ_lt hj⟩ = entries.get ⟨j + 1, hj⟩ := by
    rw [get_swap, Equiv.swap_apply_right]
  constructor
  · intro a b hab hb ha hb'
    by_cases haj : a = ⟨j + 1, hj⟩
    · rw [haj] at hab ⊢
      rw [hleft, hother b (Fin.ne_of_gt hab) hb']
      exact h.others _ b (lt_trans (Nat.lt_succ_self j) hab) hb hne (Fin.ne_of_gt hab)
    by_cases hbj : b = ⟨j + 1, hj⟩
    · rw [hbj] at hab ⊢
      rw [hleft, hother a haj ha]
      have hlt' : a < ⟨j, Nat.lt_of_succ_lt hj⟩ :=
        lt_of_le_of_ne (Nat.le_of_lt_succ hab) ha
      exact h.others a _ hlt' (Nat.le_of_succ_le hlast) haj hne
    · rw [hother a haj ha, hother b hbj hb']
      exact h.others a b hab hb haj hbj
  · intro b hab hb
    rw [hright]
    by_cases hbj : b = ⟨j + 1, hj⟩
    · rw [hbj, hleft]
      exact le_of_lt hlt
    · rw [hother b hbj (Fin.ne_of_gt hab)]
      refine h.right b (lt_of_le_of_ne hab ?_) hb
      exact fun h => hbj h.symm

theorem sink_ordered (key : α → β) (last : Nat) :
    ∀ (j : Nat) (hj : j < n) (entries : Vector α n), j ≤ last →
      OrderedBut key entries last ⟨j, hj⟩ → OrderedTo key (sink key entries j hj) last := by
  intro j
  induction j with
  | zero =>
      intro hj entries _ h a b hab hb
      by_cases ha : a = ⟨0, hj⟩
      · rw [ha] at hab ⊢
        exact h.right b hab hb
      · refine h.others a b hab hb ha ?_
        exact Fin.ne_of_gt (Nat.lt_of_le_of_lt (Nat.zero_le _) hab)
  | succ j ih =>
      intro hj entries hlast h
      rw [sink]
      split
      · rename_i hlt
        exact ih _ _ (Nat.le_of_succ_le hlast) (h.swapped hlast hlt)
      · rename_i hlt
        exact h.settled hlast (not_lt.mp hlt)

/-- **THE ROUNDS SORT**: after its round, an entry is in order with those before it. -/
theorem rounds_ordered (key : α → β) (entries : Vector α n) (i : Nat) (hi : i < n) :
    OrderedTo key (rounds key entries i hi) i := by
  induction i with
  | zero =>
      intro a b hab hb
      exact absurd (Nat.lt_of_lt_of_le hab hb) (Nat.not_lt_zero _)
  | succ i ih =>
      rw [rounds]
      refine sink_ordered key (i + 1) (i + 1) hi _ (Nat.le_refl _) ⟨?_, ?_⟩
      · intro a b hab hb _ hbi
        refine ih _ a b hab (Nat.le_of_lt_succ (Nat.lt_of_le_of_ne hb ?_))
        exact fun h => hbi (Fin.ext h)
      · intro b hab hb
        exact absurd (Nat.lt_of_lt_of_le hab hb) (Nat.lt_irrefl _)

/-! ## Equal keys -/

/-- Sinking an entry leaves what is to its right. -/
theorem get_sink_of_lt (key : α → β) :
    ∀ (j : Nat) (hj : j < n) (entries : Vector α n) (k : Fin n), j < k.val →
      (sink key entries j hj).get k = entries.get k := by
  intro j
  induction j with
  | zero => exact fun _ _ _ _ => rfl
  | succ j ih =>
      intro hj entries k hk
      rw [sink]
      split
      · have hne : k ≠ ⟨j + 1, hj⟩ := Fin.ne_of_gt hk
        have hne' : k ≠ ⟨j, Nat.lt_of_succ_lt hj⟩ := Fin.ne_of_gt (Nat.lt_of_succ_lt hk)
        rw [ih _ _ k (Nat.lt_of_succ_lt hk), get_swap,
          Equiv.swap_apply_of_ne_of_ne hne hne']
      · rfl

theorem get_rounds_of_lt (key : α → β) (entries : Vector α n) (i : Nat) (hi : i < n)
    (k : Fin n) (hk : i < k.val) : (rounds key entries i hi).get k = entries.get k := by
  induction i with
  | zero => rfl
  | succ i ih =>
      rw [rounds, get_sink_of_lt key (i + 1) hi _ k hk, ih _ (Nat.lt_of_succ_lt hk)]

section Tags

variable {γ : Type w} [LinearOrder γ] (key : α → β) (tag : α → γ)

/-- The key, and the tag where keys are equal. -/
def tagged (entry : α) : β ×ₗ γ := toLex (key entry, tag entry)

/-- An entry with a larger tag has the smaller tagged key just if it has the smaller
    key. -/
theorem tagged_lt_iff {x y : α} (h : tag y < tag x) :
    tagged key tag x < tagged key tag y ↔ key x < key y := by
  rw [tagged, tagged, Prod.Lex.toLex_lt_toLex]
  constructor
  · rintro (hkey | ⟨-, htag⟩)
    · exact hkey
    · exact absurd htag (lt_asymm h)
  · exact Or.inl

/-- An entry whose tag is the largest so far sinks by its key alone. -/
theorem sink_tagged :
    ∀ (j : Nat) (hj : j < n) (entries : Vector α n),
      (∀ a : Fin n, a < ⟨j, hj⟩ → tag (entries.get a) < tag (entries.get ⟨j, hj⟩)) →
      sink (tagged key tag) entries j hj = sink key entries j hj := by
  intro j
  induction j with
  | zero => exact fun _ _ _ => rfl
  | succ j ih =>
      intro hj entries hlargest
      have hiff := tagged_lt_iff key tag
        (hlargest ⟨j, Nat.lt_of_succ_lt hj⟩ (Nat.lt_succ_self j))
      rw [sink, sink]
      by_cases hlt : key (entries.get ⟨j + 1, hj⟩)
          < key (entries.get ⟨j, Nat.lt_of_succ_lt hj⟩)
      · rw [if_pos hlt, if_pos (hiff.mpr hlt)]
        refine ih _ _ ?_
        intro a ha
        have hne : a ≠ ⟨j + 1, hj⟩ := Fin.ne_of_lt (Nat.lt_succ_of_lt ha)
        rw [get_swap, get_swap, Equiv.swap_apply_right,
          Equiv.swap_apply_of_ne_of_ne hne (Fin.ne_of_lt ha)]
        exact hlargest a (Nat.lt_succ_of_lt ha)
      · rw [if_neg hlt, if_neg (fun h => hlt (hiff.mp h))]

/-- Where the tags go up, the rounds sort by key and tag. -/
theorem rounds_tagged {entries : Vector α n}
    (htags : ∀ a b : Fin n, a < b → tag (entries.get a) < tag (entries.get b)) (i : Nat)
    (hi : i < n) : rounds (tagged key tag) entries i hi = rounds key entries i hi := by
  induction i with
  | zero => rfl
  | succ i ih =>
      rw [rounds, rounds, ih]
      refine sink_tagged key tag (i + 1) hi _ ?_
      intro a ha
      obtain ⟨σ, hσ⟩ := rounds_rearranges key entries i (Nat.lt_of_succ_lt hi)
      -- what the rounds have come to so far is still on the left
      have hleft : σ a < ⟨i + 1, hi⟩ := by
        by_contra hright
        have hfixed := get_rounds_of_lt key entries i (Nat.lt_of_succ_lt hi) (σ a)
          (Nat.lt_of_succ_le (not_lt.mp hright))
        rw [hσ] at hfixed
        have hinj : Function.Injective fun k => tag (entries.get k) :=
          (show StrictMono fun k => tag (entries.get k) from htags).injective
        have hsame : a = σ a := σ.injective (hinj (congrArg tag hfixed)).symm
        rw [← hsame] at hright
        exact hright ha
      rw [hσ a, get_rounds_of_lt key entries i (Nat.lt_of_succ_lt hi) ⟨i + 1, hi⟩
        (Nat.lt_succ_self i)]
      exact htags _ _ hleft

/-- **THE ROUNDS ARE STABLE**: entries with equal keys stay in the order of their tags. -/
theorem rounds_stable {entries : Vector α n}
    (htags : ∀ a b : Fin n, a < b → tag (entries.get a) < tag (entries.get b)) (i : Nat)
    (hi : i < n) : OrderedTo (tagged key tag) (rounds key entries i hi) i := by
  rw [← rounds_tagged key tag htags]
  exact rounds_ordered (tagged key tag) entries i hi

end Tags

end SwapSort
