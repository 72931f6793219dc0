import Stm32Foc.CopyJournal

/-! # Exchanging two banks of cells through one spare cell

    A FRONT bank of `n` cells and a BACK bank of `n + 1` cells: `n` with the new
    contents and one spare at the end.  The FORWARD program brings the new
    contents to the front and leaves the old ones in the back bank, rotated by
    one; the BACKWARD program brings them to the front again, parking what it
    displaces two cells back.  Both are copy programs of `2 n` copies, so both
    may be run under a redo journal.

    `forward_front` and `backward_front` say what the two programs do to the
    front bank, for contents of any type. -/

namespace PageRotation

open CopyJournal

/-- The cells of the two banks. -/
inductive Cell (n : Nat) where
  | front (i : Fin n)
  | back (j : Fin (n + 1))
  deriving DecidableEq

variable {n : Nat} {α : Type}

/-- Where the forward program puts what cell `i` of the front bank held: the
    spare cell for the first, the cell just read from for the others. -/
def slot (i : Fin n) : Fin (n + 1) :=
  if i.val = 0 then ⟨n, by omega⟩ else ⟨i.val - 1, by omega⟩

/-- Where the backward program puts what cell `i` of the front bank held. -/
def park (i : Fin n) : Fin (n + 1) :=
  if i.val = 0 then ⟨n - 1, by omega⟩
  else if i.val = 1 then ⟨n, by omega⟩
  else ⟨i.val - 2, by omega⟩

theorem slot_val (i : Fin n) :
    (slot i).val = if i.val = 0 then n else i.val - 1 := by
  rw [slot]
  split <;> rfl

theorem park_val (i : Fin n) :
    (park i).val
      = if i.val = 0 then n - 1 else if i.val = 1 then n else i.val - 2 := by
  rw [park]
  split
  · rfl
  · split <;> rfl

/-- Copy a front cell to the back bank. -/
def save (i : Fin n) (j : Fin (n + 1)) : Copy (Cell n) :=
  ⟨.front i, .back j, fun h => nomatch h⟩

/-- Copy a back cell to the front bank. -/
def fill (j : Fin (n + 1)) (i : Fin n) : Copy (Cell n) :=
  ⟨.back j, .front i, fun h => nomatch h⟩

@[simp] theorem save_front (i x : Fin n) (j : Fin (n + 1)) (m : Cell n → α) :
    (save i j).run m (.front x) = m (.front x) :=
  Copy.run_of_ne _ _ (fun h => nomatch h)

@[simp] theorem save_back_self (i : Fin n) (j : Fin (n + 1)) (m : Cell n → α) :
    (save i j).run m (.back j) = m (.front i) :=
  Copy.run_dst ..

theorem save_back_ne {i : Fin n} {j x : Fin (n + 1)} (h : x ≠ j)
    (m : Cell n → α) : (save i j).run m (.back x) = m (.back x) :=
  Copy.run_of_ne _ _ (fun he => h (Cell.back.inj he))

@[simp] theorem fill_back (j x : Fin (n + 1)) (i : Fin n) (m : Cell n → α) :
    (fill j i).run m (.back x) = m (.back x) :=
  Copy.run_of_ne _ _ (fun h => nomatch h)

@[simp] theorem fill_front_self (j : Fin (n + 1)) (i : Fin n)
    (m : Cell n → α) : (fill j i).run m (.front i) = m (.back j) :=
  Copy.run_dst ..

theorem fill_front_ne {j : Fin (n + 1)} {i x : Fin n} (h : x ≠ i)
    (m : Cell n → α) : (fill j i).run m (.front x) = m (.front x) :=
  Copy.run_of_ne _ _ (fun he => h (Cell.front.inj he))

/-- The front cell a step works on. -/
def cellOf (s : Fin (2 * n)) : Fin n := ⟨s.val / 2, by omega⟩

/-- A step of the forward program: save front cell `s / 2` on the even steps,
    refill it on the odd ones. -/
def forwardStep (s : Fin (2 * n)) : Copy (Cell n) :=
  if s.val % 2 = 0 then save (cellOf s) (slot (cellOf s))
  else fill (cellOf s).castSucc (cellOf s)

/-- A step of the backward program. -/
def backwardStep (s : Fin (2 * n)) : Copy (Cell n) :=
  if s.val % 2 = 0 then save (cellOf s) (park (cellOf s))
  else fill (slot (cellOf s)) (cellOf s)

def forward (n : Nat) : List (Copy (Cell n)) := List.ofFn forwardStep

def backward (n : Nat) : List (Copy (Cell n)) := List.ofFn backwardStep

@[simp] theorem length_forward (n : Nat) : (forward n).length = 2 * n := by
  simp [forward]

@[simp] theorem length_backward (n : Nat) : (backward n).length = 2 * n := by
  simp [backward]

theorem getElem?_forward (s : Fin (2 * n)) :
    (forward n)[s.val]? = some (forwardStep s) := by
  simp [forward]

theorem getElem?_backward (s : Fin (2 * n)) :
    (backward n)[s.val]? = some (backwardStep s) := by
  simp [backward]

/-- The two steps that work on one front cell. -/
private theorem runUpTo_pair {prog : List (Copy (Cell n))}
    {base : Cell n → α} {a b : Copy (Cell n)} {i : Nat}
    (ha : prog[2 * i]? = some a) (hb : prog[2 * i + 1]? = some b) :
    runUpTo prog base (2 * (i + 1)) = b.run (a.run (runUpTo prog base (2 * i))) := by
  obtain ⟨ha', hac⟩ := List.getElem?_eq_some_iff.mp ha
  obtain ⟨hb', hbc⟩ := List.getElem?_eq_some_iff.mp hb
  rw [show 2 * (i + 1) = 2 * i + 1 + 1 from rfl, runUpTo_succ hb', hbc,
    runUpTo_succ ha', hac]

theorem slot_injective {i j : Fin n} (h : slot i = slot j) : i = j := by
  have h1 := congrArg Fin.val h
  rw [slot_val, slot_val] at h1
  refine Fin.ext ?_
  split at h1 <;> split at h1 <;> omega

/-! ## The forward program -/

/-- After the steps of the front cells below `i`: they hold the new contents,
    their old ones are in their slots, and the back cells from `i` on are still
    to be read. -/
structure ForwardAt (base m : Cell n → α) (i : Nat) : Prop where
  done : ∀ j : Fin n, j.val < i → m (.front j) = base (.back j.castSucc)
  saved : ∀ j : Fin n, j.val < i → m (.back (slot j)) = base (.front j)
  front : ∀ j : Fin n, i ≤ j.val → m (.front j) = base (.front j)
  back : ∀ j : Fin n, i ≤ j.val →
    m (.back j.castSucc) = base (.back j.castSucc)

theorem ForwardAt.next {base m : Cell n → α} {i : Fin n}
    (h : ForwardAt base m i.val) :
    ForwardAt base ((fill i.castSucc i).run ((save i (slot i)).run m))
      (i.val + 1) := by
  -- the slot of `i` is not read again: it is below `i`, or the spare cell
  have hslot : ∀ j : Fin n, i.val ≤ j.val → j.castSucc ≠ slot i := by
    intro j hj he
    have h1 := congrArg Fin.val he
    rw [slot_val] at h1
    simp only [Fin.val_castSucc] at h1
    split at h1 <;> omega
  refine ⟨?_, ?_, ?_, ?_⟩
  · intro j hj
    by_cases hji : j = i
    · subst hji
      rw [fill_front_self, save_back_ne (hslot j (Nat.le_refl _))]
      exact h.back j (Nat.le_refl _)
    · rw [fill_front_ne hji, save_front]
      exact h.done j (by omega)
  · intro j hj
    rw [fill_back]
    by_cases hji : j = i
    · subst hji
      rw [save_back_self]
      exact h.front j (Nat.le_refl _)
    · rw [save_back_ne (fun he => hji (slot_injective he))]
      exact h.saved j (by omega)
  · intro j hj
    rw [fill_front_ne (by intro he; subst he; omega), save_front]
    exact h.front j (by omega)
  · intro j hj
    rw [fill_back, save_back_ne (hslot j (by omega))]
    exact h.back j (by omega)

/-- The run lemma: all cells below `i`, by induction on `i`. -/
theorem forwardAt_run (base : Cell n → α) :
    ∀ i, i ≤ n → ForwardAt base (runUpTo (forward n) base (2 * i)) i := by
  intro i
  induction i with
  | zero =>
      intro _
      exact ⟨fun j hj => absurd hj (by omega), fun j hj => absurd hj (by omega),
        fun _ _ => rfl, fun _ _ => rfl⟩
  | succ i ih =>
      intro hi
      have ha : (forward n)[2 * i]? = some (save ⟨i, hi⟩ (slot ⟨i, hi⟩)) := by
        rw [getElem?_forward ⟨2 * i, by omega⟩]
        simp [forwardStep, cellOf]
      have hb : (forward n)[2 * i + 1]?
          = some (fill (Fin.castSucc ⟨i, hi⟩) ⟨i, hi⟩) := by
        rw [getElem?_forward ⟨2 * i + 1, by omega⟩]
        have h1 : (2 * i + 1) % 2 ≠ 0 := by omega
        have h2 : (2 * i + 1) / 2 = i := by omega
        simp only [forwardStep, cellOf, if_neg h1, h2]
      rw [runUpTo_pair ha hb]
      exact ForwardAt.next (i := ⟨i, hi⟩) (ih (by omega))

/-- **FORWARD**: the front bank ends with the back bank's contents. -/
theorem forward_front (base : Cell n → α) (j : Fin n) :
    runUpTo (forward n) base (2 * n) (.front j) = base (.back j.castSucc) :=
  (forwardAt_run base n (Nat.le_refl n)).done j j.isLt

/-- ... and the old contents of the front bank are in their slots. -/
theorem forward_slot (base : Cell n → α) (j : Fin n) :
    runUpTo (forward n) base (2 * n) (.back (slot j)) = base (.front j) :=
  (forwardAt_run base n (Nat.le_refl n)).saved j j.isLt

/-! ## The backward program -/

/-- After the steps of the front cells below `i`: they hold again what their
    slots held, and the slots from `i` on are still to be read. -/
structure BackwardAt (base m : Cell n → α) (i : Nat) : Prop where
  done : ∀ j : Fin n, j.val < i → m (.front j) = base (.back (slot j))
  front : ∀ j : Fin n, i ≤ j.val → m (.front j) = base (.front j)
  slots : ∀ j : Fin n, i ≤ j.val → m (.back (slot j)) = base (.back (slot j))

/-- What is parked for a cell overwrites no slot that is still to be read. -/
theorem slot_ne_park {i j : Fin n} (h : i.val ≤ j.val) : slot j ≠ park i := by
  intro he
  have h1 := congrArg Fin.val he
  rw [slot_val, park_val] at h1
  split at h1 <;> split at h1
  all_goals first | omega | (split at h1 <;> omega)

theorem BackwardAt.next {base m : Cell n → α} {i : Fin n}
    (h : BackwardAt base m i.val) :
    BackwardAt base ((fill (slot i) i).run ((save i (park i)).run m))
      (i.val + 1) := by
  refine ⟨?_, ?_, ?_⟩
  · intro j hj
    by_cases hji : j = i
    · subst hji
      rw [fill_front_self, save_back_ne (slot_ne_park (Nat.le_refl _))]
      exact h.slots j (Nat.le_refl _)
    · rw [fill_front_ne hji, save_front]
      exact h.done j (by omega)
  · intro j hj
    rw [fill_front_ne (by intro he; subst he; omega), save_front]
    exact h.front j (by omega)
  · intro j hj
    rw [fill_back, save_back_ne (slot_ne_park (by omega))]
    exact h.slots j (by omega)

theorem backwardAt_run (base : Cell n → α) :
    ∀ i, i ≤ n → BackwardAt base (runUpTo (backward n) base (2 * i)) i := by
  intro i
  induction i with
  | zero =>
      intro _
      exact ⟨fun j hj => absurd hj (by omega), fun _ _ => rfl, fun _ _ => rfl⟩
  | succ i ih =>
      intro hi
      have ha : (backward n)[2 * i]? = some (save ⟨i, hi⟩ (park ⟨i, hi⟩)) := by
        rw [getElem?_backward ⟨2 * i, by omega⟩]
        simp [backwardStep, cellOf]
      have hb : (backward n)[2 * i + 1]? = some (fill (slot ⟨i, hi⟩) ⟨i, hi⟩) := by
        rw [getElem?_backward ⟨2 * i + 1, by omega⟩]
        have h1 : (2 * i + 1) % 2 ≠ 0 := by omega
        have h2 : (2 * i + 1) / 2 = i := by omega
        simp only [backwardStep, cellOf, if_neg h1, h2]
      rw [runUpTo_pair ha hb]
      exact BackwardAt.next (i := ⟨i, hi⟩) (ih (by omega))

/-- **BACKWARD**: the front bank ends with what its slots held. -/
theorem backward_front (base : Cell n → α) (j : Fin n) :
    runUpTo (backward n) base (2 * n) (.front j) = base (.back (slot j)) :=
  (backwardAt_run base n (Nat.le_refl n)).done j j.isLt

/-- **ROUND TRIP**: backward after forward restores the front bank. -/
theorem backward_forward_front (base : Cell n → α) (j : Fin n) :
    runUpTo (backward n) (runUpTo (forward n) base (2 * n)) (2 * n) (.front j)
      = base (.front j) := by
  rw [backward_front, forward_slot]

/-! ## The backward program, stopped on its way -/

/-- Stopped while a front cell is being saved: the cells below it are restored,
    it and those above are not. -/
theorem resumable_backward_even {base m : Cell n → α} {i : Nat} (hi : i ≤ n)
    (h : Resumable (backward n) base (2 * i) m) (j : Fin n) :
    m (.front j)
      = if j.val < i then base (.back (slot j)) else base (.front j) := by
  have hrun := backwardAt_run base i hi
  have hexact : m (.front j) = runUpTo (backward n) base (2 * i) (.front j) := by
    refine h _ ?_
    intro c hc
    have hlt : 2 * i < 2 * n := by
      simpa using (List.getElem?_eq_some_iff.mp hc).1
    have heven : 2 * i % 2 = 0 := by omega
    rw [getElem?_backward ⟨2 * i, hlt⟩] at hc
    rw [← Option.some.inj hc, backwardStep, if_pos heven]
    exact fun he => nomatch he
  rw [hexact]
  by_cases hj : j.val < i
  · rw [if_pos hj, hrun.done j hj]
  · rw [if_neg hj, hrun.front j (by omega)]

/-- Stopped while front cell `i` is being refilled: the others are as before, and
    the back bank holds both what `i` is refilled with and what it held. -/
theorem resumable_backward_odd {base m : Cell n → α} (i : Fin n)
    (h : Resumable (backward n) base (2 * i.val + 1) m) :
    (∀ j : Fin n, j ≠ i → m (.front j)
      = if j.val < i.val then base (.back (slot j)) else base (.front j)) ∧
    m (.back (park i)) = base (.front i) ∧
    m (.back (slot i)) = base (.back (slot i)) := by
  have hi := i.isLt
  have hrun := backwardAt_run base i.val (Nat.le_of_lt hi)
  have hlen : 2 * i.val < (backward n).length := by simp
  have hsave : (backward n)[2 * i.val] = save i (park i) := by
    have hget := getElem?_backward (n := n) ⟨2 * i.val, by omega⟩
    have heven : 2 * i.val % 2 = 0 := by omega
    rw [List.getElem?_eq_getElem hlen] at hget
    rw [Option.some.inj hget, backwardStep, if_pos heven]
    simp [cellOf]
  -- the copy in progress writes to front cell `i` only
  have hexact : ∀ x, x ≠ .front i →
      m x = runUpTo (backward n) base (2 * i.val + 1) x := by
    intro x hx
    refine h x ?_
    intro c hc
    rw [getElem?_backward ⟨2 * i.val + 1, by omega⟩] at hc
    have hodd : (2 * i.val + 1) % 2 ≠ 0 := by omega
    have hhalf : (2 * i.val + 1) / 2 = i.val := by omega
    rw [← Option.some.inj hc, backwardStep, if_neg hodd]
    simp only [cellOf, hhalf]
    exact hx
  refine ⟨?_, ?_, ?_⟩
  · intro j hj
    rw [hexact _ (fun he => hj (Cell.front.inj he)), runUpTo_succ hlen, hsave,
      save_front]
    by_cases hji : j.val < i.val
    · rw [if_pos hji, hrun.done j hji]
    · rw [if_neg hji, hrun.front j (by omega)]
  · rw [hexact (.back _) (fun he => nomatch he), runUpTo_succ hlen, hsave,
      save_back_self, hrun.front i (Nat.le_refl _)]
  · rw [hexact (.back _) (fun he => nomatch he), runUpTo_succ hlen, hsave,
      save_back_ne (slot_ne_park (Nat.le_refl _)),
      hrun.slots i (Nat.le_refl _)]

end PageRotation
