import Stm32Foc.Config

/-! # A flash page under test

    One page of flash with the programming rules of the real one, for any page
    and word size: aligned writes, inside the page, each word programmable once
    per erase.  A word programmed or a page erased is one operation; a power
    loss comes after a number of them, and leaves the word it hits in any
    state.  A broken rule is remembered in `rejected`. -/

namespace FlashPage

open ActionLogic ByteMemory WireBytes Config

/-- The page at `page`, of `size` bytes, programmed in words of `word` bytes.
    The power loss is to come after so many operations, and the bytes are what
    then shows in the word being programmed. -/
structure FakeFlash (word size : Nat) (page : UInt32) where
  bytes : Mem
  powerLoss : Option (Nat × Mem)
  rejected : Bool

inductive FlashError where
  | rejected
  | powerLoss
  deriving DecidableEq, Repr

variable {W S : Nat} {page : UInt32}

/-- The programming rules, for the word at `start`. -/
def allowed (f : FakeFlash W S page) (start : Nat) : Bool :=
  decide (start % W = 0 ∧ page.toNat ≤ start ∧ start + W ≤ page.toNat + S) &&
    allErased (slice f.bytes start W)

/-- Program one word. -/
def programWord (start : Nat) (word : List UInt8) :
    Act (FakeFlash W S page) FlashError Unit := fun f =>
  if allowed f start then
    match f.powerLoss with
    | some (0, torn) =>
        (.error .powerLoss, { f with bytes := patch f.bytes start (slice torn 0 W) })
    | some (n + 1, torn) =>
        (.ok (),
          { f with
            bytes := patch f.bytes start word
            powerLoss := some (n, torn) })
    | none => (.ok (), { f with bytes := patch f.bytes start word })
  else (.error .rejected, { f with rejected := true })

def programWords : Nat → List (List UInt8) → Act (FakeFlash W S page) FlashError Unit
  | _, [] => pure ()
  | start, word :: words => do
      programWord start word
      programWords (start + W) words

/-- `FakeFlash::write` -/
def write (offset : UInt32) (bytes : List UInt8) :
    Act (FakeFlash W S page) FlashError Unit := fun f =>
  if offset.toNat % W = 0 ∧ bytes.length % W = 0 then
    programWords offset.toNat (chunksExact W bytes) f
  else (.error .rejected, { f with rejected := true })

/-- `FakeFlash::erase`, of the page and nothing else. -/
def erasePage (start stop : UInt32) : Act (FakeFlash W S page) FlashError Unit :=
  fun f =>
    if start = page ∧ stop.toNat = page.toNat + S then
      let erased := erase f.bytes start.toNat stop.toNat
      match f.powerLoss with
      | some (0, _) => (.error .powerLoss, f)
      | some (n + 1, torn) =>
          (.ok (), { f with bytes := erased, powerLoss := some (n, torn) })
      | none => (.ok (), { f with bytes := erased })
    else (.error .rejected, { f with rejected := true })

instance : NorFlash (FakeFlash W S page) FlashError where
  writeSize := W
  eraseSize := S
  read offset len := Act.read (fun f => slice f.bytes offset.toNat len)
  erase := erasePage
  write := write

/-! ## What a write leaves -/

/-- What a power loss leaves of `bytes`: the words programmed before it, and the
    word it hit. -/
def landed (W : Nat) (bytes : List UInt8) : Option (Nat × Mem) → List UInt8
  | some (n, torn) =>
      if n * W < bytes.length then bytes.take (n * W) ++ slice torn 0 W else bytes
  | none => bytes

/-- The write is cut short. -/
def cut (W : Nat) (bytes : List UInt8) : Option (Nat × Mem) → Bool
  | some (n, _) => decide (n * W < bytes.length)
  | none => false

/-- The power loss after `n` operations that were done. -/
def later (n : Nat) : Option (Nat × Mem) → Option (Nat × Mem)
  | some (k, torn) => some (k - n, torn)
  | none => none

theorem later_zero (loss : Option (Nat × Mem)) : later 0 loss = loss := by
  cases loss <;> rfl

theorem later_later (n k : Nat) (loss : Option (Nat × Mem)) :
    later n (later k loss) = later (k + n) loss := by
  cases loss with
  | none => rfl
  | some p => exact congrArg (fun i => some (i, p.2)) (Nat.sub_sub ..)

variable {f : FakeFlash W S page} {start : Nat}

theorem allowed_of_erased {n : Nat} (hal : start % W = 0)
    (hlo : page.toNat ≤ start) (hhi : start + n * W ≤ page.toNat + S)
    (hn : 0 < n) (her : Erased f.bytes start (n * W)) :
    allowed f start = true := by
  have hone : W ≤ n * W := Nat.le_mul_of_pos_left W hn
  rw [allowed, Bool.and_eq_true, decide_eq_true_eq]
  exact ⟨⟨hal, hlo, by omega⟩,
    erased_iff_slice.mp (her.sub (Nat.le_refl _) (by omega))⟩

/-- A word whose programming is not cut short. -/
theorem programWord_done {word : List UInt8} (hallowed : allowed f start = true)
    (hloss : ∀ torn, f.powerLoss ≠ some (0, torn)) :
    programWord start word f = (.ok (),
      { f with
        bytes := patch f.bytes start word
        powerLoss := later 1 f.powerLoss }) := by
  rw [programWord, if_pos hallowed]
  rcases hplan : f.powerLoss with _ | ⟨n, torn⟩
  · rcases f with ⟨bytes, powerLoss, rejected⟩
    obtain rfl : powerLoss = none := hplan
    rfl
  · cases n with
    | zero => exact absurd hplan (hloss torn)
    | succ n => rfl

/-- ... and one whose programming is. -/
theorem programWord_cut {word : List UInt8} {torn : Mem}
    (hallowed : allowed f start = true) (hloss : f.powerLoss = some (0, torn)) :
    programWord start word f = (.error .powerLoss,
      { f with bytes := patch f.bytes start (slice torn 0 W) }) := by
  rw [programWord, if_pos hallowed, hloss]

/-- Words about to be programmed: whole words at an aligned place inside the page,
    which is erased. -/
structure Ready (f : FakeFlash W S page) (start : Nat) (words : List (List UInt8)) :
    Prop where
  width : ∀ w ∈ words, w.length = W
  aligned : start % W = 0
  low : page.toNat ≤ start
  high : start + words.length * W ≤ page.toNat + S
  erased : Erased f.bytes start (words.length * W)

section Ready

variable {word : List UInt8} {words : List (List UInt8)}

theorem Ready.allowed (h : Ready f start (word :: words)) :
    allowed f start = true := by
  have hhigh := h.high
  have herased := h.erased
  rw [List.length_cons] at hhigh herased
  exact allowed_of_erased h.aligned h.low hhigh (Nat.succ_pos _) herased

/-- The words behind the first are still erased once it is written. -/
theorem Ready.next (h : Ready f start (word :: words))
    (powerLoss : Option (Nat × Mem)) :
    Ready ({ f with bytes := patch f.bytes start word, powerLoss := powerLoss } :
      FakeFlash W S page) (start + W) words := by
  have hword : word.length = W := h.width word List.mem_cons_self
  have hlow := h.low
  have hhigh := h.high
  have herased := h.erased
  rw [List.length_cons, Nat.succ_mul] at hhigh herased
  exact
    { width := fun w hw => h.width w (List.mem_cons_of_mem _ hw)
      aligned := by rw [Nat.add_mod_right]; exact h.aligned
      low := by omega
      high := by omega
      erased :=
        (herased.sub (by omega) (by omega)).patch_apart (Or.inr (by omega)) }

/-- Two writes in a row are one. -/
theorem Ready.patch_patch (h : Ready f start (word :: words)) (bs : List UInt8) :
    patch (patch f.bytes start word) (start + W) bs
      = patch f.bytes start (word ++ bs) := by
  have hpatch := ByteMemory.patch_patch f.bytes start word bs
  rw [h.width word List.mem_cons_self] at hpatch
  exact hpatch

end Ready

/-- **WORD BY WORD**: words programmed onto an erased range are written if no power
    loss comes on the way ... -/
theorem programWords_done (words : List (List UInt8)) :
    ∀ (f : FakeFlash W S page) (start : Nat), Ready f start words →
      (∀ torn n, f.powerLoss = some (n, torn) → words.length ≤ n) →
      programWords start words f = (.ok (),
        { f with
          bytes := patch f.bytes start words.flatten
          powerLoss := later words.length f.powerLoss }) := by
  induction words with
  | nil =>
      intro f start _ _
      rw [List.flatten_nil, patch_nil, List.length_nil, later_zero]
      rfl
  | cons word words ih =>
      intro f start hready hloss
      have hfirst : ∀ torn, f.powerLoss ≠ some (0, torn) := by
        intro torn h
        exact absurd (hloss torn 0 h) (Nat.not_succ_le_zero _)
      have hlater : ∀ torn n, later 1 f.powerLoss = some (n, torn) →
          words.length ≤ n := by
        intro torn n h
        cases hplan : f.powerLoss with
        | none =>
            rw [hplan] at h
            exact nomatch h
        | some plan =>
            obtain ⟨k, t⟩ := plan
            rw [hplan] at h
            have hk := hloss t k hplan
            rw [List.length_cons] at hk
            obtain ⟨hn, -⟩ := Prod.mk.inj (Option.some.inj h)
            omega
      have hrest := ih _ _ (hready.next (later 1 f.powerLoss)) hlater
      refine (bind_ok (programWord_done hready.allowed hfirst)).trans
        (hrest.trans ?_)
      rw [hready.patch_patch, List.flatten_cons, later_later, List.length_cons,
        Nat.add_comm]

/-- ... and up to it if it does. -/
theorem programWords_cut (words : List (List UInt8)) :
    ∀ (f : FakeFlash W S page) (start n : Nat) (torn : Mem),
      Ready f start words → f.powerLoss = some (n, torn) → n < words.length →
      programWords start words f = (.error .powerLoss,
        { f with
          bytes := patch f.bytes start ((words.take n).flatten ++ slice torn 0 W)
          powerLoss := some (0, torn) }) := by
  induction words with
  | nil =>
      intro f start n torn _ _ hn
      exact absurd hn (Nat.not_lt_zero n)
  | cons word words ih =>
      intro f start n torn hready hloss hn
      cases n with
      | zero =>
          refine (bind_error (programWord_cut hready.allowed hloss)).trans ?_
          rw [List.take_zero, List.flatten_nil, List.nil_append, hloss]
      | succ n =>
          have hfirst : ∀ torn, f.powerLoss ≠ some (0, torn) := by
            rw [hloss]
            exact fun _ h => nomatch h
          have hrest := ih _ _ n torn (hready.next (some (n, torn))) rfl
            (Nat.lt_of_succ_lt_succ hn)
          refine (bind_ok (programWord_done hready.allowed hfirst)).trans ?_
          rw [hloss]
          refine hrest.trans ?_
          rw [hready.patch_patch, List.take_succ_cons, List.flatten_cons,
            List.append_assoc]

/-- **A WRITE**: aligned, inside the page and on erased words, it is accepted, and
    lands up to the power loss. -/
theorem write_spec {offset : UInt32} {bytes : List UInt8} (hW : 0 < W)
    (hal : offset.toNat % W = 0) (hlen : bytes.length % W = 0)
    (hlo : page.toNat ≤ offset.toNat)
    (hhi : offset.toNat + bytes.length ≤ page.toNat + S)
    (her : Erased f.bytes offset.toNat bytes.length) :
    (write offset bytes f).1
        = (if cut W bytes f.powerLoss then .error .powerLoss else .ok ()) ∧
      (write offset bytes f).2.bytes
        = patch f.bytes offset.toNat (landed W bytes f.powerLoss) ∧
      (write offset bytes f).2.rejected = f.rejected := by
  have hcount : (chunksExact W bytes).length * W = bytes.length := by
    rw [length_chunksExact]
    exact Nat.div_mul_cancel (Nat.dvd_of_mod_eq_zero hlen)
  have hwords : ∀ w ∈ chunksExact W bytes, w.length = W := by
    intro w hw
    obtain ⟨i, hi, rfl⟩ := List.mem_map.mp hw
    have hlt := List.mem_range.mp hi
    have hbound : i * W + W ≤ bytes.length := by
      rw [← Nat.succ_mul]
      exact Nat.le_trans (Nat.mul_le_mul_right W hlt)
        (Nat.div_mul_le_self _ _)
    rw [List.length_take, List.length_drop]
    omega
  have hflat : (chunksExact W bytes).flatten = bytes := by
    have h := flatten_take_chunksExact bytes (Nat.le_of_eq hcount)
    rw [hcount, List.take_length, List.take_length] at h
    exact h
  have hready : Ready f offset.toNat (chunksExact W bytes) :=
    { width := hwords
      aligned := hal
      low := hlo
      high := by rw [hcount]; exact hhi
      erased := by rw [hcount]; exact her }
  have hwrite : write offset bytes f
      = programWords offset.toNat (chunksExact W bytes) f := by
    rw [write, if_pos ⟨hal, hlen⟩]
  rw [hwrite]
  rcases hloss : f.powerLoss with _ | ⟨n, torn⟩
  · rw [programWords_done _ f _ hready (by
      rw [hloss]
      exact fun _ _ h => nomatch h), hflat]
    exact ⟨rfl, rfl, rfl⟩
  · by_cases hn : n * W < bytes.length
    · have hn' : n < (chunksExact W bytes).length :=
        Nat.lt_of_mul_lt_mul_right (by rw [hcount]; exact hn)
      rw [programWords_cut _ f _ n torn hready hloss hn', cut, decide_eq_true hn,
        landed, if_pos hn, flatten_take_chunksExact bytes (Nat.le_of_lt hn),
        if_pos rfl]
      exact ⟨rfl, rfl, rfl⟩
    · have hn' : (chunksExact W bytes).length ≤ n :=
        Nat.le_of_mul_le_mul_right (by rw [hcount]; omega) hW
      rw [programWords_done _ f _ hready (by
        intro t k h
        obtain ⟨rfl, -⟩ := Prod.mk.inj (Option.some.inj (hloss.symm.trans h))
        exact hn'), cut, decide_eq_false hn, landed, if_neg hn, hflat,
        if_neg Bool.false_ne_true]
      exact ⟨rfl, rfl, rfl⟩

/-- What a write lands is no longer than what it writes. -/
theorem length_landed_le {bytes : List UInt8} (hlen : bytes.length % W = 0)
    (loss : Option (Nat × Mem)) :
    (landed W bytes loss).length ≤ bytes.length := by
  cases loss with
  | none => exact Nat.le_refl _
  | some plan =>
      obtain ⟨n, torn⟩ := plan
      rw [landed]
      by_cases hn : n * W < bytes.length
      · rw [if_pos hn, List.length_append, List.length_take, length_slice,
          Nat.min_eq_left (Nat.le_of_lt hn)]
        -- a whole number of words, so the word hit is one of them
        obtain ⟨k, hk⟩ := Nat.dvd_of_mod_eq_zero hlen
        have hlt : n < k := by
          refine Nat.lt_of_mul_lt_mul_right (a := W) ?_
          rw [Nat.mul_comm k W, ← hk]
          exact hn
        rw [hk, ← Nat.succ_mul, Nat.mul_comm W k]
        exact Nat.mul_le_mul_right W hlt
      · rw [if_neg hn]

/-- A write that is not cut short lands everything. -/
theorem landed_of_not_cut {bytes : List UInt8} {loss : Option (Nat × Mem)}
    (h : cut W bytes loss = false) : landed W bytes loss = bytes := by
  cases loss with
  | none => rfl
  | some plan =>
      rw [cut, decide_eq_false_iff_not] at h
      rw [landed, if_neg h]

/-- **AN ERASE** of the page, done before the power loss or not at all. -/
theorem erasePage_spec {stop : UInt32} (hstop : stop.toNat = page.toNat + S) :
    (∃ torn, f.powerLoss = some (0, torn) ∧
      erasePage page stop f = (.error .powerLoss, f)) ∨
    ((∀ torn, f.powerLoss ≠ some (0, torn)) ∧
      erasePage page stop f = (.ok (),
        { f with
          bytes := erase f.bytes page.toNat (page.toNat + S)
          powerLoss := later 1 f.powerLoss })) := by
  have hrun : erasePage page stop f
      = match f.powerLoss with
        | some (0, _) => (.error .powerLoss, f)
        | some (n + 1, torn) =>
            (.ok (), { f with
              bytes := erase f.bytes page.toNat stop.toNat
              powerLoss := some (n, torn) })
        | none => (.ok (), { f with
            bytes := erase f.bytes page.toNat stop.toNat }) := by
    rw [erasePage, if_pos ⟨rfl, hstop⟩]
  rw [hrun, hstop]
  rcases hloss : f.powerLoss with _ | ⟨n, torn⟩
  · refine Or.inr ⟨(fun _ h => nomatch h), ?_⟩
    rcases f with ⟨bytes, powerLoss, rejected⟩
    obtain rfl : powerLoss = none := hloss
    rfl
  · cases n with
    | zero => exact Or.inl ⟨torn, rfl, rfl⟩
    | succ n => exact Or.inr ⟨(fun _ h => nomatch h), rfl⟩

end FlashPage
