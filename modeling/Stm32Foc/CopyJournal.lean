import Mathlib.Data.List.OfFn
import Mathlib.Logic.Function.Basic
import Mathlib.Tactic.Common

/-! # Redo journals for copy programs

    A COPY PROGRAM is a list of cell-to-cell copies on a memory of cells, of any
    index type and any contents.  Running it under a REDO JOURNAL means noting
    the index of each copy once it is complete; after an interruption the copy
    the journal names next is run again from its beginning.

    An interrupted copy may leave anything in its destination.  That is
    harmless exactly because a copy never reads its own destination: redone, it
    overwrites what the interruption left.  `Resumable` is the invariant that
    carries this, and `Resumable.redo` the one step lemma. -/

namespace CopyJournal

variable {ι α : Type} [DecidableEq ι]

/-- A copy between two different cells. -/
structure Copy (ι : Type) where
  src : ι
  dst : ι
  apart : src ≠ dst

/-- The memory after a copy. -/
def Copy.run (c : Copy ι) (m : ι → α) : ι → α := Function.update m c.dst (m c.src)

@[simp] theorem Copy.run_dst (c : Copy ι) (m : ι → α) :
    c.run m c.dst = m c.src :=
  Function.update_self ..

theorem Copy.run_of_ne (c : Copy ι) (m : ι → α) {x : ι} (h : x ≠ c.dst) :
    c.run m x = m x :=
  Function.update_of_ne h ..

/-- The memory after the first `k` copies of a program. -/
def runUpTo (prog : List (Copy ι)) (base : ι → α) (k : Nat) : ι → α :=
  (prog.take k).foldl (fun m c => c.run m) base

@[simp] theorem runUpTo_zero (prog : List (Copy ι)) (base : ι → α) :
    runUpTo prog base 0 = base := rfl

/-- One more copy. -/
theorem runUpTo_succ {prog : List (Copy ι)} {base : ι → α} {k : Nat}
    (h : k < prog.length) :
    runUpTo prog base (k + 1) = prog[k].run (runUpTo prog base k) := by
  rw [runUpTo, List.take_succ_eq_append_getElem h, List.foldl_append]
  rfl

/-- **THE JOURNAL INVARIANT** at index `k`: the memory is what the first `k`
    copies make of `base`, except that the destination of the copy in progress,
    if there is one, may hold anything. -/
def Resumable (prog : List (Copy ι)) (base : ι → α) (k : Nat) (m : ι → α) :
    Prop :=
  ∀ x, (∀ c, prog[k]? = some c → x ≠ c.dst) → m x = runUpTo prog base k x

variable {prog : List (Copy ι)} {base m m' : ι → α} {k : Nat}

theorem Resumable.start (prog : List (Copy ι)) (base : ι → α) :
    Resumable prog base 0 base := fun _ _ => rfl

/-- A memory the first `k` copies produce exactly is resumable at `k`. -/
theorem Resumable.of_eq (h : m = runUpTo prog base k) :
    Resumable prog base k m := fun x _ => congrFun h x

/-- Whatever happens to the destination of the copy in progress, the memory
    stays resumable at that copy. -/
theorem Resumable.spoil {c : Copy ι} (h : Resumable prog base k m)
    (hc : prog[k]? = some c) (hm : ∀ x, x ≠ c.dst → m' x = m x) :
    Resumable prog base k m' := by
  intro x hx
  rw [hm x (hx c hc)]
  exact h x hx

/-- **REDO**: running the copy in progress from its beginning makes the memory
    exact again, one copy further. -/
theorem Resumable.redo (hk : k < prog.length) (h : Resumable prog base k m) :
    prog[k].run m = runUpTo prog base (k + 1) := by
  have hget : prog[k]? = some prog[k] := List.getElem?_eq_getElem hk
  have hoff : ∀ x, x ≠ prog[k].dst → m x = runUpTo prog base k x := by
    intro x hx
    refine h x ?_
    intro c hc
    rw [← Option.some.inj (hget.symm.trans hc)]
    exact hx
  rw [runUpTo_succ hk]
  funext x
  by_cases hx : x = prog[k].dst
  · subst hx
    rw [Copy.run_dst, Copy.run_dst]
    exact hoff _ prog[k].apart
  · rw [Copy.run_of_ne _ _ hx, Copy.run_of_ne _ _ hx]
    exact hoff x hx

/-- Past the last copy nothing is in progress: the memory is exact. -/
theorem Resumable.finished (hk : prog.length ≤ k)
    (h : Resumable prog base k m) : m = runUpTo prog base k := by
  funext x
  refine h x ?_
  intro c hc
  rw [List.getElem?_eq_none hk] at hc
  exact nomatch hc

end CopyJournal
