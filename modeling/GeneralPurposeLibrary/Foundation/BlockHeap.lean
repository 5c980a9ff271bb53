import Mathlib.Logic.Function.Basic

/-!
# Heaps of numbered blocks

Allocated memory as a finite sequence of cells for each live block number. Numbers from
`next` on have never been given out. A pointer is an `Option Nat` whose `none` is null.
-/

structure BlockHeap (B : Type) where
  blocks : Nat → Option (List B)
  next : Nat
  fresh : ∀ b, next ≤ b → blocks b = none

namespace BlockHeap

variable {B : Type} (heap : BlockHeap B)

def set (b : Nat) (cells : Option (List B)) : BlockHeap B where
  blocks := Function.update heap.blocks b cells
  next := max heap.next (b + 1)
  fresh := by
    intro c hc
    have hne : c ≠ b := by omega
    rw [Function.update_of_ne hne]
    exact heap.fresh c (by omega)

/-- The cells behind a pointer, none for null or a block that is not live. -/
def contents (ptr : Option Nat) : List B := ((ptr.bind heap.blocks).getD [])

def alloc (cells : List B) : Option Nat × BlockHeap B :=
  (some heap.next, heap.set heap.next (some cells))

def free : Option Nat → BlockHeap B
  | none => heap
  | some b => heap.set b none

/-- A new block in place of an old one, with the old cells as far as they fit and the given
ones behind them. -/
def resize (ptr : Option Nat) (size : Nat) (fill : Nat → B) : Option Nat × BlockHeap B :=
  (heap.free ptr).alloc ((List.range size).map fun i => (heap.contents ptr).getD i (fill i))

/-- Overwriting cells of a live block; `none` when they are not all inside it. -/
def write (ptr : Option Nat) (offset : Nat) (cells : List B) : Option (BlockHeap B) :=
  match ptr with
  | none => none
  | some b =>
    match heap.blocks b with
    | none => none
    | some old =>
      if offset + cells.length ≤ old.length then
        some (heap.set b (some (old.take offset ++ cells ++ old.drop (offset + cells.length))))
      else none

variable {heap}

@[simp] lemma blocks_set_self (b : Nat) (cells : Option (List B)) :
    (heap.set b cells).blocks b = cells := Function.update_self ..

@[simp] lemma blocks_set_of_ne {b c : Nat} (hne : c ≠ b) (cells : Option (List B)) :
    (heap.set b cells).blocks c = heap.blocks c := Function.update_of_ne hne ..

lemma contents_of_live {b : Nat} {cells : List B} (hb : heap.blocks b = some cells) :
    heap.contents (some b) = cells := by
  simp [contents, hb]

lemma ne_next_of_live {b : Nat} {cells : List B} (hb : heap.blocks b = some cells) :
    b ≠ heap.next := by
  rintro rfl
  simp [heap.fresh heap.next (Nat.le_refl _)] at hb

lemma blocks_free_of_ne {b : Nat} {ptr : Option Nat} (hne : ptr ≠ some b) :
    (heap.free ptr).blocks b = heap.blocks b := by
  cases ptr with
  | none => rfl
  | some c => exact blocks_set_of_ne (fun e => hne (by rw [e])) none

lemma exists_resize (heap : BlockHeap B) (ptr : Option Nat) (size : Nat) (fill : Nat → B) :
    ∃ b heap' cells, heap.resize ptr size fill = (some b, heap') ∧
      heap'.blocks b = some cells ∧ cells.length = size ∧
      ∀ c kept, ptr ≠ some c → heap.blocks c = some kept →
        c ≠ b ∧ heap'.blocks c = some kept := by
  refine ⟨_, _, _, rfl, blocks_set_self _ _, by simp, ?_⟩
  intro c kept hptr hkept
  have hlive : (heap.free ptr).blocks c = some kept := (blocks_free_of_ne hptr).trans hkept
  have hne := ne_next_of_live hlive
  exact ⟨hne, (blocks_set_of_ne hne _).trans hlive⟩

lemma write_behind {b : Nat} {front old : List B} (hb : heap.blocks b = some (front ++ old))
    (cells : List B) (hfits : cells.length ≤ old.length) :
    heap.write (some b) front.length cells =
      some (heap.set b (some (front ++ cells ++ old.drop cells.length))) := by
  have hlength : front.length + cells.length ≤ (front ++ old).length := by
    rw [List.length_append]
    omega
  simp only [write, hb]
  rw [if_pos hlength, List.take_left, List.drop_append, List.drop_eq_nil_of_le (by omega)]
  simp

end BlockHeap
