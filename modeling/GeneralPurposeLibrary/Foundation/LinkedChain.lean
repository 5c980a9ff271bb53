import Mathlib.Data.List.Nodup
import Mathlib.Logic.Function.Basic

/-!
# Singly linked chains

A chain starts in a slot that holds its first node, and each node has a slot that holds the
next one. A slot is either the head or the `next` slot of a node, so a pointer to a slot can
be kept and written through. `endSlot` is the slot that terminates a chain.
-/

namespace LinkedChain

variable {α : Type}

inductive Slot (α : Type) where
  | head
  | next (a : α)
  deriving DecidableEq, Repr

structure Cells (α : Type) where
  head : Option α
  next : α → Option α

def Cells.read (c : Cells α) : Slot α → Option α
  | .head => c.head
  | .next a => c.next a

/-- The slot reached from `s` along the nodes of a chain. -/
def endSlot : Slot α → List α → Slot α
  | s, [] => s
  | _, a :: l => endSlot (.next a) l

/-- The slots from `s` on hold the nodes of the list, one after the other. -/
def Links (c : Cells α) : Slot α → List α → Prop
  | _, [] => True
  | s, a :: l => c.read s = some a ∧ Links c (.next a) l

/-- The chain from `s` is the list, and ends there. -/
def IsChain (c : Cells α) (s : Slot α) (l : List α) : Prop :=
  Links c s l ∧ c.read (endSlot s l) = none

lemma endSlot_append (s : Slot α) (l₁ l₂ : List α) :
    endSlot s (l₁ ++ l₂) = endSlot (endSlot s l₁) l₂ := by
  induction l₁ generalizing s with
  | nil => rfl
  | cons a l₁ ih => exact ih (.next a)

lemma endSlot_eq_or (s : Slot α) (l : List α) :
    endSlot s l = s ∨ ∃ a ∈ l, endSlot s l = .next a := by
  induction l generalizing s with
  | nil => exact Or.inl rfl
  | cons a l ih =>
    rcases ih (.next a) with h | ⟨b, hb, h⟩
    · exact Or.inr ⟨a, List.mem_cons_self, h⟩
    · exact Or.inr ⟨b, List.mem_cons_of_mem a hb, h⟩

lemma endSlot_head_ne {l : List α} {a : α} (h : a ∉ l) : endSlot .head l ≠ .next a := by
  intro hend
  rcases endSlot_eq_or .head l with hs | ⟨b, hb, hs⟩
  · rw [hs] at hend
    cases hend
  · rw [hs] at hend
    cases hend
    exact h hb

lemma links_append {c : Cells α} {s : Slot α} {l₁ l₂ : List α} :
    Links c s (l₁ ++ l₂) ↔ Links c s l₁ ∧ Links c (endSlot s l₁) l₂ := by
  induction l₁ generalizing s with
  | nil => simp [Links, endSlot]
  | cons a l₁ ih =>
    rw [List.cons_append, Links, Links, ih, and_assoc]
    rfl

lemma isChain_append {c : Cells α} {s : Slot α} {l₁ l₂ : List α} :
    IsChain c s (l₁ ++ l₂) ↔ Links c s l₁ ∧ IsChain c (endSlot s l₁) l₂ := by
  unfold IsChain
  rw [links_append, endSlot_append, and_assoc]

@[simp] lemma isChain_nil {c : Cells α} {s : Slot α} : IsChain c s [] ↔ c.read s = none := by
  simp [IsChain, Links, endSlot]

@[simp] lemma isChain_cons {c : Cells α} {s : Slot α} {a : α} {l : List α} :
    IsChain c s (a :: l) ↔ c.read s = some a ∧ IsChain c (.next a) l := by
  unfold IsChain
  rw [Links, and_assoc]
  rfl

lemma IsChain.congr {c c' : Cells α} {s s' : Slot α} {l : List α} (h : IsChain c s l)
    (hs : c'.read s' = c.read s) (hl : ∀ a ∈ l, c'.next a = c.next a) : IsChain c' s' l := by
  induction l generalizing s s' with
  | nil =>
    rw [isChain_nil] at h ⊢
    rw [hs, h]
  | cons a l ih =>
    rw [isChain_cons] at h ⊢
    refine ⟨by rw [hs, h.1], ih h.2 ?_ ?_⟩
    · exact hl a List.mem_cons_self
    · exact fun b hb => hl b (List.mem_cons_of_mem a hb)

lemma Links.congr {c c' : Cells α} {s : Slot α} {l : List α} (h : Links c s l)
    (hs : c'.read s = c.read s) (hl : ∀ a ∈ l, c'.next a = c.next a) : Links c' s l := by
  induction l generalizing s with
  | nil => trivial
  | cons a l ih =>
    refine ⟨by rw [hs, h.1], ih h.2 ?_ ?_⟩
    · exact hl a List.mem_cons_self
    · exact fun b hb => hl b (List.mem_cons_of_mem a hb)

section Write

variable [DecidableEq α]

def Cells.write (c : Cells α) (s : Slot α) (v : Option α) : Cells α :=
  match s with
  | .head => { c with head := v }
  | .next a => { c with next := Function.update c.next a v }

@[simp] lemma read_write_same (c : Cells α) (s : Slot α) (v : Option α) :
    (c.write s v).read s = v := by
  cases s <;> simp [Cells.write, Cells.read]

lemma read_write_of_ne (c : Cells α) {s t : Slot α} (v : Option α) (h : t ≠ s) :
    (c.write s v).read t = c.read t := by
  cases s <;> cases t <;> simp_all [Cells.write, Cells.read]

lemma Links.write_endSlot {c : Cells α} {s : Slot α} {l : List α} (h : Links c s l)
    (hl : l.Nodup) (hs : ∀ a ∈ l, s ≠ .next a) (v : Option α) :
    Links (c.write (endSlot s l) v) s l := by
  induction l generalizing s with
  | nil => trivial
  | cons a l ih =>
    obtain ⟨ha, hnodup⟩ := List.nodup_cons.mp hl
    refine ⟨?_, ih h.2 hnodup ?_⟩
    · rw [read_write_of_ne, h.1]
      intro hend
      rcases endSlot_eq_or (.next a) l with heq | ⟨b, hb, heq⟩
      · exact hs a List.mem_cons_self (hend.trans heq)
      · exact hs b (List.mem_cons_of_mem a hb) (hend.trans heq)
    · intro b hb hab
      cases hab
      exact ha hb

lemma IsChain.append {c : Cells α} {l : List α} {a : α} (h : IsChain c .head l)
    (hl : l.Nodup) (ha : a ∉ l) (hnext : c.next a = none) :
    IsChain (c.write (endSlot .head l) (some a)) .head (l ++ [a]) := by
  have hne : Slot.next a ≠ endSlot .head l := (endSlot_head_ne ha).symm
  rw [isChain_append, isChain_cons, isChain_nil, read_write_same, read_write_of_ne _ _ hne]
  exact ⟨h.1.write_endSlot hl (by simp) _, rfl, hnext⟩

lemma IsChain.unlink {c : Cells α} {l₁ l₂ : List α} {a : α}
    (h : IsChain c .head (l₁ ++ a :: l₂)) (hl : (l₁ ++ a :: l₂).Nodup) :
    IsChain (c.write (endSlot .head l₁) (c.next a)) .head (l₁ ++ l₂) := by
  obtain ⟨hlinks, hrest⟩ := isChain_append.mp h
  obtain ⟨-, htail⟩ := isChain_cons.mp hrest
  have hdisjoint := List.disjoint_of_nodup_append hl
  rw [isChain_append]
  refine ⟨hlinks.write_endSlot (List.Nodup.of_append_left hl) (by simp) _, htail.congr ?_ ?_⟩
  · rw [read_write_same]
    rfl
  · intro b hb
    have hb' : b ∉ l₁ := fun hmem => hdisjoint hmem (List.mem_cons_of_mem a hb)
    exact read_write_of_ne c _ (endSlot_head_ne hb').symm

end Write

end LinkedChain
