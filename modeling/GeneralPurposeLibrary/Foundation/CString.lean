import Mathlib.Data.List.Basic

/-!
# Strings in buffers

A buffer of bytes holds the string in front of its first zero. A store that would leave the
buffer has no result.
-/

namespace CString

/-- The string at the front of a buffer. -/
def text (buffer : List UInt8) : List UInt8 := buffer.takeWhile (fun b => decide (b ≠ 0))

def strlen (buffer : List UInt8) : Nat := (text buffer).length

/-- The bytes are stored from index `i` on. -/
def storeAt (buffer : List UInt8) (i : Nat) (bytes : List UInt8) : Option (List UInt8) :=
  if i + bytes.length ≤ buffer.length then
    some (buffer.take i ++ bytes ++ buffer.drop (i + bytes.length))
  else none

/-- The buffer holds the string, its terminator included. -/
def Holds (buffer s : List UInt8) : Prop := 0 ∉ s ∧ ∃ rest, buffer = s ++ 0 :: rest

lemma Holds.text_eq {buffer s : List UInt8} (h : Holds buffer s) : text buffer = s := by
  obtain ⟨hs, rest, rfl⟩ := h
  have hall : ∀ b ∈ s, decide (b ≠ 0) = true := by
    intro b hb
    rw [decide_eq_true_iff]
    rintro rfl
    exact hs hb
  rw [text, List.takeWhile_append_of_pos hall, List.takeWhile_cons_of_neg (by decide),
    List.append_nil]

lemma Holds.strlen_eq {buffer s : List UInt8} (h : Holds buffer s) : strlen buffer = s.length := by
  rw [strlen, h.text_eq]

lemma storeAt_of_le {buffer bytes : List UInt8} {i : Nat} (h : i + bytes.length ≤ buffer.length) :
    storeAt buffer i bytes = some (buffer.take i ++ bytes ++ buffer.drop (i + bytes.length)) :=
  if_pos h

lemma storeAt_of_lt {buffer bytes : List UInt8} {i : Nat} (h : buffer.length < i + bytes.length) :
    storeAt buffer i bytes = none :=
  if_neg (by omega)

lemma storeAt_append {s t rest : List UInt8} (h : t.length < rest.length) :
    storeAt (s ++ rest) s.length (t ++ [0]) = some (s ++ t ++ 0 :: rest.drop (t.length + 1)) := by
  have hfits : s.length + (t ++ [0]).length ≤ (s ++ rest).length := by
    rw [List.length_append, List.length_append, List.length_singleton]
    omega
  rw [storeAt_of_le hfits, List.take_left, List.length_append, List.length_singleton,
    List.drop_append, List.drop_of_length_le (by omega), Nat.add_sub_cancel_left,
    List.nil_append, ← List.append_assoc, List.append_assoc, List.singleton_append]

lemma storeAt_append_of_le {s t rest : List UInt8} (h : rest.length ≤ t.length) :
    storeAt (s ++ rest) s.length (t ++ [0]) = none := by
  apply storeAt_of_lt
  rw [List.length_append, List.length_append, List.length_singleton]
  omega

lemma storeAt_zeros {s t : List UInt8} {n : Nat} (h : t.length < n) :
    storeAt (s ++ List.replicate n 0) s.length (t ++ [0]) =
      some (s ++ t ++ List.replicate (n - t.length) 0) := by
  have hrest : n - t.length = (n - (t.length + 1)) + 1 := by omega
  rw [storeAt_append (by rwa [List.length_replicate]), List.drop_replicate, hrest,
    List.replicate_succ]

lemma storeAt_zeros_of_le {s t : List UInt8} {n : Nat} (h : n ≤ t.length) :
    storeAt (s ++ List.replicate n 0) s.length (t ++ [0]) = none :=
  storeAt_append_of_le (by rwa [List.length_replicate])

lemma holds_zeros {s : List UInt8} (hs : 0 ∉ s) {n : Nat} (hn : 0 < n) :
    Holds (s ++ List.replicate n 0) s := by
  obtain ⟨k, rfl⟩ : ∃ k, n = k + 1 := ⟨n - 1, by omega⟩
  exact ⟨hs, List.replicate k 0, rfl⟩

end CString
