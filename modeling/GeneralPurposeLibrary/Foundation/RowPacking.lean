import GeneralPurposeLibrary.Foundation.StridedPlane
import Mathlib.Data.List.Basic

/-!
# Rows with and without padding

A list as a plane whose rows start `stride` places apart and use the first `width` of them.
`packed` puts the used parts one behind the other, and `Unpacks` is the way back. A row that is
spliced in changes no other row and no place between the rows.
-/

namespace RowPacking
open StridedPlane

variable {α : Type}

def row (stride width : ℕ) (plane : List α) (r : ℕ) : List α :=
  (plane.drop (place stride r 0)).take width

/-- The rows from `r` on, `n` of them, without padding. -/
def packed (stride width : ℕ) (plane : List α) (r n : ℕ) : List α :=
  (List.range' r n).flatMap (row stride width plane)

/-- The cells replace as many cells of the plane from place `i` on. -/
def splice (plane : List α) (i : ℕ) (cells : List α) : List α :=
  plane.take i ++ cells ++ plane.drop (i + cells.length)

/-- The `n` rows from `r` on lie in the plane. -/
def Fits (stride width : ℕ) (plane : List α) (r n : ℕ) : Prop :=
  ∀ q, r ≤ q → q < r + n → place stride q width ≤ plane.length

/-- The place `j` is used by one of the `n` rows from `r` on. -/
def InRows (stride width r n j : ℕ) : Prop :=
  ∃ q x, r ≤ q ∧ q < r + n ∧ x < width ∧ j = place stride q x

/-- The first `n` rows of the packed file have been put into the `n` rows of the plane from
`r` on, and nothing else has changed. -/
def Unpacks (stride width : ℕ) (file plane plane' : List α) (r n : ℕ) : Prop :=
  plane'.length = plane.length ∧
  (∀ i < n, row stride width plane' (r + i) = row width width file i) ∧
  ∀ j, ¬ InRows stride width r n j → plane'[j]? = plane[j]?

variable {stride width r n i j : ℕ} {plane plane' cells : List α}

lemma fits_of_mul_le (hstride : width ≤ stride) (h : (r + n) * stride ≤ plane.length) :
    Fits stride width plane r n := by
  intro q _ hq
  have hrows : (q + 1) * stride ≤ (r + n) * stride := Nat.mul_le_mul_right stride hq
  rw [Nat.add_mul, Nat.one_mul] at hrows
  unfold place
  omega

lemma Fits.head (h : Fits stride width plane r (n + 1)) :
    place stride r width ≤ plane.length :=
  h r le_rfl (by omega)

lemma Fits.tail (h : Fits stride width plane r (n + 1)) :
    Fits stride width plane (r + 1) n :=
  fun q hq hqn => h q (by omega) (by omega)

lemma Fits.of_length_eq (h : Fits stride width plane r n) (hlen : plane'.length = plane.length) :
    Fits stride width plane' r n :=
  fun q hq hqn => (h q hq hqn).trans_eq hlen.symm

lemma place_zero_add (stride r x : ℕ) : place stride r 0 + x = place stride r x := by
  unfold place
  omega

lemma getElem?_row {x : ℕ} (hx : x < width) :
    (row stride width plane r)[x]? = plane[place stride r x]? := by
  rw [row, List.getElem?_take_of_lt hx, List.getElem?_drop, place_zero_add]

lemma length_row (h : place stride r width ≤ plane.length) :
    (row stride width plane r).length = width := by
  rw [← place_zero_add] at h
  rw [row, List.length_take, List.length_drop]
  omega

lemma row_congr (h : ∀ x < width, plane[place stride r x]? = plane'[place stride r x]?) :
    row stride width plane r = row stride width plane' r := by
  apply List.ext_getElem?
  intro x
  by_cases hx : x < width
  · rw [getElem?_row hx, getElem?_row hx, h x hx]
  · have houtside (p : List α) : (row stride width p r)[x]? = none := by
      apply List.getElem?_eq_none
      rw [row, List.length_take]
      omega
    rw [houtside, houtside]

lemma packed_succ (stride width : ℕ) (plane : List α) (r n : ℕ) :
    packed stride width plane r (n + 1) =
      row stride width plane r ++ packed stride width plane (r + 1) n := by
  rw [packed, List.range'_succ, List.flatMap_cons, packed]

lemma length_packed (h : Fits stride width plane r n) :
    (packed stride width plane r n).length = n * width := by
  induction n generalizing r with
  | zero => simp [packed]
  | succ n ih =>
    rw [packed_succ, List.length_append, length_row h.head, ih h.tail, Nat.add_mul, Nat.one_mul,
      Nat.add_comm]

lemma row_packed (h : Fits stride width plane r n) (rest : List α) {i : ℕ} (hi : i < n) :
    row width width (packed stride width plane r n ++ rest) i =
      row stride width plane (r + i) := by
  induction n generalizing r i with
  | zero => omega
  | succ n ih =>
    have hfirst := length_row h.head
    rw [packed_succ, List.append_assoc]
    cases i with
    | zero =>
      rw [row, place, Nat.zero_mul, Nat.add_zero, List.drop_zero, List.take_left' hfirst,
        Nat.add_zero]
    | succ i =>
      have hskip : place width (i + 1) 0 =
          (row stride width plane r).length + place width i 0 := by
        rw [hfirst, place, place, Nat.add_mul, Nat.one_mul]
        omega
      have hrest := ih h.tail (i := i) (by omega)
      rw [row, hskip, ← List.drop_drop, List.drop_left, ← row, hrest, Nat.add_right_comm,
        Nat.add_assoc]

lemma length_splice (h : i + cells.length ≤ plane.length) :
    (splice plane i cells).length = plane.length := by
  rw [splice, List.length_append, List.length_append, List.length_take, List.length_drop]
  omega

lemma splice_end (plane cells : List α) : splice plane plane.length cells = plane ++ cells := by
  rw [splice, List.take_length, List.drop_of_length_le (by omega), List.append_nil]

lemma getElem?_splice_inside {x : ℕ} (hx : x < cells.length) (hi : i ≤ plane.length) :
    (splice plane i cells)[i + x]? = cells[x]? := by
  have htake : (plane.take i).length = i := by
    rw [List.length_take]
    omega
  rw [splice, List.append_assoc, List.getElem?_append_right (by omega), htake,
    Nat.add_sub_cancel_left, List.getElem?_append_left hx]

lemma getElem?_splice_outside (hj : j < i ∨ i + cells.length ≤ j) (hi : i ≤ plane.length) :
    (splice plane i cells)[j]? = plane[j]? := by
  have htake : (plane.take i).length = i := by
    rw [List.length_take]
    omega
  rcases hj with hj | hj
  · rw [splice, List.append_assoc, List.getElem?_append_left (by omega),
      List.getElem?_take_of_lt hj]
  · have hfront : (plane.take i ++ cells).length = i + cells.length := by
      rw [List.length_append, htake]
    rw [splice, List.getElem?_append_right (by omega), hfront, List.getElem?_drop,
      Nat.add_sub_cancel' hj]

lemma row_splice (hcells : cells.length = width) (h : place stride r width ≤ plane.length) :
    row stride width (splice plane (place stride r 0) cells) r = cells := by
  rw [← place_zero_add] at h
  apply List.ext_getElem?
  intro x
  by_cases hx : x < width
  · rw [getElem?_row hx, ← place_zero_add stride r x,
      getElem?_splice_inside (by omega) (by omega)]
  · rw [List.getElem?_eq_none (by omega : cells.length ≤ x)]
    apply List.getElem?_eq_none
    rw [row, List.length_take]
    omega

lemma not_inRows_of_lt (hstride : width ≤ stride) {q x : ℕ} (hq : q < r) (hx : x < width) :
    ¬ InRows stride width r n (place stride q x) := by
  rintro ⟨q', x', hr, -, hx', hplace⟩
  have hsame := place_inj (by omega) (by omega) hplace
  omega

lemma inRows_mono {r' n' : ℕ} (hr : r ≤ r') (hn : r' + n' ≤ r + n)
    (h : InRows stride width r' n' j) : InRows stride width r n j := by
  obtain ⟨q, x, hrq, hqn, hx, rfl⟩ := h
  exact ⟨q, x, by omega, by omega, hx, rfl⟩

lemma inRows_head (hj : place stride r 0 ≤ j) (hjw : j < place stride r 0 + width) :
    InRows stride width r (n + 1) j := by
  refine ⟨r, j - place stride r 0, le_rfl, by omega, by omega, ?_⟩
  rw [← place_zero_add]
  omega

lemma row_drop (width : ℕ) (file : List α) (i : ℕ) :
    row width width (file.drop width) i = row width width file (i + 1) := by
  rw [row, row, List.drop_drop, place, place, Nat.add_mul, Nat.one_mul, Nat.add_zero,
    Nat.add_zero, Nat.add_comm]

lemma length_first_row {file : List α} (hfile : width ≤ file.length) :
    (row width width file 0).length = width := by
  apply length_row
  rwa [place, Nat.zero_mul, Nat.zero_add]

lemma unpacks_zero (file plane : List α) : Unpacks stride width file plane plane r 0 :=
  ⟨rfl, by omega, fun _ _ => rfl⟩

lemma Unpacks.cons {file : List α} (hstride : width ≤ stride)
    (hrow : place stride r width ≤ plane.length) (hfile : width ≤ file.length)
    (h : Unpacks stride width (file.drop width)
      (splice plane (place stride r 0) (row width width file 0)) plane' (r + 1) n) :
    Unpacks stride width file plane plane' r (n + 1) := by
  obtain ⟨hlen, hrows, hother⟩ := h
  have hcells := length_first_row hfile
  have hfits : place stride r 0 + (row width width file 0).length ≤ plane.length := by
    rwa [hcells, place_zero_add]
  refine ⟨hlen.trans (length_splice hfits), ?_, ?_⟩
  · intro i hi
    cases i with
    | zero =>
      rw [Nat.add_zero, ← row_splice hcells hrow]
      apply row_congr
      intro x hx
      exact hother _ (not_inRows_of_lt hstride (by omega) hx)
    | succ i =>
      have hrest := hrows i (by omega)
      rw [← row_drop, ← hrest, Nat.add_right_comm, Nat.add_assoc]
  · intro j hj
    have hlater : ¬ InRows stride width (r + 1) n j :=
      fun h => hj (inRows_mono (by omega) (by omega) h)
    rw [hother j hlater]
    apply getElem?_splice_outside
    · by_contra hinside
      rw [hcells] at hinside
      exact hj (inRows_head (by omega) (by omega))
    · omega

end RowPacking
