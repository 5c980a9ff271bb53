import Mathlib.Data.Nat.Notation

/-!
# Lines cut into chunks

A chunk of a text runs up to its first line end, which it includes, but has at most `limit`
letters. `chunks` cuts a text into such pieces.
-/

namespace LineChunks

variable {α : Type} [DecidableEq α] (newline : α)

def chunkLength : ℕ → List α → ℕ
  | 0, _ => 0
  | _ + 1, [] => 0
  | limit + 1, a :: as => if a = newline then 1 else chunkLength limit as + 1

lemma chunkLength_le (limit : ℕ) (l : List α) : chunkLength newline limit l ≤ limit := by
  induction limit generalizing l with
  | zero => exact Nat.le_refl 0
  | succ limit ih =>
    cases l with
    | nil => exact Nat.zero_le _
    | cons a as =>
      rw [chunkLength]
      split
      · exact Nat.succ_le_succ (Nat.zero_le _)
      · exact Nat.succ_le_succ (ih as)

lemma chunkLength_pos (limit : ℕ) (a : α) (as : List α) :
    0 < chunkLength newline (limit + 1) (a :: as) := by
  rw [chunkLength]
  split
  · exact Nat.one_pos
  · exact Nat.succ_pos _

/-- The chunks of a text, for a limit of `limit + 1` letters. -/
def chunks (limit : ℕ) : List α → List (List α)
  | [] => []
  | a :: as =>
    have := chunkLength_pos newline limit a as
    (a :: as).take (chunkLength newline (limit + 1) (a :: as)) ::
      chunks limit ((a :: as).drop (chunkLength newline (limit + 1) (a :: as)))
  termination_by l => l.length
  decreasing_by
    rw [List.length_drop, List.length_cons]
    omega

lemma chunks_nil (limit : ℕ) : chunks newline limit [] = [] := by
  rw [chunks]

lemma chunks_of_ne_nil (limit : ℕ) {l : List α} (h : l ≠ []) :
    chunks newline limit l = l.take (chunkLength newline (limit + 1) l) ::
      chunks newline limit (l.drop (chunkLength newline (limit + 1) l)) := by
  cases l with
  | nil => exact absurd rfl h
  | cons a as => rw [chunks]

/-- The chunks put together again are the text. -/
theorem flatten_chunks (limit : ℕ) (l : List α) : (chunks newline limit l).flatten = l := by
  fun_induction chunks newline limit l with
  | case1 => rfl
  | case2 a as _ ih => rw [List.flatten_cons, ih, List.take_append_drop]

lemma chunkLength_line {newline : α} {line : List α} (hline : newline ∉ line) {limit : ℕ}
    (hlen : line.length < limit) (rest : List α) :
    chunkLength newline limit (line ++ newline :: rest) = line.length + 1 := by
  induction line generalizing limit with
  | nil =>
    obtain ⟨k, rfl⟩ : ∃ k, limit = k + 1 := ⟨limit - 1, by rw [List.length_nil] at hlen; omega⟩
    rw [List.nil_append, chunkLength, if_pos rfl, List.length_nil]
  | cons a line ih =>
    rw [List.mem_cons, not_or] at hline
    rw [List.length_cons] at hlen
    obtain ⟨k, rfl⟩ : ∃ k, limit = k + 1 := ⟨limit - 1, by omega⟩
    rw [List.cons_append, chunkLength, if_neg (fun h => hline.1 h.symm),
      ih hline.2 (by omega), List.length_cons]

lemma chunkLength_of_le {newline : α} {line : List α} (hline : newline ∉ line) {limit : ℕ}
    (hlen : limit ≤ line.length) (rest : List α) :
    chunkLength newline limit (line ++ rest) = limit := by
  induction line generalizing limit with
  | nil =>
    rw [List.length_nil] at hlen
    rw [Nat.le_zero.mp hlen]
    rfl
  | cons a line ih =>
    rw [List.mem_cons, not_or] at hline
    cases limit with
    | zero => rfl
    | succ k =>
      rw [List.length_cons] at hlen
      rw [List.cons_append, chunkLength, if_neg (fun h => hline.1 h.symm),
        ih hline.2 (by omega)]

/-- A line that fits is a chunk. -/
theorem chunks_line {newline : α} {line : List α} (hline : newline ∉ line) {limit : ℕ}
    (hlen : line.length ≤ limit) (rest : List α) :
    chunks newline limit (line ++ newline :: rest) =
      (line ++ [newline]) :: chunks newline limit rest := by
  have hsplit : line ++ newline :: rest = (line ++ [newline]) ++ rest := by
    rw [List.append_assoc, List.singleton_append]
  have hlast : line.length + 1 = (line ++ [newline]).length := by
    rw [List.length_append, List.length_singleton]
  rw [chunks_of_ne_nil newline limit (by simp), chunkLength_line hline (by omega), hsplit, hlast,
    List.take_left, List.drop_left]

/-- A line that does not fit is cut. -/
theorem chunks_cut {newline : α} {line : List α} (hline : newline ∉ line) {limit : ℕ}
    (hlen : limit < line.length) (rest : List α) :
    chunks newline limit (line ++ rest) =
      line.take (limit + 1) :: chunks newline limit (line.drop (limit + 1) ++ rest) := by
  have hne : line ++ rest ≠ [] := by
    intro h
    rw [(List.append_eq_nil_iff.mp h).1] at hlen
    exact absurd hlen (by simp)
  rw [chunks_of_ne_nil newline limit hne, chunkLength_of_le hline hlen,
    List.take_append_of_le_length hlen, List.drop_append_of_le_length hlen]

lemma lt_chunkLength {newline : α} {front : List α} (hfront : newline ∉ front) {limit : ℕ}
    (hlen : front.length < limit) (a : α) (rest : List α) :
    front.length < chunkLength newline limit (front ++ a :: rest) := by
  induction front generalizing limit with
  | nil =>
    obtain ⟨k, rfl⟩ : ∃ k, limit = k + 1 := ⟨limit - 1, by rw [List.length_nil] at hlen; omega⟩
    exact chunkLength_pos newline k a rest
  | cons b front ih =>
    rw [List.mem_cons, not_or] at hfront
    rw [List.length_cons] at hlen
    obtain ⟨k, rfl⟩ : ∃ k, limit = k + 1 := ⟨limit - 1, by omega⟩
    rw [List.cons_append, chunkLength, if_neg (fun h => hfront.1 h.symm), List.length_cons]
    exact Nat.succ_lt_succ (ih hfront.2 (by omega))

/-- The first chunk goes beyond a front that fits. -/
theorem exists_chunks_front {newline : α} {front : List α} (hfront : newline ∉ front) {limit : ℕ}
    (hlen : front.length ≤ limit) (a : α) (rest : List α) :
    ∃ tail lines, chunks newline limit (front ++ a :: rest) = (front ++ a :: tail) :: lines := by
  have hlt : front.length < chunkLength newline (limit + 1) (front ++ a :: rest) :=
    lt_chunkLength hfront (Nat.lt_succ_of_le hlen) a rest
  obtain ⟨k, hk⟩ : ∃ k, chunkLength newline (limit + 1) (front ++ a :: rest) =
      front.length + (k + 1) :=
    ⟨chunkLength newline (limit + 1) (front ++ a :: rest) - (front.length + 1), by omega⟩
  refine ⟨rest.take k,
    chunks newline limit ((front ++ a :: rest).drop (front.length + (k + 1))), ?_⟩
  rw [chunks_of_ne_nil newline limit (by simp), hk, List.take_length_add_append,
    List.take_succ_cons]

end LineChunks
