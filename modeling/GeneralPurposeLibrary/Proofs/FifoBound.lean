import GeneralPurposeLibrary.Proofs.FifoAccounting
import Mathlib.Data.BitVec

/-!
# The bound of the real-time fifo

A put compares `out - in` with `size` to find out whether the queue is full. It adds one to
both counters and a get adds one to `in`, so `out - in` is minus the number of successful
gets and not the number of queued elements.
-/

namespace GeneralPurposeLibrary.Proofs

variable {Addr : Type}

/-- `max(size, 1)`, the number of elements the fifo is meant to hold. -/
def capacity (size : BitVec 32) : Nat := max size.toInt.toNat 1

/-- The fullness test agrees with the content along a sequence of calls on a fifo of the
given size, which starts with `n` elements after `gets` successful gets. -/
def CountersTell (size : BitVec 32) : Nat → Nat → List (FifoCall Addr) → Prop
  | _, _, [] => True
  | n, gets, .put _ :: calls =>
    (0 < n ∧ 2 ^ 32 ∣ size.toNat + gets ↔ n = capacity size) ∧
      CountersTell size (if n = capacity size then n else n + 1) gets calls
  | n, gets, .get _ :: calls =>
    CountersTell size (n - 1) (if n = 0 then gets else gets + 1) calls

lemma one_le_capacity (size : BitVec 32) : 1 ≤ capacity size := Nat.le_max_right _ _

lemma neg_ofNat_eq_iff (size : BitVec 32) (gets : Nat) :
    -BitVec.ofNat 32 gets = size ↔ 2 ^ 32 ∣ size.toNat + gets := by
  rw [neg_eq_iff_add_eq_zero, BitVec.toNat_eq, Nat.dvd_iff_mod_eq_zero]
  simp [BitVec.toNat_add, Nat.add_comm]

lemma keptBy_injective {queue : List Addr} {b c : Bool} (hqueue : queue ≠ [])
    (h : keptBy b queue = keptBy c queue) : b = c := by
  have hlength := congrArg List.length h
  have hpos := List.length_pos_iff.mpr hqueue
  cases b <;> cases c <;> simp [keptBy] at hlength ⊢ <;> omega

lemma length_keptBy_add_one (size : BitVec 32) (queue : List Addr) :
    (keptBy (queue.length = capacity size) queue).length + 1 =
      if queue.length = capacity size then queue.length else queue.length + 1 := by
  have hone := one_le_capacity size
  by_cases hfull : queue.length = capacity size
  · simp [keptBy, hfull]
    omega
  · simp [keptBy, hfull]

variable [DecidableEq Addr]

section Definitions

variable (limit : Nat) (rfifo : Addr)

/-- The call leaves at most `limit` elements, and a put drops the oldest element, and hands
it to the callback, exactly when the queue already holds `limit` elements. -/
def CallBounded (m : FifoMemory Addr) (call : FifoCall Addr) : Prop :=
  ∃ queue queue', IsQueue m rfifo queue ∧ IsQueue (m.call rfifo call).2 rfifo queue' ∧
    queue'.length ≤ limit ∧
    ∀ node, call = .put node →
      queue' = keptBy (queue.length = limit) queue ++ [node] ∧
      (m.call rfifo call).2.released =
        m.released ++ releasedOf (m.fifo rfifo) (droppedBy (queue.length = limit) queue)

def CallsBounded : FifoMemory Addr → List (FifoCall Addr) → Prop
  | _, [] => True
  | m, call :: calls => CallBounded limit rfifo m call ∧ CallsBounded (m.call rfifo call).2 calls

end Definitions

/-- A live fifo after `gets` successful gets. -/
structure Counted (size : BitVec 32) (m : FifoMemory Addr) (rfifo : Addr) (queue : List Addr)
    (gets : Nat) : Prop where
  live : Live m rfifo queue
  size_eq : (m.fifo rfifo).size = size
  out_sub_in : (m.fifo rfifo).out - (m.fifo rfifo).in_ = -BitVec.ofNat 32 gets

section Steps

variable {size : BitVec 32} {m : FifoMemory Addr} {rfifo : Addr} {queue : List Addr} {gets : Nat}

lemma counted_init (func : Option (ReleaseFunc Addr)) :
    Counted size (realTimeFifoInit m (some rfifo) size func).2 rfifo [] 0 where
  live := live_init size func
  size_eq := by simp [realTimeFifoInit, FifoMemory.setFifo]
  out_sub_in := by simp [realTimeFifoInit, FifoMemory.setFifo]

lemma putEvicts_iff (h : Counted size m rfifo queue gets) :
    putEvicts m rfifo = true ↔ 0 < queue.length ∧ 2 ^ 32 ∣ size.toNat + gets := by
  have hempty := listEmpty_iff h.live.isQueue
  rw [List.length_pos_iff, ← neg_ofNat_eq_iff, ← h.out_sub_in, ← h.size_eq, putEvicts]
  simp [← hempty, and_comm]

lemma counted_put (h : Counted size m rfifo queue gets) {node : Addr}
    (hf : Fresh rfifo m (.put node)) :
    Counted size (m.call rfifo (.put node)).2 rfifo
      (keptBy (putEvicts m rfifo) queue ++ [node]) gets := by
  obtain ⟨m', hput, hlive, -, hfifo⟩ := realTimeFifoPut_spec h.live (hf.notMem h.live.isQueue)
  rw [FifoMemory.call, hput]
  refine ⟨hlive, ?_, ?_⟩
  · rw [hfifo]
    exact h.size_eq
  · rw [hfifo, ← h.out_sub_in]
    exact add_sub_add_right_eq_sub _ _ 1

lemma counted_get (h : Counted size m rfifo queue gets) (list : Addr) :
    Counted size (m.call rfifo (.get list)).2 rfifo queue.tail
      (if queue.length = 0 then gets else gets + 1) := by
  cases queue with
  | nil =>
    rw [FifoMemory.call, realTimeFifoGet_nil h.live.isQueue]
    exact h
  | cons a queue =>
    obtain ⟨m', hget, hlive, -, -, hfifo⟩ := realTimeFifoGet_cons h.live list
    rw [FifoMemory.call, hget]
    refine ⟨hlive, ?_, ?_⟩
    · rw [hfifo]
      exact h.size_eq
    · rw [hfifo, if_neg (by simp), BitVec.ofNat_add, neg_add, ← h.out_sub_in,
        ← sub_eq_add_neg]
      exact sub_add_eq_sub_sub _ _ _

lemma putEvicts_eq_full_iff (h : Counted size m rfifo queue gets) :
    putEvicts m rfifo = decide (queue.length = capacity size) ↔
      (0 < queue.length ∧ 2 ^ 32 ∣ size.toNat + gets ↔ queue.length = capacity size) := by
  rw [Bool.eq_iff_iff, putEvicts_iff h, decide_eq_true_iff]

/-- A put does what is asked of it exactly when its fullness test is right. -/
lemma callBounded_put_iff (h : Counted size m rfifo queue gets)
    (hle : queue.length ≤ capacity size) {node : Addr} (hf : Fresh rfifo m (.put node)) :
    CallBounded (capacity size) rfifo m (.put node) ↔
      putEvicts m rfifo = decide (queue.length = capacity size) := by
  have hone := one_le_capacity size
  obtain ⟨m', hput, hlive, hreleased, -⟩ :=
    realTimeFifoPut_spec h.live (hf.notMem h.live.isQueue)
  constructor
  · rintro ⟨queue₀, queue', hqueue₀, hqueue', -, hspec⟩
    obtain ⟨hkept, -⟩ := hspec node rfl
    have hsame := hqueue₀.unique h.live.isQueue
    subst hsame
    rw [FifoMemory.call, hput] at hqueue'
    rw [hqueue'.unique hlive.isQueue, List.append_cancel_right_eq] at hkept
    by_cases hnil : queue₀ = []
    · subst hnil
      have hfull : ¬ ([] : List Addr).length = capacity size := by
        simp only [List.length_nil]
        omega
      rw [decide_eq_false hfull, Bool.eq_false_iff]
      exact fun he => queue_ne_nil_of_putEvicts h.live.isQueue he rfl
    · exact keptBy_injective hnil hkept
  · intro hbit
    rw [hbit] at hlive hreleased
    refine ⟨queue, keptBy (queue.length = capacity size) queue ++ [node], h.live.isQueue,
      ?_, ?_, ?_⟩
    · rw [FifoMemory.call, hput]
      exact hlive.isQueue
    · rw [List.length_append, List.length_singleton, length_keptBy_add_one]
      split <;> omega
    · intro node' hnode'
      obtain rfl : node = node' := by simpa using hnode'
      rw [FifoMemory.call, hput]
      exact ⟨rfl, hreleased⟩

lemma callBounded_get (h : Counted size m rfifo queue gets)
    (hle : queue.length ≤ capacity size) (list : Addr) :
    CallBounded (capacity size) rfifo m (.get list) := by
  refine ⟨queue, queue.tail, h.live.isQueue, (counted_get h list).live.isQueue, ?_, ?_⟩
  · rw [List.length_tail]
    omega
  · intro node hnode
    simp at hnode

lemma callsBounded_iff (h : Counted size m rfifo queue gets)
    (hle : queue.length ≤ capacity size) {calls : List (FifoCall Addr)}
    (hf : FreshPuts rfifo m calls) :
    CallsBounded (capacity size) rfifo m calls ↔ CountersTell size queue.length gets calls := by
  induction calls generalizing m queue gets with
  | nil => exact Iff.rfl
  | cons call calls ih =>
    cases call with
    | put node =>
      rw [CallsBounded, CountersTell, callBounded_put_iff h hle hf.1, ← putEvicts_eq_full_iff h]
      refine and_congr_right ?_
      intro hbit
      have hput := counted_put h hf.1
      rw [hbit] at hput
      have hlength : (keptBy (queue.length = capacity size) queue ++ [node]).length =
          if queue.length = capacity size then queue.length else queue.length + 1 := by
        rw [List.length_append, List.length_singleton, length_keptBy_add_one]
      rw [← hlength]
      refine ih hput ?_ hf.2
      rw [hlength]
      split <;> omega
    | get list =>
      rw [CallsBounded, CountersTell, ← List.length_tail,
        and_iff_right (callBounded_get h hle list)]
      refine ih (counted_get h list) ?_ hf.2
      rw [List.length_tail]
      omega

end Steps

/-- A new fifo keeps to its bound, and evicts exactly when it is full, along a sequence of
calls if and only if at every put the element count and the number of earlier successful
gets make the fullness test right. -/
theorem fifo_bounded_iff_countersTell (m : FifoMemory Addr) (rfifo : Addr) (size : BitVec 32)
    (func : Option (ReleaseFunc Addr)) (calls : List (FifoCall Addr))
    (hf : FreshPuts rfifo (realTimeFifoInit m (some rfifo) size func).2 calls) :
    CallsBounded (capacity size) rfifo (realTimeFifoInit m (some rfifo) size func).2 calls ↔
      CountersTell size 0 0 calls :=
  callsBounded_iff (counted_init func) (Nat.zero_le _) hf

/-- Without a get, size 0 means a queue of the latest element. -/
theorem fifo_of_size_zero_bounded :
    FreshPuts 0 (newFifo 0) [.put 1, .put 2] ∧
      CallsBounded (capacity 0) 0 (newFifo 0) [.put 1, .put 2] := by
  have hfresh : FreshPuts 0 (newFifo 0) [.put 1, .put 2] :=
    freshPuts_of_nodup (live_init 0 _) (by decide)
  refine ⟨hfresh, (fifo_bounded_iff_countersTell zeroMemory 0 0 _ _ hfresh).mpr ?_⟩
  simp [CountersTell, capacity]

/-- The second put on a fifo of size 1 keeps both elements. -/
theorem fifo_of_size_one_overflows :
    FreshPuts 0 (newFifo 1) [.put 1, .put 2] ∧
      ¬ CallsBounded (capacity 1) 0 (newFifo 1) [.put 1, .put 2] := by
  have hfresh : FreshPuts 0 (newFifo 1) [.put 1, .put 2] :=
    freshPuts_of_nodup (live_init 1 _) (by decide)
  refine ⟨hfresh, ?_⟩
  rw [newFifo, callsBounded_iff (counted_init _) (Nat.zero_le _) hfresh]
  simp [CountersTell, capacity]

end GeneralPurposeLibrary.Proofs
