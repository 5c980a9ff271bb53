import GeneralPurposeLibrary.Proofs.FifoQueue

/-!
# Element accounting of the real-time fifo

Whatever the counters do, the elements that leave the fifo, in the order they leave,
followed by the elements still queued are the elements put.
-/

namespace GeneralPurposeLibrary.Proofs

variable {Addr : Type}

def nodesPut : FifoCall Addr → List Addr
  | .put list => [list]
  | .get _ => []

def putNodes (calls : List (FifoCall Addr)) : List Addr := calls.flatMap nodesPut

/-- A node handed to `real_time_fifo_put` is not the head and not queued already. -/
def Fresh (rfifo : Addr) (m : FifoMemory Addr) (call : FifoCall Addr) : Prop :=
  ∀ node ∈ nodesPut call, node ≠ rfifo ∧ ∀ queue, IsQueue m rfifo queue → node ∉ queue

lemma Fresh.notMem {m : FifoMemory Addr} {rfifo : Addr} {queue : List Addr}
    (h : IsQueue m rfifo queue) {node : Addr} (hf : Fresh rfifo m (.put node)) :
    node ∉ rfifo :: queue := by
  obtain ⟨hne, hqueue⟩ := hf node (by simp [nodesPut])
  simp [hne, hqueue queue h]

lemma droppedBy_append_keptBy (evicts : Bool) (queue : List Addr) :
    droppedBy evicts queue ++ keptBy evicts queue = queue := by
  cases evicts with
  | false => rfl
  | true => cases queue <;> rfl

variable [DecidableEq Addr]

section Definitions

variable (rfifo : Addr)

def evictedBy (m : FifoMemory Addr) : FifoCall Addr → List Addr
  | .put _ => if putEvicts m rfifo then [(m.nodes rfifo).next] else []
  | .get _ => []

def gotBy (m : FifoMemory Addr) : FifoCall Addr → List Addr
  | .put _ => []
  | .get list =>
    let result := realTimeFifoGet m (some rfifo) (some list)
    if result.1 = 0 then (result.2.slot list).toList else []

def takenBy (m : FifoMemory Addr) (call : FifoCall Addr) : List Addr :=
  evictedBy rfifo m call ++ gotBy rfifo m call

/-- What the calls of a run yield, in the order of the calls. -/
def alongCalls (yield : FifoMemory Addr → FifoCall Addr → List Addr) :
    FifoMemory Addr → List (FifoCall Addr) → List Addr
  | _, [] => []
  | m, call :: calls => yield m call ++ alongCalls yield (m.call rfifo call).2 calls

def FreshPuts : FifoMemory Addr → List (FifoCall Addr) → Prop
  | _, [] => True
  | m, call :: calls => Fresh rfifo m call ∧ FreshPuts (m.call rfifo call).2 calls

end Definitions

section Accounting

variable {m : FifoMemory Addr} {rfifo : Addr} {queue : List Addr}

lemma evictedBy_put (h : IsQueue m rfifo queue) (node : Addr) :
    evictedBy rfifo m (.put node) = droppedBy (putEvicts m rfifo) queue := by
  cases he : putEvicts m rfifo with
  | false => simp [evictedBy, droppedBy, he]
  | true =>
    cases queue with
    | nil => exact absurd rfl (queue_ne_nil_of_putEvicts h he)
    | cons a queue => simp [evictedBy, droppedBy, he, h.next_head]

/-- A call moves elements from the old content out and new ones in, and tells the callback
about those it evicts. -/
lemma call_accounting (h : Live m rfifo queue) {call : FifoCall Addr}
    (hf : Fresh rfifo m call) :
    ∃ queue', Live (m.call rfifo call).2 rfifo queue' ∧
      takenBy rfifo m call ++ queue' = queue ++ nodesPut call ∧
      (m.call rfifo call).2.released =
        m.released ++ releasedOf (m.fifo rfifo) (evictedBy rfifo m call) ∧
      ((m.call rfifo call).2.fifo rfifo).release = (m.fifo rfifo).release := by
  cases call with
  | put node =>
    obtain ⟨m', hput, hlive, hreleased, hfifo⟩ := realTimeFifoPut_spec h (hf.notMem h.isQueue)
    simp only [FifoMemory.call, hput, takenBy, evictedBy_put h.isQueue, gotBy, nodesPut,
      List.append_nil]
    refine ⟨_, hlive, ?_, hreleased, by rw [hfifo]⟩
    rw [← List.append_assoc, droppedBy_append_keptBy]
  | get list =>
    cases queue with
    | nil =>
      have hget := realTimeFifoGet_nil h.isQueue list
      refine ⟨[], ?_⟩
      simpa [FifoMemory.call, hget, takenBy, evictedBy, gotBy, nodesPut, releasedOf] using h
    | cons a queue =>
      obtain ⟨m', hget, hlive, hslot, hreleased, hfifo⟩ := realTimeFifoGet_cons h list
      refine ⟨queue, ?_⟩
      simp only [FifoMemory.call, hget]
      refine ⟨hlive, ?_, ?_, by rw [hfifo]⟩
      · simp [takenBy, evictedBy, gotBy, hget, hslot, nodesPut]
      · simp [hreleased, evictedBy, releasedOf]

lemma runCalls_accounting (h : Live m rfifo queue) {calls : List (FifoCall Addr)}
    (hf : FreshPuts rfifo m calls) :
    ∃ queue', Live (runCalls rfifo m calls) rfifo queue' ∧
      alongCalls rfifo (takenBy rfifo) m calls ++ queue' = queue ++ putNodes calls ∧
      (runCalls rfifo m calls).released =
        m.released ++ releasedOf (m.fifo rfifo) (alongCalls rfifo (evictedBy rfifo) m calls) ∧
      ((runCalls rfifo m calls).fifo rfifo).release = (m.fifo rfifo).release := by
  induction calls generalizing m queue with
  | nil =>
    refine ⟨queue, h, ?_, ?_, rfl⟩
    · simp [alongCalls, putNodes]
    · simp [runCalls, alongCalls, releasedOf]
  | cons call calls ih =>
    obtain ⟨queue₁, hlive₁, htaken₁, hreleased₁, hrelease₁⟩ := call_accounting h hf.1
    obtain ⟨queue', hlive, htaken, hreleased, hrelease⟩ := ih hlive₁ hf.2
    have hsame : ∀ left, releasedOf ((m.call rfifo call).2.fifo rfifo) left =
        releasedOf (m.fifo rfifo) left := by
      intro left
      rw [releasedOf, releasedOf, hrelease₁]
    refine ⟨queue', hlive, ?_, ?_, hrelease.trans hrelease₁⟩
    · calc takenBy rfifo m call ++ alongCalls rfifo (takenBy rfifo) _ calls ++ queue'
          = takenBy rfifo m call ++ queue₁ ++ putNodes calls := by
            rw [List.append_assoc, htaken, List.append_assoc]
        _ = queue ++ putNodes (call :: calls) := by
            rw [htaken₁, List.append_assoc, putNodes, putNodes, List.flatMap_cons]
    · rw [runCalls, hreleased, hreleased₁, hsame, List.append_assoc, ← releasedOf_append,
        alongCalls]

lemma freshPuts_of_nodup (h : Live m rfifo queue) {calls : List (FifoCall Addr)}
    (hnodup : (rfifo :: (queue ++ putNodes calls)).Nodup) : FreshPuts rfifo m calls := by
  induction calls generalizing m queue with
  | nil => trivial
  | cons call calls ih =>
    rw [putNodes, List.flatMap_cons, ← List.append_assoc] at hnodup
    have hfresh : Fresh rfifo m call := by
      intro node hnode
      have hall : (rfifo :: (queue ++ nodesPut call)).Nodup :=
        hnodup.sublist (by simp)
      have hne : rfifo ≠ node := by
        rintro rfl
        simp [hnode] at hall
      refine ⟨hne.symm, ?_⟩
      intro queue' hqueue' hmem
      rw [← h.isQueue.unique hqueue'] at hmem
      exact List.disjoint_of_nodup_append (List.nodup_cons.mp hall).2 hmem hnode
    obtain ⟨queue', hlive, htaken, -⟩ := call_accounting h hfresh
    refine ⟨hfresh, ih hlive (hnodup.sublist ?_)⟩
    rw [← htaken, List.append_assoc]
    exact (List.sublist_append_right _ _).cons_cons rfifo

lemma runCalls_not_initial (h : (m.fifo rfifo).isInitial = 0) (calls : List (FifoCall Addr)) :
    runCalls rfifo m calls = m := by
  induction calls with
  | nil => rfl
  | cons call calls ih =>
    have hcall : (m.call rfifo call).2 = m := by
      cases call with
      | put list => rw [FifoMemory.call, realTimeFifoPut_not_initial h]
      | get list => rw [FifoMemory.call, realTimeFifoGet_not_initial h]
    rw [runCalls, hcall, ih]

end Accounting

/-- After any calls on a new fifo, the elements taken out followed by those still queued are
the elements put, and the callback has seen the evicted ones. A get on an empty queue fails
and changes nothing. Destroying the fifo releases the rest, oldest first, and disables it. -/
theorem fifo_accounts_for_elements (m : FifoMemory Addr) (rfifo : Addr) (size : BitVec 32)
    (func : Option (ReleaseFunc Addr)) (calls : List (FifoCall Addr))
    (hf : FreshPuts rfifo (realTimeFifoInit m (some rfifo) size func).2 calls) :
    let start := (realTimeFifoInit m (some rfifo) size func).2
    let now := runCalls rfifo start calls
    ∃ queue, IsQueue now rfifo queue ∧
      alongCalls rfifo (takenBy rfifo) start calls ++ queue = putNodes calls ∧
      now.released = m.released ++
        (if func.isSome then alongCalls rfifo (evictedBy rfifo) start calls else []) ∧
      (queue = [] → ∀ list, realTimeFifoGet now (some rfifo) (some list) = (-1, now)) ∧
      ∃ final, (∀ fuel, queue.length < fuel →
          realTimeFifoDestroy now fuel (some rfifo) = some (0, final)) ∧
        final.released = now.released ++ (if func.isSome then queue else []) ∧
        IsQueue final rfifo [] ∧
        (∀ later, runCalls rfifo final later = final) ∧
        ∀ list, realTimeFifoPut final (some rfifo) list = (-1, final) ∧
          realTimeFifoGet final (some rfifo) list = (-1, final) := by
  intro start now
  have hrelease : (start.fifo rfifo).release = func := by
    simp [start, realTimeFifoInit, FifoMemory.setFifo]
  obtain ⟨queue, hlive, htaken, hreleased, hsame⟩ :=
    runCalls_accounting (live_init size func) hf
  obtain ⟨final, hdestroy, hempty, hdisabled, hrest⟩ := realTimeFifoDestroy_spec hlive.isQueue
  rw [releasedOf, hsame, hrelease] at hrest
  rw [releasedOf, hrelease] at hreleased
  refine ⟨queue, hlive.isQueue, htaken, hreleased, ?_, final, hdestroy, hrest, hempty, ?_, ?_⟩
  · rintro rfl list
    exact realTimeFifoGet_nil hlive.isQueue list
  · exact runCalls_not_initial hdisabled
  · intro list
    exact ⟨realTimeFifoPut_not_initial hdisabled list, realTimeFifoGet_not_initial hdisabled list⟩

/-- A memory of all zeros. -/
def zeroMemory : FifoMemory Nat := ⟨fun _ => ⟨0, 0⟩, fun _ => ⟨0, 0, 0, none, 0⟩, fun _ => none, []⟩

def newFifo (size : BitVec 32) : FifoMemory Nat :=
  (realTimeFifoInit zeroMemory (some 0) size (some fun _ links => links)).2

theorem fifo_accounts_for_two_puts_and_get :
    FreshPuts 0 (newFifo 0) [.put 1, .put 2, .get 7] ∧
      ∃ queue, IsQueue (runCalls 0 (newFifo 0) [.put 1, .put 2, .get 7]) 0 queue ∧
        alongCalls 0 (takenBy 0) (newFifo 0) [.put 1, .put 2, .get 7] ++ queue = [1, 2] := by
  have hfresh : FreshPuts 0 (newFifo 0) [.put 1, .put 2, .get 7] :=
    freshPuts_of_nodup (live_init 0 _) (by decide)
  obtain ⟨queue, hqueue, htaken, -⟩ := fifo_accounts_for_elements zeroMemory 0 0 _ _ hfresh
  exact ⟨hfresh, queue, hqueue, htaken⟩

end GeneralPurposeLibrary.Proofs
