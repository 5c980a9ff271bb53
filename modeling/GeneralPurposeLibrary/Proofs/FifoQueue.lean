import GeneralPurposeLibrary.RealTimeFifo
import GeneralPurposeLibrary.Foundation.LinkedRing

/-!
# The content of the real-time fifo

Each fifo function in terms of the elements queued. `IsQueue m rfifo queue` says that the
links of `rfifo->head` run through `queue`, oldest element first.
-/

namespace GeneralPurposeLibrary.Proofs
open LinkedRing

variable {Addr : Type}

def nextOf (nodes : Nodes Addr) (a : Addr) : Addr := (nodes a).next

def prevOf (nodes : Nodes Addr) (a : Addr) : Addr := (nodes a).prev

def IsQueue (m : FifoMemory Addr) (rfifo : Addr) (queue : List Addr) : Prop :=
  IsRing (nextOf m.nodes) (prevOf m.nodes) rfifo queue

/-- What the release callback of a fifo is handed of a list of nodes that leave it. -/
def releasedOf (f : RealTimeFifo Addr) (left : List Addr) : List Addr :=
  if f.release.isSome then left else []

lemma releasedOf_append (f : RealTimeFifo Addr) (left more : List Addr) :
    releasedOf f (left ++ more) = releasedOf f left ++ releasedOf f more := by
  unfold releasedOf
  split <;> simp

section Reading

variable {m : FifoMemory Addr} {rfifo a : Addr} {queue : List Addr}

lemma IsQueue.next_head (h : IsQueue m rfifo (a :: queue)) : (m.nodes rfifo).next = a :=
  IsRing.next_head h

lemma IsQueue.unique {queue' : List Addr} (h : IsQueue m rfifo queue)
    (h' : IsQueue m rfifo queue') : queue = queue' :=
  IsRing.unique h h'

lemma IsQueue.first_notMem (h : IsQueue m rfifo (a :: queue)) : a ∉ rfifo :: queue := by
  have hnodup := h.nodup
  simp only [List.nodup_cons, List.mem_cons] at hnodup ⊢
  tauto

@[simp] lemma fifo_setNodes (nodes : Nodes Addr) : (m.setNodes nodes).fifo = m.fifo := rfl

@[simp] lemma released_setNodes (nodes : Nodes Addr) :
    (m.setNodes nodes).released = m.released := rfl

end Reading

variable [DecidableEq Addr]

section Links

variable (nodes : Nodes Addr) (a v : Addr)

@[simp] lemma nextOf_setNext :
    nextOf (nodes.setNext a v) = Function.update (nextOf nodes) a v := by
  ext b
  by_cases hb : b = a <;> simp [nextOf, Nodes.setNext, hb]

@[simp] lemma prevOf_setNext : prevOf (nodes.setNext a v) = prevOf nodes := by
  ext b
  by_cases hb : b = a <;> simp [prevOf, Nodes.setNext, hb]

@[simp] lemma nextOf_setPrev : nextOf (nodes.setPrev a v) = nextOf nodes := by
  ext b
  by_cases hb : b = a <;> simp [nextOf, Nodes.setPrev, hb]

@[simp] lemma prevOf_setPrev :
    prevOf (nodes.setPrev a v) = Function.update (prevOf nodes) a v := by
  ext b
  by_cases hb : b = a <;> simp [prevOf, Nodes.setPrev, hb]

end Links

section Steps

variable {m : FifoMemory Addr} {rfifo a : Addr} {queue : List Addr}

lemma listEmpty_iff (h : IsQueue m rfifo queue) : listEmpty m.nodes rfifo = true ↔ queue = [] := by
  rw [← IsRing.next_head_eq_iff h]
  simp [listEmpty, nextOf]

lemma isQueue_initListHead : IsQueue (m.setNodes (initListHead m.nodes rfifo)) rfifo [] := by
  apply IsRing.nil <;> simp [FifoMemory.setNodes, initListHead]

lemma isQueue_listAddTail (h : IsQueue m rfifo queue) (ha : a ∉ rfifo :: queue) :
    IsQueue (m.setNodes (listAddTail m.nodes a rfifo)) rfifo (queue ++ [a]) := by
  have hring := IsRing.append h ha
  simp only [IsQueue, FifoMemory.setNodes, listAddTail, _listAdd, nextOf_setNext,
    nextOf_setPrev, prevOf_setNext, prevOf_setPrev]
  exact hring

lemma isQueue_listDel (h : IsQueue m rfifo (a :: queue)) :
    IsQueue (m.setNodes (listDel m.nodes a)) rfifo queue := by
  have hring := IsRing.unlink h
  simp only [IsQueue, FifoMemory.setNodes, listDel, _listDel, nextOf_setNext, nextOf_setPrev,
    prevOf_setNext, prevOf_setPrev]
  exact hring

/-- The callback is handed a node that has already left the ring. -/
lemma isQueue_callRelease (h : IsQueue m rfifo queue) (ha : a ∉ rfifo :: queue) :
    IsQueue (callRelease m rfifo a) rfifo queue := by
  rw [callRelease]
  split
  · exact h
  · refine IsRing.congr h ?_ ?_ <;>
    · intro b hb
      have hba : b ≠ a := fun e => ha (e ▸ hb)
      simp [nextOf, prevOf, hba]

@[simp] lemma fifo_callRelease : (callRelease m rfifo a).fifo = m.fifo := by
  rw [callRelease]
  split <;> rfl

lemma released_callRelease :
    (callRelease m rfifo a).released = m.released ++ releasedOf (m.fifo rfifo) [a] := by
  rw [callRelease, releasedOf]
  split <;> simp_all

lemma isQueue_release_first (h : IsQueue m rfifo (a :: queue)) :
    IsQueue (callRelease (m.setNodes (listDel m.nodes a)) rfifo a) rfifo queue :=
  isQueue_callRelease (isQueue_listDel h) h.first_notMem

end Steps

/-- A fifo between `real_time_fifo_init` and `real_time_fifo_destroy` with its content. -/
structure Live (m : FifoMemory Addr) (rfifo : Addr) (queue : List Addr) : Prop where
  isQueue : IsQueue m rfifo queue
  initial : (m.fifo rfifo).isInitial ≠ 0

/-- The content that `real_time_fifo_put` leaves of the old one. -/
def keptBy (evicts : Bool) (queue : List Addr) : List Addr := if evicts then queue.tail else queue

/-- The elements that `real_time_fifo_put` drops. -/
def droppedBy (evicts : Bool) (queue : List Addr) : List Addr :=
  if evicts then queue.take 1 else []

section Specs

variable {m : FifoMemory Addr} {rfifo : Addr} {queue : List Addr}

lemma queue_ne_nil_of_putEvicts (h : IsQueue m rfifo queue) (he : putEvicts m rfifo = true) :
    queue ≠ [] := by
  rintro rfl
  simp [putEvicts, (listEmpty_iff h).mpr] at he

lemma live_init (size : BitVec 32) (func : Option (ReleaseFunc Addr)) :
    Live (realTimeFifoInit m (some rfifo) size func).2 rfifo [] where
  isQueue := isQueue_initListHead
  initial := by simp [realTimeFifoInit, FifoMemory.setFifo]

lemma realTimeFifoPut_spec (h : Live m rfifo queue) {node : Addr} (hnode : node ∉ rfifo :: queue) :
    ∃ m', realTimeFifoPut m (some rfifo) (some node) = (0, m') ∧
      Live m' rfifo (keptBy (putEvicts m rfifo) queue ++ [node]) ∧
      m'.released =
        m.released ++ releasedOf (m.fifo rfifo) (droppedBy (putEvicts m rfifo) queue) ∧
      m'.fifo rfifo =
        { m.fifo rfifo with in_ := (m.fifo rfifo).in_ + 1, out := (m.fifo rfifo).out + 1 } := by
  rw [realTimeFifoPut, if_neg h.initial]
  refine ⟨_, rfl, ?_⟩
  cases he : putEvicts m rfifo with
  | false =>
    refine ⟨⟨isQueue_listAddTail h.isQueue hnode, ?_⟩, ?_, ?_⟩ <;>
      simp [FifoMemory.incIn, FifoMemory.incOut, FifoMemory.setFifo, h.initial, droppedBy,
        releasedOf]
  | true =>
    cases queue with
    | nil => exact absurd rfl (queue_ne_nil_of_putEvicts h.isQueue he)
    | cons a queue =>
      have hkept : node ∉ rfifo :: queue := fun hmem => hnode (by simp at hmem ⊢; tauto)
      have hfirst := isQueue_release_first h.isQueue
      simp only [h.isQueue.next_head, if_true]
      refine ⟨⟨isQueue_listAddTail hfirst hkept, ?_⟩, ?_, ?_⟩ <;>
        simp [FifoMemory.incIn, FifoMemory.incOut, FifoMemory.setFifo, h.initial, droppedBy,
          released_callRelease]

lemma realTimeFifoGet_nil (h : IsQueue m rfifo []) (list : Addr) :
    realTimeFifoGet m (some rfifo) (some list) = (-1, m) := by
  rw [realTimeFifoGet, (listEmpty_iff h).mpr rfl]
  simp

lemma realTimeFifoGet_cons {a : Addr} (h : Live m rfifo (a :: queue)) (list : Addr) :
    ∃ m', realTimeFifoGet m (some rfifo) (some list) = (0, m') ∧ Live m' rfifo queue ∧
      m'.slot list = some a ∧ m'.released = m.released ∧
      m'.fifo rfifo = { m.fifo rfifo with in_ := (m.fifo rfifo).in_ + 1 } := by
  have hempty : ¬ listEmpty m.nodes rfifo = true := by simp [listEmpty_iff h.isQueue]
  rw [realTimeFifoGet, if_neg h.initial, if_neg hempty, h.isQueue.next_head]
  have hqueue : IsQueue ((m.setSlot list (some a)).setNodes (listDel m.nodes a)) rfifo queue :=
    isQueue_listDel h.isQueue
  refine ⟨_, rfl, ⟨hqueue, ?_⟩, ?_, ?_, ?_⟩ <;>
    simp [FifoMemory.incIn, FifoMemory.setFifo, FifoMemory.setNodes, FifoMemory.setSlot, h.initial]

/-- The loop unlinks and releases the queued elements in order; the successor of each is
read before the callback gets hold of it. -/
lemma destroyLoop_spec (h : IsQueue m rfifo queue) :
    ∃ m', (∀ fuel, queue.length < fuel →
        destroyLoop rfifo fuel m (m.nodes rfifo).next (m.nodes (m.nodes rfifo).next).next
          = some m') ∧
      IsQueue m' rfifo [] ∧ m'.fifo = m.fifo ∧
      m'.released = m.released ++ releasedOf (m.fifo rfifo) queue := by
  induction queue generalizing m with
  | nil =>
    have hhead : (m.nodes rfifo).next = rfifo := IsRing.next_head_eq h
    refine ⟨m, ?_, h, rfl, by simp [releasedOf]⟩
    intro fuel hfuel
    obtain ⟨fuel, rfl⟩ := Nat.exists_eq_add_one_of_ne_zero (Nat.ne_zero_of_lt hfuel)
    rw [destroyLoop, if_pos hhead]
  | cons a queue ih =>
    have hne : a ≠ rfifo := fun e => h.first_notMem (by simp [e])
    let m₁ := callRelease (m.setNodes (listDel m.nodes a)) rfifo a
    have hqueue : IsQueue m₁ rfifo queue := isQueue_release_first h
    have hnext : (m.nodes a).next = (m₁.nodes rfifo).next :=
      (IsRing.next_first h).trans (IsRing.next_head_eq hqueue).symm
    have hfifo₁ : m₁.fifo = m.fifo := by simp [m₁]
    obtain ⟨m', hloop, hend, hfifo, hreleased⟩ := ih hqueue
    refine ⟨m', ?_, hend, hfifo.trans hfifo₁, ?_⟩
    · intro fuel hfuel
      obtain ⟨fuel, rfl⟩ := Nat.exists_eq_add_one_of_ne_zero (Nat.ne_zero_of_lt hfuel)
      rw [destroyLoop, h.next_head, if_neg hne, hnext]
      exact hloop fuel (by simpa using hfuel)
    · rw [hreleased, hfifo₁, released_callRelease, fifo_setNodes, released_setNodes,
        List.append_assoc, ← releasedOf_append, List.singleton_append]

lemma realTimeFifoDestroy_spec (h : IsQueue m rfifo queue) :
    ∃ m', (∀ fuel, queue.length < fuel → realTimeFifoDestroy m fuel (some rfifo) = some (0, m')) ∧
      IsQueue m' rfifo [] ∧ (m'.fifo rfifo).isInitial = 0 ∧
      m'.released = m.released ++ releasedOf (m.fifo rfifo) queue := by
  obtain ⟨m', hloop, hend, -, hreleased⟩ := destroyLoop_spec h
  refine ⟨m'.setFifo rfifo { m'.fifo rfifo with in_ := 0, out := 0, isInitial := 0 }, ?_, hend,
    ?_, hreleased⟩
  · intro fuel hfuel
    simp only [realTimeFifoDestroy, hloop fuel hfuel]
  · simp [FifoMemory.setFifo]

lemma realTimeFifoPut_not_initial (h : (m.fifo rfifo).isInitial = 0) (list : Option Addr) :
    realTimeFifoPut m (some rfifo) list = (-1, m) := by
  cases list with
  | none => rfl
  | some list => rw [realTimeFifoPut, if_pos h]

lemma realTimeFifoGet_not_initial (h : (m.fifo rfifo).isInitial = 0) (list : Option Addr) :
    realTimeFifoGet m (some rfifo) list = (-1, m) := by
  cases list with
  | none => rfl
  | some list => rw [realTimeFifoGet, if_pos h]

end Specs

end GeneralPurposeLibrary.Proofs
