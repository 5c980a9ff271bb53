import GeneralPurposeLibrary.PacketBuffer

/-!
# Progress counters of the packet buffer

The invariant that links `index`, `req_len`, the announced lengths and the allocated body
over any order of calls, and the blocks that a packet owns until it is destroyed.
-/

namespace GeneralPurposeLibrary.Proofs

/-- The arguments a caller may pass: no more bytes than requested, and no negative length. -/
def Admissible (p : PacketBuffer) : PacketCall → Prop
  | .updateIndex len => 0 ≤ len ∧ len ≤ p.reqLen
  | .updateBody bodyLen _ => 0 ≤ bodyLen
  | .updateHeader => True

instance decidableAdmissible (p : PacketBuffer) :
    (call : PacketCall) → Decidable (Admissible p call)
  | .updateIndex len => inferInstanceAs (Decidable (0 ≤ len ∧ len ≤ p.reqLen))
  | .updateBody bodyLen _ => inferInstanceAs (Decidable (0 ≤ bodyLen))
  | .updateHeader => isTrue trivial

def completeCode : BufferState → Int
  | .header => recvStateHeaderComplete
  | .body => recvStateBodyComplete
  | .butt => 0

lemma completeCode_ne {state : BufferState} (h : state ≠ .butt) :
    completeCode state ≠ recvStateInProgress := by
  cases state with
  | header => decide
  | body => decide
  | butt => exact absurd rfl h

/-- The length that the current state is to fill. -/
def totalLen (p : PacketBuffer) : Int :=
  if p.state = .header then p.headerLen else p.bodyLen

structure Progress (headerLen : Int) (heap : BlockHeap UInt8) (p : PacketBuffer) : Prop where
  headerLen_eq : p.headerLen = headerLen
  state_ne_butt : p.state ≠ .butt
  index_nonneg : 0 ≤ p.index
  reqLen_nonneg : 0 ≤ p.reqLen
  bodyLen_nonneg : 0 ≤ p.bodyLen
  index_add_reqLen : p.index + p.reqLen = totalLen p
  bodyLen_le : p.bodyLen ≤ (heap.contents p.body).length

variable {Addr : Type} [DecidableEq Addr]

def AdmissibleCalls (packet : Addr) : PacketMemory Addr → List PacketCall → Prop
  | _, [] => True
  | m, call :: calls =>
    Admissible (m.packets packet) call ∧ AdmissibleCalls packet (m.call packet call).2 calls

instance decidableAdmissibleCalls (packet : Addr) :
    (m : PacketMemory Addr) → (calls : List PacketCall) → Decidable (AdmissibleCalls packet m calls)
  | _, [] => isTrue trivial
  | m, call :: calls =>
    have := decidableAdmissibleCalls packet (m.call packet call).2 calls
    inferInstanceAs (Decidable (Admissible (m.packets packet) call ∧
      AdmissibleCalls packet (m.call packet call).2 calls))

section Specs

variable {m : PacketMemory Addr} {packet : Addr}

@[simp] lemma packets_setPacket (p : PacketBuffer) : (m.setPacket packet p).packets packet = p :=
  Function.update_self ..

@[simp] lemma heap_setPacket (p : PacketBuffer) : (m.setPacket packet p).heap = m.heap := rfl

lemma packetBufferUpdateIndex_spec {len : Int} (hstate : (m.packets packet).state ≠ .butt)
    (htotal : (m.packets packet).index + (m.packets packet).reqLen = totalLen (m.packets packet))
    (hlen : len ≤ (m.packets packet).reqLen) :
    packetBufferUpdateIndex m (some packet) len =
      (if len < (m.packets packet).reqLen then recvStateInProgress
        else completeCode (m.packets packet).state,
      m.setPacket packet { m.packets packet with
        index := (m.packets packet).index + len
        reqLen := (m.packets packet).reqLen - len }) := by
  simp only [packetBufferUpdateIndex]
  generalize m.packets packet = p at hstate htotal hlen ⊢
  cases hs : p.state with
  | butt => exact absurd hs hstate
  | header =>
    have hreq : p.headerLen - (p.index + len) = p.reqLen - len := by
      simp only [totalLen, hs, if_true] at htotal
      omega
    by_cases hmore : len < p.reqLen
    · simp [hreq, hmore]
    · have hnot : ¬ p.reqLen - len < 0 := by omega
      simp [hreq, hmore, hnot, completeCode]
  | body =>
    have hreq : p.bodyLen - (p.index + len) = p.reqLen - len := by
      simp only [totalLen, hs, reduceCtorEq, if_false] at htotal
      omega
    by_cases hmore : len < p.reqLen
    · simp [hreq, hmore]
    · have hnot : ¬ p.reqLen - len < 0 := by omega
      simp [hreq, hmore, hnot, completeCode]

lemma packetBufferUpdateBody_keep {bodyLen : Int}
    (hshort : ¬ bodyLen > (m.packets packet).bodyLen) (fate : Option (Nat → UInt8)) :
    packetBufferUpdateBody m (some packet) bodyLen fate =
      (0, m.setPacket packet ((m.packets packet).expectBody bodyLen)) := by
  rw [packetBufferUpdateBody, if_neg hshort]

lemma packetBufferUpdateBody_grow {bodyLen : Int}
    (hlonger : bodyLen > (m.packets packet).bodyLen) (hnonneg : 0 ≤ bodyLen)
    (fill : Nat → UInt8) {b : Nat} {heap : BlockHeap UInt8}
    (hresize : m.heap.resize (m.packets packet).body bodyLen.toNat fill = (some b, heap)) :
    packetBufferUpdateBody m (some packet) bodyLen (some fill) =
      (0, (m.setHeap heap).setPacket packet
        ({ m.packets packet with body := some b, buf := some b }.expectBody bodyLen)) := by
  have hrealloc : realloc m.heap (m.packets packet).body bodyLen (some fill) = (some b, heap) := by
    rw [realloc, if_pos hnonneg, hresize]
  rw [packetBufferUpdateBody, if_pos hlonger, hrealloc]

lemma packetBufferUpdateBody_fail {bodyLen : Int} {fate : Option (Nat → UInt8)}
    (hfail : (packetBufferUpdateBody m (some packet) bodyLen fate).1 = -1) :
    (packetBufferUpdateBody m (some packet) bodyLen fate).2 = m := by
  rw [packetBufferUpdateBody] at hfail ⊢
  by_cases hlonger : bodyLen > (m.packets packet).bodyLen
  · rw [if_pos hlonger] at hfail ⊢
    split at hfail
    · simp_all
    · simp at hfail
  · rw [if_neg hlonger] at hfail
    simp at hfail

variable {headerLen : Int}

lemma packetBufferInit_ok (m : PacketMemory Addr) (packet : Addr) (hnonneg : 0 ≤ headerLen) :
    packetBufferInit m packet headerLen true =
      (0, (m.setHeap (m.heap.set m.heap.next (some (List.replicate headerLen.toNat 0)))).setPacket
        packet
        ⟨headerLen, some m.heap.next, 0, none, 0, headerLen, some m.heap.next, .header⟩) := by
  have hcalloc : calloc m.heap headerLen true =
      m.heap.alloc (List.replicate headerLen.toNat 0) := by
    rw [calloc, if_pos ⟨hnonneg, rfl⟩]
  rw [packetBufferInit, hcalloc]
  simp [BlockHeap.alloc, packetBufferUpdateHeader, PacketMemory.setPacket, PacketMemory.setHeap]

lemma progress_init (m : PacketMemory Addr) (packet : Addr) (hpos : 0 < headerLen) :
    Progress headerLen (packetBufferInit m packet headerLen true).2.heap
      ((packetBufferInit m packet headerLen true).2.packets packet) := by
  rw [packetBufferInit_ok m packet (Int.le_of_lt hpos)]
  simp only [packets_setPacket, heap_setPacket]
  constructor <;> simp [totalLen, Int.le_of_lt hpos]

lemma progress_updateIndex (h : Progress headerLen m.heap (m.packets packet)) {len : Int}
    (hnonneg : 0 ≤ len) (hlen : len ≤ (m.packets packet).reqLen) :
    Progress headerLen (packetBufferUpdateIndex m (some packet) len).2.heap
      ((packetBufferUpdateIndex m (some packet) len).2.packets packet) := by
  rw [packetBufferUpdateIndex_spec h.state_ne_butt h.index_add_reqLen hlen]
  simp only [packets_setPacket, heap_setPacket]
  have hindex := h.index_nonneg
  have htotal := h.index_add_reqLen
  exact {
    headerLen_eq := h.headerLen_eq
    state_ne_butt := h.state_ne_butt
    index_nonneg := by simp only; omega
    reqLen_nonneg := by simp only; omega
    bodyLen_nonneg := h.bodyLen_nonneg
    index_add_reqLen := by
      rw [totalLen] at htotal ⊢
      simp only
      omega
    bodyLen_le := h.bodyLen_le }

lemma progress_expectBody {heap : BlockHeap UInt8} {p : PacketBuffer} {bodyLen : Int}
    (hheader : p.headerLen = headerLen) (hnonneg : 0 ≤ bodyLen)
    (hblock : bodyLen ≤ (heap.contents p.body).length) :
    Progress headerLen heap (p.expectBody bodyLen) := by
  constructor <;> simp [PacketBuffer.expectBody, totalLen, hheader, hnonneg, hblock]

lemma progress_updateBody (h : Progress headerLen m.heap (m.packets packet)) {bodyLen : Int}
    (hnonneg : 0 ≤ bodyLen) (fate : Option (Nat → UInt8)) :
    Progress headerLen (packetBufferUpdateBody m (some packet) bodyLen fate).2.heap
      ((packetBufferUpdateBody m (some packet) bodyLen fate).2.packets packet) := by
  by_cases hlonger : bodyLen > (m.packets packet).bodyLen
  · cases fate with
    | none =>
      rw [packetBufferUpdateBody, if_pos hlonger]
      exact h
    | some fill =>
      obtain ⟨b, heap, cells, hresize, hlive, hlength, -⟩ :=
        m.heap.exists_resize (m.packets packet).body bodyLen.toNat fill
      rw [packetBufferUpdateBody_grow hlonger hnonneg fill hresize]
      simp only [packets_setPacket, heap_setPacket, PacketMemory.setHeap]
      refine progress_expectBody h.headerLen_eq hnonneg ?_
      rw [BlockHeap.contents_of_live hlive, hlength]
      omega
  · rw [packetBufferUpdateBody_keep hlonger]
    simp only [packets_setPacket, heap_setPacket]
    have hle := h.bodyLen_le
    exact progress_expectBody h.headerLen_eq hnonneg (by omega)

lemma progress_updateHeader (h : Progress headerLen m.heap (m.packets packet))
    (hpos : 0 < headerLen) :
    Progress headerLen (packetBufferUpdateHeader m (some packet)).2.heap
      ((packetBufferUpdateHeader m (some packet)).2.packets packet) := by
  simp only [packetBufferUpdateHeader, packets_setPacket, heap_setPacket]
  constructor <;>
    simp [totalLen, h.headerLen_eq, Int.le_of_lt hpos, h.bodyLen_nonneg, h.bodyLen_le]

lemma progress_call (h : Progress headerLen m.heap (m.packets packet)) (hpos : 0 < headerLen)
    {call : PacketCall} (hcall : Admissible (m.packets packet) call) :
    Progress headerLen (m.call packet call).2.heap ((m.call packet call).2.packets packet) := by
  cases call with
  | updateIndex len => exact progress_updateIndex h hcall.1 hcall.2
  | updateBody bodyLen fate => exact progress_updateBody h hcall fate
  | updateHeader => exact progress_updateHeader h hpos

lemma progress_runPacketCalls (h : Progress headerLen m.heap (m.packets packet))
    (hpos : 0 < headerLen) {calls : List PacketCall} (hcalls : AdmissibleCalls packet m calls) :
    Progress headerLen (runPacketCalls packet m calls).heap
      ((runPacketCalls packet m calls).packets packet) := by
  induction calls generalizing m with
  | nil => exact h
  | cons call calls ih => exact ih (progress_call h hpos hcalls.1) hcalls.2

end Specs

/-- After any admissible calls on an initialised packet the counters add up to the length
being filled and the body block is large enough; `packet_buffer_update_index` reports
completion exactly when nothing more is requested, and a failed
`packet_buffer_update_body` changes nothing. -/
theorem packet_counters_track_progress (m : PacketMemory Addr) (packet : Addr) (headerLen : Int)
    (hpos : 0 < headerLen) (calls : List PacketCall)
    (hcalls : AdmissibleCalls packet (packetBufferInit m packet headerLen true).2 calls) :
    let now := runPacketCalls packet (packetBufferInit m packet headerLen true).2 calls
    let p := now.packets packet
    (packetBufferInit m packet headerLen true).1 = 0 ∧
      0 ≤ p.index ∧ 0 ≤ p.reqLen ∧
      (p.state = .header ∧ p.index + p.reqLen = headerLen ∨
        p.state = .body ∧ p.index + p.reqLen = p.bodyLen) ∧
      p.bodyLen ≤ (now.heap.contents p.body).length ∧
      (∀ len, 0 ≤ len → len ≤ p.reqLen →
        let result := packetBufferUpdateIndex now (some packet) len
        (result.1 = recvStateInProgress ↔ 0 < (result.2.packets packet).reqLen) ∧
          (¬ 0 < (result.2.packets packet).reqLen → result.1 = completeCode p.state)) ∧
      ∀ bodyLen fate, (packetBufferUpdateBody now (some packet) bodyLen fate).1 = -1 →
        (packetBufferUpdateBody now (some packet) bodyLen fate).2 = now := by
  intro now p
  have hinit : (packetBufferInit m packet headerLen true).1 = 0 := by
    rw [packetBufferInit_ok m packet (Int.le_of_lt hpos)]
  have h : Progress headerLen now.heap p :=
    progress_runPacketCalls (progress_init m packet hpos) hpos hcalls
  have htotal := h.index_add_reqLen
  refine ⟨hinit, h.index_nonneg, h.reqLen_nonneg, ?_, h.bodyLen_le, ?_, ?_⟩
  · rw [totalLen] at htotal
    cases hs : p.state with
    | header => simpa [hs, h.headerLen_eq] using htotal
    | body => simpa [hs] using htotal
    | butt => exact absurd hs h.state_ne_butt
  · intro len hnonneg hlen result
    have hresult : result = _ := packetBufferUpdateIndex_spec h.state_ne_butt htotal hlen
    rw [hresult]
    simp only [packets_setPacket]
    have hcode := completeCode_ne h.state_ne_butt
    by_cases hmore : len < p.reqLen
    · simp [p, hmore]
    · simp [p, hmore, hcode]
  · intro bodyLen fate hfail
    exact packetBufferUpdateBody_fail hfail

/-- A packet that is not initialised yet, over an empty heap. -/
def emptyMemory : PacketMemory Unit :=
  ⟨⟨fun _ => none, 0, fun _ _ => rfl⟩, fun _ => ⟨0, none, 0, none, 0, 0, none, .butt⟩⟩

/-- A header, the start of a body, and a longer body that finds no memory. -/
def failingBodyCalls : List PacketCall :=
  [.updateIndex 2, .updateBody 3 (some fun _ => 0), .updateIndex 1, .updateBody 5 none]

theorem packet_counters_survive_failing_body :
    AdmissibleCalls () (packetBufferInit emptyMemory () 2 true).2 failingBodyCalls ∧
      let now := runPacketCalls () (packetBufferInit emptyMemory () 2 true).2 failingBodyCalls
      (now.packets ()).bodyLen ≤ (now.heap.contents (now.packets ()).body).length := by
  have hcalls : AdmissibleCalls () (packetBufferInit emptyMemory () 2 true).2 failingBodyCalls := by
    decide
  exact ⟨hcalls,
    (packet_counters_track_progress emptyMemory () 2 (by decide) _ hcalls).2.2.2.2.1⟩

/-- After any admissible calls, completion is reported exactly when the length that
`packet_buffer_get_len` then tells is the whole length of the header or the body. -/
theorem packetBufferGetLen_tells_completion (m : PacketMemory Addr) (packet : Addr)
    (headerLen : Int) (hpos : 0 < headerLen) (calls : List PacketCall)
    (hcalls : AdmissibleCalls packet (packetBufferInit m packet headerLen true).2 calls)
    (len : Int) (hlen : len ≤ ((runPacketCalls packet
      (packetBufferInit m packet headerLen true).2 calls).packets packet).reqLen) :
    let now := runPacketCalls packet (packetBufferInit m packet headerLen true).2 calls
    let result := packetBufferUpdateIndex now (some packet) len
    result.1 = completeCode (now.packets packet).state ↔
      packetBufferGetLen result.2 (some packet) = totalLen (now.packets packet) := by
  intro now result
  have h : Progress headerLen now.heap (now.packets packet) :=
    progress_runPacketCalls (progress_init m packet hpos) hpos hcalls
  have htotal := h.index_add_reqLen
  have hle : len ≤ (now.packets packet).reqLen := hlen
  have hresult : result = _ := packetBufferUpdateIndex_spec h.state_ne_butt htotal hle
  have hcode := completeCode_ne h.state_ne_butt
  rw [hresult, packetBufferGetLen]
  simp only [packets_setPacket]
  by_cases hmore : len < (now.packets packet).reqLen
  · rw [if_pos hmore]
    exact iff_of_false (Ne.symm hcode) (by omega)
  · rw [if_neg hmore]
    exact iff_of_true rfl (by omega)

/-! ### The blocks of a packet -/

/-- The packet owns its header and its body; all other blocks are as they were before. -/
structure Owns (before : Nat → Option (List UInt8)) (heap : BlockHeap UInt8) (p : PacketBuffer) :
    Prop where
  header_new : ∀ b, p.headerBuffer = some b → before b = none
  body_new : ∀ b, p.body = some b → before b = none
  others : ∀ b, p.headerBuffer ≠ some b → p.body ≠ some b → heap.blocks b = before b

section Blocks

variable {m : PacketMemory Addr} {packet : Addr} {before : Nat → Option (List UInt8)}
  {headerLen : Int}

lemma owns_init (m : PacketMemory Addr) (packet : Addr) (hpos : 0 < headerLen) :
    Owns m.heap.blocks (packetBufferInit m packet headerLen true).2.heap
      ((packetBufferInit m packet headerLen true).2.packets packet) := by
  rw [packetBufferInit_ok m packet (Int.le_of_lt hpos)]
  simp only [packets_setPacket, heap_setPacket, PacketMemory.setHeap]
  constructor
  case header_new =>
    intro b hb
    cases hb
    exact m.heap.fresh _ (Nat.le_refl _)
  case body_new =>
    intro b hb
    cases hb
  case others =>
    intro b hheader _
    exact BlockHeap.blocks_set_of_ne (fun h => hheader (by rw [h])) _

lemma owns_updateBody (h : Owns before m.heap (m.packets packet)) {bodyLen : Int}
    (hnonneg : 0 ≤ bodyLen) (fate : Option (Nat → UInt8)) :
    Owns before (packetBufferUpdateBody m (some packet) bodyLen fate).2.heap
      ((packetBufferUpdateBody m (some packet) bodyLen fate).2.packets packet) := by
  by_cases hlonger : bodyLen > (m.packets packet).bodyLen
  · cases fate with
    | none =>
      rw [packetBufferUpdateBody, if_pos hlonger]
      exact h
    | some fill =>
      have hleft : ∀ b, (m.packets packet).headerBuffer ≠ some b →
          (m.heap.free (m.packets packet).body).blocks b = before b := by
        intro b hheader
        by_cases hbody : (m.packets packet).body = some b
        · rw [hbody, BlockHeap.free, BlockHeap.blocks_set_self, h.body_new b hbody]
        · rw [BlockHeap.blocks_free_of_ne hbody, h.others b hheader hbody]
      rw [packetBufferUpdateBody_grow hlonger hnonneg fill rfl]
      simp only [packets_setPacket, heap_setPacket, PacketMemory.setHeap,
        PacketBuffer.expectBody]
      constructor
      case header_new => exact h.header_new
      case body_new =>
        intro b hb
        by_cases hheader : (m.packets packet).headerBuffer = some b
        · exact h.header_new b hheader
        · cases hb
          rw [← hleft _ hheader]
          exact BlockHeap.fresh _ _ (Nat.le_refl _)
      case others =>
        intro b hheader hbody
        rw [BlockHeap.blocks_set_of_ne (fun h => hbody (by rw [h])), hleft b hheader]
  · rw [packetBufferUpdateBody_keep hlonger]
    simp only [packets_setPacket, heap_setPacket, PacketBuffer.expectBody]
    exact ⟨h.header_new, h.body_new, h.others⟩

lemma owns_call (h : Owns before m.heap (m.packets packet))
    (hprogress : Progress headerLen m.heap (m.packets packet)) {call : PacketCall}
    (hcall : Admissible (m.packets packet) call) :
    Owns before (m.call packet call).2.heap ((m.call packet call).2.packets packet) := by
  cases call with
  | updateIndex len =>
    rw [PacketMemory.call, packetBufferUpdateIndex_spec hprogress.state_ne_butt
      hprogress.index_add_reqLen hcall.2]
    simp only [packets_setPacket, heap_setPacket]
    exact ⟨h.header_new, h.body_new, h.others⟩
  | updateBody bodyLen fate => exact owns_updateBody h hcall fate
  | updateHeader =>
    simp only [PacketMemory.call, packetBufferUpdateHeader, packets_setPacket, heap_setPacket]
    exact ⟨h.header_new, h.body_new, h.others⟩

lemma owns_runPacketCalls (h : Owns before m.heap (m.packets packet))
    (hprogress : Progress headerLen m.heap (m.packets packet)) (hpos : 0 < headerLen)
    {calls : List PacketCall} (hcalls : AdmissibleCalls packet m calls) :
    Owns before (runPacketCalls packet m calls).heap
      ((runPacketCalls packet m calls).packets packet) := by
  induction calls generalizing m with
  | nil => exact h
  | cons call calls ih =>
    exact ih (owns_call h hprogress hcalls.1) (progress_call hprogress hpos hcalls.1) hcalls.2

lemma blocks_packetBufferDestroy (h : Owns before m.heap (m.packets packet)) :
    (packetBufferDestroy m (some packet)).2.heap.blocks = before := by
  funext b
  simp only [packetBufferDestroy, heap_setPacket, PacketMemory.setHeap]
  by_cases hbody : (m.packets packet).body = some b
  · rw [hbody, BlockHeap.free, BlockHeap.blocks_set_self, h.body_new b hbody]
  · rw [BlockHeap.blocks_free_of_ne hbody]
    by_cases hheader : (m.packets packet).headerBuffer = some b
    · rw [hheader, BlockHeap.free, BlockHeap.blocks_set_self, h.header_new b hheader]
    · rw [BlockHeap.blocks_free_of_ne hheader, h.others b hheader hbody]

end Blocks

/-- Whatever admissible calls were made on a packet, destroying it gives back exactly the blocks
that it took since `packet_buffer_init`, and destroying it again frees nothing. -/
theorem packetBufferDestroy_gives_back (m : PacketMemory Addr) (packet : Addr) (headerLen : Int)
    (hpos : 0 < headerLen) (calls : List PacketCall)
    (hcalls : AdmissibleCalls packet (packetBufferInit m packet headerLen true).2 calls) :
    let now := runPacketCalls packet (packetBufferInit m packet headerLen true).2 calls
    let destroyed := (packetBufferDestroy now (some packet)).2
    destroyed.heap.blocks = m.heap.blocks ∧
      (packetBufferDestroy destroyed (some packet)).2.heap = destroyed.heap := by
  intro now destroyed
  have howns : Owns m.heap.blocks now.heap (now.packets packet) :=
    owns_runPacketCalls (owns_init m packet hpos) (progress_init m packet hpos) hpos hcalls
  refine ⟨blocks_packetBufferDestroy howns, ?_⟩
  simp only [destroyed, packetBufferDestroy, packets_setPacket, heap_setPacket,
    PacketMemory.setHeap, BlockHeap.free]

end GeneralPurposeLibrary.Proofs
