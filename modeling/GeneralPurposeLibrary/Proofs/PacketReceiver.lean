import GeneralPurposeLibrary.Proofs.PacketProgress

/-!
# Receiving into the packet buffer

A receive loop around the packet buffer, and what one read does to the two buffers while a
header or a body is being filled. The body goes to its own buffer only when it is longer
than the body before it: otherwise `packet_buffer_update_body` leaves `buf` where
`packet_buffer_update_header` has put it.
-/

namespace GeneralPurposeLibrary.Proofs

/-- What the loop passes on when a body is complete, with the number of bytes read so far. -/
structure Handover where
  consumed : Nat
  header : List UInt8
  body : List UInt8
  deriving DecidableEq, Repr

/-- The block a chunk was stored in and the block of the buffer it belongs to. -/
structure Store where
  target : Option Nat
  owner : Option Nat
  deriving DecidableEq, Repr

structure Receiver (Addr : Type) where
  memory : PacketMemory Addr
  consumed : Nat
  handed : List Handover
  stores : List Store

def bufferOf (p : PacketBuffer) : Option Nat :=
  if p.state = .header then p.headerBuffer else p.body

section Loop

variable {Addr : Type} [DecidableEq Addr] (packet : Addr) (announced : List UInt8 → Int)
  (fill : Nat → Nat → UInt8)

/-- Storing a chunk at `packet_buffer_get_buf`; `none` is a store outside of the block. -/
def Receiver.store (r : Receiver Addr) (chunk : List UInt8) : Option (Receiver Addr) :=
  match packetBufferGetBuf r.memory (some packet) with
  | none => none
  | some (buf, offset) =>
    if offset < 0 then none
    else
      (r.memory.heap.write buf offset.toNat chunk).map fun heap =>
        { memory := r.memory.setHeap heap
          consumed := r.consumed + chunk.length
          handed := r.handed
          stores := r.stores ++ [⟨buf, bufferOf (r.memory.packets packet)⟩] }

/-- What the loop does about the value returned by `packet_buffer_update_index`. -/
def Receiver.react (r : Receiver Addr) (ret : Int) : Receiver Addr :=
  let m := r.memory
  let p := m.packets packet
  if ret = recvStateHeaderComplete then
    let bodyLen := announced (m.heap.contents p.headerBuffer)
    let result := packetBufferUpdateBody m (some packet) bodyLen (some (fill m.heap.next))
    { r with memory := result.2 }
  else if ret = recvStateBodyComplete then
    let body := (m.heap.contents p.body).take p.bodyLen.toNat
    { r with
      memory := (packetBufferUpdateHeader m (some packet)).2
      handed := r.handed ++ [⟨r.consumed, m.heap.contents p.headerBuffer, body⟩] }
  else r

def Receiver.receive (r : Receiver Addr) (chunk : List UInt8) : Option (Receiver Addr) :=
  (r.store packet chunk).map fun r =>
    let (ret, m) := packetBufferUpdateIndex r.memory (some packet) chunk.length
    { r with memory := m }.react packet announced fill ret

def Receiver.receiveAll (r : Receiver Addr) : List (List UInt8) → Option (Receiver Addr)
  | [] => some r
  | chunk :: chunks =>
    (r.receive packet announced fill chunk).bind fun r => r.receiveAll chunks

/-- The chunks are reads of at least one and at most `req_len` bytes. -/
def Reads : Receiver Addr → List (List UInt8) → Prop
  | _, [] => True
  | r, chunk :: chunks =>
    chunk ≠ [] ∧ (chunk.length : Int) ≤ (r.memory.packets packet).reqLen ∧
      ∀ r' ∈ r.receive packet announced fill chunk, Reads r' chunks

instance decidableReads :
    (r : Receiver Addr) → (chunks : List (List UInt8)) →
      Decidable (Reads packet announced fill r chunks)
  | _, [] => isTrue trivial
  | r, chunk :: chunks =>
    have := fun r' => decidableReads r' chunks
    inferInstanceAs (Decidable (chunk ≠ [] ∧
      (chunk.length : Int) ≤ (r.memory.packets packet).reqLen ∧
      ∀ r' ∈ r.receive packet announced fill chunk, Reads packet announced fill r' chunks))

/-- The loop hands over what is due and stores every chunk in the buffer it belongs to. -/
def Reassembles (r : Receiver Addr) (due : List Handover) (chunks : List (List UInt8)) : Prop :=
  ∃ r', r.receiveAll packet announced fill chunks = some r' ∧ r'.handed = r.handed ++ due ∧
    ∀ s ∈ r'.stores, s.target = s.owner

end Loop

section Phases

variable {Addr : Type}

/-- The buffer `b` of `total` bytes holds `got` so far and the next chunk goes behind it. -/
structure Filling (packet : Addr) (m : PacketMemory Addr) (b total : Nat) (got : List UInt8) :
    Prop where
  state_ne_butt : (m.packets packet).state ≠ .butt
  buf_eq : (m.packets packet).buf = some b
  bufferOf_eq : bufferOf (m.packets packet) = some b
  totalLen_eq : totalLen (m.packets packet) = total
  index_eq : (m.packets packet).index = got.length
  reqLen_eq : (m.packets packet).reqLen = total - got.length
  exists_old : ∃ old, m.heap.blocks b = some (got ++ old) ∧ (got ++ old).length = total

variable {packet : Addr} {r : Receiver Addr} {chunk : List UInt8}

lemma store_filling {b total : Nat} {got : List UInt8} (h : Filling packet r.memory b total got)
    (hle : got.length + chunk.length ≤ total) :
    ∃ heap old, r.store packet chunk = some
        ⟨r.memory.setHeap heap, r.consumed + chunk.length, r.handed,
          r.stores ++ [⟨some b, some b⟩]⟩ ∧
      heap.blocks b = some (got ++ chunk ++ old) ∧ (got ++ chunk ++ old).length = total ∧
      ∀ c, c ≠ b → heap.blocks c = r.memory.heap.blocks c := by
  obtain ⟨old, hlive, hlength⟩ := h.exists_old
  rw [List.length_append] at hlength
  have hwrite := BlockHeap.write_behind hlive chunk (by omega)
  refine ⟨r.memory.heap.set b (some (got ++ chunk ++ old.drop chunk.length)),
    old.drop chunk.length, ?_, BlockHeap.blocks_set_self b _, ?_, ?_⟩
  · simp [Receiver.store, packetBufferGetBuf, h.buf_eq, h.index_eq, h.bufferOf_eq, hwrite]
  · simp only [List.length_append, List.length_drop]
    omega
  · intro c hc
    exact BlockHeap.blocks_set_of_ne hc _

/-- The header of a packet is `got` so far, and the body before had `prev` bytes. -/
def InHeader (packet : Addr) (headerLen prev : Nat) (got : List UInt8) (m : PacketMemory Addr) :
    Prop :=
  ∃ hb body old,
    m.packets packet = ⟨headerLen, some hb, prev, body, got.length, headerLen - got.length,
      some hb, .header⟩ ∧
    m.heap.blocks hb = some (got ++ old) ∧ (got ++ old).length = headerLen ∧ body ≠ some hb

/-- The header is complete and the body of `len` bytes is `got` so far. -/
def InBody (packet : Addr) (headerLen len : Nat) (header got : List UInt8)
    (m : PacketMemory Addr) : Prop :=
  ∃ hb b old,
    m.packets packet = ⟨headerLen, some hb, len, some b, got.length, len - got.length,
      some b, .body⟩ ∧
    m.heap.blocks hb = some header ∧ m.heap.blocks b = some (got ++ old) ∧
    (got ++ old).length = len ∧ hb ≠ b

/-- The next chunk goes to a buffer it does not belong to. -/
def Misplaced (packet : Addr) (m : PacketMemory Addr) : Prop :=
  (m.packets packet).buf ≠ bufferOf (m.packets packet)

variable {headerLen prev len : Nat} {header got : List UInt8}

lemma InHeader.filling {m : PacketMemory Addr} (h : InHeader packet headerLen prev got m) :
    ∃ hb body, Filling packet m hb headerLen got ∧ body ≠ some hb ∧
      m.packets packet = ⟨headerLen, some hb, prev, body, got.length, headerLen - got.length,
        some hb, .header⟩ := by
  obtain ⟨hb, body, old, hp, hlive, hlength, hbody⟩ := h
  refine ⟨hb, body, ?_, hbody, hp⟩
  constructor
  case exists_old => exact ⟨old, hlive, hlength⟩
  all_goals simp [hp, bufferOf, totalLen]

lemma InBody.filling {m : PacketMemory Addr} (h : InBody packet headerLen len header got m) :
    ∃ hb b, Filling packet m b len got ∧ hb ≠ b ∧ m.heap.blocks hb = some header ∧
      m.packets packet = ⟨headerLen, some hb, len, some b, got.length, len - got.length,
        some b, .body⟩ := by
  obtain ⟨hb, b, old, hp, hheader, hlive, hlength, hne⟩ := h
  refine ⟨hb, b, ?_, hne, hheader, hp⟩
  constructor
  case exists_old => exact ⟨old, hlive, hlength⟩
  all_goals simp [hp, bufferOf, totalLen]

variable [DecidableEq Addr] (announced : List UInt8 → Int) (fill : Nat → Nat → UInt8)

lemma receive_filling {b total : Nat} {got : List UInt8} (h : Filling packet r.memory b total got)
    (hle : got.length + chunk.length ≤ total) :
    ∃ m, r.receive packet announced fill chunk =
        some (Receiver.react packet announced fill
          ⟨m, r.consumed + chunk.length, r.handed, r.stores ++ [⟨some b, some b⟩]⟩
          (if got.length + chunk.length < total then recvStateInProgress
            else completeCode (r.memory.packets packet).state)) ∧
      m.packets packet = { r.memory.packets packet with
        index := (got ++ chunk).length
        reqLen := total - (got ++ chunk).length } ∧
      (∃ old, m.heap.blocks b = some (got ++ chunk ++ old) ∧
        (got ++ chunk ++ old).length = total) ∧
      ∀ c, c ≠ b → m.heap.blocks c = r.memory.heap.blocks c := by
  obtain ⟨heap, old, hstore, hlive, hlength, hothers⟩ := store_filling h hle
  have htotal : (r.memory.packets packet).index + (r.memory.packets packet).reqLen =
      totalLen (r.memory.packets packet) := by
    rw [h.totalLen_eq, h.index_eq, h.reqLen_eq]
    omega
  have hreq : (chunk.length : Int) ≤ (r.memory.packets packet).reqLen := by
    rw [h.reqLen_eq]
    omega
  have hupdate : packetBufferUpdateIndex (r.memory.setHeap heap) (some packet) chunk.length = _ :=
    packetBufferUpdateIndex_spec h.state_ne_butt htotal hreq
  have hmore : (chunk.length : Int) < (r.memory.packets packet).reqLen ↔
      got.length + chunk.length < total := by
    rw [h.reqLen_eq]
    omega
  refine ⟨(packetBufferUpdateIndex (r.memory.setHeap heap) (some packet) chunk.length).2,
    ?_, ?_, ⟨old, ?_, hlength⟩, ?_⟩
  · rw [Receiver.receive, hstore, Option.map_some, hupdate]
    simp only [PacketMemory.setHeap, hmore]
  · rw [hupdate]
    simp only [PacketMemory.setHeap, packets_setPacket, h.index_eq, h.reqLen_eq,
      List.length_append, Int.natCast_add, Int.sub_sub]
  · rw [hupdate]
    exact hlive
  · rw [hupdate]
    exact hothers

lemma receive_filled {b total : Nat} (h : Filling packet r.memory b total got)
    (hdone : got.length + chunk.length = total) :
    ∃ m, r.receive packet announced fill chunk =
        some (Receiver.react packet announced fill
          ⟨m, r.consumed + chunk.length, r.handed, r.stores ++ [⟨some b, some b⟩]⟩
          (completeCode (r.memory.packets packet).state)) ∧
      m.packets packet = { r.memory.packets packet with
        index := (got ++ chunk).length
        reqLen := total - (got ++ chunk).length } ∧
      m.heap.blocks b = some (got ++ chunk) ∧
      ∀ c, c ≠ b → m.heap.blocks c = r.memory.heap.blocks c := by
  obtain ⟨m, hreceive, hp, ⟨old, hlive, hlength⟩, hothers⟩ :=
    receive_filling announced fill h (Nat.le_of_eq hdone)
  have hold : old = [] := by
    simp only [List.length_append] at hlength
    exact List.eq_nil_of_length_eq_zero (by omega)
  rw [hold, List.append_nil] at hlive
  rw [if_neg (by omega)] at hreceive
  exact ⟨m, hreceive, hp, hlive, hothers⟩

lemma receive_header_more (h : InHeader packet headerLen prev got r.memory)
    (hmore : got.length + chunk.length < headerLen) :
    ∃ m b, r.receive packet announced fill chunk =
        some ⟨m, r.consumed + chunk.length, r.handed, r.stores ++ [⟨b, b⟩]⟩ ∧
      InHeader packet headerLen prev (got ++ chunk) m := by
  obtain ⟨hb, body, hfilling, hbody, hp⟩ := h.filling
  obtain ⟨m, hreceive, hpm, ⟨old, hlive, hlength⟩, -⟩ :=
    receive_filling announced fill hfilling (Nat.le_of_lt hmore)
  refine ⟨m, some hb, ?_, hb, body, old, ?_, hlive, hlength, hbody⟩
  · rw [hreceive, if_pos hmore]
    rfl
  · rw [hpm, hp]

/-- Completing the header moves on to the body's own buffer only if the body is longer than
the one before. -/
lemma receive_header_done (h : InHeader packet headerLen prev got r.memory)
    (hdone : got.length + chunk.length = headerLen) (hlen : announced (got ++ chunk) = len) :
    ∃ m b, r.receive packet announced fill chunk =
        some ⟨m, r.consumed + chunk.length, r.handed, r.stores ++ [⟨b, b⟩]⟩ ∧
      (prev < len → InBody packet headerLen len (got ++ chunk) [] m) ∧
      (¬ prev < len → Misplaced packet m) := by
  obtain ⟨hb, body, hfilling, hbody, hp⟩ := h.filling
  obtain ⟨m, hreceive, hpm, hlive, -⟩ := receive_filled announced fill hfilling hdone
  rw [hp] at hreceive hpm
  have hcontents : m.heap.contents (m.packets packet).headerBuffer = got ++ chunk := by
    rw [hpm]
    exact BlockHeap.contents_of_live hlive
  refine ⟨(packetBufferUpdateBody m (some packet) len (some (fill m.heap.next))).2, some hb,
    ?_, ?_, ?_⟩
  · rw [hreceive]
    simp only [Receiver.react, completeCode, if_true, hcontents, hlen]
  · intro hlonger
    obtain ⟨b, heap, cells, hresize, hcells, hsize, hkept⟩ :=
      m.heap.exists_resize (m.packets packet).body (len : Int).toNat (fill m.heap.next)
    have hbodym : (m.packets packet).body ≠ some hb := by
      rw [hpm]
      exact hbody
    obtain ⟨hne, hheader⟩ := hkept hb (got ++ chunk) hbodym hlive
    have hgrow := packetBufferUpdateBody_grow (by rw [hpm]; simpa using hlonger)
      (Int.natCast_nonneg len) _ hresize
    rw [hgrow]
    refine ⟨hb, b, cells, ?_, hheader, hcells, hsize, hne⟩
    simp [hpm, PacketBuffer.expectBody]
  · intro hshort
    rw [packetBufferUpdateBody_keep (by rw [hpm]; simpa using hshort)]
    simp [Misplaced, bufferOf, PacketBuffer.expectBody, hpm, hbody.symm]

lemma receive_body_more (h : InBody packet headerLen len header got r.memory)
    (hmore : got.length + chunk.length < len) :
    ∃ m b, r.receive packet announced fill chunk =
        some ⟨m, r.consumed + chunk.length, r.handed, r.stores ++ [⟨b, b⟩]⟩ ∧
      InBody packet headerLen len header (got ++ chunk) m := by
  obtain ⟨hb, b, hfilling, hne, hheader, hp⟩ := h.filling
  obtain ⟨m, hreceive, hpm, ⟨old, hlive, hlength⟩, hothers⟩ :=
    receive_filling announced fill hfilling (Nat.le_of_lt hmore)
  refine ⟨m, some b, ?_, hb, b, old, ?_, (hothers hb hne).trans hheader, hlive, hlength, hne⟩
  · rw [hreceive, if_pos hmore]
    rfl
  · rw [hpm, hp]

lemma receive_body_done (h : InBody packet headerLen len header got r.memory)
    (hdone : got.length + chunk.length = len) (hheaderLen : header.length = headerLen) :
    ∃ m b, r.receive packet announced fill chunk =
        some ⟨m, r.consumed + chunk.length,
          r.handed ++ [⟨r.consumed + chunk.length, header, got ++ chunk⟩],
          r.stores ++ [⟨b, b⟩]⟩ ∧
      InHeader packet headerLen len [] m := by
  obtain ⟨hb, b, hfilling, hne, hheader, hp⟩ := h.filling
  obtain ⟨m, hreceive, hpm, hlive, hothers⟩ := receive_filled announced fill hfilling hdone
  rw [hp] at hreceive hpm
  have hheaderm := (hothers hb hne).trans hheader
  have hcontents : m.heap.contents (m.packets packet).headerBuffer = header := by
    rw [hpm]
    exact BlockHeap.contents_of_live hheaderm
  have hbody : (m.heap.contents (m.packets packet).body).take
      (m.packets packet).bodyLen.toNat = got ++ chunk := by
    rw [hpm]
    simp only [BlockHeap.contents_of_live hlive]
    exact List.take_of_length_le (by simp [hdone])
  refine ⟨(packetBufferUpdateHeader m (some packet)).2, some b, ?_, hb, some b, header,
    ?_, hheaderm, hheaderLen, ?_⟩
  · rw [hreceive]
    simp only [Receiver.react, completeCode, recvStateBodyComplete, recvStateHeaderComplete,
      hcontents, hbody]
    rfl
  · simp [packetBufferUpdateHeader, hpm]
  · simpa using hne.symm

end Phases

end GeneralPurposeLibrary.Proofs
