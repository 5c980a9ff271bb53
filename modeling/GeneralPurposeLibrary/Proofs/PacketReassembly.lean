import GeneralPurposeLibrary.Proofs.PacketReceiver
import Mathlib.Data.List.Chain

/-!
# Reassembly of a packet stream

The receive loop over a whole stream of packets that is cut into reads at arbitrary places.
-/

namespace GeneralPurposeLibrary.Proofs

/-- A packet of the stream. `announced` is the body length that a header tells. -/
structure WirePacket (headerLen : Nat) (announced : List UInt8 → Int) where
  header : List UInt8
  body : List UInt8
  header_length : header.length = headerLen
  body_pos : 0 < body.length
  announced_header : announced header = body.length

section Stream

variable {headerLen : Nat} {announced : List UInt8 → Int}

def streamOf (packets : List (WirePacket headerLen announced)) : List UInt8 :=
  packets.flatMap fun p => p.header ++ p.body

def bodyLens (packets : List (WirePacket headerLen announced)) : List Nat :=
  packets.map fun p => p.body.length

/-- The handovers due for packets that start behind the given number of bytes. -/
def handoversOf : Nat → List (WirePacket headerLen announced) → List Handover
  | _, [] => []
  | base, p :: packets =>
    let consumed := base + p.header.length + p.body.length
    ⟨consumed, p.header, p.body⟩ :: handoversOf consumed packets

end Stream

section Runs

variable {Addr : Type}

/-- The position in the stream: the announced lengths that still have to increase, the
handovers still due, and the bytes still to come. -/
inductive Awaiting (packet : Addr) (headerLen : Nat) (announced : List UInt8 → Int)
    (r : Receiver Addr) : List Nat → List Handover → List UInt8 → Prop
  | idle {prev : Nat} (h : InHeader packet headerLen prev [] r.memory) :
    Awaiting packet headerLen announced r [prev] [] []
  | header {base prev : Nat} {got more : List UInt8} {p : WirePacket headerLen announced}
    {packets : List (WirePacket headerLen announced)}
    (h : InHeader packet headerLen prev got r.memory) (hbase : base + got.length = r.consumed)
    (hp : p.header = got ++ more) (hmore : more ≠ []) :
    Awaiting packet headerLen announced r (prev :: bodyLens (p :: packets))
      (handoversOf base (p :: packets)) (more ++ (p.body ++ streamOf packets))
  | body {base : Nat} {got more : List UInt8} {p : WirePacket headerLen announced}
    {packets : List (WirePacket headerLen announced)}
    (h : InBody packet headerLen p.body.length p.header got r.memory)
    (hbase : base + p.header.length + got.length = r.consumed)
    (hp : p.body = got ++ more) (hmore : more ≠ []) :
    Awaiting packet headerLen announced r (bodyLens (p :: packets))
      (handoversOf base (p :: packets)) (more ++ streamOf packets)

lemma awaiting_start {packet : Addr} {headerLen prev : Nat} {announced : List UInt8 → Int}
    {r : Receiver Addr} (hpos : 0 < headerLen) (h : InHeader packet headerLen prev [] r.memory)
    (packets : List (WirePacket headerLen announced)) :
    Awaiting packet headerLen announced r (prev :: bodyLens packets)
      (handoversOf r.consumed packets) (streamOf packets) := by
  cases packets with
  | nil => exact .idle h
  | cons p packets =>
    have hne : p.header ≠ [] := by
      rw [← List.length_pos_iff, p.header_length]
      exact hpos
    have hstream : streamOf (p :: packets) = p.header ++ (p.body ++ streamOf packets) := by
      simp [streamOf]
    rw [hstream]
    exact .header h (by simp) rfl hne

lemma split_of_append_eq {more later chunk rest : List UInt8} (h : more ++ later = chunk ++ rest)
    (hle : chunk.length ≤ more.length) :
    ∃ more', more = chunk ++ more' ∧ rest = more' ++ later := by
  rcases List.append_eq_append_iff.mp h with ⟨more', hchunk, hlater⟩ | ⟨more', hmore, hrest⟩
  · have hnil : more' = [] := by
      rw [hchunk, List.length_append] at hle
      exact List.eq_nil_of_length_eq_zero (by omega)
    subst hnil
    exact ⟨[], by simpa using hchunk.symm, by simpa using hlater.symm⟩
  · exact ⟨more', hmore, hrest⟩

variable [DecidableEq Addr] {packet : Addr} {headerLen : Nat} {announced : List UInt8 → Int}
  {fill : Nat → Nat → UInt8} {r : Receiver Addr} {lens : List Nat} {due : List Handover}
  {chunk rest : List UInt8}

/-- One read of the loop: either it gets on in the stream, or it has just met a body that is
not longer than the one before and the next chunk will go astray. -/
def ReadOutcome (packet : Addr) (headerLen : Nat) (announced : List UInt8 → Int)
    (fill : Nat → Nat → UInt8) (r : Receiver Addr) (lens : List Nat) (due : List Handover)
    (chunk rest : List UInt8) : Prop :=
  ∃ r' b, r.receive packet announced fill chunk = some r' ∧
    r'.stores = r.stores ++ [⟨b, b⟩] ∧
    ((∃ lens' due', Awaiting packet headerLen announced r' lens' due' rest ∧
        (lens.IsChain (· < ·) ↔ lens'.IsChain (· < ·)) ∧
        r'.handed ++ due' = r.handed ++ due) ∨
      (¬ lens.IsChain (· < ·) ∧ rest ≠ [] ∧ Misplaced packet r'.memory))

lemma receive_awaiting_header {base prev : Nat} {got more : List UInt8}
    {p : WirePacket headerLen announced} {packets : List (WirePacket headerLen announced)}
    (h : InHeader packet headerLen prev got r.memory) (hbase : base + got.length = r.consumed)
    (hp : p.header = got ++ (chunk ++ more)) :
    ReadOutcome packet headerLen announced fill r (prev :: bodyLens (p :: packets))
      (handoversOf base (p :: packets)) chunk (more ++ (p.body ++ streamOf packets)) := by
  have hlength := p.header_length
  rw [hp, List.length_append, List.length_append] at hlength
  by_cases hmore : more = []
  · subst hmore
    rw [List.append_nil] at hp
    obtain ⟨m, b, hreceive, hlonger, hshort⟩ := receive_header_done announced fill h
      (by simpa using hlength) (hp ▸ p.announced_header)
    refine ⟨_, b, hreceive, rfl, ?_⟩
    by_cases hgrows : prev < p.body.length
    · refine .inl ⟨bodyLens (p :: packets), handoversOf base (p :: packets), ?_, ?_, rfl⟩
      · have hbody := hlonger hgrows
        rw [← hp] at hbody
        refine .body hbody ?_ rfl (List.length_pos_iff.mp p.body_pos)
        simp only [List.length_nil, hp, List.length_append]
        omega
      · simp [bodyLens, List.isChain_cons_cons, hgrows]
    · refine .inr ⟨?_, ?_, hshort hgrows⟩
      · simp [bodyLens, List.isChain_cons_cons, hgrows]
      · have hne : p.body ≠ [] := List.length_pos_iff.mp p.body_pos
        simp [hne]
  · have hpos := List.length_pos_iff.mpr hmore
    have hlt : got.length + chunk.length < headerLen := by omega
    obtain ⟨m, b, hreceive, hheader⟩ := receive_header_more announced fill h hlt
    refine ⟨_, b, hreceive, rfl, .inl ⟨_, _, .header hheader ?_ ?_ hmore, Iff.rfl, rfl⟩⟩
    · rw [List.length_append, ← hbase, Nat.add_assoc]
    · rw [hp, List.append_assoc]

lemma receive_awaiting_body (hpos : 0 < headerLen) {base : Nat} {got more : List UInt8}
    {p : WirePacket headerLen announced} {packets : List (WirePacket headerLen announced)}
    (h : InBody packet headerLen p.body.length p.header got r.memory)
    (hbase : base + p.header.length + got.length = r.consumed)
    (hp : p.body = got ++ (chunk ++ more)) :
    ReadOutcome packet headerLen announced fill r (bodyLens (p :: packets))
      (handoversOf base (p :: packets)) chunk (more ++ streamOf packets) := by
  have hlength := congrArg List.length hp
  rw [List.length_append, List.length_append] at hlength
  by_cases hmore : more = []
  · subst hmore
    rw [List.append_nil] at hp
    obtain ⟨m, b, hreceive, hheader⟩ := receive_body_done announced fill h
      (by simpa using hlength.symm) p.header_length
    have hconsumed : r.consumed + chunk.length = base + p.header.length + p.body.length := by
      simp only [hlength, ← hbase, List.length_nil]
      omega
    refine ⟨_, b, hreceive, rfl, .inl ⟨_, _, awaiting_start hpos hheader packets, ?_, ?_⟩⟩
    · simp [bodyLens]
    · simp [handoversOf, hconsumed, ← hp]
  · have hmorepos := List.length_pos_iff.mpr hmore
    have hlt : got.length + chunk.length < p.body.length := by omega
    obtain ⟨m, b, hreceive, hbody⟩ := receive_body_more announced fill h hlt
    refine ⟨_, b, hreceive, rfl, .inl ⟨_, _, .body hbody ?_ ?_ hmore, Iff.rfl, rfl⟩⟩
    · rw [List.length_append, ← hbase, Nat.add_assoc _ got.length]
    · rw [hp, List.append_assoc]

lemma receive_awaiting (fill : Nat → Nat → UInt8) (hpos : 0 < headerLen)
    (h : Awaiting packet headerLen announced r lens due (chunk ++ rest)) (hne : chunk ≠ [])
    (hreq : (chunk.length : Int) ≤ (r.memory.packets packet).reqLen) :
    ReadOutcome packet headerLen announced fill r lens due chunk rest := by
  generalize hstream : chunk ++ rest = stream at h
  cases h with
  | idle h => simp [hne] at hstream
  | @header base prev got more p packets h hbase hp hmore =>
    have hle : chunk.length ≤ more.length := by
      obtain ⟨hb, body, -, -, hpm⟩ := h.filling
      have hlength := p.header_length
      rw [hp, List.length_append] at hlength
      rw [hpm] at hreq
      simp only at hreq
      omega
    obtain ⟨more', rfl, rfl⟩ := split_of_append_eq hstream.symm hle
    exact receive_awaiting_header h hbase hp
  | @body base got more p packets h hbase hp hmore =>
    have hle : chunk.length ≤ more.length := by
      obtain ⟨hb, b, -, -, -, hpm⟩ := h.filling
      have hlength := congrArg List.length hp
      rw [List.length_append] at hlength
      rw [hpm] at hreq
      simp only at hreq
      omega
    obtain ⟨more', rfl, rfl⟩ := split_of_append_eq hstream.symm hle
    exact receive_awaiting_body hpos h hbase hp

lemma stores_react (r : Receiver Addr) (ret : Int) :
    (r.react packet announced fill ret).stores = r.stores := by
  simp only [Receiver.react]
  split
  · rfl
  · split <;> rfl

lemma stores_receive {r' : Receiver Addr} (h : r.receive packet announced fill chunk = some r') :
    r'.stores = r.stores ++
      [⟨(r.memory.packets packet).buf, bufferOf (r.memory.packets packet)⟩] := by
  rw [Receiver.receive, Option.map_eq_some_iff] at h
  obtain ⟨r₁, hstore, hr'⟩ := h
  have hr₁ : r₁.stores = r.stores ++
      [⟨(r.memory.packets packet).buf, bufferOf (r.memory.packets packet)⟩] := by
    simp only [Receiver.store, packetBufferGetBuf, Option.map_some] at hstore
    split at hstore
    · simp at hstore
    · obtain ⟨heap, -, rfl⟩ := Option.map_eq_some_iff.mp hstore
      rfl
  rw [← hr', stores_react]
  exact hr₁

lemma stores_receiveAll {r' : Receiver Addr} {chunks : List (List UInt8)}
    (h : r.receiveAll packet announced fill chunks = some r') : r.stores ⊆ r'.stores := by
  induction chunks generalizing r with
  | nil =>
    rw [Receiver.receiveAll, Option.some_inj] at h
    rw [h]
    exact fun _ hs => hs
  | cons chunk chunks ih =>
    rw [Receiver.receiveAll, Option.bind_eq_some_iff] at h
    obtain ⟨r₁, hreceive, hrest⟩ := h
    intro s hs
    refine ih hrest ?_
    rw [stores_receive hreceive]
    exact List.mem_append_left _ hs

lemma exists_store_astray (h : Misplaced packet r.memory) {r' : Receiver Addr}
    {chunks : List (List UInt8)}
    (hall : r.receiveAll packet announced fill (chunk :: chunks) = some r') :
    ∃ s ∈ r'.stores, s.target ≠ s.owner := by
  rw [Receiver.receiveAll, Option.bind_eq_some_iff] at hall
  obtain ⟨r₁, hreceive, hrest⟩ := hall
  have hmem : ⟨(r.memory.packets packet).buf, bufferOf (r.memory.packets packet)⟩ ∈ r₁.stores := by
    rw [stores_receive hreceive]
    exact List.mem_append_right _ (List.mem_singleton_self _)
  exact ⟨_, stores_receiveAll hrest hmem, h⟩

/-- The whole run: it reassembles the stream exactly when the announced lengths that are
still to come increase. -/
lemma reassembles_iff (hpos : 0 < headerLen) {chunks : List (List UInt8)}
    (h : Awaiting packet headerLen announced r lens due chunks.flatten)
    (hplace : ∀ s ∈ r.stores, s.target = s.owner)
    (hreads : Reads packet announced fill r chunks) :
    Reassembles packet announced fill r due chunks ↔ lens.IsChain (· < ·) := by
  induction chunks generalizing r lens due with
  | nil =>
    generalize hstream : ([] : List (List UInt8)).flatten = stream at h
    cases h with
    | idle h => exact iff_of_true ⟨r, rfl, (List.append_nil _).symm, hplace⟩ (.singleton _)
    | header h hbase hp hmore => simp [hmore] at hstream
    | body h hbase hp hmore => simp [hmore] at hstream
  | cons chunk chunks ih =>
    obtain ⟨hne, hreq, hnext⟩ := hreads
    obtain ⟨r', b, hreceive, hstores, hgoes | ⟨hnot, hrest, hmisplaced⟩⟩ :=
      receive_awaiting fill hpos h hne hreq
    · obtain ⟨lens', due', hawaiting, hlens, hhanded⟩ := hgoes
      have hplace' : ∀ s ∈ r'.stores, s.target = s.owner := by
        intro s hs
        rw [hstores, List.mem_append, List.mem_singleton] at hs
        rcases hs with hs | rfl
        · exact hplace s hs
        · rfl
      rw [hlens, ← ih hawaiting hplace' (hnext r' hreceive)]
      simp only [Reassembles, Receiver.receiveAll, hreceive, Option.bind_some, hhanded]
    · refine iff_of_false ?_ hnot
      rintro ⟨final, hall, -, hfinal⟩
      rw [Receiver.receiveAll, hreceive, Option.bind_some] at hall
      cases chunks with
      | nil => exact hrest rfl
      | cons next chunks =>
        obtain ⟨s, hs, hastray⟩ := exists_store_astray hmisplaced hall
        exact hastray (hfinal s hs)

lemma inHeader_init (m : PacketMemory Addr) (packet : Addr) (headerLen : Nat) :
    InHeader packet headerLen 0 [] (packetBufferInit m packet headerLen true).2 := by
  rw [packetBufferInit_ok m packet (Int.natCast_nonneg headerLen)]
  refine ⟨m.heap.next, none, List.replicate headerLen 0, ?_, BlockHeap.blocks_set_self _ _, ?_, ?_⟩
  · simp
  · simp
  · simp

end Runs

/-- The loop on a packet that has just been initialised. -/
def startReceiver {Addr : Type} [DecidableEq Addr] (m : PacketMemory Addr) (packet : Addr)
    (headerLen : Nat) : Receiver Addr :=
  ⟨(packetBufferInit m packet headerLen true).2, 0, [], []⟩

/-- However the stream is cut into reads, the packets are handed over whole, each when its
last byte has been consumed, with every chunk stored in its own buffer, if and only if
every body is longer than the one before. -/
theorem reassembles_iff_bodies_grow {Addr : Type} [DecidableEq Addr] (m : PacketMemory Addr)
    (packet : Addr) (headerLen : Nat) (hpos : 0 < headerLen) (announced : List UInt8 → Int)
    (fill : Nat → Nat → UInt8) (packets : List (WirePacket headerLen announced))
    (chunks : List (List UInt8)) (hcut : chunks.flatten = streamOf packets)
    (hreads : Reads packet announced fill (startReceiver m packet headerLen) chunks) :
    Reassembles packet announced fill (startReceiver m packet headerLen) (handoversOf 0 packets)
      chunks ↔ (bodyLens packets).IsChain (· < ·) := by
  have hstart : Awaiting packet headerLen announced (startReceiver m packet headerLen)
      (0 :: bodyLens packets) (handoversOf 0 packets) chunks.flatten := by
    rw [hcut]
    exact awaiting_start hpos (inHeader_init m packet headerLen) packets
  have hzero : (0 :: bodyLens packets).IsChain (· < ·) ↔ (bodyLens packets).IsChain (· < ·) := by
    cases packets with
    | nil => simp [bodyLens]
    | cons p packets => simp [bodyLens, List.isChain_cons_cons, p.body_pos]
  rw [reassembles_iff hpos hstart (by simp [startReceiver]) hreads, hzero]

/-- Headers of one byte that is the length of the body. -/
def lengthByte (header : List UInt8) : Int := (header.headD 0).toNat

def packetOfOne (a : UInt8) : WirePacket 1 lengthByte := ⟨[1], [a], rfl, by simp, rfl⟩

def packetOfTwo (a b : UInt8) : WirePacket 1 lengthByte := ⟨[2], [a, b], rfl, by simp, rfl⟩

theorem growing_bodies_reassembled :
    Reads () lengthByte (fun _ _ => 0) (startReceiver emptyMemory () 1) [[1], [7], [2], [8], [9]] ∧
      Reassembles () lengthByte (fun _ _ => 0) (startReceiver emptyMemory () 1)
        (handoversOf 0 [packetOfOne 7, packetOfTwo 8 9]) [[1], [7], [2], [8], [9]] := by
  have hreads : Reads () lengthByte (fun _ _ => 0) (startReceiver emptyMemory () 1)
      [[1], [7], [2], [8], [9]] := by
    decide
  have hcut : [[1], [7], [2], [8], [9]].flatten =
      streamOf [packetOfOne 7, packetOfTwo 8 9] := rfl
  refine ⟨hreads,
    (reassembles_iff_bodies_grow emptyMemory () 1 (by decide) _ _ _ _ hcut hreads).mpr ?_⟩
  simp [bodyLens, packetOfOne, packetOfTwo]

/-- Of two bodies of one byte each, the second is written over its header. -/
theorem equal_bodies_not_reassembled :
    Reads () lengthByte (fun _ _ => 0) (startReceiver emptyMemory () 1) [[1], [7], [1], [8]] ∧
      [[1], [7], [1], [8]].flatten = streamOf [packetOfOne 7, packetOfOne 8] ∧
      ¬ Reassembles () lengthByte (fun _ _ => 0) (startReceiver emptyMemory () 1)
        (handoversOf 0 [packetOfOne 7, packetOfOne 8]) [[1], [7], [1], [8]] := by
  refine ⟨by decide, rfl, ?_⟩
  rintro ⟨r, hall, hhanded, -⟩
  have hrun : ((startReceiver emptyMemory () 1).receiveAll () lengthByte (fun _ _ => 0)
      [[1], [7], [1], [8]]).map Receiver.handed = some [⟨2, [1], [7]⟩, ⟨4, [8], [7]⟩] := by
    decide
  rw [hall, Option.map_some, hhanded] at hrun
  revert hrun
  decide

end GeneralPurposeLibrary.Proofs
