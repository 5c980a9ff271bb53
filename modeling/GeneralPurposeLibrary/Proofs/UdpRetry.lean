import GeneralPurposeLibrary.UdpClient
import Mathlib.Algebra.Group.Nat.Defs

/-!
# One UDP call, one datagram

The retry loops of the UDP client compare the value of the system call with `EAGAIN`. A failed
call has the value -1, so the loops never retry after a failure; a call that moved eleven
bytes has the value of `EAGAIN` and is repeated.
-/

namespace GeneralPurposeLibrary.Proofs
open BoundedRetry

variable {ρ μ : Type}

def attempts (before after : Network ρ μ) : List (CallOutcome μ) :=
  (after.calls.drop before.calls.length).map Prod.snd

/-- The outcomes of the system calls that one call of the client made, and its result: only a
failure with `EAGAIN` is followed by another attempt, so at most one of them moved a datagram. -/
structure MovesAtMostOne (count : μ → ℕ) (attempts : List (CallOutcome μ)) (ret : Int32) :
    Prop where
  retried : ∀ o ∈ attempts.dropLast, o = .failed eagain
  retries : attempts.length ≤ 1 + 3
  returned : ∀ o ∈ attempts.getLast?, ret = o.value count

/-- The datagram that was received is the one in the buffer, and its sender is the peer. -/
def KeepsReceived (size : Int32) (attempts : List (CallOutcome Datagram)) (buf buf' : List UInt8)
    (sktBase : Option SocketBase) : Prop :=
  ∀ d, .moved d ∈ attempts →
    buf' = d.delivered size ++ buf.drop (d.delivered size).length ∧
      sktBase.map SocketBase.sin = some d.sender

def SendsAtMostOne (sktBase : Option SocketBase) (buf : List UInt8) (size : Int32)
    (net : Network SendRequest ℕ) : Prop :=
  MovesAtMostOne id (attempts net (udpClientSend sktBase buf size net).1)
    (udpClientSend sktBase buf size net).2

def ReceivesAtMostOne (sktBase : Option SocketBase) (buf : List UInt8) (size : Int32)
    (net : Network RecvRequest Datagram) : Prop :=
  match udpClientRecv sktBase buf size net with
  | ((sktBase', buf', net'), ret) =>
    MovesAtMostOne (fun d => (d.delivered size).length) (attempts net net') ret ∧
      KeepsReceived size (attempts net net') buf buf' sktBase'

lemma ofNat_eq_eagain_iff (n : ℕ) : Int32.ofNat n = eagain ↔ n % 2 ^ 32 = 11 := by
  constructor
  · intro h
    have hnat := congrArg (fun x => x.toUInt32.toNat) h
    exact hnat
  · intro h
    apply Int32.toBitVec_inj.mp
    apply BitVec.eq_of_toNat_eq
    exact h

lemma value_eq_eagain_iff {count : μ → ℕ} {o : CallOutcome μ} :
    o.value count = eagain ↔ ∃ m, o = .moved m ∧ count m % 2 ^ 32 = 11 := by
  cases o with
  | moved m =>
    rw [CallOutcome.value, ofNat_eq_eagain_iff]
    constructor
    · intro h
      exact ⟨m, rfl, h⟩
    · rintro ⟨m', hm, h⟩
      cases hm
      exact h
  | failed errno =>
    constructor
    · intro h
      cases h
    · rintro ⟨m, hm, -⟩
      cases hm

lemma iff_not_eleven {P : Prop} (count : μ → ℕ) {o : CallOutcome μ}
    (hlaw : o.value count ≠ eagain → P)
    (hbroken : ∀ m, o = .moved m → o.value count = eagain → ¬P) :
    P ↔ ∀ m, o = .moved m → count m % 2 ^ 32 ≠ 11 := by
  by_cases h : o.value count = eagain
  · obtain ⟨m, hm, heleven⟩ := value_eq_eagain_iff.mp h
    exact iff_of_false (hbroken m hm h) (fun hall => hall m hm heleven)
  · refine iff_of_true (hlaw h) ?_
    intro m hm heleven
    exact h (value_eq_eagain_iff.mpr ⟨m, hm, heleven⟩)

lemma attempts_of_append {before after : Network ρ μ} {more : List (ρ × CallOutcome μ)}
    (h : after.calls = before.calls ++ more) : attempts before after = more.map Prod.snd := by
  rw [attempts, h, List.drop_left]

lemma MovesAtMostOne.nil {count : μ → ℕ} {ret : Int32} : MovesAtMostOne count [] ret where
  retried := by
    intro o ho
    cases ho
  retries := Nat.zero_le _
  returned := by
    intro o ho
    cases ho

lemma not_movesAtMostOne {count : μ → ℕ} {m : μ} {second : CallOutcome μ}
    {rest : List (CallOutcome μ)} {ret : Int32} :
    ¬MovesAtMostOne count (.moved m :: second :: rest) ret := by
  intro h
  have hfirst := h.retried (.moved m) List.mem_cons_self
  cases hfirst

lemma sendto_logs (request : SendRequest) :
    Logs (sendto request) Network.calls (fun net => (request, net.next))
      (fun call => call.2.value id) where
  log_call := fun _ => rfl
  value_call := fun _ => rfl

lemma recvfrom_net (fd size : Int32) (s : RecvState) :
    (recvfrom fd size s).1.net = s.net.answer ⟨fd, size⟩ := by
  cases hnext : s.net.next <;> simp only [recvfrom, hnext]

lemma recvfrom_value (fd size : Int32) (s : RecvState) :
    (recvfrom fd size s).2 = s.net.next.value fun d => (d.delivered size).length := by
  cases hnext : s.net.next <;> simp only [recvfrom, hnext, CallOutcome.value]

lemma recvfrom_moved (fd size : Int32) {s : RecvState} {d : Datagram}
    (h : s.net.next = .moved d) :
    (recvfrom fd size s).1.buf = d.delivered size ++ s.buf.drop (d.delivered size).length ∧
      (recvfrom fd size s).1.sin = d.sender := by
  simp only [recvfrom, h, and_self]

lemma recvfrom_logs (fd size : Int32) :
    Logs (recvfrom fd size) (fun s => s.net.calls) (fun s => (⟨fd, size⟩, s.net.next))
      (fun call => call.2.value fun d => (d.delivered size).length) where
  log_call := by
    intro s
    rw [recvfrom_net]
    rfl
  value_call := recvfrom_value fd size

/-- The attempts of a retry loop: at most four, and the value of the last is the result. -/
structure EndsWithLast (count : μ → ℕ) (attempts : List (CallOutcome μ)) (ret : Int32) : Prop where
  retries : attempts.length ≤ 1 + 3
  returned : ∃ o, attempts.getLast? = some o ∧ ret = o.value count

lemma endsWithLast_of_log {count : μ → ℕ} {before after : Network ρ μ}
    {first : ρ × CallOutcome μ} {rest : List (ρ × CallOutcome μ)} {ret : Int32}
    (hlog : after.calls = before.calls ++ first :: rest) (hlength : rest.length ≤ 3)
    (hret : ret = ((first :: rest).getLast (List.cons_ne_nil _ _)).2.value count) :
    EndsWithLast count (attempts before after) ret where
  retries := by
    rw [attempts_of_append hlog, List.length_map, List.length_cons]
    omega
  returned := by
    refine ⟨((first :: rest).getLast (List.cons_ne_nil _ _)).2, ?_, hret⟩
    rw [attempts_of_append hlog, List.getLast?_map, List.getLast?_eq_some_getLast]
    rfl

lemma EndsWithLast.movesAtMostOne {count : μ → ℕ} {attempts : List (CallOutcome μ)} {ret : Int32}
    (h : EndsWithLast count attempts ret) {o : CallOutcome μ} (hone : attempts = [o]) :
    MovesAtMostOne count attempts ret where
  retried := by
    intro o' ho'
    rw [hone] at ho'
    cases ho'
  retries := h.retries
  returned := by
    intro o' ho'
    obtain ⟨last, hlast, hret⟩ := h.returned
    rw [hlast] at ho'
    cases ho'
    exact hret

/-- Whatever the outcomes are, a send makes at most four attempts and returns the last. -/
lemma udpClientSend_endsWithLast (sktBase : SocketBase) (buf : List UInt8) (size : Int32)
    (net : Network SendRequest ℕ) :
    EndsWithLast id (attempts net (udpClientSend (some sktBase) buf size net).1)
      (udpClientSend (some sktBase) buf size net).2 := by
  obtain ⟨rest, hlog, hlength, hret⟩ :=
    exists_log_retry (· = eagain) (sendto_logs ⟨sktBase.fd, buf, size, sktBase.sin⟩) 3 net
  exact endsWithLast_of_log hlog hlength hret

lemma udpClientRecv_endsWithLast (sktBase : SocketBase) (buf : List UInt8) (size : Int32)
    (net : Network RecvRequest Datagram) :
    EndsWithLast (fun d => (d.delivered size).length)
      (attempts net (udpClientRecv (some sktBase) buf size net).1.2.2)
      (udpClientRecv (some sktBase) buf size net).2 := by
  obtain ⟨rest, hlog, hlength, hret⟩ :=
    exists_log_retry (· = eagain) (recvfrom_logs sktBase.fd size) 3 ⟨buf, sktBase.sin, net⟩
  exact endsWithLast_of_log hlog hlength hret

lemma sendsAtMostOne_of_ne {sktBase : SocketBase} {buf : List UInt8} {size : Int32}
    {net : Network SendRequest ℕ} (h : net.next.value id ≠ eagain) :
    SendsAtMostOne (some sktBase) buf size net := by
  have hne : (sendto ⟨sktBase.fd, buf, size, sktBase.sin⟩ net).2 ≠ eagain := h
  have hone : attempts net (udpClientSend (some sktBase) buf size net).1 = [net.next] := by
    unfold udpClientSend
    simp only
    rw [retry_of_not_again (· = eagain) hne, attempts_of_append (rfl : _ = net.calls ++ [_])]
    rfl
  exact (udpClientSend_endsWithLast sktBase buf size net).movesAtMostOne hone

lemma not_sendsAtMostOne {sktBase : SocketBase} {buf : List UInt8} {size : Int32}
    {net : Network SendRequest ℕ} {m : ℕ} (hm : net.next = .moved m)
    (h : net.next.value id = eagain) : ¬SendsAtMostOne (some sktBase) buf size net := by
  have hlogs := sendto_logs ⟨sktBase.fd, buf, size, sktBase.sin⟩
  obtain ⟨second, rest, hlog⟩ := exists_log_retry_again (· = eagain) hlogs h 2
  unfold SendsAtMostOne udpClientSend
  rw [attempts_of_append hlog, List.map_cons, List.map_cons, hm]
  exact not_movesAtMostOne

lemma receivesAtMostOne_of_ne {sktBase : SocketBase} {buf : List UInt8} {size : Int32}
    {net : Network RecvRequest Datagram}
    (h : net.next.value (fun d => (d.delivered size).length) ≠ eagain) :
    ReceivesAtMostOne (some sktBase) buf size net := by
  have hvalue := recvfrom_value sktBase.fd size ⟨buf, sktBase.sin, net⟩
  have hnet := recvfrom_net sktBase.fd size ⟨buf, sktBase.sin, net⟩
  have hne : (recvfrom sktBase.fd size ⟨buf, sktBase.sin, net⟩).2 ≠ eagain := by
    rw [hvalue]
    exact h
  have hattempts : attempts net (recvfrom sktBase.fd size ⟨buf, sktBase.sin, net⟩).1.net =
      [net.next] := by
    rw [hnet, attempts_of_append (rfl : _ = net.calls ++ [_])]
    rfl
  have hends := udpClientRecv_endsWithLast sktBase buf size net
  unfold udpClientRecv at hends
  unfold ReceivesAtMostOne udpClientRecv
  simp only at hends ⊢
  rw [retry_of_not_again (· = eagain) hne] at hends ⊢
  refine ⟨hends.movesAtMostOne hattempts, ?_⟩
  rw [hattempts]
  intro d hd
  have hmoved := recvfrom_moved sktBase.fd size (s := ⟨buf, sktBase.sin, net⟩)
    (List.mem_singleton.mp hd).symm
  exact ⟨hmoved.1, congrArg some hmoved.2⟩

lemma not_receivesAtMostOne {sktBase : SocketBase} {buf : List UInt8} {size : Int32}
    {net : Network RecvRequest Datagram} {m : Datagram} (hm : net.next = .moved m)
    (h : net.next.value (fun d => (d.delivered size).length) = eagain) :
    ¬ReceivesAtMostOne (some sktBase) buf size net := by
  have hlogs := recvfrom_logs sktBase.fd size
  obtain ⟨second, rest, hlog⟩ :=
    exists_log_retry_again (· = eagain) (s := ⟨buf, sktBase.sin, net⟩) hlogs h 2
  unfold ReceivesAtMostOne udpClientRecv
  simp only
  rw [attempts_of_append hlog, List.map_cons, List.map_cons, hm]
  intro hlaw
  exact not_movesAtMostOne hlaw.1

/-- A call moves at most one datagram exactly when its first attempt is not a success of
eleven bytes: such a datagram is sent again, or received and then overwritten by the next. -/
theorem udp_calls_move_one_iff (sktBase : Option SocketBase) (buf : List UInt8) (size : Int32)
    (sending : Network SendRequest ℕ) (receiving : Network RecvRequest Datagram) :
    (SendsAtMostOne sktBase buf size sending ↔
        sktBase = none ∨ ∀ n, sending.next = .moved n → n % 2 ^ 32 ≠ 11) ∧
      (ReceivesAtMostOne sktBase buf size receiving ↔
        sktBase = none ∨
          ∀ d, receiving.next = .moved d → (d.delivered size).length % 2 ^ 32 ≠ 11) := by
  cases sktBase with
  | none =>
    have hsend : SendsAtMostOne none buf size sending := by
      unfold SendsAtMostOne udpClientSend
      rw [attempts_of_append (List.append_nil _).symm]
      exact MovesAtMostOne.nil
    have hrecv : ReceivesAtMostOne none buf size receiving := by
      unfold ReceivesAtMostOne udpClientRecv
      simp only
      rw [attempts_of_append (List.append_nil _).symm]
      refine ⟨MovesAtMostOne.nil, ?_⟩
      intro d hd
      cases hd
    exact ⟨iff_of_true hsend (Or.inl rfl), iff_of_true hrecv (Or.inl rfl)⟩
  | some sktBase =>
    have hskt : some sktBase ≠ none := Option.some_ne_none sktBase
    have hsend : SendsAtMostOne (some sktBase) buf size sending ↔
        ∀ n, sending.next = .moved n → n % 2 ^ 32 ≠ 11 :=
      iff_not_eleven id sendsAtMostOne_of_ne (fun _ => not_sendsAtMostOne)
    have hrecv : ReceivesAtMostOne (some sktBase) buf size receiving ↔
        ∀ d, receiving.next = .moved d → (d.delivered size).length % 2 ^ 32 ≠ 11 :=
      iff_not_eleven (fun d : Datagram => (d.delivered size).length) receivesAtMostOne_of_ne
        (fun _ => not_receivesAtMostOne)
    exact ⟨hsend.trans (or_iff_right hskt).symm, hrecv.trans (or_iff_right hskt).symm⟩

/-- Eleven bytes that every `sendto` accepts are sent four times. -/
theorem eleven_bytes_sent_again :
    (udpClientSend (some ⟨3, ⟨2, 0, 0⟩⟩) (List.replicate 11 0) 11 ⟨fun _ => .moved 11, []⟩).2 = 11 ∧
      attempts ⟨fun _ => .moved 11, []⟩
        (udpClientSend (some ⟨3, ⟨2, 0, 0⟩⟩) (List.replicate 11 0) 11
          ⟨fun _ => .moved 11, []⟩).1 = [.moved 11, .moved 11, .moved 11, .moved 11] ∧
      ¬SendsAtMostOne (some ⟨3, ⟨2, 0, 0⟩⟩) (List.replicate 11 0) 11 ⟨fun _ => .moved 11, []⟩ := by
  refine ⟨by decide, by decide, not_sendsAtMostOne rfl ?_⟩
  exact value_eq_eagain_iff.mpr ⟨11, rfl, rfl⟩

end GeneralPurposeLibrary.Proofs
