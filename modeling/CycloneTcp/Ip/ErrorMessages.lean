import CycloneTcp.Ip.Ipv6Input

/-! # Error messages about error messages

A host with both versions of the protocol, over everything that can come in and over the time of the
reassembly queues: which datagrams are answered with an error message? The checks of the senders and
the filters of the sources keep all of the law but one point: an error message is recognised where
the IPv6 header announces it, and nowhere else. -/

set_option autoImplicit false

namespace Ip

/-- The host, as far as it sends error messages. -/
structure Host where
  ipv4 : Ipv4Host
  ipv6 : Ipv6Host

inductive HostEvent where
  | ipv4 (e : Ipv4Event)
  | ipv6 (e : Ipv6Event)

namespace Host

/-- One step. There is no state after a step from which the code does not return. -/
def step : Option Host → HostEvent → Option Host
  | none, _ => none
  | some s, .ipv4 e => (s.ipv4.step e).map fun ipv4 => { s with ipv4 := ipv4 }
  | some s, .ipv6 e => (s.ipv6.step e).map fun ipv6 => { s with ipv6 := ipv6 }

/-- What is answered in the step hides no error message: not behind the extension headers of an IPv6
packet, and not in an IPv4 datagram whose time is over. -/
def Admits : Option Host → HostEvent → Prop
  | none, _ => True
  | some s, .ipv4 e => s.ipv4.Admits e
  | some s, .ipv6 e => s.ipv6.Admits e

/-- Nothing has been received. -/
structure Idle (s : Host) : Prop where
  ipv4_queue : ∀ k, (s.ipv4.queue k).used = false
  ipv4_answers : s.ipv4.answers = []
  ipv6_queue : ∀ k, (s.ipv6.queue k).used = false
  waiting : s.ipv6.waiting = []
  ipv6_answers : s.ipv6.answers = []

/-- All messages that have been sent may answer the datagrams that they answer. -/
structure Lawful (s : Host) : Prop where
  ipv4 : ∀ answer ∈ s.ipv4.answers, answer.packet.Answerable answer.context
  ipv6 : ∀ answer ∈ s.ipv6.answers,
    answer.packet.Answerable answer.anycastAddrList answer.message

/-- The invariant of the runs. -/
structure Kept (s : Host) : Prop where
  ipv4 : s.ipv4.Kept
  ipv6 : s.ipv6.Kept

variable {s s' : Host}

theorem Idle.kept (h : s.Idle) : s.Kept := by
  constructor
  · constructor
    · intro k hused
      rw [h.ipv4_queue k] at hused
      cases hused
    · simp [h.ipv4_answers]
  · constructor
    · intro k hused
      rw [h.ipv6_queue k] at hused
      cases hused
    · simp [h.waiting]
    · simp [h.ipv6_answers]

theorem Kept.step (h : s.Kept) {e : HostEvent} (he : Admits (some s) e)
    (hstep : Host.step (some s) e = some s') : s'.Kept := by
  cases e with
  | ipv4 e =>
      obtain ⟨ipv4, hipv4, rfl⟩ := Option.map_eq_some_iff.1 hstep
      exact ⟨h.ipv4.step he hipv4, h.ipv6⟩
  | ipv6 e =>
      obtain ⟨ipv6, hipv6, rfl⟩ := Option.map_eq_some_iff.1 hstep
      exact ⟨h.ipv4, h.ipv6.step he hipv6⟩

/-- **Error messages never answer error messages** along every run in which no error message is hidden
from the senders: whatever comes in and in whatever order, and whichever reassembly times out, a
message answers a datagram that carries no error message, from a unicast source and to a destination
that allows for it, and over IPv6 it fits into the minimum MTU. -/
theorem run_lawful (hs : s.Idle) {es : List HostEvent}
    (hes : Along Admits Host.step (some s) es) (hrun : run Host.step (some s) es = some s') :
    s'.Lawful := by
  have hkept : ∀ s' ∈ run Host.step (some s) es, s'.Kept := by
    refine run_invariant (I := fun s => ∀ s' ∈ s, s'.Kept) ?_ ?_ hes
    · intro s e h he s' hs'
      cases s with
      | none => cases hs'
      | some s => exact (h s rfl).step he hs'
    · intro s' hs'
      cases hs'
      exact hs.kept
  have h := hkept s' hrun
  exact ⟨h.ipv4.answers, h.ipv6.answers⟩

/-! ## Two runs -/

/-- A host that nothing has been received by. -/
def idle : Host where
  ipv4 := {
    queue := fun _ => { used := false, header := ⟨4, 5, 0, 0, 0, 0, 0, 0, 0, 0, 0, []⟩
                        headerLength := 20, dataLen := 0, holes := ⟨0, fun _ => 0, 0⟩ }
    answers := [] }
  ipv6 := {
    queue := fun _ => { used := false, header := ⟨⟨6, 0, 0, 0, 0, 0, 0, 0⟩, [], 0⟩
                        headerLength := 40, dataLen := 0, holes := ⟨0, fun _ => 0, 0⟩ }
    waiting := []
    answers := [] }

theorem idle_idle : idle.Idle := ⟨fun _ => rfl, rfl, fun _ => rfl, rfl, rfl⟩

/-- A UDP datagram from 10.0.0.1 to 10.0.0.2. -/
def udpFrame : Ipv4Frame where
  header :=
    { version := 4, headerLength := 5, typeOfService := 0, totalLength := 28, identification := 1
      fragmentOffset := 0, timeToLive := 64, protocol := 17, headerChecksum := 0
      srcAddr := 0x0A000001, destAddr := 0x0A000002, options := [] }
  rest := [0x10, 0x00, 0x20, 0x00, 0x00, 0x08, 0x00, 0x00]

/-- It comes in, and there is no socket for its port. -/
def udpEvent : HostEvent :=
  .ipv4 (.frame ⟨0x0A000002, .valid, 0xFF000000, 0⟩ true [] true ERROR_PORT_UNREACHABLE
    ⟨true, true, fun _ => 0⟩ udpFrame)

/-- The source is told so. -/
theorem run_lawful_udp : ∃ s', run Host.step (some idle) [udpEvent] = some s' ∧
    s'.ipv4.answers.length = 1 ∧ s'.Lawful := by
  have hes : Along Admits Host.step (some idle) [udpEvent] := ⟨trivial, trivial⟩
  exact ⟨_, rfl, rfl, run_lawful idle_idle hes rfl⟩

/-- A Routing header with a segment left, and behind it a message that a port cannot be reached. -/
def hiddenError : List UInt8 :=
  [0x60, 0, 0, 0, 0, 12, 43, 64] ++ [0xFE, 0x80, 0, 0, 0, 0, 0, 0, 0, 0, 0, 0, 0, 0, 0, 1]
    ++ [0xFE, 0x80, 0, 0, 0, 0, 0, 0, 0, 0, 0, 0, 0, 0, 0, 2] ++ [58, 0, 0, 1, 0, 0, 0, 0]
    ++ [1, 4, 0, 0]

/-- Memory that holds a packet, and the packet in one chunk. -/
def packetMem (bytes : List UInt8) : Memory UInt8 := fun i => bytes.getD i 0

def packetBuffer (bytes : List UInt8) : NetBuffer :=
  { chunk := [{ address := 0, length := UInt16.ofNat bytes.length, size := 0 }], maxChunkCount := 1 }

/-- The packet comes in. -/
def hiddenArrival : Ipv6Arrival where
  mem := packetMem hiddenError
  ipPacket := packetBuffer hiddenError
  accepted := true
  tentative := false
  upper := .noError
  routing := false
  route := none
  pool := ⟨true, true, fun _ => 0⟩

/-- The packet as it is answered. -/
def hiddenPacket : InvokingPacket where
  header := ipv6HeaderAt (packetMem hiddenError) 0
  data := hiddenError.drop 40

theorem hiddenPacket_processed : ipv6ProcessPacket hiddenArrival =
    some { packet := hiddenPacket
           messages := [{ type := ICMPV6_TYPE_PARAM_PROBLEM, code := ICMPV6_CODE_INVALID_HEADER_FIELD
                          parameter := 42 }]
           fragment := none
           forwarded := false } := by
  decide +kernel

theorem hiddenPacket_hides : hiddenPacket.HidesError := by
  have hat : hiddenPacket.HeaderAt (0 + ((0 : UInt8).toNat * 8 + 8)) IPV6_ICMPV6_HEADER :=
    .extension .first (by decide +kernel) (by decide +kernel) (by decide +kernel)
  exact ⟨by decide +kernel, _, hat, by decide +kernel, ICMPV6_TYPE_DEST_UNREACHABLE,
    by decide +kernel, by decide⟩

/-- What is said about the packet, and on behalf of which address. -/
def hiddenSender : Icmpv6Sender := ⟨[], some 0xFE800000000000000000000000000002⟩

def hiddenErrors : List Icmpv6Error :=
  [{ type := ICMPV6_TYPE_PARAM_PROBLEM, code := ICMPV6_CODE_INVALID_HEADER_FIELD, parameter := 42 }]

theorem hiddenPacket_answered : hiddenSender.answers hiddenPacket hiddenErrors ≠ [] := by
  have hlen : (hiddenSender.answers hiddenPacket hiddenErrors).length = 1 := by decide +kernel
  intro hnil
  rw [hnil] at hlen
  cases hlen

/-- The host answers the error message with another one. -/
theorem run_lawful_hidden : ¬ ∀ (s : Host) (es : List HostEvent) (s' : Host), s.Idle →
    run Host.step (some s) es = some s' → s'.Lawful := by
  intro h
  have hrun : ∃ s', run Host.step (some idle) [.ipv6 (.packet hiddenSender hiddenArrival)] =
      some s' ∧ s'.ipv6.answers =
        idle.ipv6.answers ++ hiddenSender.answers hiddenPacket hiddenErrors := by
    rw [run_cons, run_nil, Host.step, Ipv6Host.step, hiddenPacket_processed]
    exact ⟨_, rfl, rfl⟩
  obtain ⟨s', hrun, hanswers⟩ := hrun
  have hsource : Ipv6.ipv6IsMulticastAddr hiddenPacket.header.srcAddr = false := by decide +kernel
  refine (Ipv6Host.answers_answerable_iff hsource hiddenPacket_answered).1 ?_ hiddenPacket_hides
  intro answer hmem
  have hlawful := h idle _ s' idle_idle hrun
  refine hlawful.ipv6 answer ?_
  rw [hanswers]
  exact List.mem_append_right _ hmem

end Host

end Ip
