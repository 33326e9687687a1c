import CycloneTcp.Ip.Arp
import CycloneTcp.Ip.Ipv4Input

/-! # ICMP error messages

`icmpSendErrorMessage` answers a datagram: `ipv4ProcessDatagram` calls it if the protocol or the port
cannot be reached, `ipv4FragTick` if the time of a datagram is over before it is complete. The
function looks at the destination of the datagram, and neither at its source nor at what the datagram
carries: that is left to the callers. -/

set_option autoImplicit false

namespace Ip

open Arp (Ipv4Context IPV4_UNSPECIFIED_ADDR ipv4IsBroadcastAddr ipv4IsMulticastAddr
  ipv4IsTentativeAddr)

/-! ## Constants -/

def IPV4_LOOPBACK_ADDR : UInt32 := 0x7F000001

def IPV4_PROTOCOL_ICMP : UInt8 := 1

def IPV4_PROTOCOL_IGMP : UInt8 := 2

def IPV4_PROTOCOL_TCP : UInt8 := 6

def ICMP_TYPE_DEST_UNREACHABLE : UInt8 := 3

def ICMP_TYPE_SOURCE_QUENCH : UInt8 := 4

def ICMP_TYPE_REDIRECT : UInt8 := 5

def ICMP_TYPE_TIME_EXCEEDED : UInt8 := 11

def ICMP_TYPE_PARAM_PROBLEM : UInt8 := 12

def ICMP_CODE_PROTOCOL_UNREACHABLE : UInt8 := 2

def ICMP_CODE_PORT_UNREACHABLE : UInt8 := 3

def ICMP_CODE_REASSEMBLY_TIME_EXCEEDED : UInt8 := 1

def ERROR_PROTOCOL_UNREACHABLE : ErrorCode := .other 209

def ERROR_PORT_UNREACHABLE : ErrorCode := .other 210

/-! ## The filters of the addresses -/

/-- Source IPv4 address filtering. -/
def ipv4CheckSourceAddr (context : Ipv4Context) (ipAddr : UInt32) : ErrorCode :=
  if ipv4IsBroadcastAddr context ipAddr = true ∨ ipv4IsMulticastAddr ipAddr = true then
    .invalidAddress
  else .noError

/-- Destination IPv4 address filtering. -/
def ipv4CheckDestAddr (context : Ipv4Context) (multicastFilter : List UInt32) (ipAddr : UInt32) :
    ErrorCode :=
  if ipv4IsBroadcastAddr context ipAddr = true then .noError
  else if ipv4IsMulticastAddr ipAddr = true then
    if ipAddr ∈ multicastFilter then .noError else .invalidAddress
  else if context.addrState ≠ .invalid ∧ context.addr = ipAddr then .noError
  else .invalidAddress

/-- What `ipv4SendPacket` checks of the addresses. -/
def ipv4CheckPacketAddrs (context : Ipv4Context) (srcAddr destAddr : UInt32) : ErrorCode :=
  if ipv4CheckSourceAddr context srcAddr ≠ .noError then ipv4CheckSourceAddr context srcAddr
  else if destAddr = IPV4_UNSPECIFIED_ADDR then .invalidAddress
  else if destAddr = IPV4_LOOPBACK_ADDR ∧ srcAddr ≠ IPV4_LOOPBACK_ADDR then .invalidAddress
  else .noError

/-! ## The messages -/

/-- An ICMP error message, and the addresses it is sent with. -/
structure IcmpErrorMessage where
  type : UInt8
  code : UInt8
  parameter : UInt8
  data : List UInt8
  srcAddr : UInt32
  destAddr : UInt32
  deriving DecidableEq

section Sending

variable (context : Ipv4Context) (ready : Bool)

/-- Send an ICMP Error message about the datagram `packet`. `ready` tells whether there is memory for
the message and the driver takes it. -/
def icmpSendErrorMessage (type code parameter : UInt8) (packet : Ipv4Packet) :
    Option IcmpErrorMessage :=
  let header := packet.header
  -- never respond to a packet destined to a broadcast or a multicast address
  if ipv4IsBroadcastAddr context header.destAddr = true ∨
      ipv4IsMulticastAddr header.destAddr = true then none
  else if ready = false then none
  else if ipv4CheckPacketAddrs context header.destAddr header.srcAddr ≠ .noError then none
  else
    some {
      type := type
      code := code
      parameter := parameter
      -- the IP header and the first 8 bytes of the original datagram data
      data := (header.bytes ++ packet.data).take (header.headerLength.toNat * 4 + 8)
      srcAddr := header.destAddr
      destAddr := header.srcAddr }

/-- Incoming IPv4 datagram processing. `upper` is what the protocol that the datagram is for returns:
`udpProcessDatagram`, or `rawSocketProcessIpPacket` if the protocol is unknown. -/
def ipv4ProcessDatagram (upper : ErrorCode) (packet : Ipv4Packet) : Option IcmpErrorMessage :=
  let protocol := packet.header.protocol
  let error :=
    if protocol = IPV4_PROTOCOL_ICMP then .noError
    else if protocol = IPV4_PROTOCOL_IGMP then .noError
    else if protocol = IPV4_PROTOCOL_TCP then .noError
    else upper
  if error = ERROR_PROTOCOL_UNREACHABLE then
    icmpSendErrorMessage context ready ICMP_TYPE_DEST_UNREACHABLE ICMP_CODE_PROTOCOL_UNREACHABLE 0
      packet
  else if error = ERROR_PORT_UNREACHABLE then
    icmpSendErrorMessage context ready ICMP_TYPE_DEST_UNREACHABLE ICMP_CODE_PORT_UNREACHABLE 0 packet
  else none

/-- The part of a datagram that has been received when its time is over, up to the first hole. There
is none unless fragment zero has been received. -/
def expiredDatagram {H : Type*} (frag : FragDesc H) : Option (H × List UInt8) :=
  match frag.holes.findHole frag.holes.firstHole with
  | none => none
  | some hole =>
      if 0 < frag.holes.first hole then
        some (frag.header, frag.holes.data.read 0 (frag.holes.first hole).toNat)
      else none

/-- The datagram in an entry of the reassembly queue. -/
def expiredPacket (frag : FragDesc Ipv4Header) : Option Ipv4Packet :=
  (expiredDatagram frag).map fun datagram => { header := datagram.1, data := datagram.2 }

/-- Fragment reassembly timeout handler, for one entry whose timer runs out. -/
def ipv4FragTick (frag : FragDesc Ipv4Header) : Option IcmpErrorMessage :=
  match expiredPacket frag with
  | none => none
  | some packet =>
      icmpSendErrorMessage context ready ICMP_TYPE_TIME_EXCEEDED ICMP_CODE_REASSEMBLY_TIME_EXCEEDED 0
        packet

end Sending

/-! ## The law -/

/-- The types of the ICMP error messages. -/
def icmpErrorTypes : List UInt8 :=
  [ICMP_TYPE_DEST_UNREACHABLE, ICMP_TYPE_SOURCE_QUENCH, ICMP_TYPE_REDIRECT, ICMP_TYPE_TIME_EXCEEDED,
    ICMP_TYPE_PARAM_PROBLEM]

namespace Ipv4Packet

/-- The datagram carries an ICMP error message. -/
def CarriesError (packet : Ipv4Packet) : Prop :=
  packet.header.protocol = IPV4_PROTOCOL_ICMP ∧ ∃ type ∈ packet.data.head?, type ∈ icmpErrorTypes

/-- An error message may answer the datagram. -/
structure Answerable (context : Ipv4Context) (packet : Ipv4Packet) : Prop where
  carries : ¬ packet.CarriesError
  source_broadcast : ipv4IsBroadcastAddr context packet.header.srcAddr = false
  source_multicast : ipv4IsMulticastAddr packet.header.srcAddr = false
  source_unspecified : packet.header.srcAddr ≠ IPV4_UNSPECIFIED_ADDR
  dest_broadcast : ipv4IsBroadcastAddr context packet.header.destAddr = false
  dest_multicast : ipv4IsMulticastAddr packet.header.destAddr = false

end Ipv4Packet

variable {context : Ipv4Context} {ready : Bool} {upper : ErrorCode} {packet : Ipv4Packet}
  {message : IcmpErrorMessage}

theorem ipv4CheckSourceAddr_noError {ipAddr : UInt32}
    (h : ipv4CheckSourceAddr context ipAddr = .noError) :
    ipv4IsBroadcastAddr context ipAddr = false ∧ ipv4IsMulticastAddr ipAddr = false := by
  unfold ipv4CheckSourceAddr at h
  split at h
  case isTrue => cases h
  case isFalse hnot => simpa using hnot

/-- What the function and `ipv4SendPacket` together make sure of. -/
theorem icmpSendErrorMessage_addrs {type code parameter : UInt8}
    (h : message ∈ icmpSendErrorMessage context ready type code parameter packet) :
    packet.header.srcAddr ≠ IPV4_UNSPECIFIED_ADDR ∧
      ipv4IsBroadcastAddr context packet.header.destAddr = false ∧
      ipv4IsMulticastAddr packet.header.destAddr = false := by
  unfold icmpSendErrorMessage at h
  dsimp only at h
  split at h
  case isTrue => cases h
  case isFalse hdest =>
    split at h
    case isTrue => cases h
    case isFalse =>
      split at h
      case isTrue => cases h
      case isFalse haddrs =>
        refine ⟨?_, by simpa using hdest⟩
        intro hzero
        refine haddrs ?_
        unfold ipv4CheckPacketAddrs
        split <;> simp_all

/-- If the source has passed the filter, what remains is that the datagram carries no error
message. -/
theorem answerable_iff {type code parameter : UInt8}
    (h : message ∈ icmpSendErrorMessage context ready type code parameter packet)
    (hsource : ipv4IsBroadcastAddr context packet.header.srcAddr = false)
    (hsource' : ipv4IsMulticastAddr packet.header.srcAddr = false) :
    packet.Answerable context ↔ ¬ packet.CarriesError := by
  obtain ⟨hzero, hbroadcast, hmulticast⟩ := icmpSendErrorMessage_addrs h
  constructor
  · intro hanswerable
    exact hanswerable.carries
  · intro hcarries
    exact ⟨hcarries, hsource, hsource', hzero, hbroadcast, hmulticast⟩

/-- A message about a protocol or a port never answers an ICMP message. -/
theorem ipv4ProcessDatagram_mem (h : message ∈ ipv4ProcessDatagram context ready upper packet) :
    packet.header.protocol ≠ IPV4_PROTOCOL_ICMP ∧ ∃ code,
      message ∈ icmpSendErrorMessage context ready ICMP_TYPE_DEST_UNREACHABLE code 0 packet := by
  unfold ipv4ProcessDatagram at h
  dsimp only at h
  by_cases hicmp : packet.header.protocol = IPV4_PROTOCOL_ICMP
  · rw [if_pos hicmp, if_neg (by decide), if_neg (by decide)] at h
    cases h
  refine ⟨hicmp, ?_⟩
  rw [if_neg hicmp] at h
  generalize (if packet.header.protocol = IPV4_PROTOCOL_IGMP then ErrorCode.noError
    else if packet.header.protocol = IPV4_PROTOCOL_TCP then .noError else upper) = error at h
  by_cases hprotocol : error = ERROR_PROTOCOL_UNREACHABLE
  · rw [if_pos hprotocol] at h
    exact ⟨_, h⟩
  by_cases hport : error = ERROR_PORT_UNREACHABLE
  · rw [if_neg hprotocol, if_pos hport] at h
    exact ⟨_, h⟩
  · rw [if_neg hprotocol, if_neg hport] at h
    cases h

/-! ## Runs -/

/-- The checks of an incoming packet: the packet with its options, if it is accepted. -/
def ipv4AcceptPacket (accepted : Bool) (frame : Ipv4Frame) : Option Ipv4Packet :=
  let header := frame.header
  if header.version ≠ IPV4_VERSION then none
  else if header.headerLength < 5 then none
  else if header.totalLength.toNat < header.headerLength.toNat * 4 then none
  else if frame.length < header.totalLength.toNat then none
  else if accepted = false then none
  else
    let optionsLength := header.headerLength.toNat * 4 - ipv4HeaderSize
    some {
      header := { header with options := frame.rest.take optionsLength }
      data := (frame.rest.drop optionsLength).take
        (header.totalLength.toNat - header.headerLength.toNat * 4) }

/-- The packet is a fragment. -/
def Ipv4Packet.isFragment (packet : Ipv4Packet) : Bool :=
  packet.header.fragmentOffset &&& (IPV4_FLAG_MF ||| IPV4_OFFSET_MASK) ≠ 0

/-- The fragments among the packets that are accepted go to the reassembly queue. -/
theorem ipv4ProcessPacket_eq (accepted : Bool) (frame : Ipv4Frame) :
    ipv4ProcessPacket accepted frame = (ipv4AcceptPacket accepted frame).filter (·.isFragment) := by
  unfold ipv4ProcessPacket ipv4AcceptPacket
  dsimp only
  repeat' split
  all_goals simp_all [Ipv4Packet.isFragment, Option.filter]

/-- What `ipv4ProcessPacket` requires of the addresses and of the checksum. -/
def ipv4Accepts (context : Ipv4Context) (multicastFilter : List UInt32) (checksum : Bool)
    (header : Ipv4Header) : Bool :=
  ipv4CheckSourceAddr context header.srcAddr = .noError ∧
    ipv4CheckDestAddr context multicastFilter header.destAddr = .noError ∧
    ipv4IsTentativeAddr context header.destAddr = false ∧ checksum = true

/-- A message that has been sent, the datagram that it answers, and the addresses that the interface
had then. -/
structure Ipv4Answer where
  context : Ipv4Context
  packet : Ipv4Packet
  message : IcmpErrorMessage

/-- The reassembly queue of an interface, and the messages that have been sent. -/
structure Ipv4Host where
  queue : Fin IPV4_MAX_FRAG_DATAGRAMS → FragDesc Ipv4Header
  answers : List Ipv4Answer

/-- A packet arrives, or the time of an entry is over. What the rest of the stack answers comes with
the event; the addresses of the interface may change from one event to the next. -/
inductive Ipv4Event where
  | frame (context : Ipv4Context) (ready : Bool) (multicastFilter : List UInt32) (checksum : Bool)
      (upper : ErrorCode) (pool : Pool) (frame : Ipv4Frame)
  | expire (context : Ipv4Context) (ready : Bool) (k : Fin IPV4_MAX_FRAG_DATAGRAMS)

namespace Ipv4Host

/-- A datagram has been answered, if there is a message. -/
def answer (s : Ipv4Host) (context : Ipv4Context) (packet : Ipv4Packet)
    (message : Option IcmpErrorMessage) : Ipv4Host :=
  { s with answers := s.answers ++ message.toList.map fun message => ⟨context, packet, message⟩ }

/-- One step of the host. There is no state after a step from which the code does not return. -/
def step (s : Ipv4Host) : Ipv4Event → Option Ipv4Host
  | .frame context ready multicastFilter checksum upper pool frame =>
      match ipv4AcceptPacket (ipv4Accepts context multicastFilter checksum frame.header) frame with
      | none => some s
      | some packet =>
          if packet.isFragment = true then
            match ipv4ReassembleDatagram pool s.queue packet with
            | none => none
            | some (queue, none) => some { s with queue := queue }
            | some (queue, some (header, data)) =>
                some ({ s with queue := queue }.answer context ⟨header, data⟩
                  (ipv4ProcessDatagram context ready upper ⟨header, data⟩))
          else some (s.answer context packet (ipv4ProcessDatagram context ready upper packet))
  | .expire context ready k =>
      if (s.queue k).used = true then
        let s' : Ipv4Host := { s with queue := Function.update s.queue k (s.queue k).drop }
        match expiredPacket (s.queue k) with
        | none => some s'
        | some packet => some (s'.answer context packet (ipv4FragTick context ready (s.queue k)))
      else some s

/-- The datagram whose time is over carries no error message, and its source has not become a
broadcast address. -/
def Admits (s : Ipv4Host) : Ipv4Event → Prop
  | .frame .. => True
  | .expire context _ k =>
      (s.queue k).used = true → ∀ packet ∈ expiredPacket (s.queue k), ¬ packet.CarriesError ∧
        ipv4IsBroadcastAddr context packet.header.srcAddr = false

/-- The sources in the queue have passed the filter, and all answers are in order. -/
structure Kept (s : Ipv4Host) : Prop where
  queue : ∀ k, (s.queue k).used = true →
    ipv4IsMulticastAddr (s.queue k).header.srcAddr = false
  answers : ∀ answer ∈ s.answers, answer.packet.Answerable answer.context

variable {s s' : Ipv4Host}

theorem Kept.answer (h : s.Kept) {message : Option IcmpErrorMessage}
    (hmessage : message.isSome = true → packet.Answerable context) :
    (s.answer context packet message).Kept := by
  refine ⟨h.queue, ?_⟩
  intro answer hmem
  rcases List.mem_append.1 hmem with hmem | hmem
  · exact h.answers answer hmem
  · obtain ⟨message', hmem', rfl⟩ := List.mem_map.1 hmem
    rw [Option.mem_toList] at hmem'
    exact hmessage (by rw [hmem']; rfl)

theorem Kept.process (h : s.Kept)
    (hsource : ipv4CheckSourceAddr context packet.header.srcAddr = .noError) :
    (s.answer context packet (ipv4ProcessDatagram context ready upper packet)).Kept := by
  refine h.answer ?_
  intro hsome
  obtain ⟨message, hmem⟩ := Option.isSome_iff_exists.1 hsome
  obtain ⟨hprotocol, code, hmessage⟩ := ipv4ProcessDatagram_mem hmem
  obtain ⟨hbroadcast, hmulticast⟩ := ipv4CheckSourceAddr_noError hsource
  refine (answerable_iff hmessage hbroadcast hmulticast).2 ?_
  intro hcarries
  exact hprotocol hcarries.1

/-- What is accepted has an acceptable source. -/
theorem acceptPacket_source {multicastFilter : List UInt32} {checksum : Bool} {frame : Ipv4Frame}
    (h : ipv4AcceptPacket (ipv4Accepts context multicastFilter checksum frame.header) frame =
      some packet) : ipv4CheckSourceAddr context packet.header.srcAddr = .noError := by
  unfold ipv4AcceptPacket at h
  dsimp only at h
  repeat' split at h
  all_goals cases h
  rename_i haccepts
  simp only [ipv4Accepts, Bool.not_eq_false, decide_eq_true_eq] at haccepts
  exact haccepts.1

theorem Kept.step (h : s.Kept) {e : Ipv4Event} (he : s.Admits e) (hstep : s.step e = some s') :
    s'.Kept := by
  cases e with
  | frame context ready multicastFilter checksum upper pool frame =>
      rw [Ipv4Host.step] at hstep
      cases haccept : ipv4AcceptPacket (ipv4Accepts context multicastFilter checksum frame.header)
          frame with
      | none =>
          rw [haccept] at hstep
          cases hstep
          exact h
      | some packet =>
          have hsource := acceptPacket_source haccept
          rw [haccept] at hstep
          dsimp only at hstep
          split at hstep
          · split at hstep
            case h_1 => cases hstep
            case h_2 queue hreassemble =>
                cases hstep
                refine ⟨?_, h.answers⟩
                exact (reassemble_keys (Q := fun key => ipv4IsMulticastAddr key.1 = false) h.queue
                  (ipv4CheckSourceAddr_noError hsource).2 hreassemble).1
            case h_3 queue header data hreassemble =>
                cases hstep
                obtain ⟨hqueue, hdatagram⟩ := reassemble_keys
                  (Q := fun key => ipv4IsMulticastAddr key.1 = false) h.queue
                  (ipv4CheckSourceAddr_noError hsource).2 hreassemble
                refine Kept.process ⟨hqueue, h.answers⟩ ?_
                have hkey : header.srcAddr = packet.header.srcAddr :=
                  congrArg Prod.fst (hdatagram _ rfl)
                rw [hkey]
                exact hsource
          · cases hstep
            exact h.process hsource
  | expire context ready k =>
      rw [Ipv4Host.step] at hstep
      split at hstep
      case isFalse =>
          cases hstep
          exact h
      case isTrue hused =>
          have hdropped : ({ s with queue := Function.update s.queue k (s.queue k).drop } :
              Ipv4Host).Kept := by
            refine ⟨?_, h.answers⟩
            intro k' hused'
            by_cases hk : k' = k
            · subst hk
              simp [FragDesc.drop] at hused'
            · simp only [Function.update_of_ne hk] at hused' ⊢
              exact h.queue k' hused'
          split at hstep
          case h_1 =>
              cases hstep
              exact hdropped
          case h_2 packet hpacket =>
              cases hstep
              obtain ⟨hcarries, hbroadcast⟩ := he hused packet hpacket
              have hheader : packet.header = (s.queue k).header := by
                unfold expiredPacket expiredDatagram at hpacket
                repeat' split at hpacket
                all_goals simp at hpacket
                rw [← hpacket]
              refine hdropped.answer ?_
              intro hsome
              obtain ⟨message, hmem⟩ := Option.isSome_iff_exists.1 hsome
              rw [ipv4FragTick, hpacket] at hmem
              refine (answerable_iff hmem hbroadcast ?_).2 hcarries
              rw [hheader]
              exact h.queue k hused

end Ipv4Host

end Ip
