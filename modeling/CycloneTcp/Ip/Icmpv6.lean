import CycloneTcp.Core.NetMemPool
import CycloneTcp.Ip.Icmp
import CycloneTcp.Ip.Ipv6Addr
import CycloneTcp.Ip.Ipv6Frag
import CycloneTcp.Ip.Ipv6Options

/-! # ICMPv6 error messages

`icmpv6SendErrorMessage` looks whether a packet is an ICMPv6 error message, but only where the IPv6
header says so itself. The places that it is called from are `ipv6ProcessPacket` with the functions
that parse the extension headers, `ipv6ForwardPacket`, `ipv6ParseFragmentHeader`, `ipv6FragTick` and
`ndpFlushQueuedPackets`. -/

set_option autoImplicit false

namespace Ip

open Ipv6 (Ipv6Addr IPV6_UNSPECIFIED_ADDR IPV6_LOOPBACK_ADDR ipv6GetAddrScope)

/-! ## Constants -/

def IPV6_VERSION : UInt8 := 6

def IPV6_HOP_BY_HOP_OPT_HEADER : UInt8 := 0

def IPV6_TCP_HEADER : UInt8 := 6

def IPV6_UDP_HEADER : UInt8 := 17

def IPV6_ROUTING_HEADER : UInt8 := 43

def IPV6_ESP_HEADER : UInt8 := 50

def IPV6_AH_HEADER : UInt8 := 51

def IPV6_ICMPV6_HEADER : UInt8 := 58

def IPV6_NO_NEXT_HEADER : UInt8 := 59

def IPV6_DEST_OPT_HEADER : UInt8 := 60

def ICMPV6_TYPE_DEST_UNREACHABLE : UInt8 := 1

def ICMPV6_TYPE_PACKET_TOO_BIG : UInt8 := 2

def ICMPV6_TYPE_TIME_EXCEEDED : UInt8 := 3

def ICMPV6_TYPE_REDIRECT : UInt8 := 137

def ICMPV6_CODE_NO_ROUTE_TO_DEST : UInt8 := 0

def ICMPV6_CODE_BEYOND_SCOPE_OF_SRC_ADDR : UInt8 := 2

def ICMPV6_CODE_ADDR_UNREACHABLE : UInt8 := 3

def ICMPV6_CODE_PORT_UNREACHABLE : UInt8 := 4

def ICMPV6_CODE_HOP_LIMIT_EXCEEDED : UInt8 := 0

def ICMPV6_CODE_REASSEMBLY_TIME_EXCEEDED : UInt8 := 1

def ICMPV6_CODE_INVALID_HEADER_FIELD : UInt8 := 0

/-- `sizeof(Ipv6RoutingHeader)`. -/
def ipv6RoutingHeaderSize : ℕ := 8

/-- `sizeof(Icmpv6Header)`. -/
def icmpv6HeaderSize : ℕ := 4

/-- `sizeof(Icmpv6ErrorMessage)`. -/
def icmpv6ErrorMessageSize : ℕ := 8

/-! ## Packets -/

/-- The number that the bytes of an address make up. -/
def addrOfBytes (bytes : List UInt8) : Ipv6Addr :=
  bytes.foldl (fun addr byte => addr <<< 8 ||| byte.toBitVec.setWidth 128) 0

/-- The bytes of an address. -/
def addrBytes (ipAddr : Ipv6Addr) : List UInt8 :=
  (List.range 16).map fun i => UInt8.ofBitVec (Ipv6.b ipAddr i)

/-- The IPv6 header at an address. -/
def ipv6HeaderAt (mem : Memory UInt8) (ipHeader : ℕ) : Ipv6Header where
  version := mem ipHeader >>> 4
  trafficClass := mem ipHeader <<< 4 ||| mem (ipHeader + 1) >>> 4
  flowLabel := ((mem (ipHeader + 1) &&& 0x0F).toUInt32 <<< 16) |||
    (mem.getU16 (ipHeader + 2)).toUInt32
  payloadLen := mem.getU16 (ipHeader + 4)
  nextHeader := mem (ipHeader + 6)
  hopLimit := mem (ipHeader + 7)
  srcAddr := addrOfBytes (mem.read (ipHeader + 8) 16)
  destAddr := addrOfBytes (mem.read (ipHeader + 24) 16)

/-- The bytes of a header. -/
def Ipv6Header.bytes (header : Ipv6Header) : List UInt8 :=
  [header.version <<< 4 ||| header.trafficClass >>> 4,
    header.trafficClass <<< 4 ||| (header.flowLabel >>> 16).toUInt8]
    ++ bytes16 header.flowLabel.toUInt16 ++ bytes16 header.payloadLen
    ++ [header.nextHeader, header.hopLimit] ++ addrBytes header.srcAddr ++ addrBytes header.destAddr

/-- A packet that may be answered: its header, and what follows the header. -/
structure InvokingPacket where
  header : Ipv6Header
  data : List UInt8
  deriving DecidableEq

/-- The packet in a buffer. The IPv6 header lies in the first chunk. -/
def invokingPacket (mem : Memory UInt8) (ipPacket : NetBuffer) : Option InvokingPacket :=
  if netBufferGetLength ipPacket < ipv6HeaderSize then none
  else
    match netBufferAt ipPacket 0 with
    | none => none
    | some ipHeader =>
        some { header := ipv6HeaderAt mem ipHeader, data := (flat mem ipPacket).drop ipv6HeaderSize }

/-! ## The messages -/

/-- An ICMPv6 error message, and the addresses it is sent with. -/
structure Icmpv6ErrorMessage extends Icmpv6Error where
  data : List UInt8
  srcAddr : Ipv6Addr
  destAddr : Ipv6Addr
  deriving DecidableEq

/-- The length of the packet that carries the message. -/
def Icmpv6ErrorMessage.packetLength (message : Icmpv6ErrorMessage) : ℕ :=
  ipv6HeaderSize + icmpv6ErrorMessageSize + message.data.length

/-- The types of the ICMPv6 messages that are not answered. -/
def icmpv6ErrorTypes : List UInt8 :=
  [ICMPV6_TYPE_DEST_UNREACHABLE, ICMPV6_TYPE_PACKET_TOO_BIG, ICMPV6_TYPE_TIME_EXCEEDED,
    ICMPV6_TYPE_PARAM_PROBLEM, ICMPV6_TYPE_REDIRECT]

/-- What `icmpv6SendErrorMessage` depends on besides its arguments: the anycast addresses of the
interface, and the source address that is selected, if there is one and if there is memory for the
message. -/
structure Icmpv6Sender where
  anycastAddrList : List Ipv6Addr
  source : Option Ipv6Addr

def ipv6IsAnycastAddr (anycastAddrList : List Ipv6Addr) (ipAddr : Ipv6Addr) : Bool :=
  anycastAddrList.any fun anycastAddr =>
    anycastAddr ≠ IPV6_UNSPECIFIED_ADDR ∧ anycastAddr = ipAddr

/-- Source IPv6 address filtering. -/
def ipv6CheckSourceAddr (ipAddr : Ipv6Addr) : ErrorCode :=
  if Ipv6.ipv6IsMulticastAddr ipAddr = true then .invalidAddress else .noError

/-- What `ipv6SendPacket` checks of the addresses. -/
def ipv6CheckPacketAddrs (srcAddr destAddr : Ipv6Addr) : ErrorCode :=
  if ipv6CheckSourceAddr srcAddr ≠ .noError then ipv6CheckSourceAddr srcAddr
  else if destAddr = IPV6_UNSPECIFIED_ADDR then .invalidAddress
  else if destAddr = IPV6_LOOPBACK_ADDR ∧ srcAddr ≠ IPV6_LOOPBACK_ADDR then .invalidAddress
  else .noError

namespace InvokingPacket

variable (packet : InvokingPacket)

/-- The IPv6 header announces an ICMPv6 message, and it is one that is not answered. -/
def IsIcmpv6Error : Prop :=
  packet.header.nextHeader = IPV6_ICMPV6_HEADER ∧ icmpv6HeaderSize ≤ packet.data.length ∧
    ∃ type ∈ packet.data[0]?, type ∈ icmpv6ErrorTypes

instance : Decidable packet.IsIcmpv6Error := inferInstanceAs (Decidable (_ ∧ _ ∧ _))

/-- A message of this kind may answer a packet to a multicast address. -/
def DestAllows (error : Icmpv6Error) : Prop :=
  Ipv6.ipv6IsMulticastAddr packet.header.destAddr = false ∨
    error.type = ICMPV6_TYPE_PACKET_TOO_BIG ∨
    error.type = ICMPV6_TYPE_PARAM_PROBLEM ∧ error.code = ICMPV6_CODE_UNKNOWN_IPV6_OPTION

instance (error : Icmpv6Error) : Decidable (packet.DestAllows error) :=
  inferInstanceAs (Decidable (_ ∨ _ ∨ _))

end InvokingPacket

/-- Send an ICMPv6 Error message. -/
def icmpv6SendErrorMessage (sender : Icmpv6Sender) (error : Icmpv6Error) (packet : InvokingPacket) :
    Option Icmpv6ErrorMessage :=
  if packet.IsIcmpv6Error then none
  else if ¬ packet.DestAllows error then none
  else if ipv6IsAnycastAddr sender.anycastAddrList packet.header.srcAddr = true then none
  else
    match sender.source with
    | none => none
    | some srcAddr =>
        if ipv6CheckPacketAddrs srcAddr packet.header.srcAddr ≠ .noError then none
        else
          some {
            toIcmpv6Error := error
            -- as much of invoking IPv6 packet as possible
            data := (packet.header.bytes ++ packet.data).take
              (IPV6_DEFAULT_MTU - ipv6HeaderSize - icmpv6ErrorMessageSize)
            srcAddr := srcAddr
            destAddr := packet.header.srcAddr }

/-! ## The law -/

namespace InvokingPacket

/-- The header at position `i` behind the IPv6 header is of type `type`. A packet that is not the
first fragment has no header behind its Fragment header. -/
inductive HeaderAt (packet : InvokingPacket) : ℕ → UInt8 → Prop
  | first : HeaderAt packet 0 packet.header.nextHeader
  | extension {i : ℕ} {type next length : UInt8} (h : HeaderAt packet i type)
      (htype : type ∈ [IPV6_HOP_BY_HOP_OPT_HEADER, IPV6_ROUTING_HEADER, IPV6_DEST_OPT_HEADER])
      (hnext : packet.data[i]? = some next) (hlen : packet.data[i + 1]? = some length) :
      HeaderAt packet (i + (length.toNat * 8 + 8)) next
  | auth {i : ℕ} {next length : UInt8} (h : HeaderAt packet i IPV6_AH_HEADER)
      (hnext : packet.data[i]? = some next) (hlen : packet.data[i + 1]? = some length) :
      HeaderAt packet (i + (length.toNat + 2) * 4) next
  | fragment {i : ℕ} {next hi lo : UInt8} (h : HeaderAt packet i IPV6_FRAGMENT_HEADER)
      (hnext : packet.data[i]? = some next) (hhi : packet.data[i + 2]? = some hi)
      (hlo : packet.data[i + 3]? = some lo) (hzero : Memory.be16 hi lo &&& IPV6_OFFSET_MASK = 0) :
      HeaderAt packet (i + 8) next

variable (packet : InvokingPacket)

/-- Behind its headers, the packet carries an ICMPv6 error message or a Redirect. -/
def CarriesError : Prop :=
  ∃ i, packet.HeaderAt i IPV6_ICMPV6_HEADER ∧ i + icmpv6HeaderSize ≤ packet.data.length ∧
    ∃ type ∈ packet.data[i]?, type ∈ icmpv6ErrorTypes

/-- The packet carries such a message behind an extension header. -/
def HidesError : Prop := packet.header.nextHeader ≠ IPV6_ICMPV6_HEADER ∧ packet.CarriesError

/-- The message may answer the packet. -/
structure Answerable (anycastAddrList : List Ipv6Addr) (message : Icmpv6ErrorMessage) : Prop where
  carries : ¬ packet.CarriesError
  source_multicast : Ipv6.ipv6IsMulticastAddr packet.header.srcAddr = false
  source_unspecified : packet.header.srcAddr ≠ IPV6_UNSPECIFIED_ADDR
  source_anycast : ipv6IsAnycastAddr anycastAddrList packet.header.srcAddr = false
  dest : packet.DestAllows message.toIcmpv6Error
  length : message.packetLength ≤ IPV6_DEFAULT_MTU

variable {packet : InvokingPacket} {sender : Icmpv6Sender} {error : Icmpv6Error}
  {message : Icmpv6ErrorMessage}

/-- There is no other header behind an ICMPv6 message. -/
theorem headerAt_icmpv6 (h : packet.header.nextHeader = IPV6_ICMPV6_HEADER) {i : ℕ} {type : UInt8}
    (hat : packet.HeaderAt i type) : i = 0 ∧ type = IPV6_ICMPV6_HEADER := by
  induction hat with
  | first => exact ⟨rfl, h⟩
  | extension _ htype _ _ ih =>
      rw [ih.2] at htype
      exact absurd htype (by decide)
  | auth _ _ _ ih => exact absurd ih.2 (by decide)
  | fragment _ _ _ _ _ ih => exact absurd ih.2 (by decide)

/-- Where the IPv6 header announces the message, the check of `icmpv6SendErrorMessage` is exact. -/
theorem carriesError_iff (h : packet.header.nextHeader = IPV6_ICMPV6_HEADER) :
    packet.CarriesError ↔ packet.IsIcmpv6Error := by
  constructor
  · rintro ⟨i, hat, hlen, htype⟩
    obtain ⟨rfl, -⟩ := headerAt_icmpv6 h hat
    exact ⟨h, by simpa using hlen, htype⟩
  · rintro ⟨-, hlen, htype⟩
    exact ⟨0, h ▸ .first, by simpa using hlen, htype⟩

/-- A message leaves the host only if the checks have been passed. -/
theorem send_mem (h : message ∈ icmpv6SendErrorMessage sender error packet) :
    ¬ packet.IsIcmpv6Error ∧ packet.DestAllows error ∧
      ipv6IsAnycastAddr sender.anycastAddrList packet.header.srcAddr = false ∧
      packet.header.srcAddr ≠ IPV6_UNSPECIFIED_ADDR ∧ message.toIcmpv6Error = error ∧
      message.packetLength ≤ IPV6_DEFAULT_MTU := by
  unfold icmpv6SendErrorMessage at h
  split at h
  case isTrue => cases h
  case isFalse herror =>
    split at h
    case isTrue => cases h
    case isFalse hdest =>
      split at h
      case isTrue => cases h
      case isFalse hanycast =>
        split at h
        case h_1 => cases h
        case h_2 srcAddr _ =>
          split at h
          case isTrue => cases h
          case isFalse haddrs =>
            cases h
            refine ⟨herror, not_not.1 hdest, by simpa using hanycast, ?_, rfl, ?_⟩
            · intro hzero
              refine haddrs ?_
              unfold ipv6CheckPacketAddrs
              split <;> simp_all
            · have hlen := List.length_take_le (IPV6_DEFAULT_MTU - ipv6HeaderSize -
                icmpv6ErrorMessageSize) (packet.header.bytes ++ packet.data)
              simp only [Icmpv6ErrorMessage.packetLength, IPV6_DEFAULT_MTU, ipv6HeaderSize,
                icmpv6ErrorMessageSize] at hlen ⊢
              omega

/-- If the source has passed the filter, what remains is that the packet hides no error message. -/
theorem answerable_iff (h : message ∈ icmpv6SendErrorMessage sender error packet)
    (hsource : Ipv6.ipv6IsMulticastAddr packet.header.srcAddr = false) :
    packet.Answerable sender.anycastAddrList message ↔ ¬ packet.HidesError := by
  obtain ⟨hcheck, hdest, hanycast, hzero, herror, hlen⟩ := send_mem h
  constructor
  · rintro hanswerable ⟨-, hcarries⟩
    exact hanswerable.carries hcarries
  · intro hhides
    refine ⟨?_, hsource, hzero, hanycast, herror ▸ hdest, hlen⟩
    intro hcarries
    by_cases hnext : packet.header.nextHeader = IPV6_ICMPV6_HEADER
    · exact hcheck ((carriesError_iff hnext).1 hcarries)
    · exact hhides ⟨hnext, hcarries⟩

end InvokingPacket

end Ip
