import Mathlib.Data.Nat.Bitwise
import CycloneTcp.Core.IpChecksum
import CycloneTcp.Ip.Fragmentation
import CycloneTcp.Ip.Queue

/-! # IPv4 fragmentation and reassembly

`ipv4FragmentDatagram` as the loop over the fragments with the packets of `ipv4SendPacket`, and
`ipv4ReassembleDatagram` as reassembly with IPv4 headers. The fields of a header are in host byte
order, except for the checksum of the header, which is what the bytes in network order give. -/

set_option autoImplicit false

namespace Ip

/-! ## Packets -/

/-- `IPV4_FLAG_MF`. -/
def IPV4_FLAG_MF : UInt16 := 0x2000

/-- `IPV4_OFFSET_MASK`. -/
def IPV4_OFFSET_MASK : UInt16 := 0x1FFF

/-- `IPV4_MAX_FRAG_DATAGRAM_SIZE`. -/
def IPV4_MAX_FRAG_DATAGRAM_SIZE : ℕ := 8192

/-- `IPV4_MAX_FRAG_DATAGRAMS`. -/
def IPV4_MAX_FRAG_DATAGRAMS : ℕ := 4

/-- `sizeof(Ipv4Header)`. -/
def ipv4HeaderSize : ℕ := 20

/-- `Ipv4Header`. -/
structure Ipv4Header where
  version : UInt8
  headerLength : UInt8
  typeOfService : UInt8
  totalLength : UInt16
  identification : UInt16
  fragmentOffset : UInt16
  timeToLive : UInt8
  protocol : UInt8
  headerChecksum : UInt16
  srcAddr : UInt32
  destAddr : UInt32
  options : List UInt8
  deriving DecidableEq

/-- What `ipv4FragmentDatagram` uses of `Ipv4PseudoHeader`. -/
structure Ipv4PseudoHeader where
  srcAddr : UInt32
  destAddr : UInt32
  protocol : UInt8

/-- A packet: the header with its options, and what follows it. -/
structure Ipv4Packet where
  header : Ipv4Header
  data : List UInt8
  deriving DecidableEq

/-- The bytes of a 16-bit word in network byte order. -/
def bytes16 (x : UInt16) : List UInt8 := [Memory.hi8 x, Memory.lo8 x]

/-- The bytes of a 32-bit word in network byte order. -/
def bytes32 (x : UInt32) : List UInt8 := bytes16 (x >>> 16).toUInt16 ++ bytes16 x.toUInt16

/-- The bytes of a header. -/
def Ipv4Header.bytes (header : Ipv4Header) : List UInt8 :=
  [header.version <<< 4 ||| header.headerLength, header.typeOfService]
    ++ bytes16 header.totalLength ++ bytes16 header.identification ++ bytes16 header.fragmentOffset
    ++ [header.timeToLive, header.protocol] ++ bytes16 header.headerChecksum
    ++ bytes32 header.srcAddr ++ bytes32 header.destAddr ++ header.options

/-! ## Sending -/

/-- The IPv4 header of a packet of `length` bytes. -/
def ipv4FormatHeader (pseudoHeader : Ipv4PseudoHeader) (fragId : UInt16) (fragOffset length : ℕ)
    (ttl : UInt8) : Ipv4Header :=
  let header : Ipv4Header :=
    { version := 4
      headerLength := 5
      typeOfService := 0
      totalLength := UInt16.ofNat length
      identification := fragId
      fragmentOffset := UInt16.ofNat fragOffset
      timeToLive := ttl
      protocol := pseudoHeader.protocol
      headerChecksum := 0
      srcAddr := pseudoHeader.srcAddr
      destAddr := pseudoHeader.destAddr
      options := [] }
  { header with
    headerChecksum :=
      ipCalcChecksum .big (Memory.write (fun _ => 0) 0 header.bytes) 0 ipv4HeaderSize }

/-- Send an IPv4 packet. `transmit` is the rest of the function: the checks of the addresses, the
resolution of the destination and the driver. -/
def ipv4SendPacket (transmit : Ipv4Packet → ErrorCode) (mem : Memory UInt8)
    (pseudoHeader : Ipv4PseudoHeader) (fragId : UInt16) (fragOffset : ℕ) (buffer : NetBuffer)
    (offset : ℕ) (ttl : UInt8) : Except ErrorCode Ipv4Packet :=
  if offset < ipv4HeaderSize then .error .invalidParameter
  else
    let length := netBufferGetLength buffer - (offset - ipv4HeaderSize)
    let packet : Ipv4Packet :=
      { header := ipv4FormatHeader pseudoHeader fragId fragOffset length ttl
        data := (flat mem buffer).drop offset }
    match transmit packet with
    | .noError => .ok packet
    | error => .error error

/-- The size of the fragments for a link MTU. -/
def ipv4MaxFragmentSize (linkMtu : UInt32) : ℕ :=
  let maxFragmentSize := (linkMtu - UInt32.ofNat ipv4HeaderSize).toNat
  maxFragmentSize - maxFragmentSize % 8

/-- Fragment an IPv4 datagram into smaller packets: those that are sent, and the status. `fragment`
is the address of the memory that the fragments are allocated. -/
def ipv4FragmentDatagram (transmit : Ipv4Packet → ErrorCode) (mem : Memory UInt8)
    (fragment : Option ℕ) (linkHeaderLen : UInt8) (linkMtu : UInt32)
    (pseudoHeader : Ipv4PseudoHeader) (id : UInt16) (payload : NetBuffer) (payloadOffset : ℕ)
    (timeToLive : UInt8) :
    Option (List Ipv4Packet × Except ErrorCode Unit) :=
  let payloadLen := netBufferGetLength payload - payloadOffset
  match fragment with
  | none => some ([], .error .outOfMemory)
  | some address =>
      let (fragment, fragmentOffset) := ipAllocBuffer address linkHeaderLen
      fragmentLoop
        (fun offset more buffer =>
          ipv4SendPacket transmit mem pseudoHeader id
            (if more = true then IPV4_FLAG_MF.toNat ||| (offset / 8) else offset / 8)
            buffer fragmentOffset timeToLive)
        fragment payload payloadOffset payloadLen (ipv4MaxFragmentSize linkMtu) payloadLen 0

/-! ## Reassembly -/

/-- IPv4 fragments and headers. -/
def ipv4 : Protocol Ipv4Packet Ipv4Header (UInt32 × UInt32 × UInt16 × UInt8) where
  fragment packet :=
    let offset := packet.header.fragmentOffset
    { dataFirst := (offset &&& IPV4_OFFSET_MASK) * 8
      more := decide (offset &&& IPV4_FLAG_MF ≠ 0)
      data := packet.data }
  key packet := (packet.header.srcAddr, packet.header.destAddr, packet.header.identification,
    packet.header.protocol)
  headerKey header := (header.srcAddr, header.destAddr, header.identification, header.protocol)
  newHeader packet := (packet.header, packet.header.headerLength.toNat * 4)
  firstHeader packet := (packet.header, packet.header.headerLength.toNat * 4)
  fixHeader header headerLength dataLen :=
    { header with
      totalLength := UInt16.ofNat (headerLength + dataLen)
      fragmentOffset := 0
      headerChecksum := 0 }
  maxDatagramSize := IPV4_MAX_FRAG_DATAGRAM_SIZE
  headerKey_newHeader _ := rfl
  headerKey_firstHeader _ := rfl
  headerKey_fixHeader _ _ _ := rfl

/-- IPv4 datagram reassembly algorithm. -/
abbrev ipv4ReassembleDatagram {n : ℕ} (pool : Pool) (queue : Fin n → FragDesc Ipv4Header)
    (packet : Ipv4Packet) :
    Option ((Fin n → FragDesc Ipv4Header) × Option (Ipv4Header × List UInt8)) :=
  reassemble ipv4 pool queue packet

/-! ## The fragments of a datagram -/

/-- What `ipv4FragmentDatagram` is called with. -/
structure Ipv4Datagram where
  transmit : Ipv4Packet → ErrorCode
  mem : Memory UInt8
  fragment : ℕ
  linkHeaderLen : UInt8
  linkMtu : UInt32
  pseudoHeader : Ipv4PseudoHeader
  id : UInt16
  payload : NetBuffer
  payloadOffset : ℕ
  timeToLive : UInt8
  linkMtu_ge : 28 ≤ linkMtu.toNat
  size_le : ipv4HeaderSize + ((flat mem payload).drop payloadOffset).length
    ≤ IPV4_MAX_FRAG_DATAGRAM_SIZE

namespace Ipv4Datagram

variable (d : Ipv4Datagram)

theorem maxFragmentSize_eq (linkMtu : UInt32) (h : 28 ≤ linkMtu.toNat) :
    ipv4MaxFragmentSize linkMtu = (linkMtu.toNat - 20) / 8 * 8 := by
  have hsub : (linkMtu - UInt32.ofNat ipv4HeaderSize).toNat = linkMtu.toNat - 20 := by
    rw [UInt32.toNat_sub_of_le]
    · rfl
    · rw [UInt32.le_iff_toNat_le]
      show 20 ≤ linkMtu.toNat
      omega
  rw [ipv4MaxFragmentSize, hsub]
  omega

/-- The payload, and the blocks that fit into the packets. -/
def split : Split where
  payload := (flat d.mem d.payload).drop d.payloadOffset
  size := ipv4MaxFragmentSize d.linkMtu
  size_pos := by
    have := d.linkMtu_ge
    rw [maxFragmentSize_eq _ this]
    omega
  aligned := by
    rw [maxFragmentSize_eq _ d.linkMtu_ge]
    exact Nat.dvd_mul_left _ _
  short := by
    have := d.size_le
    show _ ≤ 65535
    unfold ipv4HeaderSize IPV4_MAX_FRAG_DATAGRAM_SIZE holeDescSize at *
    omega

/-- No fragment covers more chunks of the payload than it has descriptors. -/
def Covered : Prop :=
  Covers (ipAllocBuffer d.fragment d.linkHeaderLen).1 d.payload d.payloadOffset d.split

/-- This is so if the payload has no more chunks than a fragment has free descriptors. -/
theorem covered_of_chunkCount (h : d.payload.chunkCount < MAX_CHUNK_COUNT) : d.Covered :=
  covers_of_chunkCount d.mem (Nat.le_sub_one_of_lt h) rfl

/-- Source, destination, identification and protocol. -/
def key : UInt32 × UInt32 × UInt16 × UInt8 :=
  (d.pseudoHeader.srcAddr, d.pseudoHeader.destAddr, d.id, d.pseudoHeader.protocol)

/-- Split the payload. -/
def fragmentDatagram : Option (List Ipv4Packet × Except ErrorCode Unit) :=
  ipv4FragmentDatagram d.transmit d.mem (some d.fragment) d.linkHeaderLen d.linkMtu d.pseudoHeader
    d.id d.payload d.payloadOffset d.timeToLive

/-- The fragment offset field of packet `i`. -/
def fragOffset (i : ℕ) : ℕ :=
  if (d.split.fragment i).more = true then IPV4_FLAG_MF.toNat ||| (i * d.split.size / 8)
  else i * d.split.size / 8

/-- Packet `i`. -/
def packet (i : ℕ) : Ipv4Packet where
  header := ipv4FormatHeader d.pseudoHeader d.id (d.fragOffset i)
    (ipv4HeaderSize + (d.split.fragment i).data.length) d.timeToLive
  data := (d.split.fragment i).data

variable {d}

/-- The packets that are sent are those of the blocks, all of them if there is no error. -/
theorem fragmentDatagram_spec (hcovered : d.Covered) :
    ∃ packets error, d.fragmentDatagram = some (packets, error) ∧
      (∀ i p, packets[i]? = some p → d.split.Has i ∧ p = d.packet i) ∧
      (error = .ok () → ∀ i, d.split.Has i → i < packets.length) := by
  have hlen : netBufferGetLength d.payload - d.payloadOffset = d.split.len := by
    rw [netBufferGetLength_eq d.mem, ← List.length_drop]
    rfl
  obtain ⟨packets, error, hloop, hpackets, hall⟩ := fragmentLoop_spec
    (fun offset more buffer =>
      ipv4SendPacket d.transmit d.mem d.pseudoHeader d.id
        (if more = true then IPV4_FLAG_MF.toNat ||| (offset / 8) else offset / 8) buffer
        (d.linkHeaderLen.toNat + maxHeaderLen) d.timeToLive)
    (ipAllocBuffer d.fragment d.linkHeaderLen).1 d.payload d.payloadOffset d.split d.split.len 0
    (by omega)
  refine ⟨packets, error, ?_, fun i p hp => ?_, fun hok i hi => hall hok i (by rwa [Nat.zero_add])⟩
  · rw [Nat.zero_mul] at hloop
    rw [fragmentDatagram, ipv4FragmentDatagram, hlen]
    exact hloop
  · obtain ⟨hhas, hsend⟩ := hpackets i p hp
    rw [Nat.zero_add] at hhas hsend
    refine ⟨hhas, ?_⟩
    have hflat : flat d.mem (pieceBuffer (ipAllocBuffer d.fragment d.linkHeaderLen).1 d.payload
        d.payloadOffset d.split i) = _ := hcovered.flat_pieceBuffer rfl hhas
    have hroom := length_flat_ipAllocBuffer d.mem d.fragment d.linkHeaderLen
    unfold ipv4SendPacket at hsend
    rw [if_neg (show ¬ d.linkHeaderLen.toNat + maxHeaderLen < ipv4HeaderSize by
      unfold maxHeaderLen ipv4HeaderSize
      omega), netBufferGetLength_eq d.mem, hflat, List.length_append, hroom,
      ← hroom, List.drop_left, hroom] at hsend
    have hlength : d.linkHeaderLen.toNat + maxHeaderLen + (d.split.fragment i).data.length
        - (d.linkHeaderLen.toNat + maxHeaderLen - ipv4HeaderSize)
          = ipv4HeaderSize + (d.split.fragment i).data.length := by
      unfold maxHeaderLen ipv4HeaderSize
      omega
    rw [hlength] at hsend
    dsimp only at hsend
    split at hsend
    · exact (Except.ok.inj hsend).symm
    · cases hsend

/-- The fragment offset field says which block the packet carries, and whether it is the last. -/
theorem fragOffset_field {k : ℕ} (hk : k < 8192) (more : Bool) :
    let offset := UInt16.ofNat (if more = true then IPV4_FLAG_MF.toNat ||| k else k)
    ((offset &&& IPV4_OFFSET_MASK) * 8 = UInt16.ofNat (k * 8)) ∧
      decide (offset &&& IPV4_FLAG_MF ≠ 0) = more := by
  have hor : IPV4_FLAG_MF.toNat ||| k = 8192 + k := by
    have h := Nat.two_pow_add_eq_or_of_lt (i := 13) hk 1
    rw [Nat.mul_one] at h
    exact h.symm
  intro offset
  have hoffset : offset.toNat = if more = true then 8192 + k else k := by
    rw [UInt16.toNat_ofNat', hor]
    split <;> omega
  have hmask : (offset &&& IPV4_OFFSET_MASK).toNat = offset.toNat % 8192 := by
    rw [UInt16.toNat_and]
    exact Nat.and_two_pow_sub_one_eq_mod _ 13
  have hflag : (offset &&& IPV4_FLAG_MF).toNat = (offset.toNat.testBit 13).toNat * 8192 := by
    rw [UInt16.toNat_and]
    exact Nat.and_two_pow _ 13
  constructor
  · apply UInt16.toNat_inj.1
    rw [UInt16.toNat_mul, hmask, hoffset, UInt16.toNat_ofNat']
    show (_ % 8192 * 8) % 2 ^ 16 = _
    split <;> omega
  · have hbit : offset.toNat.testBit 13 = more := by
      rw [hoffset]
      cases more with
      | true =>
          rw [if_pos rfl]
          exact (Nat.testBit_two_pow_add_eq k 13).trans (by rw [Nat.testBit_lt_two_pow hk]; rfl)
      | false => exact Nat.testBit_lt_two_pow hk
    have hzero : offset &&& IPV4_FLAG_MF = 0 ↔ more = false := by
      rw [← UInt16.toNat_inj, hflag, hbit]
      cases more <;> decide
    cases more with
    | true => exact decide_eq_true fun h => by cases hzero.1 h
    | false => exact decide_eq_false fun h => h (hzero.2 rfl)

/-- What reassembly sees in a packet. -/
theorem fragment_packet {i : ℕ} (hi : d.split.Has i) :
    ipv4.fragment (d.packet i) = d.split.fragment i := by
  have hlt : i * d.split.size < d.split.len := hi
  have hsize : d.split.len + ipv4HeaderSize ≤ IPV4_MAX_FRAG_DATAGRAM_SIZE := by
    rw [Nat.add_comm]
    exact d.size_le
  obtain ⟨c, hc⟩ := d.split.aligned
  have hdiv : i * d.split.size = i * d.split.size / 8 * 8 := by
    rw [hc, Nat.mul_left_comm]
    omega
  obtain ⟨hfirst, hmore⟩ := fragOffset_field (k := i * d.split.size / 8)
    (by unfold ipv4HeaderSize IPV4_MAX_FRAG_DATAGRAM_SIZE at hsize; omega) (d.split.fragment i).more
  have hfields : ipv4.fragment (d.packet i)
      = ⟨(UInt16.ofNat (d.fragOffset i) &&& IPV4_OFFSET_MASK) * 8,
        decide (UInt16.ofNat (d.fragOffset i) &&& IPV4_FLAG_MF ≠ 0),
        (d.split.fragment i).data⟩ := rfl
  rw [hfields, fragOffset, hfirst, hmore, ← hdiv]
  rfl

end Ipv4Datagram

/-! ## The queue -/

section Queue

variable {ι : Type*} (d : ι → Ipv4Datagram)

/-- Datagrams that differ in source, destination, identification or protocol. -/
def ipv4Source (hkey : Function.Injective fun i => (d i).key) : Source ipv4 ι where
  split i := (d i).split
  packet i := (d i).packet
  key i := (d i).key
  header i := (((d i).packet 0).header, ipv4HeaderSize)
  fragment _ _ hi := Ipv4Datagram.fragment_packet hi
  key_packet _ _ _ := rfl
  key_injective := hkey
  firstHeader _ _ := rfl
  newLength _ _ _ := rfl
  size i := (d i).size_le
  headerFits _ := show ipv4HeaderSize ≤ NET_MEM_POOL_BUFFER_SIZE by decide

/-- **IPv4 reassembly undoes fragmentation.** The packets that are sent for a datagram are those of
its blocks. Whatever arrives of them, in any order and any number of times, and between the packets
of other datagrams, the datagram is handed over each time that the last block since the last time
arrives, and at no other time: with the payload, its length, and the fields of the header of the
first packet. -/
theorem ipv4_reassembly [DecidableEq ι] (hcovered : ∀ i, (d i).Covered)
    (hkey : Function.Injective fun i => (d i).key)
    {queue : Fin IPV4_MAX_FRAG_DATAGRAMS → FragDesc Ipv4Header}
    (hqueue : ∀ k i, ¬ (queue k).Of ipv4 (d i).key) :
    (∀ i, ∃ packets error, (d i).fragmentDatagram = some (packets, error) ∧
      (∀ j p, packets[j]? = some p → (d i).split.Has j ∧ p = (ipv4Source d hkey).packet i j) ∧
      (error = .ok () → ∀ j, (d i).split.Has j → j < packets.length)) ∧
    (∀ i, ((ipv4Source d hkey).datagram i).2
        = (flat (d i).mem (d i).payload).drop (d i).payloadOffset ∧
      ((ipv4Source d hkey).datagram i).1 =
        { ipv4FormatHeader (d i).pseudoHeader (d i).id 0
            (ipv4HeaderSize + ((flat (d i).mem (d i).payload).drop (d i).payloadOffset).length)
            (d i).timeToLive with headerChecksum := 0 } ∧
      ((ipv4Source d hkey).datagram i).1.totalLength.toNat
        = ipv4HeaderSize + ((flat (d i).mem (d i).payload).drop (d i).payloadOffset).length) ∧
    ∀ arrivals : List (Pool × Arrival ι Ipv4Packet),
      Along (Served (ipv4Source d hkey)) (queueAfter (ipv4Source d hkey)) queue arrivals →
      ∃ queue' outs, reassembleAll ipv4 queue
          (arrivals.map fun e => (e.1, e.2.packet (ipv4Source d hkey))) = some (queue', outs) ∧
        Answers (ipv4Source d hkey) (fun _ => ∅) arrivals outs := by
  refine ⟨fun i => ?_, fun i => ⟨rfl, rfl, ?_⟩, fun arrivals hserved => ?_⟩
  · exact Ipv4Datagram.fragmentDatagram_spec (hcovered i)
  · have hsize := (d i).size_le
    show (UInt16.ofNat _).toNat = _
    rw [UInt16.toNat_ofNat']
    refine Nat.mod_eq_of_lt (Nat.lt_of_le_of_lt hsize ?_)
    decide
  · exact (represents_empty hqueue).run hserved

end Queue

/-- Sixteen bytes in two chunks, and a link that takes eight of them at a time. -/
def ipv4Sample : Ipv4Datagram where
  transmit _ := .noError
  mem := fun i => UInt8.ofNat i
  fragment := 256
  linkHeaderLen := 14
  linkMtu := 28
  pseudoHeader := { srcAddr := 0xC0A80001, destAddr := 0xC0A80002, protocol := 17 }
  id := 7
  payload := { chunk := [⟨0, 5, 0⟩, ⟨100, 11, 0⟩], maxChunkCount := 2 }
  payloadOffset := 0
  timeToLive := 64
  linkMtu_ge := by decide
  size_le := by decide

theorem ipv4Sample_covered : ipv4Sample.Covered :=
  ipv4Sample.covered_of_chunkCount (by decide)

/-- The sample and nothing else. -/
def ipv4SampleSource : Source ipv4 Unit :=
  ipv4Source (fun _ => ipv4Sample) (Function.injective_of_subsingleton _)

/-- The packets of the sample in the wrong order, and all of them again. -/
def ipv4SampleArrivals : List (Pool × Arrival Unit Ipv4Packet) :=
  [1, 0, 0, 1].map fun i => (freshMemory, .block () i)

/-- A run with duplicates. -/
theorem ipv4_reassembly_sample :
    ∃ queue' outs, reassembleAll ipv4
        (emptyQueue IPV4_MAX_FRAG_DATAGRAMS (ipv4Sample.packet 0).header)
        (ipv4SampleArrivals.map fun e => (e.1, e.2.packet ipv4SampleSource)) = some (queue', outs) ∧
      Answers ipv4SampleSource (fun _ => ∅) ipv4SampleArrivals outs :=
  (ipv4_reassembly (fun _ => ipv4Sample) (fun _ => ipv4Sample_covered)
    (Function.injective_of_subsingleton _) (fun _ _ h => by cases h.1)).2.2 ipv4SampleArrivals
      (by decide +kernel)

/-- Ten bytes in ten chunks; a fragment has eight descriptors for them. -/
def ipv4Scattered : Ipv4Datagram :=
  { ipv4Sample with
    linkMtu := 36
    payload := { chunk := (List.range 10).map fun i => ⟨2 * i, 1, 0⟩, maxChunkCount := 10 }
    linkMtu_ge := by decide
    size_le := by decide }

/-- When all packets arrive a second time, the datagram is handed over a second time; and a fragment
that covers too many chunks is cut short, and so is the datagram. -/
theorem ipv4_reassembly_counterexample :
    (∃ p q, ipv4Sample.fragmentDatagram = some ([p, q], .ok ()) ∧
      (reassembleAll ipv4 (emptyQueue IPV4_MAX_FRAG_DATAGRAMS p.header)
          ([p, q, p, q].map fun packet => (freshMemory, packet))).map Prod.snd
        = some [none, some (ipv4SampleSource.datagram ()), none,
            some (ipv4SampleSource.datagram ())]) ∧
    ∃ p header bytes,
      ipv4Scattered.fragmentDatagram = some ([p], .ok ()) ∧
      (reassembleAll ipv4 (emptyQueue IPV4_MAX_FRAG_DATAGRAMS p.header)
          [(freshMemory, p)]).map Prod.snd
        = some [some (header, bytes)] ∧
      bytes = (flat ipv4Scattered.mem ipv4Scattered.payload).take 8 ∧
      (flat ipv4Scattered.mem ipv4Scattered.payload).length = 10 := by
  refine ⟨⟨ipv4Sample.packet 0, ipv4Sample.packet 1, ?_, ?_⟩, ?_⟩
  · decide +kernel
  · decide +kernel
  · refine ⟨⟨ipv4FormatHeader ipv4Scattered.pseudoHeader 7 0 28 64, [0, 2, 4, 6, 8, 10, 12, 14]⟩,
      { ipv4FormatHeader ipv4Scattered.pseudoHeader 7 0 28 64 with headerChecksum := 0 },
      [0, 2, 4, 6, 8, 10, 12, 14], ?_, ?_, ?_, ?_⟩
    · decide +kernel
    · decide +kernel
    · decide +kernel
    · decide +kernel

end Ip
