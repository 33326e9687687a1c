import CycloneTcp.Ip.Fragmentation
import CycloneTcp.Ip.Queue

/-! # IPv6 fragmentation and reassembly

`ipv6FragmentDatagram` as the loop over the fragments with the packets of `ipv6SendPacket`, and
`ipv6ParseFragmentHeader` as reassembly of what follows the unfragmentable part of a packet. A
datagram that needs only one fragment is sent without a Fragment header. -/

set_option autoImplicit false

namespace Ip

/-! ## Packets -/

/-- `IPV6_FLAG_M`. -/
def IPV6_FLAG_M : UInt16 := 0x0001

/-- `IPV6_OFFSET_MASK`. -/
def IPV6_OFFSET_MASK : UInt16 := 0xFFF8

/-- `IPV6_DEFAULT_MTU`. -/
def IPV6_DEFAULT_MTU : ℕ := 1280

/-- `IPV6_FRAGMENT_HEADER`. -/
def IPV6_FRAGMENT_HEADER : UInt8 := 44

/-- `IPV6_MAX_FRAG_DATAGRAM_SIZE`. -/
def IPV6_MAX_FRAG_DATAGRAM_SIZE : ℕ := 8192

/-- `IPV6_MAX_FRAG_DATAGRAMS`. -/
def IPV6_MAX_FRAG_DATAGRAMS : ℕ := 4

/-- `sizeof(Ipv6Header)`. -/
def ipv6HeaderSize : ℕ := 40

/-- `sizeof(Ipv6FragmentHeader)`. -/
def ipv6FragmentHeaderSize : ℕ := 8

/-- `Ipv6Header`. -/
structure Ipv6Header where
  version : UInt8
  trafficClass : UInt8
  flowLabel : UInt32
  payloadLen : UInt16
  nextHeader : UInt8
  hopLimit : UInt8
  srcAddr : BitVec 128
  destAddr : BitVec 128
  deriving DecidableEq

/-- `Ipv6FragmentHeader`. -/
structure Ipv6FragmentHeader where
  nextHeader : UInt8
  reserved : UInt8
  fragmentOffset : UInt16
  identification : UInt32
  deriving DecidableEq

/-- What `ipv6FragmentDatagram` uses of `Ipv6PseudoHeader`. -/
structure Ipv6PseudoHeader where
  srcAddr : BitVec 128
  destAddr : BitVec 128
  nextHeader : UInt8

/-- A packet with a Fragment header: the IPv6 header, the extension headers between the two, and
what follows the Fragment header. The Next Header field in front of the Fragment header is that of
the IPv6 header, or it is at a position of the extension headers. -/
structure Ipv6Fragment where
  header : Ipv6Header
  extension : List UInt8
  nextHeaderOffset : Option ℕ
  fragHeader : Ipv6FragmentHeader
  data : List UInt8
  deriving DecidableEq

/-- The packets that are sent. -/
inductive Ipv6Packet where
  | whole (header : Ipv6Header) (data : List UInt8)
  | fragment (packet : Ipv6Fragment)
  deriving DecidableEq

/-! ## Sending -/

/-- The IPv6 header of a packet. -/
def ipv6FormatHeader (pseudoHeader : Ipv6PseudoHeader) (nextHeader : UInt8) (payloadLen : ℕ)
    (hopLimit : UInt8) : Ipv6Header where
  version := 6
  trafficClass := 0
  flowLabel := 0
  payloadLen := UInt16.ofNat payloadLen
  nextHeader := nextHeader
  hopLimit := hopLimit
  srcAddr := pseudoHeader.srcAddr
  destAddr := pseudoHeader.destAddr

/-- A packet with a Fragment header. -/
def ipv6FormatFragment (pseudoHeader : Ipv6PseudoHeader) (fragId : UInt32) (fragOffset : ℕ)
    (data : List UInt8) (length : ℕ) (hopLimit : UInt8) : Ipv6Fragment where
  header := ipv6FormatHeader pseudoHeader IPV6_FRAGMENT_HEADER
    (length + ipv6FragmentHeaderSize) hopLimit
  extension := []
  nextHeaderOffset := none
  fragHeader :=
    { nextHeader := pseudoHeader.nextHeader
      reserved := 0
      fragmentOffset := UInt16.ofNat fragOffset
      identification := fragId }
  data := data

/-- Send an IPv6 packet. `transmit` is the rest of the function: the checks of the addresses, the
resolution of the destination and the driver. -/
def ipv6SendPacket (transmit : Ipv6Packet → ErrorCode) (mem : Memory UInt8)
    (pseudoHeader : Ipv6PseudoHeader) (fragId : UInt32) (fragOffset : ℕ) (buffer : NetBuffer)
    (offset : ℕ) (hopLimit : UInt8) : Except ErrorCode Ipv6Packet :=
  let length := netBufferGetLength buffer - offset
  let data := (flat mem buffer).drop offset
  let send (packet : Ipv6Packet) : Except ErrorCode Ipv6Packet :=
    match transmit packet with
    | .noError => .ok packet
    | error => .error error
  -- add a Fragment header?
  if fragOffset ≠ 0 then
    if offset < ipv6HeaderSize + ipv6FragmentHeaderSize then .error .invalidParameter
    else send (.fragment (ipv6FormatFragment pseudoHeader fragId fragOffset data length hopLimit))
  else if offset < ipv6HeaderSize then .error .invalidParameter
  else send (.whole (ipv6FormatHeader pseudoHeader pseudoHeader.nextHeader length hopLimit) data)

/-- The size of the fragments for a path MTU. -/
def ipv6MaxFragmentSize (pathMtu : ℕ) : ℕ :=
  -- the node should never set its estimate below the minimum link MTU
  let pathMtu := max pathMtu IPV6_DEFAULT_MTU
  let maxFragmentSize := pathMtu - ipv6HeaderSize - ipv6FragmentHeaderSize
  maxFragmentSize - maxFragmentSize % 8

/-- Fragment an IPv6 datagram into smaller packets: those that are sent, and the status. `fragment`
is the address of the memory that the fragments are allocated, `id` the counter of the interface. -/
def ipv6FragmentDatagram (transmit : Ipv6Packet → ErrorCode) (mem : Memory UInt8)
    (fragment : Option ℕ) (linkHeaderLen : UInt8) (id : UInt32) (pseudoHeader : Ipv6PseudoHeader)
    (payload : NetBuffer) (payloadOffset pathMtu : ℕ) (hopLimit : UInt8) :
    Option (List Ipv6Packet × Except ErrorCode Unit) :=
  let payloadLen := netBufferGetLength payload - payloadOffset
  match fragment with
  | none => some ([], .error .outOfMemory)
  | some address =>
      let (fragment, fragmentOffset) := ipAllocBuffer address linkHeaderLen
      fragmentLoop
        (fun offset more buffer =>
          ipv6SendPacket transmit mem pseudoHeader id
            (if more = true then offset ||| IPV6_FLAG_M.toNat else offset)
            buffer fragmentOffset hopLimit)
        fragment payload payloadOffset payloadLen (ipv6MaxFragmentSize pathMtu) payloadLen 0

/-! ## Reassembly -/

/-- The unfragmentable part of a datagram, and the identification of its entry. -/
structure Ipv6Unfragmentable where
  header : Ipv6Header
  extension : List UInt8
  identification : UInt32
  deriving DecidableEq

/-- IPv6 fragments and headers. -/
def ipv6 : Protocol Ipv6Fragment Ipv6Unfragmentable (BitVec 128 × BitVec 128 × UInt32) where
  fragment packet :=
    let offset := packet.fragHeader.fragmentOffset
    { dataFirst := offset &&& IPV6_OFFSET_MASK
      more := decide (offset &&& IPV6_FLAG_M ≠ 0)
      data := packet.data }
  key packet := (packet.header.srcAddr, packet.header.destAddr, packet.fragHeader.identification)
  headerKey unfrag := (unfrag.header.srcAddr, unfrag.header.destAddr, unfrag.identification)
  newHeader packet :=
    ({ header := packet.header
       extension := []
       identification := packet.fragHeader.identification }, ipv6HeaderSize)
  firstHeader packet :=
    -- the Next Header field of the last header is obtained from the Fragment header
    ({ header :=
         match packet.nextHeaderOffset with
         | none => { packet.header with nextHeader := packet.fragHeader.nextHeader }
         | some _ => packet.header
       extension :=
         match packet.nextHeaderOffset with
         | none => packet.extension
         | some offset => packet.extension.set offset packet.fragHeader.nextHeader
       identification := packet.fragHeader.identification },
      ipv6HeaderSize + packet.extension.length)
  fixHeader unfrag unfragPartLength fragPartLength :=
    { unfrag with
      header := { unfrag.header with
        payloadLen := UInt16.ofNat (unfragPartLength + fragPartLength - ipv6HeaderSize) } }
  maxDatagramSize := IPV6_MAX_FRAG_DATAGRAM_SIZE
  headerKey_newHeader _ := rfl
  headerKey_firstHeader packet := by
    cases packet.nextHeaderOffset <;> rfl
  headerKey_fixHeader _ _ _ := rfl

/-- Parse Fragment header and reassemble original datagram. -/
abbrev ipv6ParseFragmentHeader {n : ℕ} (pool : Pool) (queue : Fin n → FragDesc Ipv6Unfragmentable)
    (packet : Ipv6Fragment) :
    Option ((Fin n → FragDesc Ipv6Unfragmentable) × Option (Ipv6Unfragmentable × List UInt8)) :=
  reassemble ipv6 pool queue packet

/-! ## The fragments of a datagram -/

/-- What `ipv6FragmentDatagram` is called with. -/
structure Ipv6Datagram where
  transmit : Ipv6Packet → ErrorCode
  mem : Memory UInt8
  fragment : ℕ
  linkHeaderLen : UInt8
  id : UInt32
  pseudoHeader : Ipv6PseudoHeader
  payload : NetBuffer
  payloadOffset : ℕ
  pathMtu : ℕ
  hopLimit : UInt8
  size_le : ipv6HeaderSize + ((flat mem payload).drop payloadOffset).length
    ≤ IPV6_MAX_FRAG_DATAGRAM_SIZE

namespace Ipv6Datagram

variable (d : Ipv6Datagram)

theorem maxFragmentSize_eq (pathMtu : ℕ) :
    ipv6MaxFragmentSize pathMtu = (max pathMtu 1280 - 48) / 8 * 8 := by
  simp only [ipv6MaxFragmentSize, IPV6_DEFAULT_MTU, ipv6HeaderSize, ipv6FragmentHeaderSize]
  omega

/-- The payload, and the blocks that fit into the packets. -/
def split : Split where
  payload := (flat d.mem d.payload).drop d.payloadOffset
  size := ipv6MaxFragmentSize d.pathMtu
  size_pos := by
    rw [maxFragmentSize_eq]
    omega
  aligned := by
    rw [maxFragmentSize_eq]
    exact Nat.dvd_mul_left _ _
  short := by
    have := d.size_le
    show _ ≤ 65535
    unfold ipv6HeaderSize IPV6_MAX_FRAG_DATAGRAM_SIZE holeDescSize at *
    omega

theorem len_eq : d.split.len = netBufferGetLength d.payload - d.payloadOffset := by
  rw [netBufferGetLength_eq d.mem, ← List.length_drop]
  rfl

/-- No fragment covers more chunks of the payload than it has descriptors. -/
def Covered : Prop :=
  Covers (ipAllocBuffer d.fragment d.linkHeaderLen).1 d.payload d.payloadOffset d.split

/-- This is so if the payload has no more chunks than a fragment has free descriptors. -/
theorem covered_of_chunkCount (h : d.payload.chunkCount < MAX_CHUNK_COUNT) : d.Covered :=
  covers_of_chunkCount d.mem (Nat.le_sub_one_of_lt h) rfl

/-- Source, destination and identification. -/
def key : BitVec 128 × BitVec 128 × UInt32 :=
  (d.pseudoHeader.srcAddr, d.pseudoHeader.destAddr, d.id)

/-- Split the payload. -/
def fragmentDatagram : Option (List Ipv6Packet × Except ErrorCode Unit) :=
  ipv6FragmentDatagram d.transmit d.mem (some d.fragment) d.linkHeaderLen d.id d.pseudoHeader
    d.payload d.payloadOffset d.pathMtu d.hopLimit

/-- The fragment offset field of packet `i`. -/
def fragOffset (i : ℕ) : ℕ :=
  if (d.split.fragment i).more = true then i * d.split.size ||| IPV6_FLAG_M.toNat
  else i * d.split.size

/-- The header of the datagram if it is sent in one packet. -/
def header : Ipv6Header :=
  ipv6FormatHeader d.pseudoHeader d.pseudoHeader.nextHeader d.split.len d.hopLimit

/-- Fragment `i`. -/
def packet (i : ℕ) : Ipv6Fragment :=
  ipv6FormatFragment d.pseudoHeader d.id (d.fragOffset i) (d.split.fragment i).data
    (d.split.fragment i).data.length d.hopLimit

variable {d}

theorem fragOffset_eq_zero {i : ℕ} (hi : d.split.Has i) :
    d.fragOffset i = 0 ↔ d.split.len ≤ d.split.size := by
  have hlt : i * d.split.size < d.split.len := hi
  have hpos := d.split.size_pos
  have hmul : (i + 1) * d.split.size = i * d.split.size + d.split.size := Nat.succ_mul _ _
  unfold fragOffset
  split
  case isTrue hmore =>
    obtain ⟨_, hend⟩ := Split.blockEnd_of_more hmore
    rw [Nat.or_eq_zero_iff]
    refine iff_of_false (fun h => absurd h.2 (by decide)) (by omega)
  case isFalse hlast =>
    have hend : ¬ (i + 1) * d.split.size < d.split.len := fun h => hlast (decide_eq_true h)
    constructor
    · intro hzero
      omega
    · intro hle
      by_contra hne
      have hi' : 0 < i := Nat.pos_of_mul_pos_right (Nat.pos_of_ne_zero hne)
      have := Nat.mul_le_mul_right d.split.size hi'
      omega

/-- The packets that are sent are those of the blocks, all of them if there is no error. -/
theorem fragmentDatagram_spec (hcovered : d.Covered) :
    ∃ packets error, d.fragmentDatagram = some (packets, error) ∧
      (∀ i p, packets[i]? = some p → d.split.Has i ∧
        p = if d.split.len ≤ d.split.size then .whole d.header d.split.payload
          else .fragment (d.packet i)) ∧
      (error = .ok () → ∀ i, d.split.Has i → i < packets.length) := by
  obtain ⟨packets, error, hloop, hpackets, hall⟩ := fragmentLoop_spec
    (fun offset more buffer =>
      ipv6SendPacket d.transmit d.mem d.pseudoHeader d.id
        (if more = true then offset ||| IPV6_FLAG_M.toNat else offset) buffer
        (d.linkHeaderLen.toNat + maxHeaderLen) d.hopLimit)
    (ipAllocBuffer d.fragment d.linkHeaderLen).1 d.payload d.payloadOffset d.split d.split.len 0
    (by omega)
  refine ⟨packets, error, ?_, fun i p hp => ?_, fun hok i hi => hall hok i (by rwa [Nat.zero_add])⟩
  · rw [Nat.zero_mul] at hloop
    rw [fragmentDatagram, ipv6FragmentDatagram, ← len_eq]
    exact hloop
  · obtain ⟨hhas, hsend⟩ := hpackets i p hp
    rw [Nat.zero_add] at hhas hsend
    refine ⟨hhas, ?_⟩
    have hflat : flat d.mem (pieceBuffer (ipAllocBuffer d.fragment d.linkHeaderLen).1 d.payload
        d.payloadOffset d.split i) = _ := hcovered.flat_pieceBuffer rfl hhas
    have hroom := length_flat_ipAllocBuffer d.mem d.fragment d.linkHeaderLen
    unfold ipv6SendPacket at hsend
    rw [netBufferGetLength_eq d.mem, hflat, List.length_append, hroom, ← hroom, List.drop_left,
      hroom, Nat.add_sub_cancel_left] at hsend
    have hsent : ∀ packet, (match d.transmit packet with
        | .noError => (.ok packet : Except ErrorCode Ipv6Packet)
        | error => .error error) = .ok p → p = packet := by
      intro packet h
      split at h
      · exact (Except.ok.inj h).symm
      · cases h
    have hzero := fragOffset_eq_zero hhas
    unfold fragOffset at hzero
    by_cases hone : d.split.len ≤ d.split.size
    · rw [if_neg (not_not.2 (hzero.2 hone)), if_neg (show ¬ _ < ipv6HeaderSize by
        unfold maxHeaderLen ipv6HeaderSize
        omega)] at hsend
      -- the only block is the payload
      have hlt : i * d.split.size < d.split.len := hhas
      have hi : i = 0 := by
        by_contra hne
        have := Nat.mul_le_mul_right d.split.size (Nat.pos_of_ne_zero hne)
        omega
      have hdata : (d.split.fragment i).data = d.split.payload := by
        rw [hi, Split.fragment, Nat.zero_mul, List.drop_zero]
        exact List.take_of_length_le hone
      rw [if_pos hone, hsent _ hsend, hdata]
      rfl
    · rw [if_pos fun h => hone (hzero.1 h),
        if_neg (show ¬ _ < ipv6HeaderSize + ipv6FragmentHeaderSize by
          unfold maxHeaderLen ipv6HeaderSize ipv6FragmentHeaderSize
          omega)] at hsend
      rw [if_neg hone, hsent _ hsend]
      rfl

/-- The fragment offset field says which block the packet carries, and whether it is the last. -/
theorem fragOffset_field {k : ℕ} (hk : k < 8192) (more : Bool) :
    let offset := UInt16.ofNat (if more = true then k * 8 ||| IPV6_FLAG_M.toNat else k * 8)
    (offset &&& IPV6_OFFSET_MASK = UInt16.ofNat (k * 8)) ∧
      decide (offset &&& IPV6_FLAG_M ≠ 0) = more := by
  have hor : k * 8 ||| IPV6_FLAG_M.toNat = k * 8 + 1 := by
    have h := Nat.two_pow_add_eq_or_of_lt (i := 3) (b := 1) (by decide) k
    rw [Nat.mul_comm] at h
    exact h.symm
  intro offset
  have hoffset : offset.toNat = k * 8 + more.toNat := by
    rw [UInt16.toNat_ofNat', hor]
    cases more <;> simp <;> omega
  have hmask : (offset &&& IPV6_OFFSET_MASK).toNat = k * 8 := by
    rw [UInt16.toNat_and]
    show offset.toNat &&& 65528 = k * 8
    have hdiv : (offset.toNat &&& 65528) / 2 ^ 3 = offset.toNat / 2 ^ 3 % 2 ^ 13 := by
      rw [Nat.and_div_two_pow]
      exact Nat.and_two_pow_sub_one_eq_mod _ 13
    have hmod : (offset.toNat &&& 65528) % 2 ^ 3 = 0 := by
      rw [Nat.and_mod_two_pow]
      exact Nat.and_zero _
    cases more <;> simp at hoffset <;> omega
  have hflag : (offset &&& IPV6_FLAG_M).toNat = more.toNat := by
    rw [UInt16.toNat_and]
    refine (Nat.and_one_is_mod _).trans ?_
    cases more <;> simp at hoffset ⊢ <;> omega
  constructor
  · apply UInt16.toNat_inj.1
    rw [hmask, UInt16.toNat_ofNat']
    omega
  · have hzero : offset &&& IPV6_FLAG_M = 0 ↔ more = false := by
      rw [← UInt16.toNat_inj, hflag]
      cases more <;> decide
    cases more with
    | true => exact decide_eq_true fun h => by cases hzero.1 h
    | false => exact decide_eq_false fun h => h (hzero.2 rfl)

/-- What reassembly sees in a packet. -/
theorem fragment_packet {i : ℕ} (hi : d.split.Has i) :
    ipv6.fragment (d.packet i) = d.split.fragment i := by
  have hlt : i * d.split.size < d.split.len := hi
  have hsize : d.split.len + ipv6HeaderSize ≤ IPV6_MAX_FRAG_DATAGRAM_SIZE := by
    rw [Nat.add_comm]
    exact d.size_le
  obtain ⟨c, hc⟩ := d.split.aligned
  have hmul : i * d.split.size = i * c * 8 := by
    rw [hc, Nat.mul_comm 8 c, Nat.mul_assoc]
  obtain ⟨hfirst, hmore⟩ := fragOffset_field (k := i * c)
    (by unfold ipv6HeaderSize IPV6_MAX_FRAG_DATAGRAM_SIZE at hsize; omega) (d.split.fragment i).more
  have hfields : ipv6.fragment (d.packet i)
      = ⟨UInt16.ofNat (d.fragOffset i) &&& IPV6_OFFSET_MASK,
        decide (UInt16.ofNat (d.fragOffset i) &&& IPV6_FLAG_M ≠ 0),
        (d.split.fragment i).data⟩ := rfl
  rw [hfields, fragOffset, hmul, hfirst, hmore, ← hmul]
  rfl

/-- The packets fit the path MTU, or the minimum link MTU. -/
theorem packet_size (i : ℕ) :
    ipv6HeaderSize + ipv6FragmentHeaderSize + (d.packet i).data.length
        ≤ max d.pathMtu IPV6_DEFAULT_MTU ∧
      ((d.split.fragment i).more = true → 8 ∣ (d.packet i).data.length) := by
  have hlen : (d.packet i).data.length ≤ d.split.size := by
    show ((d.split.payload.drop (i * d.split.size)).take d.split.size).length ≤ _
    rw [List.length_take]
    exact Nat.min_le_left _ _
  have hsize : d.split.size = _ := maxFragmentSize_eq d.pathMtu
  constructor
  · unfold ipv6HeaderSize ipv6FragmentHeaderSize IPV6_DEFAULT_MTU
    omega
  · intro hmore
    obtain ⟨hend, hlt⟩ := Split.blockEnd_of_more hmore
    have hfull : (d.packet i).data.length = d.split.size := by
      show ((d.split.payload.drop (i * d.split.size)).take d.split.size).length = _
      rw [Nat.succ_mul] at hlt
      rw [List.length_take, List.length_drop]
      unfold Split.len at hlt
      omega
    rw [hfull]
    exact d.split.aligned

end Ipv6Datagram

/-! ## The queue -/

section Queue

variable {ι : Type*} (d : ι → Ipv6Datagram)

/-- Datagrams that differ in source, destination or identification. -/
def ipv6Source (hkey : Function.Injective fun i => (d i).key) : Source ipv6 ι where
  split i := (d i).split
  packet i := (d i).packet
  key i := (d i).key
  header i :=
    ({ header :=
         { ((d i).packet 0).header with nextHeader := (d i).pseudoHeader.nextHeader }
       extension := []
       identification := (d i).id }, ipv6HeaderSize)
  fragment _ _ hi := Ipv6Datagram.fragment_packet hi
  key_packet _ _ _ := rfl
  key_injective := hkey
  firstHeader _ _ := rfl
  newLength _ _ _ := rfl
  size i := (d i).size_le
  headerFits _ := show ipv6HeaderSize ≤ NET_MEM_POOL_BUFFER_SIZE by decide

/-- **IPv6 reassembly undoes fragmentation.** The packets that are sent for a datagram are the
fragments of its blocks, which fit the path MTU, or the datagram itself if it has only one block.
Whatever arrives of the fragments, in any order and any number of times, and between the fragments
of other datagrams, the datagram is handed over each time that the last block since the last time
arrives, and at no other time: with the header it has when it is not fragmented, and with the
payload. -/
theorem ipv6_reassembly [DecidableEq ι] (hcovered : ∀ i, (d i).Covered)
    (hkey : Function.Injective fun i => (d i).key)
    {queue : Fin IPV6_MAX_FRAG_DATAGRAMS → FragDesc Ipv6Unfragmentable}
    (hqueue : ∀ k i, ¬ (queue k).Of ipv6 (d i).key) :
    (∀ i, ∃ packets error, (d i).fragmentDatagram = some (packets, error) ∧
      (∀ j p, packets[j]? = some p → (d i).split.Has j ∧
        p = if (d i).split.len ≤ (d i).split.size then .whole (d i).header (d i).split.payload
          else .fragment ((ipv6Source d hkey).packet i j)) ∧
      (error = .ok () → ∀ j, (d i).split.Has j → j < packets.length)) ∧
    (∀ i j, ipv6HeaderSize + ipv6FragmentHeaderSize + ((ipv6Source d hkey).packet i j).data.length
        ≤ max (d i).pathMtu IPV6_DEFAULT_MTU ∧
      ((d i).split.Has (j + 1) → 8 ∣ ((ipv6Source d hkey).packet i j).data.length)) ∧
    (∀ i, ((ipv6Source d hkey).datagram i).2
        = (flat (d i).mem (d i).payload).drop (d i).payloadOffset ∧
      ((ipv6Source d hkey).datagram i).1.header = (d i).header ∧
      ((ipv6Source d hkey).datagram i).1.extension = [] ∧
      (d i).header.nextHeader = (d i).pseudoHeader.nextHeader ∧
      (d i).header.payloadLen.toNat
        = ((flat (d i).mem (d i).payload).drop (d i).payloadOffset).length) ∧
    ∀ arrivals : List (Pool × Arrival ι Ipv6Fragment),
      Along (Served (ipv6Source d hkey)) (queueAfter (ipv6Source d hkey)) queue arrivals →
      ∃ queue' outs, reassembleAll ipv6 queue
          (arrivals.map fun e => (e.1, e.2.packet (ipv6Source d hkey))) = some (queue', outs) ∧
        Answers (ipv6Source d hkey) (fun _ => ∅) arrivals outs := by
  refine ⟨fun i => ?_, fun i j => ?_, fun i => ⟨rfl, ?_, rfl, rfl, ?_⟩, fun arrivals hserved => ?_⟩
  · exact Ipv6Datagram.fragmentDatagram_spec (hcovered i)
  · obtain ⟨hfits, hfull⟩ := Ipv6Datagram.packet_size (d := d i) j
    exact ⟨hfits, fun hnext => hfull (decide_eq_true hnext)⟩
  · show ({ ((d i).packet 0).header with
        nextHeader := (d i).pseudoHeader.nextHeader
        payloadLen := UInt16.ofNat (ipv6HeaderSize + (d i).split.len - ipv6HeaderSize) } :
          Ipv6Header) = (d i).header
    rw [Nat.add_sub_cancel_left]
    rfl
  · have hsize := (d i).size_le
    unfold ipv6HeaderSize IPV6_MAX_FRAG_DATAGRAM_SIZE at hsize
    show (UInt16.ofNat (d i).split.payload.length).toNat = _
    rw [UInt16.toNat_ofNat']
    exact Nat.mod_eq_of_lt
      (Nat.lt_of_le_of_lt (Nat.le_trans (Nat.le_add_left _ _) hsize) (by decide))
  · exact (represents_empty hqueue).run hserved

end Queue

/-- 1300 bytes in two chunks. -/
def ipv6Sample : Ipv6Datagram where
  transmit _ := .noError
  mem := fun i => UInt8.ofNat i
  fragment := 4096
  linkHeaderLen := 14
  id := 7
  pseudoHeader := { srcAddr := 1, destAddr := 2, nextHeader := 17 }
  payload := { chunk := [⟨0, 1000, 0⟩, ⟨2000, 300, 0⟩], maxChunkCount := 2 }
  payloadOffset := 0
  pathMtu := 1280
  hopLimit := 64
  size_le := by
    rw [List.length_drop, ← netBufferGetLength_eq]
    decide

theorem ipv6Sample_covered : ipv6Sample.Covered :=
  ipv6Sample.covered_of_chunkCount (by decide)

/-- The sample and nothing else. -/
def ipv6SampleSource : Source ipv6 Unit :=
  ipv6Source (fun _ => ipv6Sample) (Function.injective_of_subsingleton _)

/-- The packets of the sample, and all of them again. -/
def ipv6SampleArrivals : List (Pool × Arrival Unit Ipv6Fragment) :=
  [((), 0), ((), 1), ((), 0), ((), 1)].map fun b => (freshMemory, .block b.1 b.2)

theorem ipv6Sample_has (j : ℕ) : ipv6Sample.split.Has j ↔ j < 2 := by
  have hlen : ipv6Sample.split.len = 1300 := ipv6Sample.len_eq
  have hsize : ipv6Sample.split.size = 1232 := Ipv6Datagram.maxFragmentSize_eq 1280
  rw [Split.Has, hlen, hsize]
  omega

theorem ipv6Sample_along :
    Along (Served ipv6SampleSource) (queueAfter ipv6SampleSource)
      (emptyQueue IPV6_MAX_FRAG_DATAGRAMS (ipv6SampleSource.header ()).1) ipv6SampleArrivals := by
  refine (represents_empty fun _ _ h => by cases h.1).along (fun _ h => by cases h) (by decide) rfl
    rfl fun b hb => ?_
  refine (ipv6Sample_has b.2).2 ?_
  revert b
  decide

/-- A run with duplicates. -/
theorem ipv6_reassembly_sample :
    ∃ queue' outs, reassembleAll ipv6
        (emptyQueue IPV6_MAX_FRAG_DATAGRAMS (ipv6SampleSource.header ()).1)
        (ipv6SampleArrivals.map fun e => (e.1, e.2.packet ipv6SampleSource)) = some (queue', outs) ∧
      Answers ipv6SampleSource (fun _ => ∅) ipv6SampleArrivals outs :=
  (ipv6_reassembly (fun _ => ipv6Sample) (fun _ => ipv6Sample_covered)
    (Function.injective_of_subsingleton _) (fun _ _ h => by cases h.1)).2.2.2 ipv6SampleArrivals
      ipv6Sample_along

/-- Two blocks, which are all of a datagram, arrive twice. -/
theorem reassembled_twice {src : Source ipv6 Unit} {header : Ipv6Unfragmentable}
    (hhas : ∀ i, (src.split ()).Has i ↔ i < 2) :
    (reassembleAll ipv6 (emptyQueue IPV6_MAX_FRAG_DATAGRAMS header)
        ([src.packet () 0, src.packet () 1, src.packet () 0, src.packet () 1].map
          fun packet => (freshMemory, packet))).map Prod.snd
      = some [none, some (src.datagram ()), none, some (src.datagram ())] := by
  have hcomplete : ∀ received, Complete (src.split ()) received ↔ 0 ∈ received ∧ 1 ∈ received := by
    intro received
    constructor
    · intro h
      exact ⟨h 0 ((hhas 0).2 (by decide)), h 1 ((hhas 1).2 (by decide))⟩
    · rintro ⟨h0, h1⟩ j hj
      have hlt := (hhas j).1 hj
      interval_cases j
      · exact h0
      · exact h1
  have hempty : Represents src (emptyQueue IPV6_MAX_FRAG_DATAGRAMS header) fun _ => ∅ :=
    represents_empty fun _ _ h => by cases h.1
  have halong : Along (Served src) (queueAfter src) (emptyQueue IPV6_MAX_FRAG_DATAGRAMS header)
      ([((), 0), ((), 1), ((), 0), ((), 1)].map fun b => (freshMemory, .block b.1 b.2)) := by
    refine hempty.along (fun _ h => by cases h) (by decide) rfl rfl fun b hb => ?_
    rw [hhas]
    revert b
    decide
  obtain ⟨queue', outs, hall, hanswers⟩ := hempty.run halong
  have houts : outs = [none, some (src.datagram ()), none, some (src.datagram ())] := by
    match outs, hanswers with
    | [_, _, _, _], ⟨h0, h1, h2, h3, _⟩ =>
        rw [h0, h1, h2, h3]
        simp [handedOver, arrive, hcomplete]
  rw [← houts]
  exact congrArg (Option.map Prod.snd) hall

/-- 100 bytes, and a path MTU below the minimum. -/
def ipv6Small : Ipv6Datagram :=
  { ipv6Sample with
    payload := { chunk := [⟨0, 100, 0⟩], maxChunkCount := 1 }
    pathMtu := 128
    size_le := by
      rw [List.length_drop, ← netBufferGetLength_eq]
      decide }

/-- When all packets arrive a second time, the datagram is handed over a second time; and a datagram
that is larger than the path MTU but not than the minimum is sent without a Fragment header. -/
theorem ipv6_reassembly_counterexample :
    (∃ p q, ipv6Sample.fragmentDatagram = some ([.fragment p, .fragment q], .ok ()) ∧
      (reassembleAll ipv6 (emptyQueue IPV6_MAX_FRAG_DATAGRAMS (ipv6SampleSource.header ()).1)
          ([p, q, p, q].map fun packet => (freshMemory, packet))).map Prod.snd
        = some [none, some (ipv6SampleSource.datagram ()), none,
            some (ipv6SampleSource.datagram ())]) ∧
    ∃ header bytes, ipv6Small.fragmentDatagram = some ([.whole header bytes], .ok ()) ∧
      ipv6Small.pathMtu < ipv6HeaderSize + (flat ipv6Small.mem ipv6Small.payload).length := by
  refine ⟨⟨ipv6SampleSource.packet () 0, ipv6SampleSource.packet () 1, ?_,
    reassembled_twice ipv6Sample_has⟩, ipv6Small.header, ipv6Small.split.payload, ?_, ?_⟩
  · decide +kernel
  · decide +kernel
  · decide +kernel

end Ip
