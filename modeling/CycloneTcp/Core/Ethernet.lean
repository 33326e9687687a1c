import CycloneTcp.Core.NetMem
import CycloneTcp.Lib.Crc

set_option autoImplicit false

/-! # The CRC of Ethernet frames

`ethCalcCrc` goes through an array and `ethCalcCrcEx` through a multi-part buffer, both either with a
table or bit by bit, which is a configuration option. A frame leaves `ethSendFrame` with its CRC at
the end, the lowest byte first, and `ethProcessFrame` computes the CRC of everything, that included.
VLAN and port tagging are disabled by default, and left out. -/

namespace Ethernet

def ETH_MIN_FRAME_SIZE : ℕ := 64

def ETH_CRC_SIZE : ℕ := 4

/-- `sizeof(EthHeader)`. -/
def ethHeaderSize : ℕ := 14

/-! ## The functions -/

def crc32Table : List (BitVec 32) :=
  [
    0x00000000, 0x77073096, 0xEE0E612C, 0x990951BA, 0x076DC419, 0x706AF48F, 0xE963A535, 0x9E6495A3,
    0x0EDB8832, 0x79DCB8A4, 0xE0D5E91E, 0x97D2D988, 0x09B64C2B, 0x7EB17CBD, 0xE7B82D07, 0x90BF1D91,
    0x1DB71064, 0x6AB020F2, 0xF3B97148, 0x84BE41DE, 0x1ADAD47D, 0x6DDDE4EB, 0xF4D4B551, 0x83D385C7,
    0x136C9856, 0x646BA8C0, 0xFD62F97A, 0x8A65C9EC, 0x14015C4F, 0x63066CD9, 0xFA0F3D63, 0x8D080DF5,
    0x3B6E20C8, 0x4C69105E, 0xD56041E4, 0xA2677172, 0x3C03E4D1, 0x4B04D447, 0xD20D85FD, 0xA50AB56B,
    0x35B5A8FA, 0x42B2986C, 0xDBBBC9D6, 0xACBCF940, 0x32D86CE3, 0x45DF5C75, 0xDCD60DCF, 0xABD13D59,
    0x26D930AC, 0x51DE003A, 0xC8D75180, 0xBFD06116, 0x21B4F4B5, 0x56B3C423, 0xCFBA9599, 0xB8BDA50F,
    0x2802B89E, 0x5F058808, 0xC60CD9B2, 0xB10BE924, 0x2F6F7C87, 0x58684C11, 0xC1611DAB, 0xB6662D3D,
    0x76DC4190, 0x01DB7106, 0x98D220BC, 0xEFD5102A, 0x71B18589, 0x06B6B51F, 0x9FBFE4A5, 0xE8B8D433,
    0x7807C9A2, 0x0F00F934, 0x9609A88E, 0xE10E9818, 0x7F6A0DBB, 0x086D3D2D, 0x91646C97, 0xE6635C01,
    0x6B6B51F4, 0x1C6C6162, 0x856530D8, 0xF262004E, 0x6C0695ED, 0x1B01A57B, 0x8208F4C1, 0xF50FC457,
    0x65B0D9C6, 0x12B7E950, 0x8BBEB8EA, 0xFCB9887C, 0x62DD1DDF, 0x15DA2D49, 0x8CD37CF3, 0xFBD44C65,
    0x4DB26158, 0x3AB551CE, 0xA3BC0074, 0xD4BB30E2, 0x4ADFA541, 0x3DD895D7, 0xA4D1C46D, 0xD3D6F4FB,
    0x4369E96A, 0x346ED9FC, 0xAD678846, 0xDA60B8D0, 0x44042D73, 0x33031DE5, 0xAA0A4C5F, 0xDD0D7CC9,
    0x5005713C, 0x270241AA, 0xBE0B1010, 0xC90C2086, 0x5768B525, 0x206F85B3, 0xB966D409, 0xCE61E49F,
    0x5EDEF90E, 0x29D9C998, 0xB0D09822, 0xC7D7A8B4, 0x59B33D17, 0x2EB40D81, 0xB7BD5C3B, 0xC0BA6CAD,
    0xEDB88320, 0x9ABFB3B6, 0x03B6E20C, 0x74B1D29A, 0xEAD54739, 0x9DD277AF, 0x04DB2615, 0x73DC1683,
    0xE3630B12, 0x94643B84, 0x0D6D6A3E, 0x7A6A5AA8, 0xE40ECF0B, 0x9309FF9D, 0x0A00AE27, 0x7D079EB1,
    0xF00F9344, 0x8708A3D2, 0x1E01F268, 0x6906C2FE, 0xF762575D, 0x806567CB, 0x196C3671, 0x6E6B06E7,
    0xFED41B76, 0x89D32BE0, 0x10DA7A5A, 0x67DD4ACC, 0xF9B9DF6F, 0x8EBEEFF9, 0x17B7BE43, 0x60B08ED5,
    0xD6D6A3E8, 0xA1D1937E, 0x38D8C2C4, 0x4FDFF252, 0xD1BB67F1, 0xA6BC5767, 0x3FB506DD, 0x48B2364B,
    0xD80D2BDA, 0xAF0A1B4C, 0x36034AF6, 0x41047A60, 0xDF60EFC3, 0xA867DF55, 0x316E8EEF, 0x4669BE79,
    0xCB61B38C, 0xBC66831A, 0x256FD2A0, 0x5268E236, 0xCC0C7795, 0xBB0B4703, 0x220216B9, 0x5505262F,
    0xC5BA3BBE, 0xB2BD0B28, 0x2BB45A92, 0x5CB36A04, 0xC2D7FFA7, 0xB5D0CF31, 0x2CD99E8B, 0x5BDEAE1D,
    0x9B64C2B0, 0xEC63F226, 0x756AA39C, 0x026D930A, 0x9C0906A9, 0xEB0E363F, 0x72076785, 0x05005713,
    0x95BF4A82, 0xE2B87A14, 0x7BB12BAE, 0x0CB61B38, 0x92D28E9B, 0xE5D5BE0D, 0x7CDCEFB7, 0x0BDBDF21,
    0x86D3D2D4, 0xF1D4E242, 0x68DDB3F8, 0x1FDA836E, 0x81BE16CD, 0xF6B9265B, 0x6FB077E1, 0x18B74777,
    0x88085AE6, 0xFF0F6A70, 0x66063BCA, 0x11010B5C, 0x8F659EFF, 0xF862AE69, 0x616BFFD3, 0x166CCF45,
    0xA00AE278, 0xD70DD2EE, 0x4E048354, 0x3903B3C2, 0xA7672661, 0xD06016F7, 0x4969474D, 0x3E6E77DB,
    0xAED16A4A, 0xD9D65ADC, 0x40DF0B66, 0x37D83BF0, 0xA9BCAE53, 0xDEBB9EC5, 0x47B2CF7F, 0x30B5FFE9,
    0xBDBDF21C, 0xCABAC28A, 0x53B39330, 0x24B4A3A6, 0xBAD03605, 0xCDD70693, 0x54DE5729, 0x23D967BF,
    0xB3667A2E, 0xC4614AB8, 0x5D681B02, 0x2A6F2B94, 0xB40BBE37, 0xC30C8EA1, 0x5A05DF1B, 0x2D02EF8D]

theorem crc32Table_length : crc32Table.length = 2 ^ 8 := by decide +kernel

/-- The index into the table is a byte. -/
theorem tableIndex_lt (crc : BitVec 32) (b : UInt8) :
    ((crc &&& 0xFF#32) ^^^ b.toBitVec.setWidth 32).toNat < crc32Table.length := by
  have hb := b.toBitVec.isLt
  rw [crc32Table_length, BitVec.toNat_xor, BitVec.toNat_and,
    BitVec.toNat_setWidth]
  refine Nat.xor_lt_two_pow (Nat.and_lt_two_pow _ (by decide)) ?_
  exact Nat.lt_of_le_of_lt (Nat.mod_le _ _) hb

/-- The message is processed byte by byte. -/
def updateTable (crc : BitVec 32) (b : UInt8) : BitVec 32 :=
  (crc >>> 8) ^^^ crc32Table.get ⟨_, tableIndex_lt crc b⟩

/-- `n` rounds of the bit by bit loop. -/
def bitLoop : ℕ → BitVec 32 → BitVec 32
  | 0, crc => crc
  | n + 1, crc =>
      bitLoop n (if crc &&& 0x00000001#32 ≠ 0 then (crc >>> 1) ^^^ 0xEDB88320#32 else crc >>> 1)

/-- The message is processed bit by bit. -/
def updateBits (crc : BitVec 32) (b : UInt8) : BitVec 32 :=
  bitLoop 8 (crc ^^^ b.toBitVec.setWidth 32)

/-- One byte, with or without the lookup table. -/
def update (ETH_FAST_CRC_SUPPORT : Bool) (crc : BitVec 32) (b : UInt8) : BitVec 32 :=
  if ETH_FAST_CRC_SUPPORT = true then updateTable crc b else updateBits crc b

/-- Ethernet CRC calculation. -/
def ethCalcCrc (ETH_FAST_CRC_SUPPORT : Bool) (data : List UInt8) : BitVec 32 :=
  ~~~(data.foldl (update ETH_FAST_CRC_SUPPORT) 0xFFFFFFFF#32)

/-- The loop through the data chunks. -/
def crcChunks (fast : Bool) (mem : Memory UInt8) : List ChunkDesc → ℕ → ℕ → BitVec 32 → BitVec 32
  | [], _, _, crc => crc
  | c :: cs, offset, length, crc =>
      if 0 < length then
        if offset < c.length.toNat then
          let n := min (c.length.toNat - offset) length
          crcChunks fast mem cs 0 (length - n)
            ((mem.read (c.address + offset) n).foldl (update fast) crc)
        else crcChunks fast mem cs (offset - c.length.toNat) length crc
      else crc

/-- Calculate CRC over a multi-part buffer. -/
def ethCalcCrcEx (ETH_FAST_CRC_SUPPORT : Bool) (mem : Memory UInt8) (buffer : NetBuffer)
    (offset length : ℕ) : BitVec 32 :=
  ~~~(crcChunks ETH_FAST_CRC_SUPPORT mem buffer.chunk offset length 0xFFFFFFFF#32)

/-- What the hardware does by itself. -/
structure NicDriver where
  autoPadding : Bool
  autoCrcCalc : Bool
  autoCrcVerif : Bool
  autoCrcStrip : Bool

/-- The bytes of `htole32(value)`. -/
def htole32 (value : BitVec 32) : List UInt8 :=
  (List.range 4).map fun i => UInt8.ofBitVec ((value >>> (8 * i)).setWidth 8)

/-- `EthHeader`: two addresses, and the type in network byte order. -/
def ethHeader (destAddr srcAddr : BitVec 48) (type : UInt16) : List UInt8 :=
  let bytes := fun addr : BitVec 48 =>
    (List.range 6).map fun i => UInt8.ofBitVec ((addr >>> (8 * i)).setWidth 8)
  bytes destAddr ++ bytes srcAddr ++ [Memory.hi8 type, Memory.lo8 type]

/-- Ethernet frame padding. `ethPadding` is the address of an array of zeros. -/
def ethPadFrame (ethPadding : ℕ) (buffer : NetBuffer) (length : ℕ) : ErrorCode × NetBuffer × ℕ :=
  if length < ETH_MIN_FRAME_SIZE - ETH_CRC_SIZE then
    let n := ETH_MIN_FRAME_SIZE - ETH_CRC_SIZE - length
    match netBufferAppend buffer ethPadding n with
    | (.noError, buffer) => (.noError, buffer, length + n)
    | (error, buffer) => (error, buffer, length)
  else (.noError, buffer, length)

/-- `ethSendFrame`, up to the call of `nicSendPacket`: the memory, the buffer and the offset of the
frame. `crcVar` is the address of the local variable that holds the CRC. A header that lies behind
the data is written through a NULL pointer. -/
def ethSendFrame (fast : Bool) (nicDriver : NicDriver) (ethPadding crcVar : ℕ) (mem : Memory UInt8)
    (destAddr srcAddr : BitVec 48) (type : UInt16) (buffer : NetBuffer) (offset : ℕ) :
    Option (ErrorCode × Memory UInt8 × NetBuffer × ℕ) :=
  if offset < ethHeaderSize then some (.invalidParameter, mem, buffer, offset)
  else
    let offset := offset - ethHeaderSize
    let length := netBufferGetLength buffer - offset
    match netBufferAt buffer offset with
    | none => none
    | some header =>
        let mem := mem.write header (ethHeader destAddr srcAddr type)
        -- automatic padding not supported by hardware?
        let (error, buffer, length) :=
          if nicDriver.autoPadding = false then ethPadFrame ethPadding buffer length
          else (.noError, buffer, length)
        if error ≠ .noError then some (error, mem, buffer, offset)
        else if nicDriver.autoCrcCalc = false then
          let crc := ethCalcCrcEx fast mem buffer offset length
          let mem := mem.write crcVar (htole32 crc)
          match netBufferAppend buffer crcVar ETH_CRC_SIZE with
          | (.noError, buffer) => some (.noError, mem, buffer, offset)
          | (error, buffer) => some (error, mem, buffer, offset)
        else some (.noError, mem, buffer, offset)

/-- The beginning of `ethProcessFrame`: the frame is dropped with an error, or goes on without its
CRC. -/
def ethProcessFrameCrc (fast : Bool) (nicDriver : NicDriver) (frame : List UInt8) :
    ErrorCode × List UInt8 :=
  -- is the CRC included in the received frame?
  if nicDriver.autoCrcStrip = false then
    if frame.length < ethHeaderSize + ETH_CRC_SIZE then (.invalidLength, frame)
    else if nicDriver.autoCrcVerif = false ∧ ethCalcCrc fast frame ≠ 0x2144DF1C#32 then
      (.wrongChecksum, frame)
    else (.noError, frame.take (frame.length - ETH_CRC_SIZE))
  else (.noError, frame)

/-! ## The table and the loop -/

/-- The polynomial. -/
def poly : BitVec 32 := 0xEDB88320#32

theorem low_bit_ne (x : BitVec 32) : x &&& 0x00000001#32 ≠ 0 ↔ x.getLsbD 0 = true := by
  have hbit : x &&& 0x00000001#32 = BitVec.setWidth 32 (BitVec.ofBool (x.getLsbD 0)) :=
    BitVec.and_one_eq_setWidth_ofBool_getLsbD
  rw [hbit]
  cases x.getLsbD 0 <;> decide

theorem bitLoop_eq (n : ℕ) (crc : BitVec 32) : bitLoop n crc = Crc.shifts poly n crc := by
  induction n generalizing crc with
  | zero => rfl
  | succ n ih =>
      rw [bitLoop, ih, Crc.shifts, Crc.shift]
      simp only [low_bit_ne]
      rfl

theorem updateBits_eq (crc : BitVec 32) (b : UInt8) :
    updateBits crc b = Crc.update poly crc b.toBitVec := bitLoop_eq 8 _

/-- The table holds the eight steps of every byte. -/
theorem crc32Table_eq :
    crc32Table = (List.range 256).map fun i => Crc.shifts poly 8 (BitVec.ofNat 32 i) := by
  decide +kernel

theorem updateTable_eq (crc : BitVec 32) (b : UInt8) :
    updateTable crc b = Crc.update poly crc b.toBitVec := by
  have hget : ∀ i : Fin crc32Table.length,
      crc32Table.get i = Crc.shifts poly 8 (BitVec.ofNat 32 i.val) := by
    rw [crc32Table_eq]
    intro i
    rw [List.get_eq_getElem, List.getElem_map, List.getElem_range]
  have hmask : (crc ^^^ b.toBitVec.setWidth 32) &&& 0xFF#32
      = (crc &&& 0xFF#32) ^^^ (b.toBitVec.setWidth 32 &&& 0xFF#32) := by
    ext i hi
    simp only [BitVec.getElem_and, BitVec.getElem_xor, Bool.and_xor_distrib_right]
  have hsplit := Crc.shifts_split poly 8 (crc ^^^ b.toBitVec.setWidth 32) 0xFF#32 (by decide)
  have hbyte : b.toBitVec.setWidth 32 &&& 0xFF#32 = b.toBitVec.setWidth 32 := by
    apply BitVec.eq_of_toNat_eq
    have hb := b.toBitVec.isLt
    rw [BitVec.toNat_and, BitVec.toNat_setWidth, show (0xFF#32).toNat = 2 ^ 8 - 1 from rfl,
      Nat.and_two_pow_sub_one_eq_mod]
    omega
  have hhigh : b.toBitVec.setWidth 32 >>> 8 = 0#32 := by
    apply BitVec.eq_of_toNat_eq
    have hb := b.toBitVec.isLt
    rw [BitVec.toNat_ushiftRight, BitVec.toNat_setWidth, Nat.shiftRight_eq_div_pow]
    show b.toBitVec.toNat % 2 ^ 32 / 2 ^ 8 = 0
    omega
  rw [updateTable, hget, BitVec.ofNat_toNat, BitVec.setWidth_eq, Crc.update, hsplit,
    BitVec.ushiftRight_xor_distrib, hhigh, BitVec.xor_zero, hmask, hbyte]

/-- One byte, whatever the option. -/
theorem update_eq (fast : Bool) (crc : BitVec 32) (b : UInt8) :
    update fast crc b = Crc.update poly crc b.toBitVec := by
  unfold update
  split
  · exact updateTable_eq crc b
  · exact updateBits_eq crc b

/-- The register after a list of bytes. -/
theorem foldl_update (fast : Bool) (crc : BitVec 32) (data : List UInt8) :
    data.foldl (update fast) crc = Crc.register poly crc (data.map UInt8.toBitVec) := by
  rw [Crc.register, List.foldl_map]
  exact congrArg (fun f => data.foldl f crc) (funext fun crc => funext fun b => update_eq fast crc b)

/-! ## Multi-part buffers -/

theorem crcChunks_eq (fast : Bool) (mem : Memory UInt8) (cs : List ChunkDesc) (offset length : ℕ)
    (crc : BitVec 32) : crcChunks fast mem cs offset length crc =
      (((chunkData mem cs).drop offset).take length).foldl (update fast) crc := by
  induction cs generalizing offset length crc with
  | nil => simp [crcChunks]
  | cons c cs ih =>
      rw [crcChunks]
      split_ifs with hlength hoffset
      · rw [take_drop_chunkData mem c cs length hoffset.le, List.foldl_append, Nat.min_comm length]
        exact ih 0 _ _
      · rw [drop_chunkData_cons mem cs (Nat.le_of_not_lt hoffset)]
        exact ih _ _ _
      · rw [Nat.eq_zero_of_not_pos hlength, List.take_zero, List.foldl_nil]

theorem ethCalcCrcEx_flat (fast : Bool) (mem : Memory UInt8) (buffer : NetBuffer)
    (offset length : ℕ) : ethCalcCrcEx fast mem buffer offset length =
      ethCalcCrc fast (((flat mem buffer).drop offset).take length) :=
  congrArg (~~~ ·) (crcChunks_eq fast mem buffer.chunk offset length _)

/-! ## Trailers -/

theorem htole32_littleEndian (c : BitVec 32) :
    Crc.littleEndian ((htole32 c).map UInt8.toBitVec) = c := by
  refine BitVec.eq_of_getLsbD_eq fun i hi => ?_
  simp only [htole32, List.range, List.range.loop, List.map_cons, List.map_nil, Crc.littleEndian,
    BitVec.getLsbD_xor, BitVec.getLsbD_shiftLeft, BitVec.getLsbD_setWidth,
    BitVec.getLsbD_ushiftRight, BitVec.getLsbD_zero]
  -- one bit at a time: each belongs to one byte
  interval_cases i <;> simp

/-- The residue is what is left of a register that was all ones. -/
theorem ethCalcCrc_residue (fast : Bool) (frame : List UInt8) (c : BitVec 32) :
    ethCalcCrc fast (frame ++ htole32 c) = 0x2144DF1C#32 ↔ c = ethCalcCrc fast frame := by
  have hresidue : (0x2144DF1C#32 : BitVec 32) = ~~~Crc.shifts poly 32 (BitVec.allOnes 32) := by
    decide +kernel
  have hlen : 8 * ((htole32 c).map UInt8.toBitVec).length = 32 := rfl
  have hiff := Crc.register_eq_iff poly rfl (frame.foldl (update fast) 0xFFFFFFFF#32)
    (BitVec.allOnes 32) ((htole32 c).map UInt8.toBitVec) (le_of_eq hlen)
  rw [hlen, htole32_littleEndian] at hiff
  rw [ethCalcCrc, List.foldl_append, foldl_update fast _ (htole32 c), hresidue, ethCalcCrc]
  generalize frame.foldl (update fast) 0xFFFFFFFF#32 = x at hiff ⊢
  constructor
  · intro h
    have hx := hiff.1 (by simpa using congrArg (~~~ ·) h)
    rw [← BitVec.xor_allOnes, ← hx, ← BitVec.xor_assoc, BitVec.xor_self, BitVec.zero_xor]
  · intro h
    rw [hiff.2 (by rw [h, ← BitVec.xor_allOnes, ← BitVec.xor_assoc, BitVec.xor_self,
      BitVec.zero_xor])]

/-! ## Frames -/

theorem ethPadFrame_flat {mem : Memory UInt8} {ethPadding : ℕ} {buffer buffer' : NetBuffer}
    {length length' : ℕ}
    (h : ethPadFrame ethPadding buffer length = (.noError, buffer', length')) :
    ∃ padding, flat mem buffer' = flat mem buffer ++ padding ∧ length' = length + padding.length ∧
      ∀ r ∈ buffer'.regions, r ∈ buffer.regions ∨
        r.start = ethPadding ∧ r.len ≤ ETH_MIN_FRAME_SIZE := by
  unfold ethPadFrame at h
  split at h
  case isTrue hshort =>
    dsimp only at h
    set n := ETH_MIN_FRAME_SIZE - ETH_CRC_SIZE - length with hn
    have hsmall : n ≤ 60 := Nat.sub_le _ _
    split at h
    case h_1 buffer1 happend =>
      cases h
      have hflat := @netBufferAppend_flat mem _ _ _ (congrArg Prod.fst happend)
      rw [happend, Nat.mod_eq_of_lt (by omega)] at hflat
      refine ⟨_, hflat, by rw [Memory.length_read], fun r hr => ?_⟩
      unfold netBufferAppend at happend
      split at happend
      · cases happend
      · cases happend
        rw [NetBuffer.regions, chunkRegions, List.map_append] at hr
        refine (List.mem_append.1 hr).imp_right fun hr => ?_
        obtain rfl := List.mem_singleton.1 hr
        refine ⟨rfl, ?_⟩
        show (UInt16.ofNat n).toNat ≤ 64
        rw [UInt16.toNat_ofNat']
        omega
    case h_2 error buffer1 hne happend =>
      cases h
      exact absurd rfl hne
  case isFalse =>
    cases h
    exact ⟨[], (List.append_nil _).symm, rfl, fun r hr => Or.inl hr⟩

/-- A frame that is sent without the help of the hardware ends with the CRC of what is before it. -/
theorem ethSendFrame_trailer {fast : Bool} {nicDriver : NicDriver} {ethPadding crcVar : ℕ}
    {mem mem' : Memory UInt8} {destAddr srcAddr : BitVec 48} {type : UInt16}
    {buffer buffer' : NetBuffer} {offset offset' : ℕ} (hcalc : nicDriver.autoCrcCalc = false)
    (hoffset : offset ≤ netBufferGetLength buffer)
    (hvar : ∀ r ∈ buffer.regions, r.Apart ⟨crcVar, ETH_CRC_SIZE⟩)
    (hpad : Region.Apart ⟨ethPadding, ETH_MIN_FRAME_SIZE⟩ ⟨crcVar, ETH_CRC_SIZE⟩)
    (h : ethSendFrame fast nicDriver ethPadding crcVar mem destAddr srcAddr type buffer offset =
      some (.noError, mem', buffer', offset')) :
    ∃ frame, ethHeaderSize ≤ frame.length ∧
      (flat mem' buffer').drop offset' = frame ++ htole32 (ethCalcCrc fast frame) := by
  unfold ethSendFrame at h
  split at h
  case isTrue => cases h
  case isFalse hroom =>
    dsimp only at h
    split at h
    case h_1 => cases h
    case h_2 header hheader =>
      set mem1 := mem.write header (ethHeader destAddr srcAddr type) with hmem1
      set o := offset - ethHeaderSize with ho
      have hlen := netBufferGetLength_eq mem1 buffer
      have hheader14 : ethHeaderSize = 14 := rfl
      -- with or without padding, the length is that of the data
      obtain ⟨error, buffer2, length2, hpadded⟩ : ∃ error buffer2 length2,
          (if nicDriver.autoPadding = false then
            ethPadFrame ethPadding buffer (netBufferGetLength buffer - o)
          else (.noError, buffer, netBufferGetLength buffer - o)) = (error, buffer2, length2) :=
        ⟨_, _, _, rfl⟩
      rw [hpadded] at h
      dsimp only at h
      split at h
      case isTrue herror => exact absurd (Prod.mk.inj (Option.some.inj h)).1 herror
      case isFalse herror =>
        obtain rfl : error = .noError := not_not.1 herror
        obtain ⟨padding, hflat, hlength, hregions⟩ : ∃ padding,
            flat mem1 buffer2 = flat mem1 buffer ++ padding ∧
            length2 = netBufferGetLength buffer - o + padding.length ∧
            ∀ r ∈ buffer2.regions, r ∈ buffer.regions ∨
              r.start = ethPadding ∧ r.len ≤ ETH_MIN_FRAME_SIZE := by
          split at hpadded
          · exact ethPadFrame_flat hpadded
          · cases hpadded
            exact ⟨[], (List.append_nil _).symm, rfl, fun r hr => Or.inl hr⟩
        have hdrop : (flat mem1 buffer2).drop o = (flat mem1 buffer).drop o ++ padding := by
          rw [hflat, List.drop_append_of_le_length (by omega)]
        have hlen2 : ((flat mem1 buffer2).drop o).length = length2 := by
          rw [hdrop, List.length_append, List.length_drop, hlength]
          omega
        split at h
        case h_2 error hne happend => exact absurd (Prod.mk.inj (Option.some.inj h)).1 hne
        case h_1 buffer3 happend =>
          obtain ⟨-, rfl, rfl, rfl⟩ := by simpa only [Option.some.injEq, Prod.mk.injEq] using h
          set crc := ethCalcCrcEx fast mem1 buffer2 o length2 with hcrc
          have hsame : flat (mem1.write crcVar (htole32 crc)) buffer2 = flat mem1 buffer2 := by
            refine gather_write_of_apart fun r hr => ?_
            rcases hregions r hr with hr | ⟨hstart, hle⟩
            · exact (hvar r hr).symm
            · exact (hpad.part (p := r.start) (n := r.len) hstart.ge (by simp only [hstart]; omega)).symm
          have hend := @netBufferAppend_flat (mem1.write crcVar (htole32 crc)) _ _ _
            (congrArg Prod.fst happend)
          rw [happend, hsame] at hend
          refine ⟨(flat mem1 buffer2).drop o, ?_, ?_⟩
          · rw [hlen2, hlength]
            omega
          · rw [hend, List.drop_append_of_le_length (by rw [hflat, List.length_append]; omega)]
            have hread := Memory.read_write_of_length mem1 crcVar
              (show (htole32 crc).length = ETH_CRC_SIZE % 2 ^ 16 from rfl)
            rw [hread, hcrc, ethCalcCrcEx_flat, ← hlen2, List.take_length]

/-- The check of a received frame, for a trailer of four bytes. -/
theorem ethProcessFrameCrc_trailer (fast : Bool) {nicDriver : NicDriver}
    (hstrip : nicDriver.autoCrcStrip = false) (hverif : nicDriver.autoCrcVerif = false)
    {frame : List UInt8} (hframe : ethHeaderSize ≤ frame.length) (c : BitVec 32) :
    ethProcessFrameCrc fast nicDriver (frame ++ htole32 c) =
      if c = ethCalcCrc fast frame then (.noError, frame)
      else (.wrongChecksum, frame ++ htole32 c) := by
  have hlen : (frame ++ htole32 c).length = frame.length + 4 := List.length_append
  have hcrc : ETH_CRC_SIZE = 4 := rfl
  rw [ethProcessFrameCrc, if_pos hstrip, if_neg (by omega)]
  by_cases hc : c = ethCalcCrc fast frame
  · rw [if_neg fun h => h.2 ((ethCalcCrc_residue fast frame c).2 hc), if_pos hc, hlen, hcrc,
      Nat.add_sub_cancel, List.take_left]
  · rw [if_pos ⟨hverif, fun h => hc ((ethCalcCrc_residue fast frame c).1 h)⟩, if_neg hc]

/-- **The CRC.** The table and the loop agree, on arrays and on multi-part buffers; a trailer leaves
the residue if and only if it is the CRC of the frame; and so a frame that has been sent is accepted,
with that trailer and no other. -/
theorem ethCalcCrc_agree :
    (∀ data, ethCalcCrc true data = ethCalcCrc false data) ∧
    (∀ fast mem buffer offset length, ethCalcCrcEx fast mem buffer offset length =
      ethCalcCrc fast (((flat mem buffer).drop offset).take length)) ∧
    (∀ fast frame c, ethCalcCrc fast (frame ++ htole32 c) = 0x2144DF1C#32 ↔
      c = ethCalcCrc fast frame) ∧
    ∀ fast fast' (sender receiver : NicDriver) ethPadding crcVar mem mem' destAddr srcAddr type
      buffer buffer' offset offset',
      sender.autoCrcCalc = false → receiver.autoCrcStrip = false →
      receiver.autoCrcVerif = false → offset ≤ netBufferGetLength buffer →
      (∀ r ∈ buffer.regions, r.Apart ⟨crcVar, ETH_CRC_SIZE⟩) →
      Region.Apart ⟨ethPadding, ETH_MIN_FRAME_SIZE⟩ ⟨crcVar, ETH_CRC_SIZE⟩ →
      ethSendFrame fast sender ethPadding crcVar mem destAddr srcAddr type buffer offset =
        some (.noError, mem', buffer', offset') →
      ∃ frame trailer, (flat mem' buffer').drop offset' = frame ++ htole32 trailer ∧
        ∀ c, ethProcessFrameCrc fast' receiver (frame ++ htole32 c) =
          if c = trailer then (.noError, frame) else (.wrongChecksum, frame ++ htole32 c) := by
  have hagree : ∀ data, ethCalcCrc true data = ethCalcCrc false data := by
    intro data
    rw [ethCalcCrc, ethCalcCrc, foldl_update, foldl_update]
  refine ⟨hagree, ethCalcCrcEx_flat, ethCalcCrc_residue, ?_⟩
  intro fast fast' sender receiver ethPadding crcVar mem mem' destAddr srcAddr type buffer buffer'
    offset offset' hcalc hstrip hverif hoffset hvar hpad h
  obtain ⟨frame, hframe, hsent⟩ := ethSendFrame_trailer hcalc hoffset hvar hpad h
  have hfast : ethCalcCrc fast frame = ethCalcCrc fast' frame := by
    rw [ethCalcCrc, ethCalcCrc, foldl_update, foldl_update]
  refine ⟨frame, ethCalcCrc fast frame, hsent, fun c => ?_⟩
  rw [hfast]
  exact ethProcessFrameCrc_trailer fast' hstrip hverif hframe c

/-- Room for the header and six bytes of data in one chunk. -/
def shortBuffer : NetBuffer := ⟨[⟨1000, 20, 1536⟩], 3⟩

/-- A driver that leaves everything to the stack. -/
def plainDriver : NicDriver := ⟨false, false, false, false⟩

/-- A short frame is padded and sent. -/
theorem ethCalcCrc_agree_short : ∃ mem' buffer' offset',
    ethSendFrame true plainDriver 100 500 (fun _ => 7) 1 2 0x0800 shortBuffer 14 =
      some (.noError, mem', buffer', offset') ∧
    ∃ frame trailer, (flat mem' buffer').drop offset' = frame ++ htole32 trailer ∧
      ∀ c, ethProcessFrameCrc false plainDriver (frame ++ htole32 c) =
        if c = trailer then (.noError, frame) else (.wrongChecksum, frame ++ htole32 c) := by
  refine ⟨_, _, _, rfl, ethCalcCrc_agree.2.2.2 true false plainDriver plainDriver 100 500
    (fun _ => 7) _ 1 2 0x0800 shortBuffer _ 14 _ rfl rfl rfl (by decide) ?_ ?_ rfl⟩
  · intro r hr a ha ha'
    obtain rfl := List.mem_singleton.1 hr
    simp only [Region.Has, ChunkDesc.region] at ha ha'
    exact absurd (Nat.lt_of_lt_of_le ha'.2 (by decide : 500 + ETH_CRC_SIZE ≤ 1000))
      (Nat.not_lt_of_le ha.1)
  · intro a ha ha'
    exact absurd (Nat.lt_of_lt_of_le ha.2 (by decide : 100 + ETH_MIN_FRAME_SIZE ≤ 500))
      (Nat.not_lt_of_le ha'.1)

end Ethernet
