import CycloneTcp.Core.NetMemArea
import CycloneTcp.Core.TcpBuffer

set_option autoImplicit false

/-! # The circular buffers in their chunks

The buffers of a connection are multi-part buffers. `tcpWriteRxBuffer` and its companions are given
here as they work on the chunks; `Core/TcpBuffer` has what they do to the buffer as one area. The
difference shows when the send buffer is read: its chunks are blocks of `NET_MEM_POOL_BUFFER_SIZE`
bytes, they are not copied but described again in the segment, and a segment has only so many
descriptors. -/

namespace Tcp

/-! ## The functions -/

/-- The receive buffer of a socket and what its positions are counted from. -/
structure ReceiveBuffer where
  irs : UInt32
  rxBufferSize : ℕ
  rxBuffer : NetBuffer

/-- The send buffer of a socket and what its positions are counted from. -/
structure SendBuffer where
  iss : UInt32
  txBufferSize : ℕ
  txBuffer : NetBuffer

/-- Copy incoming data to the receive buffer. -/
def ReceiveBuffer.tcpWriteRxBuffer (socket : ReceiveBuffer) (mem : Memory UInt8) (seqNum : UInt32)
    (data : NetBuffer) (dataOffset length : ℕ) : Memory UInt8 :=
  let offset := (seqNum - socket.irs - 1).toNat % socket.rxBufferSize
  if offset + length ≤ socket.rxBufferSize then
    (netBufferCopy mem socket.rxBuffer offset data dataOffset length).2
  else
    let part := socket.rxBufferSize - offset
    let mem := (netBufferCopy mem socket.rxBuffer offset data dataOffset part).2
    (netBufferCopy mem socket.rxBuffer 0 data (dataOffset + part) (length - part)).2

/-- Copy data from the receive buffer to the user's array at `data`. -/
def ReceiveBuffer.tcpReadRxBuffer (socket : ReceiveBuffer) (mem : Memory UInt8) (seqNum : UInt32)
    (data length : ℕ) : Memory UInt8 :=
  let offset := (seqNum - socket.irs - 1).toNat % socket.rxBufferSize
  if offset + length ≤ socket.rxBufferSize then
    (netBufferRead mem data socket.rxBuffer offset length).2
  else
    let part := socket.rxBufferSize - offset
    let mem := (netBufferRead mem data socket.rxBuffer offset part).2
    (netBufferRead mem (data + part) socket.rxBuffer 0 (length - part)).2

/-- Copy the user's data at `data` to the send buffer. -/
def SendBuffer.tcpWriteTxBuffer (socket : SendBuffer) (mem : Memory UInt8) (seqNum : UInt32)
    (data length : ℕ) : Memory UInt8 :=
  let offset := (seqNum - socket.iss - 1).toNat % socket.txBufferSize
  if offset + length ≤ socket.txBufferSize then
    (netBufferWrite mem socket.txBuffer offset data length).2
  else
    let part := socket.txBufferSize - offset
    let mem := (netBufferWrite mem socket.txBuffer offset data part).2
    (netBufferWrite mem socket.txBuffer 0 (data + part) (length - part)).2

/-- Append data of the send buffer to `buffer`, without copying it. -/
def SendBuffer.tcpReadTxBuffer (socket : SendBuffer) (seqNum : UInt32) (buffer : NetBuffer)
    (length : ℕ) : ErrorCode × NetBuffer :=
  let offset := (seqNum - socket.iss - 1).toNat % socket.txBufferSize
  if offset + length ≤ socket.txBufferSize then
    netBufferConcat buffer socket.txBuffer offset length
  else
    let part := socket.txBufferSize - offset
    let (error, buffer) := netBufferConcat buffer socket.txBuffer offset part
    if error = .noError then netBufferConcat buffer socket.txBuffer 0 (length - part)
    else (error, buffer)

/-- The chunks of the receive buffer do not overlap and make up its size. -/
structure ReceiveBuffer.Placed (socket : ReceiveBuffer) : Prop where
  separate : Separate socket.rxBuffer.regions
  length : netBufferGetLength socket.rxBuffer = socket.rxBufferSize

/-- The chunks of the send buffer do not overlap and are blocks. -/
structure SendBuffer.Placed (socket : SendBuffer) : Prop where
  separate : Separate socket.txBuffer.regions
  blocks : InBlocks socket.txBuffer.chunk socket.txBufferSize

theorem SendBuffer.Placed.length {socket : SendBuffer} (h : socket.Placed) :
    netBufferGetLength socket.txBuffer = socket.txBufferSize := by
  have mem : Memory UInt8 := fun _ => 0
  rw [netBufferGetLength_eq mem, flat, h.blocks.length]

/-! ## The functions on the area

A receive side or a send side whose buffer is the area of the chunks does the same. -/

/-- A receive side. -/
def ReceiveSide.blank : ReceiveSide :=
  { rmss := 0, irs := 0, rcvNxt := 0, rcvUser := 0, rcvWnd := 0, rxBuffer := .empty,
    rxBufferSize := 0, sackBlock := [] }

/-- A send side. -/
def SendSide.blank : SendSide :=
  { smss := 0, iss := 0, sndUna := 0, sndNxt := 0, sndUser := 0, sndWnd := 0,
    maxSndWnd := 0, sndWl1 := 0, sndWl2 := 0, rttBusy := false, rttSeqNum := 0,
    congestState := .idle, cwnd := 0, ssthresh := 0, dupAckCount := 0, n := 0, recover := 0,
    txBuffer := .empty, txBufferSize := 0, retransmitQueue := [], retransmitTimer := false,
    retransmitCount := 0, wndProbeCount := 0, wndProbeInterval := 0, persistTimer := false,
    overrideTimer := false }

/-- `rcv` with the buffer of the socket. -/
def ReceiveBuffer.side (socket : ReceiveBuffer) (mem : Memory UInt8) (rcv : ReceiveSide) :
    ReceiveSide :=
  { rcv with irs := socket.irs, rxBufferSize := socket.rxBufferSize
             rxBuffer := socket.rxBuffer.area mem }

/-- `snd` with the buffer of the socket. -/
def SendBuffer.side (socket : SendBuffer) (mem : Memory UInt8) (snd : SendSide) : SendSide :=
  { snd with iss := socket.iss, txBufferSize := socket.txBufferSize
             txBuffer := socket.txBuffer.area mem }

section Area

variable (mem : Memory UInt8) (q : UInt32) {n user : ℕ}

theorem ReceiveBuffer.write_side {socket : ReceiveBuffer} (h : socket.Placed) (rcv : ReceiveSide)
    {data : NetBuffer} {dataOffset : ℕ} (hsize : 0 < socket.rxBufferSize)
    (hlen : n ≤ socket.rxBufferSize) (hap : ApartAll socket.rxBuffer.regions data.regions)
    (hdata : dataOffset + n ≤ netBufferGetLength data) :
    socket.side (socket.tcpWriteRxBuffer mem q data dataOffset n) rcv
        = Tcp.tcpWriteRxBuffer (socket.side mem rcv) q (data.area mem) dataOffset n ∧
      SameOutside socket.rxBuffer.regions mem
        (socket.tcpWriteRxBuffer mem q data dataOffset n) := by
  have hmod := Nat.mod_lt (q - socket.irs - 1).toNat hsize
  have hlength := h.length
  unfold tcpWriteRxBuffer Tcp.tcpWriteRxBuffer
  simp only [side]
  split
  case isTrue hin =>
    obtain ⟨harea, hout⟩ := NetBuffer.netBufferCopy_area mem h.separate hap
      (show _ + n ≤ _ by rwa [hlength]) hdata
    rw [harea]
    exact ⟨(if_pos hin).symm, hout⟩
  case isFalse hcross =>
    obtain ⟨harea, hout⟩ := NetBuffer.netBufferCopy_area mem h.separate hap
      (o := (q - socket.irs - 1).toNat % socket.rxBufferSize) (s := dataOffset)
      (n := socket.rxBufferSize - (q - socket.irs - 1).toNat % socket.rxBufferSize)
      (by omega) (by omega)
    generalize (netBufferCopy mem socket.rxBuffer _ data dataOffset _).2 = mem1 at harea hout ⊢
    have hsame : data.area mem1 = data.area mem :=
      NetBuffer.area_congr (hout.gather_eq hap)
    obtain ⟨harea', hout'⟩ := NetBuffer.netBufferCopy_area mem1 h.separate hap
      (o := 0)
      (s := dataOffset + (socket.rxBufferSize - (q - socket.irs - 1).toNat % socket.rxBufferSize))
      (n := n - (socket.rxBufferSize - (q - socket.irs - 1).toNat % socket.rxBufferSize))
      (by omega) (by omega)
    rw [harea', hsame, harea]
    exact ⟨(if_neg hcross).symm, hout.trans hout'⟩

theorem ReceiveBuffer.read_side {socket : ReceiveBuffer} (h : socket.Placed) (rcv : ReceiveSide)
    (hsize : 0 < socket.rxBufferSize) (hlen : n ≤ socket.rxBufferSize)
    (hap : ∀ r ∈ socket.rxBuffer.regions, Region.Apart ⟨user, n⟩ r) :
    socket.tcpReadRxBuffer mem q user n
      = Tcp.tcpReadRxBuffer (socket.side mem rcv) q mem user n := by
  have hmod := Nat.mod_lt (q - socket.irs - 1).toNat hsize
  have hlength := h.length
  unfold tcpReadRxBuffer Tcp.tcpReadRxBuffer
  simp only [side]
  split
  case isTrue hin =>
    exact (NetBuffer.netBufferRead_area mem hap (by omega)).trans (if_pos hin).symm
  case isFalse hcross =>
    set part := socket.rxBufferSize - (q - socket.irs - 1).toNat % socket.rxBufferSize with hpart
    have hfirst : ∀ r ∈ socket.rxBuffer.regions, Region.Apart ⟨user, part⟩ r :=
      fun r hr => (hap r hr).part le_rfl (by simp only; omega)
    have hsecond : ∀ r ∈ socket.rxBuffer.regions, Region.Apart ⟨user + part, n - part⟩ r :=
      fun r hr => (hap r hr).part (by simp only; omega) (by simp only; omega)
    have harea := NetBuffer.netBufferRead_area mem hfirst
      (s := (q - socket.irs - 1).toNat % socket.rxBufferSize) (by omega)
    have hsame : socket.rxBuffer.area (netBufferRead mem user socket.rxBuffer
        ((q - socket.irs - 1).toNat % socket.rxBufferSize) part).2 = socket.rxBuffer.area mem := by
      apply NetBuffer.area_congr
      rw [harea, FlatBuffer.netBufferRead_of_le _ _ (by rw [NetBuffer.area_length]; omega)]
      exact gather_write_of_apart fun r hr => (hfirst r hr).part le_rfl (by simp)
    rw [NetBuffer.netBufferRead_area _ hsecond (s := 0) (by omega), hsame, harea]
    exact (if_neg hcross).symm

theorem SendBuffer.write_side {socket : SendBuffer} (h : socket.Placed) (snd : SendSide)
    (hsize : 0 < socket.txBufferSize) (hlen : n ≤ socket.txBufferSize)
    (hap : ∀ r ∈ socket.txBuffer.regions, r.Apart ⟨user, n⟩) :
    socket.side (socket.tcpWriteTxBuffer mem q user n) snd
        = Tcp.tcpWriteTxBuffer (socket.side mem snd) q (mem.read user n) n ∧
      SameOutside socket.txBuffer.regions mem (socket.tcpWriteTxBuffer mem q user n) := by
  have hmod := Nat.mod_lt (q - socket.iss - 1).toNat hsize
  have hlength := h.length
  unfold tcpWriteTxBuffer Tcp.tcpWriteTxBuffer
  simp only [side]
  split
  case isTrue hin =>
    obtain ⟨harea, hout⟩ := NetBuffer.netBufferWrite_area mem h.separate hap
      (show _ + n ≤ _ by rwa [hlength])
    rw [harea]
    exact ⟨(if_pos hin).symm, hout⟩
  case isFalse hcross =>
    set part := socket.txBufferSize - (q - socket.iss - 1).toNat % socket.txBufferSize with hpart
    have hfirst : ∀ r ∈ socket.txBuffer.regions, r.Apart ⟨user, part⟩ :=
      fun r hr => ((hap r hr).symm.part le_rfl (by simp only; omega)).symm
    have hsecond : ∀ r ∈ socket.txBuffer.regions, r.Apart ⟨user + part, n - part⟩ :=
      fun r hr => ((hap r hr).symm.part (by simp only; omega) (by simp only; omega)).symm
    obtain ⟨harea, hout⟩ := NetBuffer.netBufferWrite_area mem h.separate hfirst
      (o := (q - socket.iss - 1).toNat % socket.txBufferSize) (by omega)
    generalize (netBufferWrite mem socket.txBuffer _ user part).2 = mem1 at harea hout ⊢
    have hread : mem1.read (user + part) (n - part) = (mem.read user n).drop part := by
      rw [Memory.drop_read _ _ (by omega)]
      exact hout.contents_eq (r := ⟨user + part, n - part⟩) hsecond
    obtain ⟨harea', hout'⟩ := NetBuffer.netBufferWrite_area mem1 h.separate hsecond
      (o := 0) (by omega)
    refine ⟨?_, hout.trans hout'⟩
    rw [harea', harea, hread]
    refine Eq.trans ?_ (if_neg hcross).symm
    simp only [FlatBuffer.netBufferWrite, Memory.take_read_min]
    rw [Nat.min_eq_left (Nat.min_le_left part _),
      Nat.min_eq_left ((Nat.min_le_left part _).trans (show part ≤ n by omega))]

/-- What is appended, if it is. -/
theorem SendBuffer.read_side {socket : SendBuffer} (h : socket.Placed) (snd : SendSide)
    {buffer : NetBuffer} (hsize : 0 < socket.txBufferSize)
    (hok : (socket.tcpReadTxBuffer q buffer n).1 = .noError) :
    Tcp.tcpReadTxBuffer (socket.side mem snd) q (buffer.area mem) n
      = (.noError, (socket.tcpReadTxBuffer q buffer n).2.area mem) := by
  have hmod := Nat.mod_lt (q - socket.iss - 1).toNat hsize
  have hlength := h.length
  unfold tcpReadTxBuffer at hok ⊢
  unfold Tcp.tcpReadTxBuffer
  simp only [side] at hok ⊢
  split at hok
  case isTrue hin =>
    rw [if_pos hin]
    exact (if_pos hin).trans (NetBuffer.netBufferConcat_area mem (by omega) hok)
  case isFalse hcross =>
    rw [if_neg hcross]
    refine (if_neg hcross).trans ?_
    split at hok
    case isTrue hfirst =>
      have hconcat := NetBuffer.netBufferConcat_area mem (by omega) hfirst
      simp only [hconcat, hfirst, if_true]
      exact NetBuffer.netBufferConcat_area mem (by omega) hok
    case isFalse hfirst => exact absurd hok hfirst

theorem ReceiveBuffer.Placed.write {socket : ReceiveBuffer} (h : socket.Placed) {data : NetBuffer}
    {dataOffset : ℕ} (hsize : 0 < socket.rxBufferSize) (hlen : n ≤ socket.rxBufferSize)
    (hap : ApartAll socket.rxBuffer.regions data.regions)
    (hdata : dataOffset + n ≤ netBufferGetLength data) :
    (socket.rxBuffer.area (socket.tcpWriteRxBuffer mem q data dataOffset n)).cells
        = Ring.put socket.rxBufferSize (q - socket.irs - 1).toNat (socket.rxBuffer.area mem).cells
            (((flat mem data).drop dataOffset).take n) ∧
      SameOutside socket.rxBuffer.regions mem
        (socket.tcpWriteRxBuffer mem q data dataOffset n) := by
  obtain ⟨hside, hout⟩ := write_side mem q h .blank hsize hlen hap hdata
  have heq : Tcp.tcpWriteRxBuffer (socket.side mem .blank) q (data.area mem) dataOffset n = _ :=
    tcpWriteRxBuffer_eq hsize (by rw [side, NetBuffer.area_length, h.length]) hlen
      (by rwa [NetBuffer.area_length])
  refine ⟨?_, hout⟩
  rw [← hside, NetBuffer.area_read hdata] at heq
  exact congrArg (fun rcv : ReceiveSide => rcv.rxBuffer.cells) heq

theorem ReceiveBuffer.Placed.read {socket : ReceiveBuffer} (h : socket.Placed)
    (hsize : 0 < socket.rxBufferSize) (hlen : n ≤ socket.rxBufferSize)
    (hap : ∀ r ∈ socket.rxBuffer.regions, Region.Apart ⟨user, n⟩ r) :
    socket.tcpReadRxBuffer mem q user n
      = mem.write user (Ring.get socket.rxBufferSize (q - socket.irs - 1).toNat n
          (socket.rxBuffer.area mem).cells) := by
  rw [read_side mem q h .blank hsize hlen hap]
  exact tcpReadRxBuffer_eq mem user hsize (by rw [side, NetBuffer.area_length, h.length]) hlen

theorem SendBuffer.Placed.write {socket : SendBuffer} (h : socket.Placed)
    (hsize : 0 < socket.txBufferSize) (hlen : n ≤ socket.txBufferSize)
    (hap : ∀ r ∈ socket.txBuffer.regions, r.Apart ⟨user, n⟩) :
    (socket.txBuffer.area (socket.tcpWriteTxBuffer mem q user n)).cells
        = Ring.put socket.txBufferSize (q - socket.iss - 1).toNat (socket.txBuffer.area mem).cells
            (mem.read user n) ∧
      SameOutside socket.txBuffer.regions mem (socket.tcpWriteTxBuffer mem q user n) := by
  obtain ⟨hside, hout⟩ := write_side mem q h .blank hsize hlen hap
  have heq : Tcp.tcpWriteTxBuffer (socket.side mem .blank) q (mem.read user n) n = _ :=
    tcpWriteTxBuffer_eq hsize (by rw [side, NetBuffer.area_length, h.length]) hlen (by simp)
  refine ⟨?_, hout⟩
  rw [← hside, Memory.take_read _ _ le_rfl] at heq
  exact congrArg (fun snd : SendSide => snd.txBuffer.cells) heq

/-- The descriptors that a read of `n` bytes from slot `o` on takes. -/
def descriptors (size o n : ℕ) : ℕ :=
  if o + n ≤ size then blocksReached (o % NET_MEM_POOL_BUFFER_SIZE) n
  else blocksReached (o % NET_MEM_POOL_BUFFER_SIZE) (size - o) + blocksReached 0 (n - (size - o))

/-- A read fails exactly if the descriptors do not suffice. -/
theorem SendBuffer.Placed.read_error {socket : SendBuffer} (h : socket.Placed) (buffer : NetBuffer)
    (hsize : 0 < socket.txBufferSize) (hlen : n ≤ socket.txBufferSize) :
    (socket.tcpReadTxBuffer q buffer n).1
      = if descriptors socket.txBufferSize ((q - socket.iss - 1).toNat % socket.txBufferSize) n
          ≤ buffer.maxChunkCount - buffer.chunkCount then .noError else .failure := by
  have hmod := Nat.mod_lt (q - socket.iss - 1).toNat hsize
  unfold tcpReadTxBuffer descriptors
  simp only
  generalize (q - socket.iss - 1).toNat % socket.txBufferSize = o at hmod ⊢
  by_cases hin : o + n ≤ socket.txBufferSize
  · have hconcat := h.blocks.concat hmod hin buffer
    rw [if_pos hin, if_pos hin]
    split
    case isTrue hfits =>
      rw [if_pos hfits] at hconcat
      exact hconcat.1
    case isFalse hfull =>
      rwa [if_neg hfull] at hconcat
  · have hconcat := h.blocks.concat hmod (k := socket.txBufferSize - o) (by omega) buffer
    rw [if_neg hin, if_neg hin]
    split at hconcat
    case isTrue hfits =>
      obtain ⟨hok, hmax, hcount⟩ := hconcat
      simp only [hok, if_true]
      have hnext := h.blocks.concat hsize
        (k := n - (socket.txBufferSize - o)) (by omega)
        (netBufferConcat buffer socket.txBuffer o (socket.txBufferSize - o)).2
      rw [hmax, hcount, Nat.zero_mod] at hnext
      by_cases hfit : blocksReached 0 (n - (socket.txBufferSize - o))
          ≤ buffer.maxChunkCount
            - (buffer.chunkCount
              + blocksReached (o % NET_MEM_POOL_BUFFER_SIZE) (socket.txBufferSize - o))
      · rw [if_pos hfit] at hnext
        rw [if_pos (by omega)]
        exact hnext.1
      · rw [if_neg hfit] at hnext
        have hpos : 0 < blocksReached 0 (n - (socket.txBufferSize - o)) := by omega
        rw [if_neg (by omega)]
        exact hnext
    case isFalse hfull =>
      simp only [hconcat, reduceCtorEq, if_false]
      rw [if_neg (by omega)]

theorem SendBuffer.Placed.read {socket : SendBuffer} (h : socket.Placed) (buffer : NetBuffer)
    (hsize : 0 < socket.txBufferSize) (hlen : n ≤ socket.txBufferSize)
    (hok : (socket.tcpReadTxBuffer q buffer n).1 = .noError) :
    (flat mem (socket.tcpReadTxBuffer q buffer n).2).drop (flat mem buffer).length
      = Ring.get socket.txBufferSize (q - socket.iss - 1).toNat n
          (socket.txBuffer.area mem).cells := by
  have hside := read_side mem q h .blank hsize hok
  have heq : Tcp.tcpReadTxBuffer (socket.side mem .blank) q (buffer.area mem) n = _ :=
    tcpReadTxBuffer_eq (buffer.area mem) hsize (by rw [side, NetBuffer.area_length, h.length]) hlen
  have hbuffer := (Prod.mk.inj (hside.symm.trans heq)).2
  have hlength : (flat mem buffer).length = (buffer.area mem).length := rfl
  rw [hlength, ← NetBuffer.area_data (socket.tcpReadTxBuffer q buffer n).2 mem, hbuffer,
    FlatBuffer.data, Memory.read_add, List.drop_left' (by simp), Nat.zero_add]
  exact Memory.read_write_of_length _ _ (by simp [side])

/-- Reads of at most one block, and so of one segment's data, never lack descriptors. -/
theorem SendBuffer.Placed.read_block {socket : SendBuffer} (h : socket.Placed) (buffer : NetBuffer)
    (hsize : 0 < socket.txBufferSize) (hlen : n ≤ socket.txBufferSize)
    (hn : n ≤ NET_MEM_POOL_BUFFER_SIZE) (hfree : 3 ≤ buffer.maxChunkCount - buffer.chunkCount) :
    (socket.tcpReadTxBuffer q buffer n).1 = .noError := by
  have hreach : ∀ o k, k ≤ n → blocksReached (o % NET_MEM_POOL_BUFFER_SIZE) k ≤ 2 := by
    intro o k hk
    have hlow := Nat.mod_lt o (show 0 < NET_MEM_POOL_BUFFER_SIZE by decide)
    rw [blocksReached]
    split
    · omega
    · have hdiv := Nat.div_lt_of_lt_mul
        (show o % NET_MEM_POOL_BUFFER_SIZE + k - 1 < NET_MEM_POOL_BUFFER_SIZE * 2 by omega)
      omega
  have hstart : ∀ k, k ≤ n → blocksReached 0 k ≤ 1 := by
    intro k hk
    rw [blocksReached]
    split
    · omega
    · rw [Nat.div_eq_of_lt (by omega)]
  rw [h.read_error q buffer hsize hlen, if_pos]
  rw [descriptors]
  split
  · exact (hreach _ n le_rfl).trans (by omega)
  · have h1 := hreach ((q - socket.iss - 1).toNat % socket.txBufferSize)
      (socket.txBufferSize - (q - socket.iss - 1).toNat % socket.txBufferSize) (by omega)
    have h2 := hstart
      (n - (socket.txBufferSize - (q - socket.iss - 1).toNat % socket.txBufferSize)) (by omega)
    omega

end Area

/-! ## Runs in pieces

First on the slots: `putPieces` and `getPieces` access the slots as the functions do, piece after
piece. -/

section Pieces

variable {size : ℕ} {base q : UInt32}

/-- Store the run `xs` from sequence number `q` on in pieces of the given lengths. -/
def putPieces (size : ℕ) (base : UInt32) (m : Memory UInt8) (q : UInt32) (xs : List UInt8) :
    List ℕ → Memory UInt8
  | [] => m
  | k :: ks =>
      putPieces size base (Ring.put size (q - base - 1).toNat m (xs.take k)) (q + UInt32.ofNat k)
        (xs.drop k) ks

/-- Load the run from sequence number `q` on in pieces of the given lengths. -/
def getPieces (size : ℕ) (base : UInt32) (m : Memory UInt8) (q : UInt32) : List ℕ → List UInt8
  | [] => []
  | k :: ks =>
      Ring.get size (q - base - 1).toNat k m ++ getPieces size base m (q + UInt32.ofNat k) ks

theorem length_getPieces (m : Memory UInt8) (q : UInt32) (ks : List ℕ) :
    (getPieces size base m q ks).length = ks.sum := by
  induction ks generalizing q with
  | nil => rfl
  | cons k ks ih => rw [getPieces, List.length_append, Ring.length_get, ih, List.sum_cons]

theorem putPieces_seq (ks : List ℕ) (m : Memory UInt8) (xs : List UInt8) {o : ℕ}
    (hxs : ks.sum ≤ xs.length) (hal : Aligned size o ks.sum) :
    putPieces size base m (Serial.seq (base + 1) o) xs ks = Ring.put size o m (xs.take ks.sum) := by
  induction ks generalizing m xs o with
  | nil => rfl
  | cons k ks ih =>
      rw [List.sum_cons] at hxs hal
      have htake : (xs.take k).length = k := by rw [List.length_take]; omega
      have hfirst : Aligned size o (xs.take k).length := by
        rw [htake]
        exact hal.mono (by omega)
      rw [putPieces, Serial.seq_add, dist_seq, hfirst.put,
        ih _ _ (by rw [List.length_drop]; omega) hal.drop, List.sum_cons, List.take_add,
        Ring.put_append, htake]

theorem getPieces_seq (ks : List ℕ) (m : Memory UInt8) {o : ℕ} (hal : Aligned size o ks.sum) :
    getPieces size base m (Serial.seq (base + 1) o) ks = Ring.get size o ks.sum m := by
  induction ks generalizing o with
  | nil => rfl
  | cons k ks ih =>
      rw [List.sum_cons] at hal
      rw [getPieces, Serial.seq_add, dist_seq, (hal.mono (by omega)).get, ih hal.drop,
        List.sum_cons, Ring.get_add]

/-- Below the wrap a run is loaded as it was stored. -/
theorem getPieces_putPieces {ws rs : List ℕ} {xs : List UInt8} (m : Memory UInt8)
    (hlen : rs.sum ≤ size) (hws : ws.sum = rs.sum) (hxs : xs.length = rs.sum)
    (hal : Aligned size (q - base - 1).toNat rs.sum) :
    getPieces size base (putPieces size base m q xs ws) q rs = xs := by
  rw [← seq_dist base q, putPieces_seq ws m xs (by omega) (by rwa [hws]),
    getPieces_seq rs _ hal, hws, ← hxs, List.take_length, Ring.get_put xs _ m (by omega)]

/-- Each byte is loaded from one slot, whatever the slots hold. -/
theorem exists_slot (size : ℕ) (base : UInt32) (rs : List ℕ) (q : UInt32) {k : ℕ}
    (hk : k < rs.sum) :
    ∃ c, ∀ m, (getPieces size base m q rs)[k]? = some (m c) := by
  induction rs generalizing q k with
  | nil => simp at hk
  | cons n ns ih =>
      rw [List.sum_cons] at hk
      rcases Nat.lt_or_ge k n with hfirst | hrest
      · refine ⟨((q - base - 1).toNat + k) % size, fun m => ?_⟩
        rw [getPieces, List.getElem?_append_left (by simpa using hfirst),
          List.getElem?_eq_getElem (by simpa using hfirst), Ring.getElem_get]
      · obtain ⟨c, hc⟩ := ih (q + UInt32.ofNat n) (k := k - n) (by omega)
        refine ⟨c, fun m => ?_⟩
        rw [getPieces, List.getElem?_append_right (by simpa using hrest), Ring.length_get, hc]

/-- What is not zero has been stored. -/
theorem put_ne_zero {o c : ℕ} {xs : List UInt8} (hlen : xs.length ≤ size)
    (h : Ring.put size o (fun _ => 0) xs c ≠ 0) :
    ∃ (j : ℕ) (hj : j < xs.length), (o + j) % size = c ∧ xs[j] ≠ 0 := by
  by_contra hcon
  apply h
  by_cases hex : ∃ j, j < xs.length ∧ (o + j) % size = c
  · obtain ⟨j, hj, rfl⟩ := hex
    rw [Ring.put_apply xs o _ hlen hj]
    by_contra hne
    exact hcon ⟨j, hj, rfl, hne⟩
  · rw [Ring.put_of_ne]
    intro j hj hslot
    exact hex ⟨j, hj, hslot⟩

/-- A run whose byte `k` is not zero. -/
def markedRun (k len : ℕ) : List UInt8 := (List.range len).map (fun i => if i = k then 1 else 0)

@[simp] theorem length_markedRun (k len : ℕ) : (markedRun k len).length = len := by
  simp [markedRun]

theorem getElem_markedRun {k len j : ℕ} (hj : j < (markedRun k len).length)
    (h : (markedRun k len)[j] ≠ 0) : j = k := by
  by_contra hne
  apply h
  simp [markedRun, hne]

/-- The distance of the byte at the wrap. -/
theorem dist_wrap {k : ℕ} (hk : (q - base - 1).toNat + k = 2 ^ 32) :
    (q + UInt32.ofNat k - base - 1).toNat = 0 := by
  have h1 := q.toNat_lt
  have h2 := base.toNat_lt
  simp only [UInt32.toNat_sub, UInt32.toNat_add, UInt32.toNat_ofNat', UInt32.toNat_one] at hk ⊢
  omega

/-- Across the wrap some run is not loaded as it was stored: stored in one piece, its byte at the
wrap goes to slot `2 ^ 32 % size`, stored in two, to slot 0. -/
theorem exists_getPieces_ne {rs : List ℕ} (hlen : rs.sum ≤ size) (hdvd : ¬ size ∣ 2 ^ 32)
    (hwrap : 2 ^ 32 < (q - base - 1).toNat + rs.sum) :
    ∃ xs ws, xs.length = rs.sum ∧ ws.sum = rs.sum ∧
      getPieces size base (putPieces size base (fun _ => 0) q xs ws) q rs ≠ xs := by
  obtain ⟨k, hk⟩ := Nat.exists_eq_add_of_le (q - base - 1).toNat_lt.le
  have hklen : k < rs.sum := by omega
  obtain ⟨c, hc⟩ := exists_slot size base rs q hklen
  have hmark : (markedRun k rs.sum)[k]? = some 1 := by simp [markedRun, hklen]
  by_contra hcon
  push Not at hcon
  have hslot : ∀ ws : List ℕ, ws.sum = rs.sum →
      putPieces size base (fun _ => 0) q (markedRun k rs.sum) ws c = 1 := by
    intro ws hws
    have hget := hc (putPieces size base (fun _ => 0) q (markedRun k rs.sum) ws)
    rw [hcon _ ws (length_markedRun k rs.sum) hws, hmark] at hget
    exact (Option.some.inj hget).symm
  have hpast : 2 ^ 32 % size = c := by
    have hone := hslot [rs.sum] (by simp)
    simp only [putPieces, List.take_of_length_le (length_markedRun k rs.sum).le] at hone
    obtain ⟨j, hj, hjc, hne⟩ := put_ne_zero (by simpa using hlen) (hone.trans_ne (by decide))
    rwa [getElem_markedRun hj hne, ← hk] at hjc
  have hfirst : 0 = c := by
    have htwo := hslot [k, rs.sum - k] (by simp; omega)
    have hzero : Ring.put size (q - base - 1).toNat (fun _ => 0) ((markedRun k rs.sum).take k)
        = fun _ => 0 := by
      funext d
      by_contra hne
      obtain ⟨j, hj, -, hnej⟩ := put_ne_zero (by simp; omega) hne
      rw [List.getElem_take] at hnej
      rw [List.length_take] at hj
      have hjk := getElem_markedRun (by omega) hnej
      omega
    simp only [putPieces, hzero, dist_wrap hk.symm] at htwo
    rw [List.take_of_length_le (by simp)] at htwo
    obtain ⟨j, hj, hjc, hne⟩ := put_ne_zero (by simp; omega) (htwo.trans_ne (by decide))
    rw [List.getElem_drop] at hne
    have hjk := getElem_markedRun (by rw [List.length_drop] at hj; omega) hne
    rwa [show j = 0 by omega, Nat.zero_mod] at hjc
  exact hdvd (Nat.dvd_of_mod_eq_zero (hpast.trans hfirst.symm))

end Pieces

/-! Now on the chunks. -/

/-- Write the bytes of `data` from `dataOffset` on, in pieces of the given lengths. -/
def ReceiveBuffer.writeRxPieces (socket : ReceiveBuffer) (mem : Memory UInt8) (q : UInt32)
    (data : NetBuffer) (dataOffset : ℕ) : List ℕ → Memory UInt8
  | [] => mem
  | k :: ks =>
      writeRxPieces socket (socket.tcpWriteRxBuffer mem q data dataOffset k) (q + UInt32.ofNat k)
        data (dataOffset + k) ks

/-- Read into the user's array at `data`, in pieces of the given lengths. -/
def ReceiveBuffer.readRxPieces (socket : ReceiveBuffer) (mem : Memory UInt8) (q : UInt32)
    (data : ℕ) : List ℕ → Memory UInt8
  | [] => mem
  | k :: ks =>
      readRxPieces socket (socket.tcpReadRxBuffer mem q data k) (q + UInt32.ofNat k) (data + k) ks

/-- Write the user's data at `data`, in pieces of the given lengths. -/
def SendBuffer.writeTxPieces (socket : SendBuffer) (mem : Memory UInt8) (q : UInt32) (data : ℕ) :
    List ℕ → Memory UInt8
  | [] => mem
  | k :: ks =>
      writeTxPieces socket (socket.tcpWriteTxBuffer mem q data k) (q + UInt32.ofNat k) (data + k) ks

/-- Read in pieces of the given lengths, each of them into a segment that begins as `buffer`: the
bytes the segments have behind those of `buffer`. -/
def SendBuffer.readTxPieces (socket : SendBuffer) (mem : Memory UInt8) (q : UInt32)
    (buffer : NetBuffer) : List ℕ → ErrorCode × List UInt8
  | [] => (.noError, [])
  | k :: ks =>
      match socket.tcpReadTxBuffer q buffer k with
      | (.noError, segment) =>
          let (error, data) := readTxPieces socket mem (q + UInt32.ofNat k) buffer ks
          (error, (flat mem segment).drop (flat mem buffer).length ++ data)
      | (error, _) => (error, [])

/-- No piece takes more than `free` descriptors. -/
def PiecesFit (size : ℕ) (base : UInt32) (free : ℕ) (q : UInt32) : List ℕ → Prop
  | [] => True
  | k :: ks =>
      descriptors size ((q - base - 1).toNat % size) k ≤ free ∧
        PiecesFit size base free (q + UInt32.ofNat k) ks

theorem ReceiveBuffer.writeRxPieces_spec {socket : ReceiveBuffer} (h : socket.Placed) (ks : List ℕ)
    (mem : Memory UInt8) (q : UInt32) (data : NetBuffer) (o : ℕ) (hsize : 0 < socket.rxBufferSize)
    (hlen : ks.sum ≤ socket.rxBufferSize) (hap : ApartAll socket.rxBuffer.regions data.regions)
    (hdata : o + ks.sum ≤ netBufferGetLength data) :
    (socket.rxBuffer.area (socket.writeRxPieces mem q data o ks)).cells
        = putPieces socket.rxBufferSize socket.irs (socket.rxBuffer.area mem).cells q
            (((flat mem data).drop o).take ks.sum) ks ∧
      SameOutside socket.rxBuffer.regions mem (socket.writeRxPieces mem q data o ks) := by
  induction ks generalizing mem q o with
  | nil => exact ⟨rfl, .refl _ _⟩
  | cons k ks ih =>
      rw [List.sum_cons] at hlen hdata
      obtain ⟨hcells, hout⟩ := h.write mem q hsize (show k ≤ _ by omega) hap
        (show o + k ≤ _ by omega)
      obtain ⟨hrest, hout'⟩ := ih (socket.tcpWriteRxBuffer mem q data o k) (q + UInt32.ofNat k)
        (o + k) (by omega) (by omega)
      have hsame : flat (socket.tcpWriteRxBuffer mem q data o k) data = flat mem data :=
        hout.gather_eq hap
      refine ⟨?_, hout.trans hout'⟩
      rw [writeRxPieces, hrest, hcells, hsame, putPieces, List.sum_cons, List.take_take,
        Nat.min_eq_left (by omega), List.drop_take, List.drop_drop, Nat.add_sub_cancel_left]

theorem ReceiveBuffer.readRxPieces_spec {socket : ReceiveBuffer} (h : socket.Placed) (ks : List ℕ)
    (mem : Memory UInt8) (q : UInt32) (data : ℕ) (hsize : 0 < socket.rxBufferSize)
    (hlen : ks.sum ≤ socket.rxBufferSize)
    (hap : ∀ r ∈ socket.rxBuffer.regions, Region.Apart ⟨data, ks.sum⟩ r) :
    socket.readRxPieces mem q data ks
      = mem.write data (getPieces socket.rxBufferSize socket.irs (socket.rxBuffer.area mem).cells q
          ks) := by
  induction ks generalizing mem q data with
  | nil => rw [readRxPieces, getPieces, Memory.write_nil]
  | cons k ks ih =>
      rw [List.sum_cons] at hlen hap
      have hfirst : ∀ r ∈ socket.rxBuffer.regions, Region.Apart ⟨data, k⟩ r :=
        fun r hr => (hap r hr).part le_rfl (by simp only; omega)
      have hread := h.read mem q hsize (show k ≤ _ by omega) hfirst
      have hsame : socket.rxBuffer.area (socket.tcpReadRxBuffer mem q data k)
          = socket.rxBuffer.area mem := by
        apply NetBuffer.area_congr
        rw [hread]
        exact gather_write_of_apart fun r hr => (hfirst r hr).part le_rfl (by simp)
      rw [readRxPieces, ih _ _ _ (by omega)
        fun r hr => (hap r hr).part (by simp only; omega) (by simp only; omega), hsame, hread,
        getPieces, ← Memory.write_write_append, Ring.length_get]

theorem SendBuffer.writeTxPieces_spec {socket : SendBuffer} (h : socket.Placed) (ks : List ℕ)
    (mem : Memory UInt8) (q : UInt32) (data : ℕ) (hsize : 0 < socket.txBufferSize)
    (hlen : ks.sum ≤ socket.txBufferSize)
    (hap : ∀ r ∈ socket.txBuffer.regions, r.Apart ⟨data, ks.sum⟩) :
    (socket.txBuffer.area (socket.writeTxPieces mem q data ks)).cells
        = putPieces socket.txBufferSize socket.iss (socket.txBuffer.area mem).cells q
            (mem.read data ks.sum) ks ∧
      SameOutside socket.txBuffer.regions mem (socket.writeTxPieces mem q data ks) := by
  induction ks generalizing mem q data with
  | nil => exact ⟨rfl, .refl _ _⟩
  | cons k ks ih =>
      rw [List.sum_cons] at hlen hap
      have hfirst : ∀ r ∈ socket.txBuffer.regions, r.Apart ⟨data, k⟩ :=
        fun r hr => ((hap r hr).symm.part le_rfl (by simp only; omega)).symm
      have hnext : ∀ r ∈ socket.txBuffer.regions, r.Apart ⟨data + k, ks.sum⟩ :=
        fun r hr => ((hap r hr).symm.part (by simp only; omega) (by simp only; omega)).symm
      obtain ⟨hcells, hout⟩ := h.write mem q hsize (show k ≤ _ by omega) hfirst
      obtain ⟨hrest, hout'⟩ := ih (socket.tcpWriteTxBuffer mem q data k) (q + UInt32.ofNat k)
        (data + k) (by omega) hnext
      have hread : (socket.tcpWriteTxBuffer mem q data k).read (data + k) ks.sum
          = mem.read (data + k) ks.sum :=
        hout.contents_eq (r := ⟨data + k, ks.sum⟩) hnext
      refine ⟨?_, hout.trans hout'⟩
      rw [writeTxPieces, hrest, hcells, hread, putPieces, List.sum_cons, Memory.read_add,
        List.take_left' (by simp), List.drop_left' (by simp)]

/-- All pieces are read exactly if they fit. -/
theorem SendBuffer.readTxPieces_spec {socket : SendBuffer} (h : socket.Placed) (ks : List ℕ)
    (mem : Memory UInt8) (q : UInt32) (buffer : NetBuffer) (hsize : 0 < socket.txBufferSize)
    (hlen : ks.sum ≤ socket.txBufferSize) :
    ((socket.readTxPieces mem q buffer ks).1 = .noError ↔
        PiecesFit socket.txBufferSize socket.iss (buffer.maxChunkCount - buffer.chunkCount) q ks) ∧
      ((socket.readTxPieces mem q buffer ks).1 = .noError →
        (socket.readTxPieces mem q buffer ks).2
          = getPieces socket.txBufferSize socket.iss (socket.txBuffer.area mem).cells q ks) := by
  induction ks generalizing q with
  | nil => exact ⟨⟨fun _ => trivial, fun _ => rfl⟩, fun _ => rfl⟩
  | cons k ks ih =>
      rw [List.sum_cons] at hlen
      have herror := h.read_error q buffer hsize (show k ≤ _ by omega)
      have hdata := h.read mem q buffer hsize (show k ≤ _ by omega)
      obtain ⟨hfits, hrest⟩ := ih (q + UInt32.ofNat k) (by omega)
      rw [PiecesFit, readTxPieces, getPieces]
      generalize socket.tcpReadTxBuffer q buffer k = r at herror hdata ⊢
      obtain ⟨error, segment⟩ := r
      simp only at herror hdata
      split at herror
      case isTrue hfit =>
        subst herror
        have hpiece := hdata rfl
        simp only [hpiece]
        exact ⟨⟨fun hok => ⟨hfit, hfits.1 hok⟩, fun hok => hfits.2 hok.2⟩,
          fun hok => by rw [← hrest hok]⟩
      case isFalse hfull =>
        subst herror
        exact ⟨⟨fun hok => absurd hok (by simp), fun hok => absurd hok.1 hfull⟩,
          fun hok => absurd hok (by simp)⟩

/-! ## Position consistency -/

/-- Wherever the receive buffer, the incoming data and the user's array are and whatever they hold:
a run of bytes from sequence number `q` on that is written in some pieces is read back in the pieces
`rs`. -/
def RxConsistent (size : ℕ) (irs q : UInt32) (rs : List ℕ) : Prop :=
  ∀ (mem : Memory UInt8) (socket : ReceiveBuffer) (data : NetBuffer) (dataOffset user : ℕ)
    (ws : List ℕ),
    socket.irs = irs → socket.rxBufferSize = size → socket.Placed →
    ApartAll socket.rxBuffer.regions data.regions →
    (∀ r ∈ socket.rxBuffer.regions, Region.Apart ⟨user, rs.sum⟩ r) →
    dataOffset + rs.sum ≤ netBufferGetLength data → ws.sum = rs.sum →
    (socket.readRxPieces (socket.writeRxPieces mem q data dataOffset ws) q user rs).read user rs.sum
      = ((flat mem data).drop dataOffset).take rs.sum

/-- The same of the send buffer, read into segments with `free` free descriptors. -/
def TxConsistent (size : ℕ) (iss q : UInt32) (free : ℕ) (rs : List ℕ) : Prop :=
  ∀ (mem : Memory UInt8) (socket : SendBuffer) (data : ℕ) (buffer : NetBuffer) (ws : List ℕ),
    socket.iss = iss → socket.txBufferSize = size → socket.Placed →
    (∀ r ∈ socket.txBuffer.regions, r.Apart ⟨data, rs.sum⟩) →
    buffer.maxChunkCount - buffer.chunkCount = free → ws.sum = rs.sum →
    socket.readTxPieces (socket.writeTxPieces mem q data ws) q buffer rs
      = (.noError, mem.read data rs.sum)

section Consistency

variable {size : ℕ} {irs iss q : UInt32} {rs ws : List ℕ} {mem : Memory UInt8}

/-- What is read back of the receive buffer, in terms of slots. -/
theorem ReceiveBuffer.read_written {socket : ReceiveBuffer} (h : socket.Placed) {data : NetBuffer}
    {o user : ℕ} (hsize : 0 < socket.rxBufferSize) (hlen : rs.sum ≤ socket.rxBufferSize)
    (hap : ApartAll socket.rxBuffer.regions data.regions)
    (huser : ∀ r ∈ socket.rxBuffer.regions, Region.Apart ⟨user, rs.sum⟩ r)
    (hdata : o + rs.sum ≤ netBufferGetLength data) (hws : ws.sum = rs.sum) :
    (socket.readRxPieces (socket.writeRxPieces mem q data o ws) q user rs).read user rs.sum
      = getPieces socket.rxBufferSize socket.irs (putPieces socket.rxBufferSize socket.irs
          (socket.rxBuffer.area mem).cells q (((flat mem data).drop o).take rs.sum) ws) q rs := by
  obtain ⟨hcells, -⟩ := writeRxPieces_spec h ws mem q data o hsize (by omega) hap (by omega)
  rw [readRxPieces_spec h rs _ q user hsize hlen huser, hcells, hws,
    Memory.read_write_of_length _ _ (length_getPieces _ _ _)]

/-- What is read back of the send buffer, if it can be read. -/
theorem SendBuffer.read_written {socket : SendBuffer} (h : socket.Placed) {data : ℕ}
    (buffer : NetBuffer) (hsize : 0 < socket.txBufferSize) (hlen : rs.sum ≤ socket.txBufferSize)
    (hap : ∀ r ∈ socket.txBuffer.regions, r.Apart ⟨data, rs.sum⟩) (hws : ws.sum = rs.sum)
    (hok : (socket.readTxPieces (socket.writeTxPieces mem q data ws) q buffer rs).1 = .noError) :
    (socket.readTxPieces (socket.writeTxPieces mem q data ws) q buffer rs).2
      = getPieces socket.txBufferSize socket.iss (putPieces socket.txBufferSize socket.iss
          (socket.txBuffer.area mem).cells q (mem.read data rs.sum) ws) q rs := by
  obtain ⟨hcells, -⟩ := writeTxPieces_spec h ws mem q data hsize (by omega) (by rwa [hws])
  rw [(readTxPieces_spec h rs _ q buffer hsize hlen).2 hok, hcells, hws]

/-- There are blocks for `n` bytes at any address. -/
theorem exists_blocks (n a : ℕ) :
    ∃ cs, InBlocks cs n ∧ Separate (chunkRegions cs) ∧
      (∀ r ∈ chunkRegions cs, a ≤ r.start ∧ r.start + r.len ≤ a + n) ∧
      ∀ mem : Memory UInt8, chunkData mem cs = mem.read a n := by
  induction n using Nat.strong_induction_on generalizing a with
  | _ n ih =>
      rcases Nat.eq_zero_or_pos n with rfl | hpos
      · exact ⟨[], rfl, .nil, by simp, fun mem => rfl⟩
      · have hblock : NET_MEM_POOL_BUFFER_SIZE = 1536 := rfl
        obtain ⟨cs, hcs, hsep, hin, hdata⟩ := ih (n - NET_MEM_POOL_BUFFER_SIZE) (by omega)
          (a + NET_MEM_POOL_BUFFER_SIZE)
        have hlength : (UInt16.ofNat (min n NET_MEM_POOL_BUFFER_SIZE)).toNat
            = min n NET_MEM_POOL_BUFFER_SIZE := by
          rw [UInt16.toNat_ofNat', Nat.mod_eq_of_lt (by omega)]
        let c : ChunkDesc :=
          { address := a, length := UInt16.ofNat (min n NET_MEM_POOL_BUFFER_SIZE), size := 0 }
        have hregion : c.region = ⟨a, min n NET_MEM_POOL_BUFFER_SIZE⟩ := by
          simp only [ChunkDesc.region, c, hlength]
        refine ⟨c :: cs, ⟨hpos, hlength, hcs⟩, List.pairwise_cons.2 ⟨?_, hsep⟩, ?_, fun mem => ?_⟩
        · intro r hr x hx hx'
          obtain ⟨hstart, -⟩ := hin r hr
          rw [hregion] at hx
          obtain ⟨-, hlow⟩ := hx
          obtain ⟨hhigh, -⟩ := hx'
          simp only at hlow
          omega
        · intro r hr
          rcases List.mem_cons.1 hr with rfl | hr
          · rw [hregion]
            simp only
            omega
          · obtain ⟨hstart, hend⟩ := hin r hr
            rcases Nat.le_total n NET_MEM_POOL_BUFFER_SIZE with hlast | hmore
            · rw [Nat.sub_eq_zero_of_le hlast] at hcs
              rw [hcs.nil] at hr
              exact absurd hr (by simp)
            · omega
        · rw [chunkData_cons, hlength, hdata]
          rcases Nat.le_total n NET_MEM_POOL_BUFFER_SIZE with hlast | hmore
          · rw [Nat.min_eq_left hlast, Nat.sub_eq_zero_of_le hlast, Memory.read_zero,
              List.append_nil]
          · rw [Nat.min_eq_right hmore, ← Memory.read_add, Nat.add_sub_of_le hmore]

/-- A buffer whose addresses hold zeros. -/
theorem area_zero {buffer : NetBuffer} {a n : ℕ} {xs : List UInt8}
    (hdata : ∀ mem : Memory UInt8, chunkData mem buffer.chunk = mem.read a n) {p : ℕ}
    (hp : a + n ≤ p) : (buffer.area (Memory.write (fun _ => 0) p xs)).cells = fun _ => 0 := by
  funext i
  simp only [NetBuffer.area, flat, hdata, Memory.read_write_of_le _ _ hp]
  rw [List.getD_eq_getElem?_getD]
  simp only [Memory.read, List.getElem?_map]
  cases (List.range n)[i]? <;> rfl

theorem rxConsistent_iff (hsize : 0 < size) (hlen : rs.sum ≤ size) :
    RxConsistent size irs q rs ↔ size ∣ 2 ^ 32 ∨ (q - irs - 1).toNat + rs.sum ≤ 2 ^ 32 := by
  rw [← aligned_iff (q - irs - 1).toNat_lt]
  constructor
  · intro h
    by_contra hcon
    rw [aligned_iff (q - irs - 1).toNat_lt, not_or, not_le] at hcon
    obtain ⟨xs, ws, hxs, hws, hne⟩ := exists_getPieces_ne hlen hcon.1 hcon.2
    obtain ⟨cs, hcs, hsep, hin, hzero⟩ := exists_blocks size 0
    obtain ⟨ds, hds, -, hin', hdata⟩ := exists_blocks rs.sum size
    have hplaced : ReceiveBuffer.Placed
        { irs := irs, rxBufferSize := size, rxBuffer := { chunk := cs, maxChunkCount := 0 } } :=
      ⟨hsep, by rw [netBufferGetLength_eq fun _ => 0, flat, hcs.length]⟩
    have hap : ApartAll (chunkRegions cs) (chunkRegions ds) := by
      intro r hr r' hr' x hx hx'
      have h1 := hin r hr
      have h2 := hin' r' hr'
      obtain ⟨-, hlow⟩ := hx
      obtain ⟨hhigh, -⟩ := hx'
      omega
    have huser : ∀ r ∈ chunkRegions cs, Region.Apart ⟨size + rs.sum, rs.sum⟩ r := by
      intro r hr x hx hx'
      have h1 := hin r hr
      obtain ⟨hhigh, -⟩ := hx
      obtain ⟨-, hlow⟩ := hx'
      simp only at hhigh
      omega
    have hlength : 0 + rs.sum ≤ netBufferGetLength { chunk := ds, maxChunkCount := 0 } := by
      rw [netBufferGetLength_eq fun _ => 0, flat, hds.length, Nat.zero_add]
    have hrun := h (Memory.write (fun _ => 0) size xs) _ { chunk := ds, maxChunkCount := 0 } 0
      (size + rs.sum) ws rfl rfl hplaced hap huser hlength hws
    rw [ReceiveBuffer.read_written hplaced hsize hlen hap huser hlength hws,
      area_zero hzero (by omega), List.drop_zero, flat, hdata, Memory.read_write_of_length _ _ hxs,
      ← hxs, List.take_length] at hrun
    exact hne hrun
  · rintro hal mem socket data o user ws rfl rfl hplaced hap huser hdata hws
    have hlength : (((flat mem data).drop o).take rs.sum).length = rs.sum := by
      rw [List.length_take, List.length_drop, ← netBufferGetLength_eq mem]
      omega
    rw [ReceiveBuffer.read_written hplaced hsize hlen hap huser hdata hws,
      getPieces_putPieces _ hlen hws hlength hal]

theorem txConsistent_iff (hsize : 0 < size) (hlen : rs.sum ≤ size) (free : ℕ) :
    TxConsistent size iss q free rs ↔
      (size ∣ 2 ^ 32 ∨ (q - iss - 1).toNat + rs.sum ≤ 2 ^ 32) ∧ PiecesFit size iss free q rs := by
  rw [← aligned_iff (q - iss - 1).toNat_lt]
  constructor
  · intro h
    obtain ⟨cs, hcs, hsep, hin, hzero⟩ := exists_blocks size 0
    have hplaced : SendBuffer.Placed
        { iss := iss, txBufferSize := size, txBuffer := { chunk := cs, maxChunkCount := 0 } } :=
      ⟨hsep, hcs⟩
    have hap : ∀ r ∈ chunkRegions cs, r.Apart ⟨size, rs.sum⟩ := by
      intro r hr x hx hx'
      have h1 := hin r hr
      obtain ⟨-, hlow⟩ := hx
      obtain ⟨hhigh, -⟩ := hx'
      simp only at hhigh
      omega
    have hrun : ∀ (xs : List UInt8) (ws : List ℕ), ws.sum = rs.sum → _ := fun xs ws hws =>
      h (Memory.write (fun _ => 0) size xs) _ size { chunk := [], maxChunkCount := free } ws rfl rfl
        hplaced hap rfl hws
    have hfits := (SendBuffer.readTxPieces_spec hplaced rs _ q _ hsize hlen).1.1
      (congrArg Prod.fst (hrun [] rs rfl))
    refine ⟨?_, hfits⟩
    by_contra hcon
    rw [aligned_iff (q - iss - 1).toNat_lt, not_or, not_le] at hcon
    obtain ⟨xs, ws, hxs, hws, hne⟩ := exists_getPieces_ne hlen hcon.1 hcon.2
    have hdata := congrArg Prod.snd (hrun xs ws hws)
    rw [SendBuffer.read_written hplaced _ hsize hlen hap hws (congrArg Prod.fst (hrun xs ws hws)),
      area_zero hzero (by omega), Memory.read_write_of_length _ _ hxs] at hdata
    exact hne hdata
  · rintro ⟨hal, hfits⟩ mem socket data buffer ws rfl rfl hplaced hap rfl hws
    have hok := (SendBuffer.readTxPieces_spec hplaced rs (socket.writeTxPieces mem q data ws) q
      buffer hsize hlen).1.2 hfits
    refine Prod.ext hok ?_
    rw [SendBuffer.read_written hplaced buffer hsize hlen hap hws hok,
      getPieces_putPieces _ hlen hws (by simp) hal]

end Consistency

/-- **The circular buffers are position-consistent up to the wrap**, as far as the descriptors of
the segments reach. A run of at most `size` bytes is read back in the pieces `rs` as it was written,
however that was split, exactly if the distance of the run from the initial sequence number does not
wrap or the buffer size divides `2 ^ 32` and, in the case of the send buffer, no piece takes more
descriptors than a segment has free. -/
theorem circularBuffers_consistent_iff {size : ℕ} {rs : List ℕ} (hsize : 0 < size)
    (hlen : rs.sum ≤ size) (irs iss q : UInt32) (free : ℕ) :
    (RxConsistent size irs q rs ↔ size ∣ 2 ^ 32 ∨ (q - irs - 1).toNat + rs.sum ≤ 2 ^ 32) ∧
      (TxConsistent size iss q free rs ↔
        (size ∣ 2 ^ 32 ∨ (q - iss - 1).toNat + rs.sum ≤ 2 ^ 32) ∧ PiecesFit size iss free q rs) :=
  ⟨rxConsistent_iff hsize hlen, txConsistent_iff hsize hlen free⟩

/-- The default buffer size and a run of the connection's first bytes, read back in two pieces. -/
theorem circularBuffers_consistent_iff_default :
    (RxConsistent 2860 7 8 [1000, 430] ↔
        2860 ∣ 2 ^ 32 ∨ (8 - 7 - 1 : UInt32).toNat + [1000, 430].sum ≤ 2 ^ 32) ∧
      (TxConsistent 2860 7 8 8 [1000, 430] ↔
        (2860 ∣ 2 ^ 32 ∨ (8 - 7 - 1 : UInt32).toNat + [1000, 430].sum ≤ 2 ^ 32) ∧
          PiecesFit 2860 7 8 8 [1000, 430]) :=
  circularBuffers_consistent_iff (by decide) (by decide) 7 7 8 8

/-- With the default buffer size the two bytes around the wrap are not read back one by one. And the
first 12289 bytes of a connection are not read into one segment: they are in nine blocks. -/
theorem wrap_not_consistent :
    ¬ RxConsistent 2860 0 0 [1, 1] ∧ ¬ TxConsistent 2860 0 0 8 [1, 1] ∧
      ¬ TxConsistent 22880 0 1 8 [12289] := by
  refine ⟨?_, ?_, ?_⟩
  · rw [rxConsistent_iff (by decide) (by decide)]
    decide
  · rw [txConsistent_iff (by decide) (by decide), not_and_or]
    exact .inl (by decide)
  · rw [txConsistent_iff (by decide) (by decide), not_and_or]
    exact .inr fun hfits => absurd hfits.1 (by decide)

end Tcp
