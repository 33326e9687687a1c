import CycloneTcp.Core.NetMem
import CycloneTcp.Ip.Entry

/-! # Fragmentation

The loop that splits a payload is the same for both versions of the protocol but for the packet it
sends. It never copies the payload: the chunks of a fragment point into the chunks of the payload.
The error of `netBufferConcat` is not looked at, so it matters that a fragment has as many chunk
descriptors as the piece of the payload has chunks. -/

set_option autoImplicit false

namespace Ip

/-- `MAX_CHUNK_COUNT`: `N(8192) + 3`. -/
def MAX_CHUNK_COUNT : ℕ := (8192 + NET_MEM_POOL_BUFFER_SIZE - 1) / NET_MEM_POOL_BUFFER_SIZE + 3

/-- `sizeof(Ipv6Header) + sizeof(Ipv6FragmentHeader)`: the room `ipAllocBuffer` leaves for headers.
-/
def maxHeaderLen : ℕ := 48

/-- `ipAllocBuffer(0, &offset)`: a buffer with room for the headers, and the offset behind it.
`linkHeaderLen` is the room that the link layer asks for. -/
def ipAllocBuffer (address : ℕ) (linkHeaderLen : UInt8) : NetBuffer × ℕ :=
  ({ chunk := [⟨address, linkHeaderLen.toUInt16 + UInt16.ofNat maxHeaderLen, 0⟩]
     maxChunkCount := MAX_CHUNK_COUNT },
   linkHeaderLen.toNat + maxHeaderLen)

theorem length_flat_ipAllocBuffer (mem : Memory UInt8) (address : ℕ) (linkHeaderLen : UInt8) :
    (flat mem (ipAllocBuffer address linkHeaderLen).1).length
      = linkHeaderLen.toNat + maxHeaderLen := by
  have hlt := linkHeaderLen.toNat_lt
  have hlen : (linkHeaderLen.toUInt16 + UInt16.ofNat maxHeaderLen).toNat
      = linkHeaderLen.toNat + maxHeaderLen := by
    rw [UInt16.toNat_add, UInt8.toNat_toUInt16]
    show (_ + 48) % 2 ^ 16 = _ + 48
    omega
  rw [flat, ipAllocBuffer, chunkData_cons, List.length_append, Memory.length_read, hlen]
  rfl

variable {P : Type*}

/-- The loop over the fragments, from an offset on: the packets that are sent, and the status. Every
turn begins with the empty buffer `fragment`. There is no result if the fuel does not last. -/
def fragmentLoop (sendPacket : ℕ → Bool → NetBuffer → Except ErrorCode P)
    (fragment payload : NetBuffer) (payloadOffset payloadLen maxFragmentSize : ℕ) :
    ℕ → ℕ → Option (List P × Except ErrorCode Unit)
  | fuel, offset =>
      if offset < payloadLen then
        match fuel with
        | 0 => none
        | fuel + 1 =>
            let last := decide (payloadLen - offset ≤ maxFragmentSize)
            let length := if last = true then payloadLen - offset else maxFragmentSize
            let (_, buffer) := netBufferConcat fragment payload (payloadOffset + offset) length
            match sendPacket offset (!last) buffer with
            | .error error => some ([], .error error)
            | .ok packet =>
                (fragmentLoop sendPacket fragment payload payloadOffset payloadLen maxFragmentSize
                  fuel (offset + length)).map fun (packets, error) => (packet :: packets, error)
      else some ([], .ok ())

/-! ## Pieces of the payload -/

section Pieces

variable (fragment payload : NetBuffer) (payloadOffset : ℕ) (d : Split)

/-- The fragment buffer of block `i`. -/
def pieceBuffer (i : ℕ) : NetBuffer :=
  (netBufferConcat fragment payload (payloadOffset + i * d.size)
    (min d.size (d.len - i * d.size))).2

/-- The fragment buffer has enough descriptors for every piece of the payload. -/
def Covers : Prop :=
  ∀ i, d.Has i → (netBufferConcat fragment payload (payloadOffset + i * d.size)
    (min d.size (d.len - i * d.size))).1 = .noError

variable {fragment payload payloadOffset d}

/-- What is behind the headers in the fragment buffer. -/
theorem Covers.flat_pieceBuffer (h : Covers fragment payload payloadOffset d) {mem : Memory UInt8}
    (hpayload : d.payload = (flat mem payload).drop payloadOffset) {i : ℕ} (hi : d.Has i) :
    flat mem (pieceBuffer fragment payload payloadOffset d i)
      = flat mem fragment ++ (d.fragment i).data := by
  have hlen : (d.payload.drop (i * d.size)).length = d.len - i * d.size := List.length_drop
  rw [pieceBuffer, (netBufferConcat_flat (h i hi)).2, Split.fragment]
  congr 1
  rw [hpayload, List.drop_drop] at hlen ⊢
  rcases Nat.le_total d.size (d.len - i * d.size) with hle | hle
  · rw [Nat.min_eq_left hle]
  · rw [Nat.min_eq_right hle, ← hlen, List.take_length, List.take_of_length_le (by omega)]

/-- With a free descriptor for every chunk, all of a piece is added. -/
theorem concatChunks_enough (mem : Memory UInt8) (cs : List ChunkDesc) {o length free : ℕ}
    (hfree : cs.length ≤ free) (hle : o + length ≤ (chunkData mem cs).length)
    (ho : ∀ c ∈ cs.head?, o ≤ c.length.toNat) : (concatChunks cs o length free).2 = 0 := by
  induction cs generalizing o length free with
  | nil =>
      have : length = 0 := by
        simp only [chunkData_nil, List.length_nil] at hle
        omega
      simp [concatChunks, this]
  | cons c cs ih =>
      have ho' : o ≤ c.length.toNat := ho c rfl
      rw [length_chunkData_cons] at hle
      rw [List.length_cons] at hfree
      rw [concatChunks]
      by_cases hend : length = 0 ∨ free = 0
      · rw [if_pos hend]
        show length = 0
        omega
      · rw [if_neg hend]
        exact ih (by omega) (by omega) fun _ _ => Nat.zero_le _

/-- It is enough that the payload has no more chunks than the fragment has free descriptors. -/
theorem covers_of_chunkCount (mem : Memory UInt8)
    (hcount : payload.chunkCount ≤ fragment.maxChunkCount - fragment.chunkCount)
    (hpayload : d.payload = (flat mem payload).drop payloadOffset) :
    Covers fragment payload payloadOffset d := by
  intro i hi
  have hlt : i * d.size < d.len := hi
  have hlen : d.len = (flat mem payload).length - payloadOffset := by
    rw [Split.len, hpayload, List.length_drop]
  obtain ⟨pre, hcs, hoff, hhead⟩ := skipChunks_spec mem payload.chunk (payloadOffset + i * d.size)
  have hdrop := congrArg List.length
    (drop_skipChunks mem payload.chunk (payloadOffset + i * d.size))
  rw [List.length_drop, List.length_drop] at hdrop
  have hflat : (chunkData mem payload.chunk).length = (flat mem payload).length := rfl
  have hcount' := congrArg List.length hcs
  rw [List.length_append] at hcount'
  unfold netBufferConcat
  generalize skipChunks payload.chunk (payloadOffset + i * d.size) = skipped at *
  obtain ⟨cs, o⟩ := skipped
  dsimp only at hcount' hhead hdrop
  cases cs with
  | nil =>
      simp only [chunkData_nil, List.length_nil] at hdrop
      omega
  | cons c cs =>
      have hfree : (c :: cs).length ≤ fragment.maxChunkCount - fragment.chunkCount := by
        unfold NetBuffer.chunkCount at *
        omega
      have hroom : o + min d.size (d.len - i * d.size) ≤ (chunkData mem (c :: cs)).length := by
        have := hhead c rfl
        have := length_chunkData_cons mem c cs
        omega
      have hzero := concatChunks_enough mem (c :: cs) hfree hroom fun x hx => (hhead x hx).le
      simp only [hzero, Nat.lt_irrefl, if_false]

end Pieces

/-! ## The loop -/

variable (sendPacket : ℕ → Bool → NetBuffer → Except ErrorCode P) (fragment payload : NetBuffer)
  (payloadOffset : ℕ) (d : Split)

/-- The packets carry the blocks from `i` on, all of them if there is no error. -/
theorem fragmentLoop_spec (fuel i : ℕ) (hfuel : d.len ≤ fuel + i * d.size) :
    ∃ packets error, fragmentLoop sendPacket fragment payload payloadOffset d.len d.size fuel
        (i * d.size) = some (packets, error) ∧
      (∀ j packet, packets[j]? = some packet → d.Has (i + j) ∧
        sendPacket ((i + j) * d.size) (d.fragment (i + j)).more
          (pieceBuffer fragment payload payloadOffset d (i + j)) = .ok packet) ∧
      (error = .ok () → ∀ j, d.Has (i + j) → j < packets.length) := by
  induction fuel generalizing i with
  | zero =>
      refine ⟨[], .ok (), ?_, fun j packet h => by simp at h, fun _ j hj => ?_⟩
      · rw [fragmentLoop, if_neg (by omega)]
      · have hlt : (i + j) * d.size < d.len := hj
        rw [Nat.add_mul] at hlt
        omega
  | succ fuel ih =>
      rw [fragmentLoop]
      by_cases hi : i * d.size < d.len
      case neg =>
        rw [if_neg hi]
        refine ⟨[], .ok (), rfl, fun j packet h => by simp at h, fun _ j hj => ?_⟩
        have hlt : (i + j) * d.size < d.len := hj
        rw [Nat.add_mul] at hlt
        omega
      case pos =>
        have hmore : (!decide (d.len - i * d.size ≤ d.size)) = (d.fragment i).more := by
          rw [Split.fragment, ← decide_not]
          apply decide_eq_decide.2
          rw [Nat.add_mul, Nat.one_mul]
          omega
        have hlength : (if decide (d.len - i * d.size ≤ d.size) = true then d.len - i * d.size
            else d.size) = min d.size (d.len - i * d.size) := by
          simp only [decide_eq_true_eq]
          split <;> omega
        rw [if_pos hi]
        dsimp only
        rw [hmore, hlength]
        have hbuffer : (netBufferConcat fragment payload (payloadOffset + i * d.size)
            (min d.size (d.len - i * d.size))).2
              = pieceBuffer fragment payload payloadOffset d i := rfl
        rw [hbuffer]
        cases hsend : sendPacket (i * d.size) (d.fragment i).more
            (pieceBuffer fragment payload payloadOffset d i) with
        | error error =>
            exact ⟨[], .error error, rfl, fun j packet h => by simp at h, fun h => by cases h⟩
        | ok packet =>
            have hpos := d.size_pos
            obtain ⟨packets, error, hloop, hpackets, hall⟩ : ∃ packets error,
                fragmentLoop sendPacket fragment payload payloadOffset d.len d.size fuel
                  (i * d.size + min d.size (d.len - i * d.size)) = some (packets, error) ∧
                (∀ j packet, packets[j]? = some packet → d.Has (i + 1 + j) ∧
                  sendPacket ((i + 1 + j) * d.size) (d.fragment (i + 1 + j)).more
                    (pieceBuffer fragment payload payloadOffset d (i + 1 + j)) = .ok packet) ∧
                (error = .ok () → ∀ j, d.Has (i + 1 + j) → j < packets.length) := by
              rcases Nat.le_total d.size (d.len - i * d.size) with hle | hle
              · have hnext : i * d.size + min d.size (d.len - i * d.size) = (i + 1) * d.size := by
                  rw [Nat.min_eq_left hle, Nat.add_mul, Nat.one_mul]
                rw [hnext]
                exact ih (i + 1) (by rw [Nat.add_mul, Nat.one_mul]; omega)
              · -- this was the last block
                refine ⟨[], .ok (), ?_, fun j packet h => by simp at h, fun _ j hj => ?_⟩
                · unfold fragmentLoop
                  rw [if_neg (by omega)]
                · have hlt : (i + 1 + j) * d.size < d.len := hj
                  rw [Nat.add_mul, Nat.add_mul, Nat.one_mul] at hlt
                  omega
            dsimp only
            refine ⟨packet :: packets, error, by rw [hloop]; rfl, fun j p h => ?_,
              fun hok j hj => ?_⟩
            · cases j with
              | zero =>
                  cases h
                  exact ⟨hi, hsend⟩
              | succ j =>
                  have := hpackets j p h
                  rwa [Nat.add_assoc, Nat.add_comm 1 j] at this
            · cases j with
              | zero => exact Nat.succ_pos _
              | succ j =>
                  rw [List.length_cons]
                  refine Nat.succ_lt_succ (hall hok j ?_)
                  rwa [Nat.add_assoc, Nat.add_comm 1 j]

end Ip
