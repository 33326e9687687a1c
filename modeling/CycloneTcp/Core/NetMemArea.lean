import Mathlib.Data.List.GetD
import CycloneTcp.Core.FlatBuffer
import CycloneTcp.Core.NetMemPool

set_option autoImplicit false

/-! # Multi-part buffers as one area

Code that only uses the buffer functions is modelled over `FlatBuffer`. This is what that rests on:
the functions on chunks (`Core/NetMem`) do to the area of a buffer what those of `Core/FlatBuffer` do.
One thing is lost on the way: `netBufferConcat` does not copy bytes but describes them again, a
descriptor for each chunk it reaches, and fails when the destination has none left. For the buffers
`netBufferSetLength` makes, which are blocks of the pool, the second half counts them. -/

/-! ## Areas -/

theorem read_getD (xs : List UInt8) {s n : ℕ} (h : s + n ≤ xs.length) :
    Memory.read (fun i => xs.getD i 0) s n = (xs.drop s).take n := by
  apply List.ext_getElem
  · simp
    omega
  · intro i hi _
    rw [Memory.length_read] at hi
    rw [Memory.getElem_read, List.getElem_take, List.getElem_drop,
      List.getD_eq_getElem _ _ (by omega)]

theorem append_getD (xs ys : List UInt8) :
    (fun i => (xs ++ ys).getD i 0) = Memory.write (fun i => xs.getD i 0) xs.length ys := by
  funext i
  rcases Nat.lt_or_ge i xs.length with hx | hx
  · rw [Memory.write_of_lt _ _ hx, List.getD_append _ _ _ _ hx]
  · obtain ⟨j, rfl⟩ := Nat.exists_eq_add_of_le hx
    rw [List.getD_append_right _ _ _ _ hx, Nat.add_sub_cancel_left]
    rcases Nat.lt_or_ge j ys.length with hy | hy
    · rw [Memory.write_add _ _ _ hy, List.getD_eq_getElem _ _ hy]
    · rw [Memory.write_of_ge _ _ (by omega), List.getD_eq_default _ _ hy,
        List.getD_eq_default _ _ hx]

theorem splice_getD {xs ys : List UInt8} {o : ℕ} (h : o + ys.length ≤ xs.length) :
    (fun i => (splice xs o ys).getD i 0) = Memory.write (fun i => xs.getD i 0) o ys := by
  have htake : (xs.take o).length = o := by rw [List.length_take]; omega
  funext i
  rw [splice, List.append_assoc]
  rcases Nat.lt_or_ge i o with hi | hi
  · rw [List.getD_append _ _ _ _ (by omega), Memory.write_of_lt _ _ hi,
      List.getD_eq_getElem _ _ (by omega), List.getD_eq_getElem _ _ (by omega), List.getElem_take]
  · obtain ⟨j, rfl⟩ := Nat.exists_eq_add_of_le hi
    rw [List.getD_append_right _ _ _ _ (by omega), htake, Nat.add_sub_cancel_left]
    rcases Nat.lt_or_ge j ys.length with hj | hj
    · rw [List.getD_append _ _ _ _ hj, Memory.write_add _ _ _ hj, List.getD_eq_getElem _ _ hj]
    · rw [List.getD_append_right _ _ _ _ hj, Memory.write_of_ge _ _ (by omega)]
      simp only [List.getD_eq_getElem?_getD, List.getElem?_drop]
      rw [show o + ys.length + (j - ys.length) = o + j by omega]

namespace NetBuffer

variable {mem : Memory UInt8} {dest src : NetBuffer} {o s n user : ℕ}

/-- A multi-part buffer as one area. -/
def area (buffer : NetBuffer) (mem : Memory UInt8) : FlatBuffer :=
  { cells := fun i => (flat mem buffer).getD i 0, length := (flat mem buffer).length }

theorem area_length (buffer : NetBuffer) (mem : Memory UInt8) :
    (buffer.area mem).length = netBufferGetLength buffer := (netBufferGetLength_eq mem buffer).symm

theorem area_congr {mem' : Memory UInt8} {buffer : NetBuffer}
    (h : flat mem' buffer = flat mem buffer) : buffer.area mem' = buffer.area mem := by
  rw [area, area, h]

theorem area_data (buffer : NetBuffer) (mem : Memory UInt8) :
    (buffer.area mem).data = flat mem buffer := by
  rw [FlatBuffer.data, area, read_getD _ (by simp), List.drop_zero, List.take_length]

/-- Reads of a part of the area. -/
theorem area_read (h : s + n ≤ netBufferGetLength src) :
    (src.area mem).cells.read s n = ((flat mem src).drop s).take n :=
  read_getD _ (by rwa [← netBufferGetLength_eq mem])

theorem area_splice {mem' : Memory UInt8} {ys : List UInt8}
    (ho : o + ys.length ≤ netBufferGetLength dest)
    (h : flat mem' dest = splice (flat mem dest) o ys) :
    dest.area mem'
      = { dest.area mem with cells := (dest.area mem).cells.write o ys } := by
  rw [netBufferGetLength_eq mem] at ho
  rw [area, h, length_splice ho, splice_getD ho]
  rfl

theorem netBufferCopy_area (mem : Memory UInt8) (hsep : Separate dest.regions)
    (hap : ApartAll dest.regions src.regions) (hdest : o + n ≤ netBufferGetLength dest)
    (hsrc : s + n ≤ netBufferGetLength src) :
    dest.area (netBufferCopy mem dest o src s n).2
        = (FlatBuffer.netBufferCopy (dest.area mem) o (src.area mem) s n).2 ∧
      SameOutside dest.regions mem (netBufferCopy mem dest o src s n).2 := by
  obtain ⟨-, hflat, hout⟩ := netBufferCopy_flat hsep hap
    (show o + n ≤ (flat mem dest).length by rwa [← netBufferGetLength_eq])
    (show s + n ≤ (flat mem src).length by rwa [← netBufferGetLength_eq])
  refine ⟨?_, hout⟩
  rw [FlatBuffer.netBufferCopy_of_le _ (by rwa [area_length]) (by rwa [area_length]),
    area_read hsrc, area_splice _ hflat]
  rw [List.length_take, List.length_drop, ← netBufferGetLength_eq mem]
  omega

theorem netBufferWrite_area (mem : Memory UInt8) (hsep : Separate dest.regions)
    (hap : ∀ r ∈ dest.regions, r.Apart ⟨user, n⟩) (hdest : o + n ≤ netBufferGetLength dest) :
    dest.area (netBufferWrite mem dest o user n).2
        = (FlatBuffer.netBufferWrite (dest.area mem) o (mem.read user n) n).2 ∧
      SameOutside dest.regions mem (netBufferWrite mem dest o user n).2 := by
  obtain ⟨-, hflat, hout⟩ : _ ∧ flat (netBufferWrite mem dest o user n).2 dest = _ ∧ _ :=
    netBufferWrite_flat hsep hap
  rw [← netBufferGetLength_eq mem, Nat.min_eq_left (by omega)] at hflat
  refine ⟨?_, hout⟩
  rw [FlatBuffer.netBufferWrite_of_le _ _ (by rwa [area_length]), Memory.take_read _ _ le_rfl,
    area_splice (by rwa [Memory.length_read]) hflat]

theorem netBufferRead_area (mem : Memory UInt8) (hap : ∀ r ∈ src.regions, Region.Apart ⟨user, n⟩ r)
    (hsrc : s + n ≤ netBufferGetLength src) :
    (netBufferRead mem user src s n).2
      = (FlatBuffer.netBufferRead mem user (src.area mem) s n).2 := by
  rw [netBufferRead_flat hap, FlatBuffer.netBufferRead_of_le _ _ (by rwa [area_length]),
    area_read hsrc]

theorem netBufferConcat_area (mem : Memory UInt8) (hpos : s < netBufferGetLength src)
    (h : (netBufferConcat dest src s n).1 = .noError) :
    FlatBuffer.netBufferConcat (dest.area mem) (src.area mem) s n
      = (.noError, (netBufferConcat dest src s n).2.area mem) := by
  obtain ⟨hle, hflat⟩ : _ ∧ flat mem (netBufferConcat dest src s n).2 = _ :=
    netBufferConcat_flat h
  rw [← netBufferGetLength_eq] at hle
  have hlength : (((flat mem src).drop s).take n).length = n := by
    rw [List.length_take, List.length_drop, ← netBufferGetLength_eq mem]
    omega
  rw [FlatBuffer.netBufferConcat_of_le (by rwa [area_length]) (by rwa [area_length]),
    area_read hle]
  simp only [area, hflat, append_getD, List.length_append, hlength]

end NetBuffer

/-! ## Blocks and descriptors -/

/-- The chunks are the `n` bytes that `netBufferSetLength` adds to a buffer: blocks of the pool, all
full but the last. -/
def InBlocks : List ChunkDesc → ℕ → Prop
  | [], n => n = 0
  | c :: cs, n =>
      0 < n ∧ c.length.toNat = min n NET_MEM_POOL_BUFFER_SIZE ∧
        InBlocks cs (n - NET_MEM_POOL_BUFFER_SIZE)

/-- The number of blocks that `n` bytes from offset `o` of a block on reach. -/
def blocksReached (o n : ℕ) : ℕ := if n = 0 then 0 else (o + n - 1) / NET_MEM_POOL_BUFFER_SIZE + 1

theorem InBlocks.nil {cs : List ChunkDesc} (h : InBlocks cs 0) : cs = [] := by
  cases cs with
  | nil => rfl
  | cons c cs => exact absurd h.1 (by omega)

theorem InBlocks.length {cs : List ChunkDesc} {n : ℕ} (h : InBlocks cs n) (mem : Memory UInt8) :
    (chunkData mem cs).length = n := by
  induction cs generalizing n with
  | nil => exact h.symm
  | cons c cs ih =>
      obtain ⟨hpos, hc, hcs⟩ := h
      rw [length_chunkData_cons, hc, ih hcs]
      omega

theorem InBlocks.skip {cs : List ChunkDesc} {n o : ℕ} (h : InBlocks cs n) (ho : o < n) :
    (skipChunks cs o).2 = o % NET_MEM_POOL_BUFFER_SIZE ∧ (skipChunks cs o).1 ≠ [] ∧
      InBlocks (skipChunks cs o).1 (n - (o - o % NET_MEM_POOL_BUFFER_SIZE)) := by
  induction cs generalizing n o with
  | nil => exact absurd h (by simp only [InBlocks]; omega)
  | cons c cs ih =>
      have h' := h
      obtain ⟨hpos, hc, hcs⟩ := h
      unfold skipChunks
      split
      case isTrue hlt =>
        have hmod : o % NET_MEM_POOL_BUFFER_SIZE = o := Nat.mod_eq_of_lt (by omega)
        rw [hmod, Nat.sub_self, Nat.sub_zero]
        exact ⟨rfl, by simp, h'⟩
      case isFalse hge =>
        have hfull : c.length.toNat = NET_MEM_POOL_BUFFER_SIZE := by omega
        have hmod := Nat.mod_eq_sub_mod (show NET_MEM_POOL_BUFFER_SIZE ≤ o by omega)
        have hlow := Nat.mod_le (o - NET_MEM_POOL_BUFFER_SIZE) NET_MEM_POOL_BUFFER_SIZE
        obtain ⟨hoff, hne, hrest⟩ := ih (o := o - NET_MEM_POOL_BUFFER_SIZE) hcs (by omega)
        rw [hfull, hmod]
        refine ⟨hoff, hne, ?_⟩
        have hsub : n - NET_MEM_POOL_BUFFER_SIZE - (o - NET_MEM_POOL_BUFFER_SIZE
            - (o - NET_MEM_POOL_BUFFER_SIZE) % NET_MEM_POOL_BUFFER_SIZE)
            = n - (o - (o - NET_MEM_POOL_BUFFER_SIZE) % NET_MEM_POOL_BUFFER_SIZE) := by omega
        rwa [hsub] at hrest

/-- Blocks past the first one. -/
theorem blocksReached_next {o n : ℕ} (ho : o ≤ NET_MEM_POOL_BUFFER_SIZE)
    (hn : NET_MEM_POOL_BUFFER_SIZE - o < n) :
    blocksReached o n = blocksReached 0 (n - (NET_MEM_POOL_BUFFER_SIZE - o)) + 1 := by
  have hsub : o + n - 1
      = (0 + (n - (NET_MEM_POOL_BUFFER_SIZE - o)) - 1) + NET_MEM_POOL_BUFFER_SIZE := by omega
  rw [blocksReached, blocksReached, if_neg (by omega), if_neg (by omega), hsub,
    Nat.add_div_right _ (by decide)]

/-- The loop of `netBufferConcat` needs a descriptor for each block it reaches. -/
theorem InBlocks.descriptors {cs : List ChunkDesc} {n o k : ℕ} (h : InBlocks cs n)
    (ho : o < NET_MEM_POOL_BUFFER_SIZE) (hlen : o + k ≤ n) (free : ℕ) :
    if blocksReached o k ≤ free then
      (concatChunks cs o k free).2 = 0 ∧
        (concatChunks cs o k free).1.length = blocksReached o k
    else 0 < (concatChunks cs o k free).2 := by
  induction cs generalizing n o k free with
  | nil =>
      have hzero : n = 0 := h
      have hnone : k = 0 := by omega
      simp [concatChunks, hnone, blocksReached]
  | cons c cs ih =>
      obtain ⟨hpos, hc, hcs⟩ := h
      unfold concatChunks
      rcases Nat.eq_zero_or_pos k with rfl | hlength
      · simp [blocksReached]
      · have hreach : 0 < blocksReached o k := by
          rw [blocksReached, if_neg (by omega)]
          exact Nat.succ_pos _
        rcases Nat.eq_zero_or_pos free with rfl | hfree
        · rw [if_neg (by omega), if_pos (.inr rfl)]
          exact hlength
        · rw [if_neg (show ¬ (k = 0 ∨ free = 0) by omega)]
          simp only
          rcases Nat.lt_or_ge (c.length.toNat - o) k with hmore | hlast
          · have hfull : c.length.toNat = NET_MEM_POOL_BUFFER_SIZE := by omega
            have hrest := ih (o := 0) (k := k - (c.length.toNat - o)) hcs (by decide)
              (by omega) (free - 1)
            rw [Nat.min_eq_right hmore.le, blocksReached_next ho.le (by omega), ← hfull]
            by_cases hfits : blocksReached 0 (k - (c.length.toNat - o)) ≤ free - 1
            · rw [if_pos hfits] at hrest
              rw [if_pos (by omega)]
              exact ⟨hrest.1, by rw [List.length_cons, hrest.2]⟩
            · rw [if_neg hfits] at hrest
              rw [if_neg (by omega)]
              exact hrest
          · have hone : blocksReached o k = 1 := by
              rw [blocksReached, if_neg (by omega), Nat.div_eq_of_lt (by omega)]
            have hnil : concatChunks cs 0 (k - k) (free - 1) = ([], 0) := by
              cases cs <;> simp [concatChunks]
            rw [Nat.min_eq_left hlast, hnil, if_pos (by omega), hone]
            exact ⟨rfl, rfl⟩

/-- What `netBufferConcat` returns for a buffer in blocks, and how many descriptors it takes. -/
theorem InBlocks.concat {src : NetBuffer} {n o k : ℕ} (h : InBlocks src.chunk n)
    (ho : o < n) (hlen : o + k ≤ n) (dest : NetBuffer) :
    if blocksReached (o % NET_MEM_POOL_BUFFER_SIZE) k ≤ dest.maxChunkCount - dest.chunkCount then
      (netBufferConcat dest src o k).1 = .noError ∧
        (netBufferConcat dest src o k).2.maxChunkCount = dest.maxChunkCount ∧
        (netBufferConcat dest src o k).2.chunkCount
          = dest.chunkCount + blocksReached (o % NET_MEM_POOL_BUFFER_SIZE) k
    else (netBufferConcat dest src o k).1 = .failure := by
  obtain ⟨hoff, hne, hrest⟩ := h.skip ho
  have hlow := Nat.mod_le o NET_MEM_POOL_BUFFER_SIZE
  have hspec := hrest.descriptors (o := o % NET_MEM_POOL_BUFFER_SIZE) (k := k)
    (Nat.mod_lt _ (by decide)) (by omega) (dest.maxChunkCount - dest.chunkCount)
  unfold netBufferConcat
  generalize skipChunks src.chunk o = skipped at *
  obtain ⟨ds, o'⟩ := skipped
  simp only at hoff hne hspec
  subst hoff
  cases ds with
  | nil => exact absurd rfl hne
  | cons c cs =>
      simp only
      split
      case isTrue hfits =>
        rw [if_pos hfits] at hspec
        obtain ⟨hzero, hcount⟩ := hspec
        rw [hzero]
        refine ⟨rfl, trivial, ?_⟩
        rw [NetBuffer.chunkCount, List.length_append, hcount]
        rfl
      case isFalse hfull =>
        rw [if_neg hfull] at hspec
        rw [if_pos hspec]

theorem addChunks_inBlocks {pool : MemPool} (heap : pool.Heap) (free length : ℕ)
    (h : (addChunks heap free length).2.1 = 0) :
    InBlocks (addChunks heap free length).1 length := by
  induction free generalizing heap length with
  | zero => exact h
  | succ free ih =>
      rw [addChunks] at h ⊢
      split
      case isTrue hzero => exact hzero
      case isFalse hpos =>
        rw [if_neg hpos] at h
        split
        case h_1 heap' halloc =>
          rw [halloc] at h
          exact absurd h hpos
        case h_2 address heap' halloc =>
          rw [halloc] at h
          simp only at h ⊢
          have hrest := ih heap' (length - min length NET_MEM_POOL_BUFFER_SIZE) h
          have hbound : min length NET_MEM_POOL_BUFFER_SIZE ≤ 1536 := Nat.min_le_right ..
          have hsub : length - min length NET_MEM_POOL_BUFFER_SIZE
              = length - NET_MEM_POOL_BUFFER_SIZE := by omega
          rw [hsub] at hrest ⊢
          refine ⟨by omega, ?_, hrest⟩
          rw [UInt16.toNat_ofNat', Nat.mod_eq_of_lt (by omega)]

/-- The buffers of a connection are in blocks: `tcpConnect` and `tcpAccept` set the length of a
buffer without chunks. -/
theorem netBufferSetLength_inBlocks {pool : MemPool} {heap : pool.Heap} {buffer : NetBuffer}
    {length : ℕ} (hempty : buffer.chunk = [])
    (h : (netBufferSetLength heap buffer length).1 = .noError) :
    InBlocks (netBufferSetLength heap buffer length).2.1.chunk length := by
  unfold netBufferSetLength at h ⊢
  simp only [hempty, adjustChunks, List.nil_append] at h ⊢
  split
  case isTrue hzero => exact hzero
  case isFalse hpos =>
    rw [if_neg hpos] at h
    refine addChunks_inBlocks heap _ length ?_
    by_contra hne
    simp only [if_pos (Nat.pos_of_ne_zero hne)] at h
    split at h <;> cases h
