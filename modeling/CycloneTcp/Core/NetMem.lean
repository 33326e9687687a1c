import CycloneTcp.Common.Error
import CycloneTcp.Lib.Region

set_option autoImplicit false

/-! # Multi-part buffers

A `NetBuffer` is a list of chunk descriptors; the bytes themselves are in the memory. The functions
here walk the descriptors with an offset that runs from chunk to chunk. Their effect on the contents
of the buffer, the concatenation `flat` of its chunks, does not depend on the chunking. -/

/-- A chunk of data. The length is a 16-bit word. -/
structure ChunkDesc where
  address : ℕ
  length : UInt16
  size : UInt16
  deriving DecidableEq, Repr

/-- A buffer that spans multiple chunks: the descriptors in use and the number of descriptors there
are. -/
structure NetBuffer where
  chunk : List ChunkDesc
  maxChunkCount : ℕ
  deriving DecidableEq, Repr

/-- Number of descriptors in use. -/
def NetBuffer.chunkCount (buffer : NetBuffer) : ℕ := buffer.chunk.length

/-! ## The functions -/

/-- Actual length of a multi-part buffer. -/
def netBufferGetLength (buffer : NetBuffer) : ℕ :=
  buffer.chunk.foldl (fun length c => length + c.length.toNat) 0

/-- The loop of `netBufferAt`. -/
def chunkAt : List ChunkDesc → ℕ → Option ℕ
  | [], _ => none
  | c :: cs, offset =>
      if offset < c.length.toNat then some (c.address + offset)
      else chunkAt cs (offset - c.length.toNat)

/-- Address of the data at the specified position. -/
def netBufferAt (buffer : NetBuffer) (offset : ℕ) : Option ℕ := chunkAt buffer.chunk offset

/-- Skip the beginning of the data: the chunks from the one that holds the specified offset on, and
the offset in it. -/
def skipChunks : List ChunkDesc → ℕ → List ChunkDesc × ℕ
  | [], offset => ([], offset)
  | c :: cs, offset =>
      if offset < c.length.toNat then (c :: cs, offset)
      else skipChunks cs (offset - c.length.toNat)

/-- The loop of `netBufferConcat`: the descriptors it adds, at most `free` of them, and the number
of bytes left. -/
def concatChunks : List ChunkDesc → ℕ → ℕ → ℕ → List ChunkDesc × ℕ
  | [], _, length, _ => ([], length)
  | c :: cs, srcOffset, length, free =>
      if length = 0 ∨ free = 0 then ([], length)
      else
        let n := min length (c.length.toNat - srcOffset)
        let added := { address := c.address + srcOffset, length := UInt16.ofNat n, size := 0 }
        let (rest, length) := concatChunks cs 0 (length - n) (free - 1)
        (added :: rest, length)

/-- Append data of one buffer to another, without copying it. -/
def netBufferConcat (dest src : NetBuffer) (srcOffset length : ℕ) : ErrorCode × NetBuffer :=
  match skipChunks src.chunk srcOffset with
  | ([], _) => (.invalidParameter, dest)
  | (c :: cs, srcOffset) =>
      let (added, length) :=
        concatChunks (c :: cs) srcOffset length (dest.maxChunkCount - dest.chunkCount)
      (if 0 < length then .failure else .noError, { dest with chunk := dest.chunk ++ added })

/-- The loop of `netBufferCopy`: the memory after it and the number of bytes left. -/
def copyChunks (mem : Memory UInt8) :
    List ChunkDesc → ℕ → List ChunkDesc → ℕ → ℕ → Memory UInt8 × ℕ
  | c :: cs, destOffset, d :: ds, srcOffset, length =>
      if length = 0 then (mem, 0)
      else
        let n := min (min length (c.length.toNat - destOffset)) (d.length.toNat - srcOffset)
        let mem := mem.write (c.address + destOffset) (mem.read (d.address + srcOffset) n)
        if c.length.toNat ≤ destOffset + n then
          if d.length.toNat ≤ srcOffset + n then copyChunks mem cs 0 ds 0 (length - n)
          else copyChunks mem cs 0 (d :: ds) (srcOffset + n) (length - n)
        else if d.length.toNat ≤ srcOffset + n then
          copyChunks mem (c :: cs) (destOffset + n) ds 0 (length - n)
        else
          copyChunks mem (c :: cs) (destOffset + n) (d :: ds) (srcOffset + n) (length - n)
  | [], _, _, _, length => (mem, length)
  | _ :: _, _, [], _, length => (mem, length)
termination_by cs _ ds _ length => cs.length + ds.length + length
decreasing_by all_goals simp only [List.length_cons]; omega

/-- Copy data between multi-part buffers. -/
def netBufferCopy (mem : Memory UInt8) (dest : NetBuffer) (destOffset : ℕ) (src : NetBuffer)
    (srcOffset length : ℕ) : ErrorCode × Memory UInt8 :=
  match skipChunks dest.chunk destOffset, skipChunks src.chunk srcOffset with
  | ([], _), _ => (.invalidParameter, mem)
  | (_ :: _, _), ([], _) => (.invalidParameter, mem)
  | (c :: cs, destOffset), (d :: ds, srcOffset) =>
      let (mem, length) := copyChunks mem (c :: cs) destOffset (d :: ds) srcOffset length
      (if 0 < length then .failure else .noError, mem)

/-- Append user data to a multi-part buffer, without copying it. -/
def netBufferAppend (dest : NetBuffer) (src length : ℕ) : ErrorCode × NetBuffer :=
  if dest.maxChunkCount ≤ dest.chunkCount then (.failure, dest)
  else
    (.noError, { dest with
      chunk := dest.chunk ++ [{ address := src, length := UInt16.ofNat length, size := 0 }] })

/-- The loop of `netBufferWrite`. -/
def writeChunks (mem : Memory UInt8) : List ChunkDesc → ℕ → ℕ → ℕ → ℕ → ℕ × Memory UInt8
  | [], _, _, _, totalLength => (totalLength, mem)
  | c :: cs, destOffset, src, length, totalLength =>
      if totalLength < length then
        if destOffset < c.length.toNat then
          let n := min (length - totalLength) (c.length.toNat - destOffset)
          writeChunks (mem.write (c.address + destOffset) (mem.read src n)) cs 0 (src + n) length
            (totalLength + n)
        else writeChunks mem cs (destOffset - c.length.toNat) src length totalLength
      else (totalLength, mem)

/-- Write the user data at `src` to a multi-part buffer; returns the number of bytes copied. -/
def netBufferWrite (mem : Memory UInt8) (dest : NetBuffer) (destOffset src length : ℕ) :
    ℕ × Memory UInt8 :=
  writeChunks mem dest.chunk destOffset src length 0

/-- The loop of `netBufferRead`. -/
def readChunks (mem : Memory UInt8) : ℕ → List ChunkDesc → ℕ → ℕ → ℕ → ℕ × Memory UInt8
  | _, [], _, _, totalLength => (totalLength, mem)
  | dest, c :: cs, srcOffset, length, totalLength =>
      if totalLength < length then
        if srcOffset < c.length.toNat then
          let n := min (length - totalLength) (c.length.toNat - srcOffset)
          readChunks (mem.write dest (mem.read (c.address + srcOffset) n)) (dest + n) cs 0 length
            (totalLength + n)
        else readChunks mem dest cs (srcOffset - c.length.toNat) length totalLength
      else (totalLength, mem)

/-- Read data of a multi-part buffer into the user's array at `dest`; returns the number of bytes
copied. -/
def netBufferRead (mem : Memory UInt8) (dest : ℕ) (src : NetBuffer) (srcOffset length : ℕ) :
    ℕ × Memory UInt8 :=
  readChunks mem dest src.chunk srcOffset length 0

/-! ## Contents -/

/-- The addresses a chunk describes. -/
def ChunkDesc.region (c : ChunkDesc) : Region := ⟨c.address, c.length.toNat⟩

/-- The addresses of a list of chunks. -/
abbrev chunkRegions (cs : List ChunkDesc) : List Region := cs.map ChunkDesc.region

/-- The contents of a list of chunks. -/
abbrev chunkData (mem : Memory UInt8) (cs : List ChunkDesc) : List UInt8 :=
  gather mem (chunkRegions cs)

/-- The contents of a buffer. -/
def flat (mem : Memory UInt8) (buffer : NetBuffer) : List UInt8 := chunkData mem buffer.chunk

@[simp] theorem chunkData_nil (mem : Memory UInt8) : chunkData mem [] = [] := rfl

theorem chunkData_cons (mem : Memory UInt8) (c : ChunkDesc) (cs : List ChunkDesc) :
    chunkData mem (c :: cs) = mem.read c.address c.length.toNat ++ chunkData mem cs := rfl

theorem chunkData_append (mem : Memory UInt8) (cs cs' : List ChunkDesc) :
    chunkData mem (cs ++ cs') = chunkData mem cs ++ chunkData mem cs' := by
  rw [chunkData, chunkRegions, List.map_append, gather_append]

theorem netBufferGetLength_eq (mem : Memory UInt8) (buffer : NetBuffer) :
    netBufferGetLength buffer = (flat mem buffer).length := by
  have hfold : ∀ (cs : List ChunkDesc) (k : ℕ),
      cs.foldl (fun length c => length + c.length.toNat) k = k + (chunkData mem cs).length := by
    intro cs
    induction cs with
    | nil => intro k; rfl
    | cons c cs ih =>
        intro k
        rw [List.foldl_cons, ih, chunkData_cons, List.length_append, Memory.length_read]
        omega
  rw [netBufferGetLength, hfold, Nat.zero_add]
  rfl

theorem chunkAt_eq_none {mem : Memory UInt8} {cs : List ChunkDesc} {offset : ℕ} :
    chunkAt cs offset = none ↔ (chunkData mem cs).length ≤ offset := by
  induction cs generalizing offset with
  | nil => simp [chunkAt]
  | cons c cs ih =>
      rw [chunkAt, chunkData_cons, List.length_append, Memory.length_read]
      split
      case isTrue h => simp; omega
      case isFalse h => rw [ih]; omega

theorem chunkAt_eq_some {mem : Memory UInt8} {cs : List ChunkDesc} {offset a : ℕ}
    (h : chunkAt cs offset = some a) : (chunkData mem cs)[offset]? = some (mem a) := by
  induction cs generalizing offset with
  | nil => simp [chunkAt] at h
  | cons c cs ih =>
      rw [chunkAt] at h
      rw [chunkData_cons]
      split at h
      case isTrue hlt =>
        rw [List.getElem?_append_left (by simpa using hlt)]
        cases h
        rw [List.getElem?_eq_getElem (by simpa using hlt), Memory.getElem_read]
      case isFalse hge =>
        rw [List.getElem?_append_right (by simpa using hge), Memory.length_read]
        exact ih h

/-- The chunks that were skipped hold the bytes before the offset. -/
theorem skipChunks_spec (mem : Memory UInt8) (cs : List ChunkDesc) (offset : ℕ) :
    ∃ pre, cs = pre ++ (skipChunks cs offset).1 ∧
      offset = (chunkData mem pre).length + (skipChunks cs offset).2 ∧
      ∀ c ∈ (skipChunks cs offset).1.head?, (skipChunks cs offset).2 < c.length.toNat := by
  induction cs generalizing offset with
  | nil => exact ⟨[], rfl, by simp [skipChunks], by simp [skipChunks]⟩
  | cons c cs ih =>
      rw [skipChunks]
      split
      case isTrue h => exact ⟨[], rfl, by simp, by simpa using h⟩
      case isFalse h =>
        obtain ⟨pre, hcs, hoff, hhead⟩ := ih (offset - c.length.toNat)
        refine ⟨c :: pre, by rw [List.cons_append, ← hcs], ?_, hhead⟩
        rw [chunkData_cons, List.length_append, Memory.length_read]
        omega

/-! ## Reading and writing -/

/-- The first bytes of a list of chunks from an offset inside the first one on. -/
theorem take_drop_chunkData (mem : Memory UInt8) (c : ChunkDesc) (cs : List ChunkDesc)
    {o : ℕ} (length : ℕ) (ho : o ≤ c.length.toNat) :
    ((chunkData mem (c :: cs)).drop o).take length
      = mem.read (c.address + o) (min length (c.length.toNat - o))
        ++ (chunkData mem cs).take (length - min length (c.length.toNat - o)) := by
  have hsub : length - (c.length.toNat - o) = length - min length (c.length.toNat - o) := by omega
  rw [chunkData_cons, List.drop_append_of_le_length (by simpa using ho), Memory.drop_read _ _ ho,
    List.take_append, Memory.take_read_min, Memory.length_read, hsub]

theorem length_chunkData_cons (mem : Memory UInt8) (c : ChunkDesc) (cs : List ChunkDesc) :
    (chunkData mem (c :: cs)).length = c.length.toNat + (chunkData mem cs).length := by
  rw [chunkData_cons, List.length_append, Memory.length_read]

theorem drop_chunkData_cons (mem : Memory UInt8) {c : ChunkDesc} (cs : List ChunkDesc) {o : ℕ}
    (ho : c.length.toNat ≤ o) :
    (chunkData mem (c :: cs)).drop o = (chunkData mem cs).drop (o - c.length.toNat) := by
  rw [chunkData_cons, List.drop_append, Memory.length_read,
    List.drop_eq_nil_of_le (by simpa using ho), List.nil_append]

theorem readChunks_spec (cs : List ChunkDesc) (mem : Memory UInt8)
    (dest srcOffset length totalLength : ℕ)
    (hap : ∀ r ∈ chunkRegions cs, Region.Apart ⟨dest, length - totalLength⟩ r) :
    readChunks mem dest cs srcOffset length totalLength
      = (totalLength + min (length - totalLength) ((chunkData mem cs).length - srcOffset),
         mem.write dest (((chunkData mem cs).drop srcOffset).take (length - totalLength))) := by
  induction cs generalizing mem dest srcOffset totalLength with
  | nil => simp [readChunks]
  | cons c cs ih =>
      have hap' := fun r hr => hap r (List.mem_cons_of_mem _ hr)
      have hlen := length_chunkData_cons mem c cs
      rw [readChunks]
      by_cases htotal : totalLength < length
      · rw [if_pos htotal]
        by_cases hoff : srcOffset < c.length.toNat
        · rw [if_pos hoff]
          simp only
          set n := min (length - totalLength) (c.length.toNat - srcOffset) with hn
          have hsame : chunkData (mem.write dest (mem.read (c.address + srcOffset) n)) cs
              = chunkData mem cs := by
            apply gather_write_of_apart
            intro r hr
            exact (hap' r hr).part le_rfl (by rw [Memory.length_read]; simp only; omega)
          rw [ih, hsame, take_drop_chunkData _ _ _ _ hoff.le, ← hn, ← Memory.write_write_append,
            Memory.length_read, List.drop_zero, Nat.sub_add_eq, hlen]
          · congr 1
            omega
          · intro r hr
            exact (hap' r hr).part (by simp only; omega) (by simp only; omega)
        · rw [if_neg hoff, ih _ _ _ _ hap', hlen, drop_chunkData_cons mem cs (by omega)]
          congr 2
          omega
      · rw [if_neg htotal, show length - totalLength = 0 by omega]
        simp

theorem writeChunks_spec (cs : List ChunkDesc) (mem : Memory UInt8)
    (destOffset src length totalLength : ℕ) (hsep : Separate (chunkRegions cs))
    (hap : ∀ r ∈ chunkRegions cs, r.Apart ⟨src, length - totalLength⟩) :
    let k := min (length - totalLength) ((chunkData mem cs).length - destOffset)
    let result := writeChunks mem cs destOffset src length totalLength
    result.1 = totalLength + k ∧
      chunkData result.2 cs = splice (chunkData mem cs) destOffset (mem.read src k) ∧
      SameOutside (chunkRegions cs) mem result.2 := by
  induction cs generalizing mem destOffset src totalLength with
  | nil => simp [writeChunks, SameOutside.refl]
  | cons c cs ih =>
      obtain ⟨hfirst, hsep'⟩ := List.pairwise_cons.1 hsep
      have hap' := fun r hr => hap r (List.mem_cons_of_mem _ hr)
      have hlen := length_chunkData_cons mem c cs
      simp only
      rw [writeChunks]
      by_cases htotal : totalLength < length
      · rw [if_pos htotal]
        by_cases hoff : destOffset < c.length.toNat
        · rw [if_pos hoff]
          simp only
          set n := min (length - totalLength) (c.length.toNat - destOffset) with hn
          set mem1 := mem.write (c.address + destOffset) (mem.read src n) with hmem1
          have hxs : destOffset + (mem.read src n).length ≤ c.region.len := by
            rw [Memory.length_read]
            simp only [ChunkDesc.region]
            omega
          have hsame : chunkData mem1 cs = chunkData mem cs := gather_write_tail hsep hxs
          set k := min (length - totalLength - n) (chunkData mem cs).length with hk
          have hread : mem1.read (src + n) k = mem.read (src + n) k := by
            apply Region.read_write_of_apart
            have hc := hap c.region (List.mem_cons_self ..)
            refine ((hc.part (p := c.address + destOffset) ?_ ?_).symm.part ?_ ?_).symm
            all_goals simp only [ChunkDesc.region, Memory.length_read]
            all_goals omega
          obtain ⟨htot, hdata, hout⟩ := ih mem1 0 (src + n) (totalLength + n) hsep'
            fun r hr => ((hap' r hr).symm.part (by simp only; omega) (by simp only; omega)).symm
          rw [hsame, Nat.sub_zero, Nat.sub_add_eq, ← hk] at hdata htot
          rw [hread, ← hsame] at hdata
          have hfull : destOffset + (mem.read src n).length = c.region.len ∨
              mem.read (src + n) k = [] := by
            rcases Nat.le_total (length - totalLength) (c.length.toNat - destOffset) with h | h
            · right
              rw [hk, show length - totalLength - n = 0 by omega, Nat.zero_min, Memory.read_zero]
            · left
              rw [Memory.length_read]
              simp only [ChunkDesc.region]
              omega
          obtain ⟨hall, hsameOut⟩ := scatter_next hsep hxs hfull hdata hout
          have hsum : min (length - totalLength) ((chunkData mem (c :: cs)).length - destOffset)
              = n + k := by omega
          rw [hsum, Memory.read_add, ← Nat.add_assoc]
          exact ⟨htot, hall, hsameOut⟩
        · rw [if_neg hoff]
          obtain ⟨htot, hdata, hout⟩ := ih mem (destOffset - c.length.toNat) src totalLength hsep'
            hap'
          have hsub : (chunkData mem (c :: cs)).length - destOffset
              = (chunkData mem cs).length - (destOffset - c.length.toNat) := by omega
          rw [hsub]
          refine ⟨htot, ?_, hout.cons⟩
          have hc : Region.contents (writeChunks mem cs (destOffset - c.length.toNat) src length
              totalLength).2 c.region = Region.contents mem c.region :=
            hout.contents_eq fun r hr => (hfirst r hr).symm
          show Region.contents _ c.region ++ _ = splice (Region.contents mem c.region ++ _) _ _
          rw [hc, splice_append_right (by simpa [ChunkDesc.region] using hoff),
            Region.length_contents]
          exact congrArg _ hdata
      · rw [if_neg htotal, show length - totalLength = 0 by omega]
        simp [SameOutside.refl]

/-! ## Copying -/

section CopyStep

variable {mem : Memory UInt8} {c d : ChunkDesc} {cs ds : List ChunkDesc} {o s n : ℕ}

/-- The bytes one pass of the loop copies. -/
theorem read_eq_take (hn : n ≤ d.length.toNat - s) (hs : s ≤ d.length.toNat) :
    mem.read (d.address + s) n = ((chunkData mem (d :: ds)).drop s).take n := by
  rw [take_drop_chunkData mem d ds n hs, Nat.min_eq_left hn, Nat.sub_self, List.take_zero,
    List.append_nil]

/-- One pass leaves the source as it is. -/
theorem chunkData_copy (hap : ApartAll (chunkRegions (c :: cs)) (chunkRegions ds))
    (hn : n ≤ c.length.toNat - o) (ho : o ≤ c.length.toNat) (p : ℕ) :
    chunkData (mem.write (c.address + o) (mem.read p n)) ds = chunkData mem ds := by
  apply gather_write_of_apart
  intro r hr
  refine (hap c.region (List.mem_cons_self ..) r hr).part ?_ ?_
  all_goals simp only [ChunkDesc.region, Memory.length_read]
  all_goals omega

theorem length_copy (mem : Memory UInt8) (hn : n ≤ c.length.toNat - o) (ho : o ≤ c.length.toNat) (p : ℕ) :
    o + (mem.read p n).length ≤ c.region.len := by
  rw [Memory.length_read]
  simp only [ChunkDesc.region]
  omega

/-- What the loop has done when it returns. -/
def Copied (mem : Memory UInt8) (cs : List ChunkDesc) (o : ℕ) (src : List UInt8) (length : ℕ)
    (result : Memory UInt8 × ℕ) : Prop :=
  let k := min length (min ((chunkData mem cs).length - o) src.length)
  result.2 = length - k ∧ chunkData result.1 cs = splice (chunkData mem cs) o (src.take k) ∧
    SameOutside (chunkRegions cs) mem result.1

variable {length : ℕ} {src : List UInt8} {result : Memory UInt8 × ℕ}

/-- The pass fills the destination chunk, and the loop goes on with the next one. -/
theorem Copied.next (hsep : Separate (chunkRegions (c :: cs))) (ho : o ≤ c.length.toNat)
    (hn : n = c.length.toNat - o) (hnl : n ≤ length) (hns : n ≤ src.length) {p : ℕ}
    (hp : mem.read p n = src.take n)
    (h : Copied (mem.write (c.address + o) (mem.read p n)) cs 0 (src.drop n) (length - n) result) :
    Copied mem (c :: cs) o src length result := by
  have hxs := length_copy mem hn.le ho p
  have hlen := length_chunkData_cons mem c cs
  have hrest : chunkData (mem.write (c.address + o) (mem.read p n)) cs = chunkData mem cs :=
    gather_write_tail hsep hxs
  obtain ⟨hleft, hdata, hout⟩ := h
  have hfull : o + (mem.read p n).length = c.region.len := by
    rw [Memory.length_read]
    simp only [ChunkDesc.region]
    omega
  obtain ⟨hall, hsame⟩ := scatter_next hsep hxs (.inl hfull) hdata hout
  rw [hrest, Nat.sub_zero, List.length_drop] at hleft hall
  have hk : min length (min ((chunkData mem (c :: cs)).length - o) src.length)
      = n + min (length - n) (min (chunkData mem cs).length (src.length - n)) := by omega
  refine ⟨by rw [hk]; omega, ?_, hsame⟩
  rw [hk, List.take_add, ← hp]
  exact hall

/-- The pass ends inside the destination chunk. -/
theorem Copied.same (hsep : Separate (chunkRegions (c :: cs))) (ho : o ≤ c.length.toNat)
    (hn : n ≤ c.length.toNat - o) (hnl : n ≤ length) (hns : n ≤ src.length) {p : ℕ}
    (hp : mem.read p n = src.take n)
    (h : Copied (mem.write (c.address + o) (mem.read p n)) (c :: cs) (o + n) (src.drop n)
      (length - n) result) :
    Copied mem (c :: cs) o src length result := by
  have hxs := length_copy mem hn ho p
  have hlen := length_chunkData_cons mem c cs
  have hwrite : chunkData (mem.write (c.address + o) (mem.read p n)) (c :: cs)
      = splice (chunkData mem (c :: cs)) o (mem.read p n) := gather_write hsep hxs
  have hlen' : (chunkData (mem.write (c.address + o) (mem.read p n)) (c :: cs)).length
      = (chunkData mem (c :: cs)).length := by
    rw [hwrite, length_splice (by rw [Memory.length_read]; omega)]
  obtain ⟨hleft, hdata, hout⟩ := h
  have hdata' := hdata
  rw [show o + n = o + (mem.read p n).length by rw [Memory.length_read]] at hdata'
  obtain ⟨hall, hsame⟩ := scatter_same hsep hxs hdata' hout
  rw [hlen', List.length_drop] at hleft
  rw [show o + (mem.read p n).length = o + n by rw [Memory.length_read], hlen',
    List.length_drop] at hall
  have hk : min length (min ((chunkData mem (c :: cs)).length - o) src.length)
      = n + min (length - n) (min ((chunkData mem (c :: cs)).length - (o + n)) (src.length - n)) := by
    omega
  refine ⟨by rw [hk]; omega, ?_, hsame⟩
  rw [hk, List.take_add, ← hp]
  exact hall

end CopyStep

/-- What the loop copies: as many bytes as all three of the length and the two lists allow. -/
theorem copyChunks_spec (mem : Memory UInt8) (cs : List ChunkDesc) (o : ℕ) (ds : List ChunkDesc)
    (s length : ℕ) (hsep : Separate (chunkRegions cs))
    (hap : ApartAll (chunkRegions cs) (chunkRegions ds))
    (ho : ∀ c ∈ cs.head?, o ≤ c.length.toNat) (hs : ∀ d ∈ ds.head?, s ≤ d.length.toNat) :
    Copied mem cs o ((chunkData mem ds).drop s) length (copyChunks mem cs o ds s length) := by
  fun_induction copyChunks mem cs o ds s length with
  | case1 mem c cs o d ds s => simp [Copied, SameOutside.refl]
  | case2 mem c cs o d ds s length hpos n mem1 hc hd ih =>
      have ho' : o ≤ c.length.toNat := ho c rfl
      have hs' : s ≤ d.length.toNat := hs d rfl
      have hlend := length_chunkData_cons mem d ds
      refine Copied.next (n := n) hsep ho' (by omega) (by omega) (by rw [List.length_drop]; omega)
        (read_eq_take (by omega) hs') ?_
      have hsrc : chunkData mem1 ds = (chunkData mem (d :: ds)).drop (s + n) := by
        rw [drop_chunkData_cons _ _ hd, show s + n - d.length.toNat = 0 by omega, List.drop_zero]
        exact chunkData_copy (fun r hr r' hr' => hap r hr r' (List.mem_cons_of_mem _ hr'))
          (by omega) ho' _
      rw [List.drop_drop, ← hsrc, ← List.drop_zero (l := chunkData mem1 ds)]
      exact ih (List.pairwise_cons.1 hsep).2
        (fun r hr r' hr' => hap r (List.mem_cons_of_mem _ hr) r' (List.mem_cons_of_mem _ hr'))
        (fun _ _ => Nat.zero_le _) (fun _ _ => Nat.zero_le _)
  | case3 mem c cs o d ds s length hpos n mem1 hc hd ih =>
      have ho' : o ≤ c.length.toNat := ho c rfl
      have hs' : s ≤ d.length.toNat := hs d rfl
      have hlend := length_chunkData_cons mem d ds
      refine Copied.next (n := n) hsep ho' (by omega) (by omega) (by rw [List.length_drop]; omega)
        (read_eq_take (by omega) hs') ?_
      have hsrc : chunkData mem1 (d :: ds) = chunkData mem (d :: ds) :=
        chunkData_copy hap (by omega) ho' _
      rw [List.drop_drop, ← hsrc]
      refine ih (List.pairwise_cons.1 hsep).2
        (fun r hr r' hr' => hap r (List.mem_cons_of_mem _ hr) r' hr')
        (fun _ _ => Nat.zero_le _) ?_
      rintro _ ⟨⟩
      omega
  | case4 mem c cs o d ds s length hpos n mem1 hc hd ih =>
      have ho' : o ≤ c.length.toNat := ho c rfl
      have hs' : s ≤ d.length.toNat := hs d rfl
      have hlend := length_chunkData_cons mem d ds
      refine Copied.same (n := n) hsep ho' (by omega) (by omega) (by rw [List.length_drop]; omega)
        (read_eq_take (by omega) hs') ?_
      have hsrc : chunkData mem1 ds = (chunkData mem (d :: ds)).drop (s + n) := by
        rw [drop_chunkData_cons _ _ hd, show s + n - d.length.toNat = 0 by omega, List.drop_zero]
        exact chunkData_copy (fun r hr r' hr' => hap r hr r' (List.mem_cons_of_mem _ hr'))
          (by omega) ho' _
      rw [List.drop_drop, ← hsrc, ← List.drop_zero (l := chunkData mem1 ds)]
      refine ih hsep (fun r hr r' hr' => hap r hr r' (List.mem_cons_of_mem _ hr')) ?_
        (fun _ _ => Nat.zero_le _)
      rintro _ ⟨⟩
      omega
  | case5 mem c cs o d ds s length hpos n mem1 hc hd ih =>
      have ho' : o ≤ c.length.toNat := ho c rfl
      have hs' : s ≤ d.length.toNat := hs d rfl
      have hlend := length_chunkData_cons mem d ds
      refine Copied.same (n := n) hsep ho' (by omega) (by omega) (by rw [List.length_drop]; omega)
        (read_eq_take (by omega) hs') ?_
      have hsrc : chunkData mem1 (d :: ds) = chunkData mem (d :: ds) :=
        chunkData_copy hap (by omega) ho' _
      rw [List.drop_drop, ← hsrc]
      refine ih hsep hap ?_ ?_
      · rintro _ ⟨⟩
        omega
      · rintro _ ⟨⟩
        omega
  | case6 mem o ds s length => simp [Copied, SameOutside.refl]
  | case7 mem c cs o s length => simp [Copied, SameOutside.refl]

/-! ## Appending -/

theorem concatChunks_spec (mem : Memory UInt8) (cs : List ChunkDesc) (o length free : ℕ)
    (ho : ∀ c ∈ cs.head?, o ≤ c.length.toNat) :
    let result := concatChunks cs o length free
    result.2 ≤ length ∧ o + (length - result.2) ≤ max o (chunkData mem cs).length ∧
      chunkData mem result.1 = ((chunkData mem cs).drop o).take (length - result.2) := by
  induction cs generalizing o length free with
  | nil => simp [concatChunks]
  | cons c cs ih =>
      have ho' : o ≤ c.length.toNat := ho c rfl
      have hlen := length_chunkData_cons mem c cs
      simp only
      rw [concatChunks]
      by_cases hend : length = 0 ∨ free = 0
      · rw [if_pos hend]
        simp
      · rw [if_neg hend]
        simp only
        set n := min length (c.length.toNat - o) with hn
        obtain ⟨hle, hmax, hdata⟩ := ih 0 (length - n) (free - 1) fun _ _ => Nat.zero_le _
        set rest := concatChunks cs 0 (length - n) (free - 1) with hrest
        have hlt := c.length.toNat_lt
        have htoNat : (UInt16.ofNat n).toNat = n := by
          rw [UInt16.toNat_ofNat', Nat.mod_eq_of_lt (by omega)]
        refine ⟨by omega, by omega, ?_⟩
        rw [chunkData_cons, hdata, htoNat, take_drop_chunkData mem c cs _ ho', List.drop_zero,
          show min (length - rest.2) (c.length.toNat - o) = n by omega]
        congr 2
        omega

/-- The data from an offset on is in the chunks that are not skipped. -/
theorem drop_skipChunks (mem : Memory UInt8) (cs : List ChunkDesc) (offset : ℕ) :
    (chunkData mem cs).drop offset
      = (chunkData mem (skipChunks cs offset).1).drop (skipChunks cs offset).2 := by
  obtain ⟨pre, hcs, hoff, -⟩ := skipChunks_spec mem cs offset
  have hdata : chunkData mem cs = chunkData mem pre ++ chunkData mem (skipChunks cs offset).1 := by
    rw [← chunkData_append, ← hcs]
  have hsub : offset - (chunkData mem pre).length = (skipChunks cs offset).2 := by omega
  rw [hdata, List.drop_append, List.drop_eq_nil_of_le (by omega), List.nil_append, hsub]

theorem flat_append (mem : Memory UInt8) (dest : NetBuffer) (cs : List ChunkDesc) :
    flat mem { dest with chunk := dest.chunk ++ cs } = flat mem dest ++ chunkData mem cs :=
  chunkData_append mem dest.chunk cs

theorem netBufferConcat_flat {mem : Memory UInt8} {dest src : NetBuffer} {srcOffset length : ℕ}
    (h : (netBufferConcat dest src srcOffset length).1 = .noError) :
    srcOffset + length ≤ (flat mem src).length ∧
      flat mem (netBufferConcat dest src srcOffset length).2
        = flat mem dest ++ ((flat mem src).drop srcOffset).take length := by
  obtain ⟨pre, hcs, hoff, hhead⟩ := skipChunks_spec mem src.chunk srcOffset
  have hdrop := drop_skipChunks mem src.chunk srcOffset
  have hsub := congrArg List.length hdrop
  rw [List.length_drop, List.length_drop] at hsub
  unfold netBufferConcat at h ⊢
  generalize skipChunks src.chunk srcOffset = skipped at *
  obtain ⟨ds, o⟩ := skipped
  cases ds with
  | nil => simp at h
  | cons c cs =>
      simp only at h hhead hdrop hsub ⊢
      have ho := hhead c rfl
      obtain ⟨hle, hmax, hdata⟩ := concatChunks_spec mem (c :: cs) o length
        (dest.maxChunkCount - dest.chunkCount) fun d hd => (hhead d hd).le
      have hlen := length_chunkData_cons mem c cs
      split at h
      case isTrue hpos => simp at h
      case isFalse hpos =>
        have hzero : (concatChunks (c :: cs) o length (dest.maxChunkCount - dest.chunkCount)).2 = 0 := by
          omega
        rw [hzero, Nat.sub_zero] at hdata hmax
        refine ⟨by simp only [flat]; omega, ?_⟩
        rw [flat_append, hdata, flat, flat, hdrop]

theorem netBufferAppend_flat {mem : Memory UInt8} {dest : NetBuffer} {src length : ℕ}
    (h : (netBufferAppend dest src length).1 = .noError) :
    flat mem (netBufferAppend dest src length).2
      = flat mem dest ++ mem.read src (length % 2 ^ 16) := by
  unfold netBufferAppend at h ⊢
  split
  case isTrue hfull => simp [hfull] at h
  case isFalse hfree =>
    rw [flat_append, chunkData_cons, chunkData_nil, List.append_nil, UInt16.toNat_ofNat']

/-! ## The functions on contents -/

/-- The addresses of a buffer. -/
abbrev NetBuffer.regions (buffer : NetBuffer) : List Region := chunkRegions buffer.chunk

theorem netBufferWrite_flat {mem : Memory UInt8} {dest : NetBuffer} {destOffset src length : ℕ}
    (hsep : Separate dest.regions) (hap : ∀ r ∈ dest.regions, r.Apart ⟨src, length⟩) :
    let k := min length ((flat mem dest).length - destOffset)
    let result := netBufferWrite mem dest destOffset src length
    result.1 = k ∧ flat result.2 dest = splice (flat mem dest) destOffset (mem.read src k) ∧
      SameOutside dest.regions mem result.2 := by
  have h := writeChunks_spec dest.chunk mem destOffset src length 0 hsep hap
  simp only [Nat.zero_add, Nat.sub_zero] at h
  exact h

theorem netBufferRead_flat {mem : Memory UInt8} {dest : ℕ} {src : NetBuffer}
    {srcOffset length : ℕ} (hap : ∀ r ∈ src.regions, Region.Apart ⟨dest, length⟩ r) :
    netBufferRead mem dest src srcOffset length
      = (min length ((flat mem src).length - srcOffset),
         mem.write dest (((flat mem src).drop srcOffset).take length)) := by
  have h := readChunks_spec src.chunk mem dest srcOffset length 0 hap
  simp only [Nat.zero_add, Nat.sub_zero] at h
  exact h

/-- Stores into the last chunks leave the contents of the first ones. -/
theorem chunkData_suffix {mem mem' : Memory UInt8} {pre cs : List ChunkDesc}
    (hsep : Separate (chunkRegions (pre ++ cs))) (h : SameOutside (chunkRegions cs) mem mem') :
    chunkData mem' (pre ++ cs) = chunkData mem pre ++ chunkData mem' cs ∧
      SameOutside (chunkRegions (pre ++ cs)) mem mem' := by
  rw [chunkRegions, List.map_append] at hsep
  obtain ⟨-, -, hpre⟩ := List.pairwise_append.1 hsep
  constructor
  · have hkeep : chunkData mem' pre = chunkData mem pre :=
      h.gather_eq fun r hr r' hr' => (hpre r' hr' r hr).symm
    rw [← hkeep, chunkData_append]
  · intro a ha
    refine h a fun r hr => ha r ?_
    rw [chunkRegions, List.map_append]
    exact List.mem_append_right _ hr

theorem netBufferCopy_flat {mem : Memory UInt8} {dest src : NetBuffer}
    {destOffset srcOffset length : ℕ} (hsep : Separate dest.regions)
    (hap : ApartAll dest.regions src.regions) (hdest : destOffset + length ≤ (flat mem dest).length)
    (hsrc : srcOffset + length ≤ (flat mem src).length) :
    let result := netBufferCopy mem dest destOffset src srcOffset length
    (0 < length → result.1 = .noError) ∧
      flat result.2 dest
        = splice (flat mem dest) destOffset (((flat mem src).drop srcOffset).take length) ∧
      SameOutside dest.regions mem result.2 := by
  obtain ⟨pre, hcs, hoff, hhead⟩ := skipChunks_spec mem dest.chunk destOffset
  obtain ⟨pre', hds, hoff', hhead'⟩ := skipChunks_spec mem src.chunk srcOffset
  have hdrop := drop_skipChunks mem dest.chunk destOffset
  have hdrop' := drop_skipChunks mem src.chunk srcOffset
  have hsub := congrArg List.length hdrop
  have hsub' := congrArg List.length hdrop'
  rw [List.length_drop, List.length_drop] at hsub hsub'
  simp only [flat, NetBuffer.regions] at *
  unfold netBufferCopy
  generalize skipChunks dest.chunk destOffset = skipped at *
  generalize skipChunks src.chunk srcOffset = skipped' at *
  obtain ⟨cs, o⟩ := skipped
  obtain ⟨ds, s⟩ := skipped'
  have hzero : cs = [] ∨ ds = [] → length = 0 := by
    rintro (rfl | rfl)
    · simp only [chunkData_nil, List.length_nil] at hsub
      omega
    · simp only [chunkData_nil, List.length_nil] at hsub'
      omega
  cases cs with
  | nil => simp [hzero (.inl rfl), SameOutside.refl]
  | cons c cs =>
      cases ds with
      | nil => simp [hzero (.inr rfl), SameOutside.refl]
      | cons d ds =>
          simp only at hcs hds hoff hoff' hhead hhead' hdrop' hsub hsub' ⊢
          have hsep' := hsep
          rw [hcs, chunkRegions, List.map_append] at hsep'
          obtain ⟨hleft, hdata, hout⟩ := copyChunks_spec mem (c :: cs) o (d :: ds) s length
            (List.pairwise_append.1 hsep').2.1
            (fun r hr r' hr' => hap r
              (by rw [hcs, chunkRegions, List.map_append]; exact List.mem_append_right _ hr) r'
              (by rw [hds, chunkRegions, List.map_append]; exact List.mem_append_right _ hr'))
            (fun x hx => (hhead x hx).le) (fun x hx => (hhead' x hx).le)
          have hk : min length (min ((chunkData mem (c :: cs)).length - o)
              ((chunkData mem (d :: ds)).drop s).length) = length := by
            rw [List.length_drop]
            omega
          rw [hk] at hleft hdata
          obtain ⟨hwhole, hframe⟩ := chunkData_suffix (by rwa [← hcs]) hout
          rw [← hcs] at hwhole hframe
          refine ⟨fun _ => by rw [hleft]; simp, ?_, hframe⟩
          have ho : destOffset - (chunkData mem pre).length = o := by omega
          rw [hwhole, hdata, ← hdrop', hcs, chunkData_append, splice_append_right (by omega), ho]

/-- The buffer functions compute on contents: what each returns and stores at the arguments `o`,
`s`, `n` and the user's array at `user`. The arrays a function copies between must not overlap, nor
the chunks of a buffer that is written to. -/
structure RefinesFlat (mem : Memory UInt8) (dest src : NetBuffer) (user o s n : ℕ) : Prop where
  getLength : netBufferGetLength src = (flat mem src).length
  at_some : (∃ a, netBufferAt src s = some a) ↔ s < (flat mem src).length
  at_data : ∀ a, netBufferAt src s = some a → ∀ m, (flat m src)[s]? = some (m a)
  read : (∀ r ∈ src.regions, Region.Apart ⟨user, n⟩ r) →
    netBufferRead mem user src s n
      = (min n ((flat mem src).length - s), mem.write user (((flat mem src).drop s).take n))
  write : Separate dest.regions → (∀ r ∈ dest.regions, r.Apart ⟨user, n⟩) →
    let k := min n ((flat mem dest).length - o)
    let result := netBufferWrite mem dest o user n
    result.1 = k ∧ flat result.2 dest = splice (flat mem dest) o (mem.read user k) ∧
      SameOutside dest.regions mem result.2
  copy : Separate dest.regions → ApartAll dest.regions src.regions →
    o + n ≤ (flat mem dest).length → s + n ≤ (flat mem src).length →
    let result := netBufferCopy mem dest o src s n
    (0 < n → result.1 = .noError) ∧
      flat result.2 dest = splice (flat mem dest) o (((flat mem src).drop s).take n) ∧
      SameOutside dest.regions mem result.2
  append : (netBufferAppend dest user n).1 = .noError →
    flat mem (netBufferAppend dest user n).2 = flat mem dest ++ mem.read user n
  concat : (netBufferConcat dest src s n).1 = .noError →
    s + n ≤ (flat mem src).length ∧
      flat mem (netBufferConcat dest src s n).2 = flat mem dest ++ ((flat mem src).drop s).take n

/-- An append that does not fit the 16-bit chunk length. -/
theorem netBufferAppend_ne (mem : Memory UInt8) {dest : NetBuffer} (user : ℕ) {n : ℕ}
    (hfree : dest.chunkCount < dest.maxChunkCount) (hn : 2 ^ 16 ≤ n) :
    (netBufferAppend dest user n).1 = .noError ∧
      flat mem (netBufferAppend dest user n).2 ≠ flat mem dest ++ mem.read user n := by
  have hok : (netBufferAppend dest user n).1 = .noError := by
    rw [netBufferAppend, if_neg (by omega)]
  refine ⟨hok, ?_⟩
  rw [netBufferAppend_flat hok]
  intro h
  have hlen := congrArg List.length (List.append_cancel_left h)
  rw [Memory.length_read, Memory.length_read] at hlen
  omega

/-- **Multi-part buffers are flat byte sequences**, for every chunking and all arguments, exactly if
`netBufferAppend` is not given 64 KiB or more to add to a buffer with a free descriptor. -/
theorem netBuffer_refinesFlat_iff (mem : Memory UInt8) (dest src : NetBuffer) (user o s n : ℕ) :
    RefinesFlat mem dest src user o s n ↔ dest.maxChunkCount ≤ dest.chunkCount ∨ n < 2 ^ 16 := by
  constructor
  · intro h
    by_contra hcon
    rw [not_or, not_le, not_lt] at hcon
    obtain ⟨hok, hne⟩ := netBufferAppend_ne mem user hcon.1 hcon.2
    exact hne (h.append hok)
  · intro h
    refine ⟨netBufferGetLength_eq mem src, ?_, fun a ha m => chunkAt_eq_some ha,
      fun hap => netBufferRead_flat hap, fun hsep hap => netBufferWrite_flat hsep hap,
      fun hsep hap hdest hsrc => netBufferCopy_flat hsep hap hdest hsrc, ?_,
      fun hok => netBufferConcat_flat hok⟩
    · rw [← not_le, flat, ← chunkAt_eq_none, ← Option.ne_none_iff_exists']
      rfl
    · intro hok
      have hfree : ¬ dest.maxChunkCount ≤ dest.chunkCount := by
        intro hfull
        rw [netBufferAppend, if_pos hfull] at hok
        simp at hok
      rw [netBufferAppend_flat hok, Nat.mod_eq_of_lt (by omega)]

/-- 65536 bytes are appended as none. -/
theorem append_64k_not_refinesFlat :
    ¬ RefinesFlat (fun _ => 0) { chunk := [], maxChunkCount := 1 }
      { chunk := [], maxChunkCount := 1 } 0 0 0 65536 := by
  intro h
  have hfree : NetBuffer.chunkCount { chunk := [], maxChunkCount := 1 } < 1 := by decide
  obtain ⟨hok, hne⟩ := netBufferAppend_ne (fun _ => 0) 0 hfree (n := 65536) (by decide)
  exact hne (h.append hok)
