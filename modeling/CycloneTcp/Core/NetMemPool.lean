import CycloneTcp.Core.NetMem
import CycloneTcp.Lib.Handles

set_option autoImplicit false

/-! # Memory blocks of multi-part buffers

A chunk of a `NetBuffer` is owned if its size is not zero: its address is a block that
`memPoolAlloc` has returned and that `memPoolFree` is still to be called for. The other chunks point into
memory that belongs to someone else. `netBufferSetLength` shrinks a buffer or makes it grow, and takes
and releases blocks as it does. -/

open Handles

/-- Size of the blocks. -/
def NET_MEM_POOL_BUFFER_SIZE : ℕ := 1536

/-! ## The memory pool -/

/-- What a memory allocator does: `alloc` gives a block of a certain size that is not in use, if there
is one, and `free` takes it back. `memPoolAlloc` uses the blocks of the pool or the allocator of the
operating system, depending on how the stack is configured. -/
structure MemPool where
  State : Type
  alloc : State → ℕ → Option ℕ × State
  free : State → ℕ → State
  /-- The blocks in use. -/
  used : State → Set ℕ
  alloc_some : ∀ {s s' : State} {size p : ℕ}, alloc s size = (some p, s') →
    p ∉ used s ∧ used s' = insert p (used s)
  alloc_none : ∀ {s s' : State} {size : ℕ}, alloc s size = (none, s') → used s' = used s
  free_used : ∀ {s : State} {p : ℕ}, p ∈ used s → used (free s p) = used s \ {p}

/-- The memory, and the record of its uses so far. -/
structure MemPool.Heap (pool : MemPool) where
  state : pool.State
  log : List (Use ℕ)

variable {pool : MemPool}

/-- The blocks in use. -/
def MemPool.Heap.used (heap : pool.Heap) : Set ℕ := pool.used heap.state

/-- Allocate a memory block. -/
def memPoolAlloc (heap : pool.Heap) (size : ℕ) : Option ℕ × pool.Heap :=
  match pool.alloc heap.state size with
  | (some p, state) => (some p, { state := state, log := heap.log ++ [.acquire p] })
  | (none, state) => (none, { heap with state := state })

/-- Release a memory block. -/
def memPoolFree (heap : pool.Heap) (p : ℕ) : pool.Heap :=
  { state := pool.free heap.state p, log := heap.log ++ [.release p] }

/-! ## The functions -/

/-- The first loop of `netBufferSetLength`: the chunks that are kept, their lengths adjusted where
possible, the chunks that are not reached, and the number of bytes that are missing. -/
def adjustChunks : List ChunkDesc → ℕ → List ChunkDesc × List ChunkDesc × ℕ
  | [], length => ([], [], length)
  | c :: cs, length =>
      if length = 0 then ([], c :: cs, 0)
      else
        let c :=
          if length ≤ c.length.toNat then { c with length := UInt16.ofNat length }
          else if 0 < c.size ∧ cs = [] then
            { c with length := UInt16.ofNat (min length c.size.toNat) }
          else c
        let (kept, unreached, length) := adjustChunks cs (length - c.length.toNat)
        (c :: kept, unreached, length)

/-- Delete chunks: release the memory they own. -/
def deleteChunks (heap : pool.Heap) : List ChunkDesc → pool.Heap
  | [] => heap
  | c :: cs => deleteChunks (if 0 < c.size then memPoolFree heap c.address else heap) cs

/-- Add as many chunks as necessary, at most `free`: the chunks, the number of bytes that are missing,
and whether there was enough memory. -/
def addChunks (heap : pool.Heap) : ℕ → ℕ → List ChunkDesc × ℕ × Bool × pool.Heap
  | 0, length => ([], length, true, heap)
  | free + 1, length =>
      if length = 0 then ([], 0, true, heap)
      else
        match memPoolAlloc heap NET_MEM_POOL_BUFFER_SIZE with
        | (none, heap) => ([], length, false, heap)
        | (some address, heap) =>
            let n := min length NET_MEM_POOL_BUFFER_SIZE
            let c := { address := address, length := UInt16.ofNat n
                       size := UInt16.ofNat NET_MEM_POOL_BUFFER_SIZE }
            let (added, length, enough, heap) := addChunks heap free (length - n)
            (c :: added, length, enough, heap)

/-- Adjust the length of a multi-part buffer. -/
def netBufferSetLength (heap : pool.Heap) (buffer : NetBuffer) (length : ℕ) :
    ErrorCode × NetBuffer × pool.Heap :=
  let (kept, unreached, length) := adjustChunks buffer.chunk length
  if length = 0 then (.noError, { buffer with chunk := kept }, deleteChunks heap unreached)
  else
    let (added, length, enough, heap) :=
      addChunks heap (buffer.maxChunkCount - buffer.chunkCount) length
    let error :=
      if enough = false then .outOfMemory else if 0 < length then .outOfResources else .noError
    (error, { buffer with chunk := kept ++ added }, heap)

/-- `MAX_CHUNK_COUNT`: room for the largest fragmented datagram, and three chunks more. -/
def MAX_CHUNK_COUNT : ℕ := (8192 + NET_MEM_POOL_BUFFER_SIZE - 1) / NET_MEM_POOL_BUFFER_SIZE + 3

/-- `CHUNKED_BUFFER_HEADER_SIZE`: the counters and the chunk descriptors, eight bytes each. -/
def CHUNKED_BUFFER_HEADER_SIZE : ℕ := 8 + MAX_CHUNK_COUNT * 8

/-- Dispose of the multi-part buffer whose header is at `address`. -/
def netBufferFree (heap : pool.Heap) (address : ℕ) (buffer : NetBuffer) : pool.Heap :=
  memPoolFree (netBufferSetLength heap buffer 0).2.2 address

/-- The buffer that `netBufferAlloc` begins with: a single chunk, behind the header. -/
def headerBlock (address : ℕ) : NetBuffer :=
  { chunk := [{
      address := address + CHUNKED_BUFFER_HEADER_SIZE
      length := UInt16.ofNat (NET_MEM_POOL_BUFFER_SIZE - CHUNKED_BUFFER_HEADER_SIZE), size := 0 }]
    maxChunkCount := MAX_CHUNK_COUNT }

/-- Allocate a multi-part buffer: the address of its header and the buffer. -/
def netBufferAlloc (heap : pool.Heap) (length : ℕ) : Option (ℕ × NetBuffer) × pool.Heap :=
  match memPoolAlloc heap NET_MEM_POOL_BUFFER_SIZE with
  | (none, heap) => (none, heap)
  | (some address, heap) =>
      let (error, buffer, heap) := netBufferSetLength heap (headerBlock address) length
      if error ≠ .noError then (none, netBufferFree heap address buffer)
      else (some (address, buffer), heap)

/-! ## Uses of the memory -/

theorem memPoolAlloc_some {heap heap' : pool.Heap} {size p : ℕ}
    (h : memPoolAlloc heap size = (some p, heap')) :
    p ∉ heap.used ∧ heap'.used = insert p heap.used ∧ heap'.log = heap.log ++ [.acquire p] := by
  rw [memPoolAlloc] at h
  cases halloc : pool.alloc heap.state size with
  | mk answer state =>
      rw [halloc] at h
      cases answer with
      | none => cases h
      | some q =>
          cases h
          obtain ⟨hfresh, hused⟩ := pool.alloc_some halloc
          exact ⟨hfresh, hused, rfl⟩

theorem memPoolAlloc_none {heap heap' : pool.Heap} {size : ℕ}
    (h : memPoolAlloc heap size = (none, heap')) :
    heap'.used = heap.used ∧ heap'.log = heap.log := by
  rw [memPoolAlloc] at h
  cases halloc : pool.alloc heap.state size with
  | mk answer state =>
      rw [halloc] at h
      cases answer with
      | none =>
          cases h
          exact ⟨pool.alloc_none halloc, rfl⟩
      | some q => cases h

theorem memPoolFree_used {heap : pool.Heap} {p : ℕ} (h : p ∈ heap.used) :
    (memPoolFree heap p).used = heap.used \ {p} := pool.free_used h

/-- The record tells what is in use: only blocks in use have been released. -/
structure Recorded (heap : pool.Heap) : Prop where
  disciplined : Disciplined ∅ heap.log
  held : held heap.log = heap.used

theorem Recorded.alloc {heap heap' : pool.Heap} {size : ℕ} {answer : Option ℕ}
    (hrec : Recorded heap) (h : memPoolAlloc heap size = (answer, heap')) : Recorded heap' := by
  cases answer with
  | none =>
      obtain ⟨hused, hlog⟩ := memPoolAlloc_none h
      exact ⟨hlog ▸ hrec.disciplined, by rw [hlog, hused, hrec.held]⟩
  | some p =>
      obtain ⟨hfresh, hused, hlog⟩ := memPoolAlloc_some h
      refine ⟨?_, ?_⟩
      · rw [hlog]
        refine disciplined_concat hrec.disciplined ?_
        rw [hrec.held]
        exact hfresh
      · rw [hlog, held_concat, hrec.held, hused]
        rfl

theorem Recorded.free {heap : pool.Heap} {p : ℕ} (hrec : Recorded heap) (h : p ∈ heap.used) :
    Recorded (memPoolFree heap p) := by
  refine ⟨disciplined_concat hrec.disciplined ?_, ?_⟩
  · rw [hrec.held]
    exact h
  · rw [memPoolFree_used h, memPoolFree, held_concat, hrec.held]
    rfl

/-! ## Ownership -/

/-- The blocks that the chunks own. -/
def ownedBlocks (cs : List ChunkDesc) : List ℕ :=
  (cs.filter fun c => decide (0 < c.size)).map (·.address)

@[simp] theorem ownedBlocks_nil : ownedBlocks [] = [] := rfl

theorem ownedBlocks_append (cs ds : List ChunkDesc) :
    ownedBlocks (cs ++ ds) = ownedBlocks cs ++ ownedBlocks ds := by
  rw [ownedBlocks, List.filter_append, List.map_append]
  rfl

theorem ownedBlocks_cons (c : ChunkDesc) (cs : List ChunkDesc) :
    ownedBlocks (c :: cs) = (if 0 < c.size then [c.address] else []) ++ ownedBlocks cs := by
  rw [ownedBlocks, List.filter_cons]
  by_cases h : 0 < c.size
  · simp only [h, decide_true, if_true]
    rfl
  · simp only [h, decide_false, Bool.false_eq_true, if_false]
    rfl

/-- The owned chunks stay inside their blocks. -/
def ChunksFit (cs : List ChunkDesc) : Prop := ∀ c ∈ cs, 0 < c.size → c.length ≤ c.size

/-- The chunks own the blocks in use that do not belong to the `rest`, and nothing else. -/
structure Owns (heap : pool.Heap) (rest : Set ℕ) (cs : List ChunkDesc) : Prop where
  nodup : (ownedBlocks cs).Nodup
  apart : ∀ p ∈ ownedBlocks cs, p ∉ rest
  used : ∀ p, p ∈ heap.used ↔ p ∈ rest ∨ p ∈ ownedBlocks cs
  fits : ChunksFit cs

/-- Each block that has left the chunks has been released once, and no other block. -/
def ReleasesOnce (heap heap' : pool.Heap) (cs cs' : List ChunkDesc) : Prop :=
  ∃ uses, heap'.log = heap.log ++ uses ∧
    ∀ p, uses.count (.release p) = if p ∈ ownedBlocks cs ∧ p ∉ ownedBlocks cs' then 1 else 0

/-! ## The loops -/

/-- What the first loop does to the chunks. -/
structure Adjusted (cs : List ChunkDesc) (length : ℕ) (kept unreached : List ChunkDesc)
    (left : ℕ) : Prop where
  total : ∀ mem, (chunkData mem kept).length + left = length
  reached : 0 < left → unreached = []
  blocks : ownedBlocks cs = ownedBlocks kept ++ ownedBlocks unreached
  fits : ChunksFit kept
  contents : ∀ mem, (chunkData mem kept).take (min length (chunkData mem cs).length)
    = (chunkData mem cs).take (min length (chunkData mem cs).length)

/-- The first bytes of a chunk do not depend on what follows them. -/
theorem take_read_append (mem : Memory UInt8) (pos : ℕ) {k n : ℕ} (xs : List UInt8) (h : k ≤ n) :
    (mem.read pos n ++ xs).take k = mem.read pos k := by
  rw [List.take_append_of_le_length (by simpa using h), Memory.take_read mem pos h]

/-- One pass of the loop: the length of the chunk `c` is adjusted, and the loop goes on with `cs`. -/
theorem Adjusted.cons {c c' : ChunkDesc} {cs kept unreached : List ChunkDesc} {length left : ℕ}
    (h : Adjusted cs (length - c'.length.toNat) kept unreached left)
    (hle : c'.length.toNat ≤ length) (haddress : c'.address = c.address) (hsize : c'.size = c.size)
    (hfit : 0 < c'.size → c'.length ≤ c'.size)
    (hcase : c'.length = c.length ∨ (c'.length.toNat = length ∧ length ≤ c.length.toNat) ∨
      (cs = [] ∧ c.length.toNat ≤ c'.length.toNat)) :
    Adjusted (c :: cs) length (c' :: kept) unreached left := by
  refine ⟨fun mem => ?_, h.reached, ?_, ?_, fun mem => ?_⟩
  · have htotal := h.total mem
    rw [length_chunkData_cons]
    omega
  · rw [ownedBlocks_cons, ownedBlocks_cons, haddress, hsize, h.blocks, List.append_assoc]
  · intro d hd
    rcases List.mem_cons.1 hd with rfl | hd
    · exact hfit
    · exact h.fits d hd
  · rw [chunkData_cons, chunkData_cons, haddress, List.length_append, Memory.length_read]
    rcases hcase with hsame | ⟨hall, hshort⟩ | ⟨hlast, hlonger⟩
    · have hrest := h.contents mem
      rw [hsame] at hrest hle ⊢
      have hk : min length (c.length.toNat + (chunkData mem cs).length) - c.length.toNat
          = min (length - c.length.toNat) (chunkData mem cs).length := by omega
      rw [List.take_append, List.take_append, Memory.length_read, hk, hrest]
    · rw [take_read_append, take_read_append] <;> omega
    · rw [hlast, chunkData_nil, List.length_nil, take_read_append, take_read_append] <;> omega

theorem adjustChunks_spec (cs : List ChunkDesc) (length : ℕ) (hfits : ChunksFit cs) :
    Adjusted cs length (adjustChunks cs length).1 (adjustChunks cs length).2.1
      (adjustChunks cs length).2.2 := by
  induction cs generalizing length with
  | nil => exact ⟨fun mem => by simp [adjustChunks], fun _ => rfl, rfl, nofun, fun mem => rfl⟩
  | cons c cs ih =>
      have hfits' : ChunksFit cs := fun d hd => hfits d (List.mem_cons_of_mem _ hd)
      have hfit := hfits c (List.mem_cons_self ..)
      have hlen16 := c.length.toNat_lt
      have hsize16 := c.size.toNat_lt
      rw [adjustChunks]
      by_cases hzero : length = 0
      · rw [if_pos hzero]
        refine ⟨fun mem => by simp [hzero], fun h => absurd h (lt_irrefl 0), rfl, nofun, fun mem => ?_⟩
        rw [hzero, Nat.zero_min, List.take_zero, List.take_zero]
      rw [if_neg hzero]
      by_cases hshort : length ≤ c.length.toNat
      · rw [if_pos hshort]
        have hn : (UInt16.ofNat length).toNat = length :=
          UInt16.toNat_ofNat_of_lt' (by rw [UInt16.size]; omega)
        refine Adjusted.cons (ih _ hfits') hn.le rfl rfl (fun hpos => ?_) (.inr (.inl ⟨hn, hshort⟩))
        have hle := UInt16.le_iff_toNat_le.1 (hfit hpos)
        rw [UInt16.le_iff_toNat_le, hn]
        exact hshort.trans hle
      rw [if_neg hshort]
      by_cases hlast : 0 < c.size ∧ cs = []
      · rw [if_pos hlast]
        have hn : (UInt16.ofNat (min length c.size.toNat)).toNat = min length c.size.toNat :=
          UInt16.toNat_ofNat_of_lt' (by rw [UInt16.size]; omega)
        have hle := UInt16.le_iff_toNat_le.1 (hfit hlast.1)
        refine Adjusted.cons (ih _ hfits') ?_ rfl rfl (fun _ => ?_) (.inr (.inr ⟨hlast.2, ?_⟩))
        · rw [hn]
          exact Nat.min_le_left _ _
        · rw [UInt16.le_iff_toNat_le, hn]
          exact Nat.min_le_right _ _
        · rw [hn]
          omega
      · rw [if_neg hlast]
        exact Adjusted.cons (ih _ hfits') (not_le.1 hshort).le rfl rfl hfit (.inl rfl)

/-- The second loop releases the blocks of the chunks, in order. -/
theorem deleteChunks_spec (cs : List ChunkDesc) (heap : pool.Heap) (hnodup : (ownedBlocks cs).Nodup)
    (hused : ∀ p ∈ ownedBlocks cs, p ∈ heap.used) :
    (deleteChunks heap cs).log = heap.log ++ (ownedBlocks cs).map .release ∧
      (∀ p, p ∈ (deleteChunks heap cs).used ↔ p ∈ heap.used ∧ p ∉ ownedBlocks cs) ∧
      (Recorded heap → Recorded (deleteChunks heap cs)) := by
  induction cs generalizing heap with
  | nil => exact ⟨by simp [deleteChunks], by simp [deleteChunks], id⟩
  | cons c cs ih =>
      rw [ownedBlocks_cons] at hnodup hused ⊢
      rw [deleteChunks]
      by_cases hpos : 0 < c.size
      · simp only [hpos, if_true, List.singleton_append] at hnodup hused ⊢
        obtain ⟨hfirst, hnodup⟩ := List.nodup_cons.1 hnodup
        have hc := hused c.address (List.mem_cons_self ..)
        have hfree := memPoolFree_used hc
        obtain ⟨hlog, hall, hrec⟩ := ih (memPoolFree heap c.address) hnodup fun p hp => by
          rw [hfree]
          refine ⟨hused p (List.mem_cons_of_mem _ hp), fun heq => hfirst ?_⟩
          rw [← Set.mem_singleton_iff.1 heq]
          exact hp
        refine ⟨?_, fun p => ?_, fun h => hrec (h.free hc)⟩
        · rw [hlog, memPoolFree, List.map_cons, List.append_assoc]
          rfl
        · rw [hall, hfree, Set.mem_sdiff, Set.mem_singleton_iff, List.mem_cons, not_or, and_assoc]
      · simp only [hpos, if_false, List.nil_append] at hnodup hused ⊢
        exact ih heap hnodup hused

/-- What the third loop does: it has acquired the blocks of the chunks it adds. -/
structure Added (heap heap' : pool.Heap) (length : ℕ) (added : List ChunkDesc) (left : ℕ) :
    Prop where
  total : ∀ mem, (chunkData mem added).length + left = length
  log : heap'.log = heap.log ++ (ownedBlocks added).map .acquire
  nodup : (ownedBlocks added).Nodup
  fresh : ∀ p ∈ ownedBlocks added, p ∉ heap.used
  used : ∀ p, p ∈ heap'.used ↔ p ∈ heap.used ∨ p ∈ ownedBlocks added
  fits : ChunksFit added
  recorded : Recorded heap → Recorded heap'

theorem Added.none {heap heap' : pool.Heap} (length : ℕ) (hlog : heap'.log = heap.log)
    (hused : heap'.used = heap.used) (hrec : Recorded heap → Recorded heap') :
    Added heap heap' length [] length := by
  refine ⟨fun mem => by simp, by simp [hlog], by simp, nofun, fun p => by simp [hused], nofun, hrec⟩

theorem addChunks_spec (heap : pool.Heap) (free length : ℕ) :
    Added heap (addChunks heap free length).2.2.2 length (addChunks heap free length).1
      (addChunks heap free length).2.1 := by
  induction free generalizing heap length with
  | zero => exact .none length rfl rfl id
  | succ free ih =>
      rw [addChunks]
      by_cases hzero : length = 0
      · rw [if_pos hzero, hzero]
        exact .none 0 rfl rfl id
      rw [if_neg hzero]
      cases halloc : memPoolAlloc heap NET_MEM_POOL_BUFFER_SIZE with
      | mk answer heap1 =>
          cases answer with
          | none =>
              obtain ⟨hused, hlog⟩ := memPoolAlloc_none halloc
              exact .none length hlog hused fun h => h.alloc halloc
          | some address =>
              obtain ⟨hfresh, hused, hlog⟩ := memPoolAlloc_some halloc
              have hadded := ih heap1 (length - min length NET_MEM_POOL_BUFFER_SIZE)
              have hsize : (0 : UInt16) < UInt16.ofNat NET_MEM_POOL_BUFFER_SIZE := by decide
              have hn : (UInt16.ofNat (min length NET_MEM_POOL_BUFFER_SIZE)).toNat
                  = min length NET_MEM_POOL_BUFFER_SIZE := by
                refine UInt16.toNat_ofNat_of_lt' ?_
                rw [NET_MEM_POOL_BUFFER_SIZE, UInt16.size]
                omega
              simp only
              generalize addChunks heap1 free (length - min length NET_MEM_POOL_BUFFER_SIZE) = r
                at hadded ⊢
              obtain ⟨added, left, enough, heap2⟩ := r
              simp only at hadded ⊢
              have hnew : address ∉ ownedBlocks added := fun hp =>
                hadded.fresh address hp (by rw [hused]; exact Set.mem_insert ..)
              refine ⟨fun mem => ?_, ?_, ?_, ?_, fun p => ?_, ?_,
                fun h => hadded.recorded (h.alloc halloc)⟩
              · have htotal := hadded.total mem
                rw [length_chunkData_cons]
                simp only [hn]
                omega
              · rw [ownedBlocks_cons, if_pos hsize, hadded.log, hlog]
                simp
              · rw [ownedBlocks_cons, if_pos hsize]
                exact List.nodup_cons.2 ⟨hnew, hadded.nodup⟩
              · intro p hp
                rw [ownedBlocks_cons, if_pos hsize] at hp
                rcases List.mem_cons.1 hp with rfl | hp
                · exact hfresh
                · exact fun hold => hadded.fresh p hp (by rw [hused]; exact .inr hold)
              · rw [hadded.used, hused, ownedBlocks_cons, if_pos hsize, Set.mem_insert_iff,
                  List.singleton_append, List.mem_cons]
                tauto
              · intro d hd hpos
                rcases List.mem_cons.1 hd with rfl | hd
                · rw [UInt16.le_iff_toNat_le, hn]
                  exact Nat.min_le_right _ _
                · exact hadded.fits d hd hpos

/-! ## Resizing -/

/-- Releasing different blocks releases each of them once. -/
theorem count_release {blocks : List ℕ} (hnodup : blocks.Nodup) (p : ℕ) :
    (blocks.map Use.release).count (.release p) = if p ∈ blocks then 1 else 0 := by
  rw [List.count_map_of_injective _ _ (fun a b h => by cases h; rfl), hnodup.count]

theorem count_release_acquire (blocks : List ℕ) (p : ℕ) :
    (blocks.map Use.acquire).count (.release p) = 0 := by
  refine List.count_eq_zero.2 fun h => ?_
  obtain ⟨q, -, hq⟩ := List.mem_map.1 h
  cases hq

/-- What `netBufferSetLength` guarantees in every case. -/
structure Resized (heap heap' : pool.Heap) (rest : Set ℕ) (cs cs' : List ChunkDesc)
    (length : ℕ) : Prop where
  owns : Owns heap' rest cs'
  releases : ReleasesOnce heap heap' cs cs'
  contents : ∀ mem, (chunkData mem cs').take (min length (chunkData mem cs).length)
    = (chunkData mem cs).take (min length (chunkData mem cs).length)
  recorded : Recorded heap → Recorded heap'

section Resize

variable {heap heap' : pool.Heap} {rest : Set ℕ} {cs kept unreached : List ChunkDesc}
  {length left : ℕ}

/-- The buffer shrinks: the chunks that are not reached are deleted. -/
theorem Adjusted.shrink (h : Adjusted cs length kept unreached left) (howns : Owns heap rest cs) :
    Resized heap (deleteChunks heap unreached) rest cs kept length := by
  have hnodup := howns.nodup
  rw [h.blocks, List.nodup_append] at hnodup
  obtain ⟨hkept, hunreached, hdisjoint⟩ := hnodup
  have hapart : ∀ p ∈ ownedBlocks unreached, p ∉ ownedBlocks kept := fun p hp hk =>
    hdisjoint p hk p hp rfl
  have hmem : ∀ p, p ∈ ownedBlocks cs ↔ p ∈ ownedBlocks kept ∨ p ∈ ownedBlocks unreached := by
    intro p
    rw [h.blocks, List.mem_append]
  obtain ⟨hlog, hused, hrec⟩ := deleteChunks_spec unreached heap hunreached fun p hp =>
    (howns.used p).2 (.inr ((hmem p).2 (.inr hp)))
  refine ⟨⟨hkept, ?_, ?_, h.fits⟩, ⟨_, hlog, fun p => ?_⟩, h.contents, hrec⟩
  · exact fun p hp => howns.apart p ((hmem p).2 (.inl hp))
  · intro p
    have hrest : p ∈ rest → p ∉ ownedBlocks unreached := fun hp hu =>
      howns.apart p ((hmem p).2 (.inr hu)) hp
    have hout := hapart p
    rw [hused, howns.used, hmem]
    tauto
  · rw [count_release hunreached]
    have hout := hapart p
    refine if_congr ?_ rfl rfl
    rw [hmem]
    tauto

/-- The buffer grows: all chunks are kept, and others are added. -/
theorem Adjusted.grow {added : List ChunkDesc} {left' : ℕ} (h : Adjusted cs length kept [] left)
    (howns : Owns heap rest cs) (hadded : Added heap heap' left added left') :
    Resized heap heap' rest cs (kept ++ added) length := by
  have hblocks : ownedBlocks cs = ownedBlocks kept := by
    rw [h.blocks, ownedBlocks_nil, List.append_nil]
  have hnodup := howns.nodup
  rw [hblocks] at hnodup
  have hfresh : ∀ p ∈ ownedBlocks added, p ∉ rest ∧ p ∉ ownedBlocks kept := fun p hp => by
    have hnew := hadded.fresh p hp
    rw [howns.used, not_or, hblocks] at hnew
    exact hnew
  refine ⟨⟨?_, ?_, ?_, ?_⟩, ⟨_, hadded.log, fun p => ?_⟩, fun mem => ?_, hadded.recorded⟩
  · rw [ownedBlocks_append, List.nodup_append]
    refine ⟨hnodup, hadded.nodup, fun p hp q hq heq => ?_⟩
    exact (hfresh q hq).2 (heq ▸ hp)
  · intro p hp
    rw [ownedBlocks_append, List.mem_append] at hp
    rcases hp with hp | hp
    · exact howns.apart p (hblocks ▸ hp)
    · exact (hfresh p hp).1
  · intro p
    rw [hadded.used, howns.used, ownedBlocks_append, List.mem_append, hblocks, or_assoc]
  · intro c hc
    rcases List.mem_append.1 hc with hc | hc
    · exact h.fits c hc
    · exact hadded.fits c hc
  · rw [count_release_acquire, if_neg]
    rintro ⟨hp, hout⟩
    refine hout ?_
    rw [ownedBlocks_append, List.mem_append]
    exact .inl (hblocks ▸ hp)
  · have htotal := h.total mem
    have hcontents := h.contents mem
    have hlen := congrArg List.length hcontents
    rw [List.length_take, List.length_take] at hlen
    rw [chunkData_append, List.take_append_of_le_length, hcontents]
    omega

end Resize

theorem netBufferSetLength_resized {heap : pool.Heap} {rest : Set ℕ} {buffer : NetBuffer}
    (h : Owns heap rest buffer.chunk) (length : ℕ) :
    Resized heap (netBufferSetLength heap buffer length).2.2 rest buffer.chunk
      (netBufferSetLength heap buffer length).2.1.chunk length := by
  have hadjusted := adjustChunks_spec buffer.chunk length h.fits
  rw [netBufferSetLength]
  generalize adjustChunks buffer.chunk length = r at hadjusted ⊢
  obtain ⟨kept, unreached, left⟩ := r
  simp only at hadjusted ⊢
  split
  · exact hadjusted.shrink h
  case isFalse hleft =>
    have hnil : unreached = [] := hadjusted.reached (Nat.pos_of_ne_zero hleft)
    subst hnil
    exact hadjusted.grow h (addChunks_spec heap _ left)

theorem netBufferSetLength_noError {heap : pool.Heap} {buffer : NetBuffer} {length : ℕ}
    (hfits : ChunksFit buffer.chunk)
    (hok : (netBufferSetLength heap buffer length).1 = .noError) :
    netBufferGetLength (netBufferSetLength heap buffer length).2.1 = length := by
  have hadjusted := adjustChunks_spec buffer.chunk length hfits
  rw [netBufferSetLength] at hok ⊢
  generalize adjustChunks buffer.chunk length = r at hadjusted hok ⊢
  obtain ⟨kept, unreached, left⟩ := r
  have mem : Memory UInt8 := fun _ => 0
  simp only at hadjusted hok ⊢
  rw [netBufferGetLength_eq mem]
  have htotal := hadjusted.total mem
  split
  case isTrue hleft =>
    simp only [flat]
    omega
  case isFalse hleft =>
    rw [if_neg hleft] at hok
    have hadded := (addChunks_spec heap (buffer.maxChunkCount - buffer.chunkCount) left).total mem
    generalize addChunks heap (buffer.maxChunkCount - buffer.chunkCount) left = r at hadded hok ⊢
    obtain ⟨added, left', enough, heap'⟩ := r
    simp only at hadded hok ⊢
    have hzero : left' = 0 := by
      by_contra hne
      rw [if_pos (Nat.pos_of_ne_zero hne)] at hok
      split at hok <;> cases hok
    rw [flat, chunkData_append, List.length_append]
    omega

/-- To shrink a buffer never fails; to shrink it to nothing leaves no chunk. -/
theorem netBufferSetLength_zero (heap : pool.Heap) (buffer : NetBuffer) :
    (netBufferSetLength heap buffer 0).1 = .noError ∧
      (netBufferSetLength heap buffer 0).2.1.chunk = [] := by
  rw [netBufferSetLength]
  cases buffer.chunk with
  | nil => exact ⟨rfl, rfl⟩
  | cons c cs => exact ⟨rfl, rfl⟩

/-- **Resizing loses neither data nor memory**, and shrinking the buffer to nothing gives all of its
memory back. -/
theorem netBufferSetLength_resizes {heap : pool.Heap} {rest : Set ℕ} {buffer : NetBuffer}
    (h : Owns heap rest buffer.chunk) (length : ℕ) :
    let r := netBufferSetLength heap buffer length
    let r0 := netBufferSetLength r.2.2 r.2.1 0
    (r.1 = .noError → netBufferGetLength r.2.1 = length ∧
      ∀ mem, (flat mem r.2.1).take (min (netBufferGetLength buffer) length)
        = (flat mem buffer).take (min (netBufferGetLength buffer) length)) ∧
      Owns r.2.2 rest r.2.1.chunk ∧ ReleasesOnce heap r.2.2 buffer.chunk r.2.1.chunk ∧
      r0.1 = .noError ∧ r0.2.1.chunk = [] ∧ Owns r0.2.2 rest [] ∧
      ReleasesOnce r.2.2 r0.2.2 r.2.1.chunk [] := by
  intro r r0
  have hresized := netBufferSetLength_resized h length
  have hempty := netBufferSetLength_resized hresized.owns 0
  obtain ⟨hok, hnil⟩ := netBufferSetLength_zero r.2.2 r.2.1
  rw [hnil] at hempty
  refine ⟨fun hno => ⟨netBufferSetLength_noError h.fits hno, fun mem => ?_⟩, hresized.owns,
    hresized.releases, hok, hnil, hempty.owns, hempty.releases⟩
  rw [netBufferGetLength_eq mem, Nat.min_comm]
  exact hresized.contents mem

/-! ## The fixed-size blocks -/

/-- The allocation table of the pool, and its statistics. -/
structure PoolTable where
  allocTable : List Bool
  currentUsage : ℕ
  maxUsage : ℕ
  deriving DecidableEq, Repr

/-- The address of block `i` of the pool at `memPool`. -/
def blockAddress (memPool i : ℕ) : ℕ := memPool + i * NET_MEM_POOL_BUFFER_SIZE

theorem blockAddress_inj {memPool i j : ℕ} (h : blockAddress memPool i = blockAddress memPool j) :
    i = j := by
  rw [blockAddress, blockAddress, NET_MEM_POOL_BUFFER_SIZE] at h
  omega

/-- Mark the first free block as used. -/
def PoolTable.alloc (memPool : ℕ) (table : PoolTable) (size : ℕ) : Option ℕ × PoolTable :=
  if size ≤ NET_MEM_POOL_BUFFER_SIZE then
    match table.allocTable.findIdx? (· == false) with
    | some i =>
        (some (blockAddress memPool i),
          { allocTable := table.allocTable.set i true
            currentUsage := table.currentUsage + 1
            maxUsage := max (table.currentUsage + 1) table.maxUsage })
    | none => (none, table)
  else (none, table)

/-- Mark the block at `p` as free. -/
def PoolTable.free (memPool : ℕ) (table : PoolTable) (p : ℕ) : PoolTable :=
  match (List.range table.allocTable.length).find? (blockAddress memPool · == p) with
  | some i =>
      { table with
        allocTable := table.allocTable.set i false, currentUsage := table.currentUsage - 1 }
  | none => table

/-- The blocks that are marked as used. -/
def PoolTable.used (memPool : ℕ) (table : PoolTable) : Set ℕ :=
  {p | ∃ i, table.allocTable[i]? = some true ∧ blockAddress memPool i = p}

theorem PoolTable.alloc_some {memPool size p : ℕ} {table table' : PoolTable}
    (h : table.alloc memPool size = (some p, table')) :
    p ∉ table.used memPool ∧ table'.used memPool = insert p (table.used memPool) := by
  rw [PoolTable.alloc] at h
  split at h
  case isFalse => cases h
  split at h
  case h_2 => cases h
  case h_1 i hi =>
    cases h
    obtain ⟨hlt, hfree, -⟩ := List.findIdx?_eq_some_iff_getElem.1 hi
    have hat : table.allocTable[i]? = some false := by
      rw [List.getElem?_eq_getElem hlt]
      simpa using hfree
    refine ⟨?_, ?_⟩
    · rintro ⟨j, hj, heq⟩
      rw [blockAddress_inj heq, hat] at hj
      cases hj
    · ext q
      simp only [PoolTable.used, Set.mem_ofPred_eq, Set.mem_insert_iff, List.getElem?_set]
      constructor
      · rintro ⟨j, hj, rfl⟩
        by_cases hij : i = j
        · exact .inl (by rw [hij])
        · rw [if_neg hij] at hj
          exact .inr ⟨j, hj, rfl⟩
      · rintro (rfl | ⟨j, hj, rfl⟩)
        · exact ⟨i, by rw [if_pos rfl, if_pos hlt], rfl⟩
        · refine ⟨j, ?_, rfl⟩
          by_cases hij : i = j
          · rw [← hij, hat] at hj
            cases hj
          · rw [if_neg hij]
            exact hj

theorem PoolTable.alloc_none {memPool size : ℕ} {table table' : PoolTable}
    (h : table.alloc memPool size = (none, table')) : table' = table := by
  rw [PoolTable.alloc] at h
  split at h
  case isFalse => exact (congrArg Prod.snd h).symm
  split at h
  case h_1 => cases h
  case h_2 => exact (congrArg Prod.snd h).symm

theorem PoolTable.free_used {memPool p : ℕ} {table : PoolTable} (h : p ∈ table.used memPool) :
    (table.free memPool p).used memPool = table.used memPool \ {p} := by
  obtain ⟨i, hi, rfl⟩ := h
  have hlt : i < table.allocTable.length := by
    by_contra hge
    rw [List.getElem?_eq_none (not_lt.1 hge)] at hi
    cases hi
  have hfind : (List.range table.allocTable.length).find?
      (blockAddress memPool · == blockAddress memPool i) = some i := by
    cases hfind : (List.range table.allocTable.length).find?
        (blockAddress memPool · == blockAddress memPool i) with
    | none =>
        have hno := List.find?_eq_none.1 hfind i (List.mem_range.2 hlt)
        simp at hno
    | some j =>
        have hj := List.find?_some hfind
        rw [blockAddress_inj (beq_iff_eq.1 hj)]
  rw [PoolTable.free, hfind]
  ext q
  simp only [PoolTable.used, Set.mem_ofPred_eq, Set.mem_sdiff, Set.mem_singleton_iff,
    List.getElem?_set]
  constructor
  · rintro ⟨j, hj, rfl⟩
    by_cases hij : i = j
    · rw [if_pos hij] at hj
      split at hj <;> cases hj
    · rw [if_neg hij] at hj
      exact ⟨⟨j, hj, rfl⟩, fun heq => hij (blockAddress_inj heq).symm⟩
  · rintro ⟨⟨j, hj, rfl⟩, hne⟩
    refine ⟨j, ?_, rfl⟩
    rw [if_neg, hj]
    rintro rfl
    exact hne rfl

/-- The pool at `memPool`, with blocks of a fixed size. -/
def fixedBlocks (memPool : ℕ) : MemPool where
  State := PoolTable
  alloc := PoolTable.alloc memPool
  free := PoolTable.free memPool
  used := PoolTable.used memPool
  alloc_some := PoolTable.alloc_some
  alloc_none h := by rw [PoolTable.alloc_none h]
  free_used := PoolTable.free_used

/-- A pool of `n` free blocks. -/
def freeBlocks (n : ℕ) : (fixedBlocks 4096).Heap :=
  { state := { allocTable := List.replicate n false, currentUsage := 0, maxUsage := 0 }, log := [] }

theorem freeBlocks_used (n : ℕ) : (freeBlocks n).used = ∅ := by
  ext p
  refine iff_of_false ?_ (Set.notMem_empty p)
  rintro ⟨i, hi, -⟩
  have hmem := List.mem_of_getElem? hi
  exact absurd (List.eq_of_mem_replicate hmem) (by decide)

theorem freeBlocks_owns (n : ℕ) : Owns (freeBlocks n) ∅ [] := by
  refine ⟨List.nodup_nil, nofun, fun p => ?_, nofun⟩
  rw [freeBlocks_used]
  simp

/-- A buffer grows to 4000 bytes while there are but two blocks: the third cannot be had, and the two
are given back. -/
theorem netBufferSetLength_resizes_twoBlocks :
    let r := netBufferSetLength (freeBlocks 2) { chunk := [], maxChunkCount := 3 } 4000
    r.1 = .outOfMemory ∧ ownedBlocks r.2.1.chunk = [4096, 5632] ∧ Owns r.2.2 ∅ r.2.1.chunk ∧
      ReleasesOnce r.2.2 (netBufferSetLength r.2.2 r.2.1 0).2.2 r.2.1.chunk [] := by
  have h := @netBufferSetLength_resizes _ _ _ { chunk := [], maxChunkCount := 3 }
    (freeBlocks_owns 2) 4000
  exact ⟨by decide, by decide, h.2.1, h.2.2.2.2.2.2⟩

/-! ## The life of a buffer -/

theorem headerBlock_owns {heap heap' : pool.Heap} {size address : ℕ}
    (h : memPoolAlloc heap size = (some address, heap')) :
    Owns heap' (insert address heap.used) (headerBlock address).chunk := by
  refine ⟨List.nodup_nil, nofun, fun p => ?_, fun c hc hpos => ?_⟩
  · rw [(memPoolAlloc_some h).2.1]
    exact ⟨.inl, fun hp => hp.resolve_right nofun⟩
  · rw [List.mem_singleton.1 hc] at hpos
    exact absurd hpos (lt_irrefl 0)

/-- A buffer that has been allocated owns its blocks; its header is one more. -/
theorem netBufferAlloc_some {heap heap' : pool.Heap} {length address : ℕ} {buffer : NetBuffer}
    (h : netBufferAlloc heap length = (some (address, buffer), heap')) :
    address ∉ heap.used ∧ Owns heap' (insert address heap.used) buffer.chunk ∧
      netBufferGetLength buffer = length ∧ (Recorded heap → Recorded heap') := by
  rw [netBufferAlloc] at h
  cases halloc : memPoolAlloc heap NET_MEM_POOL_BUFFER_SIZE with
  | mk answer heap1 =>
      rw [halloc] at h
      cases answer with
      | none => cases h
      | some p =>
          have howns := headerBlock_owns halloc
          have hresized := netBufferSetLength_resized howns length
          have hlength := @netBufferSetLength_noError _ heap1 _ length howns.fits
          simp only at h
          split at h
          · cases h
          case isFalse hok =>
            cases h
            exact ⟨(memPoolAlloc_some halloc).1, hresized.owns, hlength (not_not.1 hok),
              fun hrec => hresized.recorded (hrec.alloc halloc)⟩

/-- Disposing of a buffer gives back its blocks and its header. -/
theorem netBufferFree_used {heap : pool.Heap} {rest : Set ℕ} {address : ℕ} {buffer : NetBuffer}
    (howns : Owns heap (insert address rest) buffer.chunk) (haddress : address ∉ rest) :
    (netBufferFree heap address buffer).used = rest ∧
      (Recorded heap → Recorded (netBufferFree heap address buffer)) := by
  have hempty := netBufferSetLength_resized howns 0
  rw [(netBufferSetLength_zero heap buffer).2] at hempty
  have hused : ∀ p, p ∈ (netBufferSetLength heap buffer 0).2.2.used ↔ p ∈ insert address rest :=
    fun p => (hempty.owns.used p).trans ⟨fun hp => hp.resolve_right nofun, .inl⟩
  have hmem := (hused address).2 (Set.mem_insert ..)
  refine ⟨?_, fun hrec => (hempty.recorded hrec).free hmem⟩
  rw [netBufferFree, memPoolFree_used hmem]
  ext p
  rw [Set.mem_sdiff, hused, Set.mem_insert_iff, Set.mem_singleton_iff]
  constructor
  · rintro ⟨rfl | hp, hne⟩
    · exact absurd rfl hne
    · exact hp
  · exact fun hp => ⟨.inr hp, fun heq => haddress (heq ▸ hp)⟩

/-- Memory that is not enough for the whole buffer is given back. -/
theorem netBufferAlloc_none {heap heap' : pool.Heap} {length : ℕ}
    (h : netBufferAlloc heap length = (none, heap')) :
    heap'.used = heap.used ∧ (Recorded heap → Recorded heap') := by
  rw [netBufferAlloc] at h
  cases halloc : memPoolAlloc heap NET_MEM_POOL_BUFFER_SIZE with
  | mk answer heap1 =>
      rw [halloc] at h
      cases answer with
      | none =>
          cases h
          exact ⟨(memPoolAlloc_none halloc).1, fun hrec => hrec.alloc halloc⟩
      | some p =>
          have hresized := netBufferSetLength_resized (headerBlock_owns halloc) length
          obtain ⟨hused, hrec⟩ := netBufferFree_used hresized.owns (memPoolAlloc_some halloc).1
          simp only at h
          split at h
          · cases h
            exact ⟨hused, fun h => hrec (hresized.recorded (h.alloc halloc))⟩
          · cases h

/-- The buffer is resized to one length after the other. -/
def resizeAll (heap : pool.Heap) (buffer : NetBuffer) : List ℕ → NetBuffer × pool.Heap
  | [] => (buffer, heap)
  | length :: lengths =>
      let (_, buffer, heap) := netBufferSetLength heap buffer length
      resizeAll heap buffer lengths

theorem resizeAll_owns {heap : pool.Heap} {rest : Set ℕ} {buffer : NetBuffer} (lengths : List ℕ)
    (h : Owns heap rest buffer.chunk) :
    Owns (resizeAll heap buffer lengths).2 rest (resizeAll heap buffer lengths).1.chunk ∧
      (Recorded heap → Recorded (resizeAll heap buffer lengths).2) := by
  induction lengths generalizing heap buffer with
  | nil => exact ⟨h, id⟩
  | cons length lengths ih =>
      have hresized := netBufferSetLength_resized h length
      obtain ⟨howns, hrec⟩ := ih hresized.owns
      exact ⟨howns, fun h => hrec (hresized.recorded h)⟩

/-- **A buffer leaves no trace**: whatever its length has been in between, all the memory that has been
taken for it has been given back, and nothing has been released that was not in use. -/
theorem netBuffer_life {heap heap' : pool.Heap} {length address : ℕ} {buffer : NetBuffer}
    (h : netBufferAlloc heap length = (some (address, buffer), heap')) (lengths : List ℕ) :
    let r := resizeAll heap' buffer lengths
    (netBufferFree r.2 address r.1).used = heap.used ∧
      (Recorded heap → Recorded (netBufferFree r.2 address r.1)) := by
  obtain ⟨hfresh, howns, -, hrec⟩ := netBufferAlloc_some h
  obtain ⟨howns', hrec'⟩ := resizeAll_owns lengths howns
  obtain ⟨hused, hrec''⟩ := netBufferFree_used howns' hfresh
  exact ⟨hused, fun h => hrec'' (hrec' (hrec h))⟩
