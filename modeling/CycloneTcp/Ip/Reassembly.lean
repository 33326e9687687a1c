import CycloneTcp.Ip.HoleList

/-! # Reassembly

Reassembly is the same for both versions of the protocol but for the headers: a fragment is compared
with the headers of the datagrams in the queue, and the first fragment supplies the header of the
datagram. What a protocol has to say about headers is a `Protocol`; what the memory pool answers
while a fragment is processed is a `Pool`. -/

set_option autoImplicit false

namespace Ip

open HoleList

/-! ## The functions -/

/-- `NET_MEM_POOL_BUFFER_SIZE`: the size of the first chunk. -/
def NET_MEM_POOL_BUFFER_SIZE : ℕ := 1536

/-- The size of a hole descriptor. -/
def holeDescSize : ℕ := 6

/-- The part of the data a fragment carries. -/
structure Fragment where
  dataFirst : UInt16
  more : Bool
  data : List UInt8
  deriving DecidableEq

/-- What the fragments and the headers of a protocol look like. Headers come with their length. -/
structure Protocol (P H K : Type*) where
  /-- The fragment a packet carries. -/
  fragment : P → Fragment
  /-- What the fragments of one datagram have in common. -/
  key : P → K
  headerKey : H → K
  /-- The header of a new entry of the queue. -/
  newHeader : P → H × ℕ
  /-- The header that the first fragment supplies. -/
  firstHeader : P → H × ℕ
  /-- The header of the reconstructed datagram, given the lengths of the header and of the data. -/
  fixHeader : H → ℕ → ℕ → H
  /-- The largest datagram that is reassembled. -/
  maxDatagramSize : ℕ
  headerKey_newHeader : ∀ packet, headerKey (newHeader packet).1 = key packet
  headerKey_firstHeader : ∀ packet, headerKey (firstHeader packet).1 = key packet
  headerKey_fixHeader : ∀ header headerLength dataLen,
    headerKey (fixHeader header headerLength dataLen) = headerKey header

/-- The memory pool: does it supply memory for a new entry, with which contents, and for more data?
-/
structure Pool where
  create : Bool
  grow : Bool
  contents : Memory UInt8

/-- An entry of the reassembly queue, in use if its buffer has chunks. `holes` is the buffer after
the header. -/
structure FragDesc (H : Type*) where
  used : Bool
  header : H
  headerLength : ℕ
  dataLen : ℕ
  holes : HoleList

variable {P H K : Type*} [DecidableEq K] {n : ℕ} (r : Protocol P H K)

/-- Drop the reconstructed datagram. -/
def FragDesc.drop (frag : FragDesc H) : FragDesc H := { frag with used := false }

/-- A new entry: the datagram is completely missing. -/
def FragDesc.create (pool : Pool) (packet : P) : FragDesc H where
  used := true
  header := (r.newHeader packet).1
  headerLength := (r.newHeader packet).2
  dataLen := 0
  holes :=
    let holes : HoleList := ⟨0, pool.contents, holeDescSize⟩
    (holes.setBounds 0 0 INFINITY).setNext (some 0) INFINITY

/-- The entry of the datagram that the packet belongs to, or a new one. -/
def searchFragQueue (pool : Pool) (queue : Fin n → FragDesc H) (packet : P) :
    Option (Fin n × (Fin n → FragDesc H)) :=
  match (List.finRange n).find? fun i =>
      (queue i).used && decide (r.headerKey (queue i).header = r.key packet) with
  | some i => some (i, queue)
  | none =>
      match (List.finRange n).find? fun i => !(queue i).used with
      | some i =>
          if pool.create = true then
            some (i, Function.update queue i (FragDesc.create r pool packet))
          else none
      | none => none

/-- The very first fragment requires special handling. The entry is dropped if there is no room. -/
def firstFragment (frag : FragDesc H) (packet : P) : FragDesc H :=
  let frag := { frag with headerLength := (r.firstHeader packet).2 }
  if frag.headerLength + frag.dataLen > r.maxDatagramSize then frag.drop
  else if frag.headerLength > NET_MEM_POOL_BUFFER_SIZE then frag.drop
  else { frag with header := (r.firstHeader packet).1 }

/-- It may be necessary to increase the size of the buffer. -/
def growBuffer (pool : Pool) (frag : FragDesc H) (dataLast : UInt16) : FragDesc H :=
  if dataLast.toNat > frag.dataLen then
    if frag.headerLength + dataLast.toNat > r.maxDatagramSize then frag.drop
    else if pool.grow = true then
      { frag with
        dataLen := dataLast.toNat
        holes := { frag.holes with length := dataLast.toNat + holeDescSize } }
    else frag.drop
  else frag

/-- Copy the data of a fragment into the buffer, as far as the buffer reaches. -/
def copyData (holes : HoleList) (f : Fragment) : HoleList :=
  let room := holes.length - f.dataFirst.toNat
  { holes with data := holes.data.write f.dataFirst.toNat (f.data.take room) }

/-- Update the holes, copy the data, and hand the datagram over if no hole is left. -/
def insertFragment (frag : FragDesc H) (f : Fragment) (dataLast : UInt16) :
    Option (FragDesc H × Option (H × List UInt8)) :=
  match frag.holes.updateHoles f.dataFirst dataLast f.more with
  | none => none
  | some holes =>
      let holes := copyData holes f
      let frag := { frag with holes := holes }
      if holes.findHole holes.firstHole = none then
        some (frag.drop, some
          (r.fixHeader frag.header frag.headerLength frag.dataLen, holes.data.read 0 frag.dataLen))
      else some (frag, none)

/-- What happens to the entry of the fragment. -/
def processFragment (pool : Pool) (frag : FragDesc H) (packet : P) :
    Option (FragDesc H × Option (H × List UInt8)) :=
  let f := r.fragment packet
  let dataLast := f.dataFirst + UInt16.ofNat f.data.length
  let frag := if f.dataFirst = 0 then firstFragment r frag packet else frag
  if frag.used = true then
    let frag := growBuffer r pool frag dataLast
    if frag.used = true then insertFragment r frag f dataLast else some (frag, none)
  else some (frag, none)

/-- Reassembly: the queue after a packet, and the header and payload of the datagram that is
complete. There is no result if the code does not return. -/
def reassemble (pool : Pool) (queue : Fin n → FragDesc H) (packet : P) :
    Option ((Fin n → FragDesc H) × Option (H × List UInt8)) :=
  let f := r.fragment packet
  -- every fragment except the last must contain a multiple of 8 bytes of data
  if f.more = true ∧ f.data.length % 8 ≠ 0 then some (queue, none)
  else
    match searchFragQueue r pool queue packet with
    | none => some (queue, none)
    | some (i, queue) =>
        match processFragment r pool (queue i) packet with
        | none => none
        | some (frag, datagram) => some (Function.update queue i frag, datagram)

end Ip
