import CycloneTcp.Ip.Ipv4Frag
import CycloneTcp.Ip.Soundness

/-! # Incoming IPv4 packets

`ipv4ProcessPacket` checks the header of an incoming packet, and a fragment goes to the reassembly
queue. The state of the queue is followed over all that can arrive, whoever has sent it. -/

set_option autoImplicit false

namespace Ip

/-! ## The checks -/

/-- `IPV4_VERSION`. -/
def IPV4_VERSION : UInt8 := 4

/-- An incoming packet of at least twenty bytes: the fields of the header, and what follows these. The
options are among `rest`. -/
structure Ipv4Frame where
  header : Ipv4Header
  rest : List UInt8

/-- The length of the incoming packet. -/
def Ipv4Frame.length (frame : Ipv4Frame) : ℕ := ipv4HeaderSize + frame.rest.length

/-- Incoming IPv4 packet processing: what `ipv4ReassembleDatagram` is called with, if the packet is a
fragment. `accepted` is the answer of the filters of the addresses and of the checksum of the header;
packets that are not fragments go to `ipv4ProcessDatagram` as they are. -/
def ipv4ProcessPacket (accepted : Bool) (frame : Ipv4Frame) : Option Ipv4Packet :=
  let header := frame.header
  if header.version ≠ IPV4_VERSION then none
  else if header.headerLength < 5 then none
  else if header.totalLength.toNat < header.headerLength.toNat * 4 then none
  else if frame.length < header.totalLength.toNat then none
  else if accepted = false then none
  else if header.fragmentOffset &&& (IPV4_FLAG_MF ||| IPV4_OFFSET_MASK) = 0 then none
  else
    let optionsLength := header.headerLength.toNat * 4 - ipv4HeaderSize
    some {
      header := { header with options := frame.rest.take optionsLength }
      data := (frame.rest.drop optionsLength).take
        (header.totalLength.toNat - header.headerLength.toNat * 4) }

/-! ## Runs -/

/-- The queue of an interface. -/
abbrev Ipv4Receiver : Type := Receiver Ipv4Packet Ipv4Header IPV4_MAX_FRAG_DATAGRAMS

/-- A packet arrives, or the time of an entry is over. -/
inductive Ipv4Input where
  | frame (pool : Pool) (accepted : Bool) (frame : Ipv4Frame)
  | expire (k : Fin IPV4_MAX_FRAG_DATAGRAMS)

/-- One step of the queue. -/
def ipv4Step (s : Option Ipv4Receiver) : Ipv4Input → Option Ipv4Receiver
  | .expire k => Receiver.step ipv4 s (.expire k)
  | .frame pool accepted frame =>
      match ipv4ProcessPacket accepted frame with
      | none => s
      | some packet => Receiver.step ipv4 s (.packet pool packet)

/-- A fragment that is accepted is consistent with its entry, or the entry is dropped. -/
def Ipv4Admits (s : Option Ipv4Receiver) : Ipv4Input → Prop
  | .expire _ => True
  | .frame pool accepted frame =>
      ∀ packet ∈ ipv4ProcessPacket accepted frame, Receiver.Admits ipv4 s (.packet pool packet)

instance (s : Option Ipv4Receiver) : (e : Ipv4Input) → Decidable (Ipv4Admits s e)
  | .expire _ => isTrue trivial
  | .frame pool accepted frame =>
      match h : ipv4ProcessPacket accepted frame with
      | none => isTrue fun packet hmem => by simp [h] at hmem
      | some packet => decidable_of_iff (Receiver.Admits ipv4 s (.packet pool packet))
          ⟨fun hc packet' hmem => by
            rw [h] at hmem
            cases hmem
            exact hc, fun hc => hc packet h⟩

/-- A fragment offset counts in units of eight bytes. -/
theorem ipv4_dataFirst_dvd (packet : Ipv4Packet) : 8 ∣ (ipv4.fragment packet).dataFirst.toNat := by
  show 8 ∣ ((packet.header.fragmentOffset &&& IPV4_OFFSET_MASK) * 8).toNat
  rw [UInt16.toNat_mul]
  have h8 : (8 : UInt16).toNat = 8 := rfl
  rw [h8]
  omega

/-- One step, from a queue in which all that has been received is kept. -/
theorem ipv4Step_kept {s : Ipv4Receiver} (h : s.Kept ipv4) {e : Ipv4Input}
    (he : Ipv4Admits (some s) e) :
    ∃ s', ipv4Step (some s) e = some s' ∧ s'.Kept ipv4 := by
  have hmax : ipv4.maxDatagramSize + holeDescSize ≤ HoleList.INFINITY.toNat :=
    show 8192 + 6 ≤ 65535 by omega
  cases e with
  | expire k => exact h.step (e := .expire k) hmax ipv4_dataFirst_dvd trivial
  | frame pool accepted frame =>
      rw [ipv4Step]
      cases hpacket : ipv4ProcessPacket accepted frame with
      | none => exact ⟨s, rfl, h⟩
      | some packet => exact h.step hmax ipv4_dataFirst_dvd (he packet hpacket)

/-- **Reassembly is safe** along every run whose fragments are consistent with their entries: the code
returns from every packet, the holes of every entry are disjoint and their descriptors inside the
buffer, and all bytes of a datagram that is handed over have come with fragments of it. -/
theorem ipv4_reassembly_safe {s : Ipv4Receiver} (hqueue : ∀ k, (s.queue k).used = false)
    (hdelivered : s.delivered = []) {es : List Ipv4Input}
    (hes : Along (Ipv4Admits) ipv4Step (some s) es) :
    ∃ s', run ipv4Step (some s) es = some s' ∧
      (∀ k, (s'.queue k).used = true → (s'.queue k).Safe) ∧
      ∀ d ∈ s'.delivered, Received ipv4 d.2 d.1 := by
  have hkept : s.Kept ipv4 := .empty hqueue hdelivered
  obtain ⟨s', hrun, hkept'⟩ : ∃ s', run ipv4Step (some s) es = some s' ∧
      s'.Kept ipv4 := by
    refine run_invariant (I := fun s => ∃ s', s = some s' ∧ s'.Kept ipv4) ?_ ⟨s, rfl, hkept⟩ hes
    rintro _ e ⟨s, rfl, h⟩ he
    exact ipv4Step_kept h he
  refine ⟨s', hrun, fun k hused => ?_, hkept'.delivered⟩
  obtain ⟨hs, hsound⟩ := hkept'.sound k hused
  exact hsound.safe

/-! ## Samples -/

/-- A fragment of one datagram, with eight bytes. -/
def ipv4SampleFrame (fragmentOffset : UInt16) (byte : UInt8) : Ipv4Frame where
  header :=
    { version := 4, headerLength := 5, typeOfService := 0, totalLength := 28, identification := 7
      fragmentOffset := fragmentOffset, timeToLive := 64, protocol := 17, headerChecksum := 0
      srcAddr := 0xC0A80001, destAddr := 0xC0A80002, options := [] }
  rest := List.replicate 8 byte

/-- The fragment as it is handed to the reassembly. -/
def ipv4SampleFragment (fragmentOffset : UInt16) (byte : UInt8) : Ipv4Packet where
  header := (ipv4SampleFrame fragmentOffset byte).header
  data := List.replicate 8 byte

/-- The queue before anything has arrived. -/
def ipv4Idle : Ipv4Receiver where
  queue := emptyQueue IPV4_MAX_FRAG_DATAGRAMS (ipv4SampleFrame 0 0).header
  received _ := []
  delivered := []

/-- Memory with something left in it. -/
def usedMemory : Pool := ⟨true, true, fun _ => 0xAA⟩

/-- The second of two fragments, and the first. -/
theorem ipv4_reassembly_safe_twoFragments :
    let es : List Ipv4Input :=
      [.frame usedMemory true (ipv4SampleFrame 1 2), .frame usedMemory true (ipv4SampleFrame 0x2000 1)]
    ∃ s', run ipv4Step (some ipv4Idle) es = some s' ∧
      (∀ k, (s'.queue k).used = true → (s'.queue k).Safe) ∧
      ∀ d ∈ s'.delivered, Received ipv4 d.2 d.1 :=
  ipv4_reassembly_safe (fun _ => rfl) rfl (by decide +kernel)

/-- The last fragment, one that lies behind the end of the datagram, and the first one. -/
def behindTheEnd : List Ipv4Input :=
  [.frame usedMemory true (ipv4SampleFrame 1 2), .frame usedMemory true (ipv4SampleFrame 0x2003 4),
    .frame usedMemory true (ipv4SampleFrame 0x2000 1)]

/-- The datagram that is handed over has bytes that have come with no fragment. -/
theorem ipv4_reassembly_not_safe :
    (run ipv4Step (some ipv4Idle) behindTheEnd).map
        (fun s => s.delivered.map fun d => (d.1.2, d.2))
      = some [(List.replicate 8 1 ++ List.replicate 8 2 ++ List.replicate 8 0xAA ++
            List.replicate 8 4,
          [ipv4SampleFragment 0x2000 1, ipv4SampleFragment 0x2003 4, ipv4SampleFragment 1 2])] ∧
    ¬ ∀ (s : Ipv4Receiver) (es : List Ipv4Input),
      (∀ k, (s.queue k).used = false) → s.delivered = [] →
      ∃ s', run ipv4Step (some s) es = some s' ∧
        (∀ k, (s'.queue k).used = true → (s'.queue k).Safe) ∧
        ∀ d ∈ s'.delivered, Received ipv4 d.2 d.1 := by
  have hrun : (run ipv4Step (some ipv4Idle) behindTheEnd).map
      (fun s => s.delivered.map fun d => (d.1.2, d.2))
        = some [(List.replicate 8 1 ++ List.replicate 8 2 ++ List.replicate 8 0xAA ++
              List.replicate 8 4,
            [ipv4SampleFragment 0x2000 1, ipv4SampleFragment 0x2003 4, ipv4SampleFragment 1 2])] := by
    decide +kernel
  refine ⟨hrun, fun hall => ?_⟩
  obtain ⟨s', hs', -, hreceived⟩ := hall ipv4Idle behindTheEnd (fun _ => rfl) rfl
  rw [hs', Option.map_some, Option.some_inj] at hrun
  obtain ⟨d, tail, hd⟩ : ∃ d tail, s'.delivered = d :: tail := by
    cases hlist : s'.delivered with
    | nil =>
        rw [hlist] at hrun
        cases hrun
    | cons d tail => exact ⟨d, tail, rfl⟩
  rw [hd, List.map_cons] at hrun
  obtain ⟨hdata, hpackets⟩ := Prod.ext_iff.1 (List.cons.inj hrun).1
  dsimp only at hdata hpackets
  obtain ⟨packet, hmem, -, hcarries⟩ := hreceived d (hd ▸ List.mem_cons_self ..) 16 0xAA
    (by rw [hdata]; rfl)
  rw [hpackets] at hmem
  have hnone : ∀ packet ∈ [ipv4SampleFragment 0x2000 1, ipv4SampleFragment 0x2003 4,
      ipv4SampleFragment 1 2], ¬ (ipv4.fragment packet).Carries 16 0xAA := by decide
  exact hnone packet hmem hcarries

end Ip
