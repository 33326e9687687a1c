import CycloneTcp.Ip.Arp
import Mathlib.Data.List.GetD
import Mathlib.Data.List.Pairwise
import Mathlib.Tactic

set_option autoImplicit false

/-! # Packets that wait for address resolution

What has been accepted for an address is, at any time, what has been released for it, followed by
what waits in the entry of the address: every packet is released exactly once, in the order of
arrival. The entries of the cache are slots that hold packets. -/

namespace Arp

variable {P : Type*}

/-! ## The invariant -/

/-- The entries of the cache as slots that hold packets. -/
def slots : Slots (ArpCacheEntry P) UInt32 P where
  used entry := entry.state ≠ .none
  key entry := entry.ipAddr
  queue entry := entry.queue
  waiting entry := entry.state = .incomplete
  used_of_waiting entry h := by
    show entry.state ≠ .none
    rw [show entry.state = .incomplete from h]
    decide
  bound := ARP_MAX_PENDING_PACKETS

instance : DecidablePred (slots : Slots (ArpCacheEntry P) UInt32 P).waiting := fun entry =>
  inferInstanceAs (Decidable (entry.state = .incomplete))

/-- A packet with its address. -/
def Released.item (r : Released P) : UInt32 × P := (r.ipAddr, r.packet)

/-- The packets of a log with their addresses. -/
def packets (released : List (Released P)) : List (UInt32 × P) := released.map Released.item

/-- What holds of the cache at any time: no two entries in use have the same address, an entry owns
packets in the INCOMPLETE state only and not too many, and for every address, what has been accepted
is what has been released, followed by what waits. -/
structure Invariant (s : ArpCache P) : Prop where
  size : s.entries.length = ARP_CACHE_SIZE
  table : slots.Invariant s.entries s.accepted (packets s.released)

/-! ## Why packets are released -/

/-- What the release of a packet says about the event and the cache before it. -/
def Caused (s : ArpCache P) (e : ArpEvent P) (r : Released P) : Prop :=
  match r.how with
  | .sent macAddr => ∃ context arpPacket length now, e = .packet context arpPacket length now ∧
      arpPacket.op = ARP_OPCODE_ARP_REPLY ∧ arpPacket.spa = r.ipAddr ∧ arpPacket.sha = macAddr
  | .overflowed => ∃ packet alloc, e = .enqueue r.ipAddr packet alloc ∧ ∃ entry ∈ s.entries,
      entry.state = .incomplete ∧ entry.ipAddr = r.ipAddr ∧
        entry.queue.length = ARP_MAX_PENDING_PACKETS ∧ entry.queue.head? = some r.packet
  | .failed => ∃ time now, e = .tick time now ∧ ∃ entry ∈ s.entries,
      entry.state = .incomplete ∧ entry.ipAddr = r.ipAddr ∧
        ARP_MAX_REQUESTS ≤ entry.retransmitCount + 1
  | .flushed => e = .flush
  | .recycled => ∃ ipAddr time now, e = .resolve ipAddr time now ∧
      ∀ entry ∈ s.entries, entry.state ≠ .none ∧ entry.ipAddr ≠ ipAddr

/-- The packets that an event releases are released for a reason. -/
def Justified (s : ArpCache P) (e : ArpEvent P) : Prop :=
  ∃ released, (step s e).released = s.released ++ released ∧ ∀ r ∈ released, Caused s e r

section Entries

variable {entry entry' : ArpCacheEntry P} {how : Release} {r : Released P} {time now : UInt32}

theorem packets_append (a c : List (Released P)) : packets (a ++ c) = packets a ++ packets c :=
  List.map_append

theorem mem_releaseQueue (h : r ∈ (releaseQueue how entry).2) :
    r.how = how ∧ r.ipAddr = entry.ipAddr ∧ entry.state = .incomplete := by
  rw [releaseQueue] at h
  dsimp only at h
  split at h
  · rename_i hstate
    obtain ⟨packet, -, rfl⟩ := List.mem_map.1 h
    exact ⟨rfl, rfl, hstate⟩
  · cases h

theorem packets_releaseQueue (how : Release) (entry : ArpCacheEntry P) :
    packets (releaseQueue how entry).2 = slots.release entry := by
  rw [releaseQueue, Slots.release]
  dsimp only
  by_cases hstate : entry.state = .incomplete
  · rw [if_pos hstate, if_pos (show slots.waiting entry from hstate), packets, List.map_map]
    rfl
  · rw [if_neg hstate, if_neg (show ¬ slots.waiting entry from hstate)]
    rfl

/-! ## The entries one by one -/

/-- The queue is left alone. -/
theorem entryStep_of_queue (h : slots.Owns entry) (hqueue : entry'.queue = entry.queue)
    (hip : entry'.ipAddr = entry.ipAddr)
    (hstate : entry'.state = entry.state ∨ entry.state ≠ .incomplete ∧ entry.state ≠ .none) :
    slots.EntryStep entry entry' (packets []) := by
  refine Slots.EntryStep.of_queue h hqueue hip (fun hused => ?_) fun hwaiting => ?_
  · rcases hstate with hsame | ⟨-, hnone⟩
    · exact fun hnone => hused (hsame.trans hnone)
    · exact hnone
  · rcases hstate with hsame | ⟨hnot, -⟩
    · exact hsame.trans hwaiting
    · exact absurd hwaiting hnot

/-- The queue is emptied. -/
theorem entryStep_of_release (h : slots.Owns entry) (how : Release) (hqueue : entry'.queue = [])
    (hip : entry'.ipAddr = entry.ipAddr) (hnone : entry'.state ≠ .none → entry.state ≠ .none) :
    slots.EntryStep entry entry' (packets (releaseQueue how entry).2) := by
  rw [packets_releaseQueue]
  exact Slots.EntryStep.of_release h hqueue hip hnone

theorem arpTickEntry_step (h : slots.Owns entry) (time now : UInt32) :
    slots.EntryStep entry (arpTickEntry time now entry).1
      (packets (arpTickEntry time now entry).2) := by
  rw [arpTickEntry]
  split
  swap
  · exact entryStep_of_queue h rfl rfl (.inl rfl)
  split
  · dsimp only
    split
    · exact entryStep_of_queue h rfl rfl (.inl rfl)
    · exact entryStep_of_release h .failed rfl rfl fun hne => absurd rfl hne
  · rename_i hstate
    exact entryStep_of_queue h rfl rfl (.inr (by rw [hstate]; decide))
  · rename_i hstate
    exact entryStep_of_queue h rfl rfl (.inr (by rw [hstate]; decide))
  · rename_i hstate
    dsimp only
    split
    · exact entryStep_of_queue h rfl rfl (.inl rfl)
    · exact entryStep_of_queue h rfl rfl (.inr (by rw [hstate]; decide))
  · exact entryStep_of_queue h rfl rfl (.inl rfl)

theorem arpFlushEntry_step (h : slots.Owns entry) :
    slots.EntryStep entry (arpFlushEntry entry).1 (packets (arpFlushEntry entry).2) :=
  entryStep_of_release h .flushed rfl rfl fun hne => absurd rfl hne

theorem arpReplyEntry_step (h : slots.Owns entry) (sha : BitVec 48) (now : UInt32) :
    slots.EntryStep entry (arpReplyEntry sha entry.ipAddr now entry).1
      (packets (arpReplyEntry sha entry.ipAddr now entry).2) := by
  rw [arpReplyEntry]
  split
  · rename_i hstate
    exact entryStep_of_release h (.sent sha) rfl rfl fun _ => by rw [hstate]; decide
  · rename_i hstate
    dsimp only
    split
    · exact entryStep_of_queue h rfl rfl (.inr (by rw [hstate]; decide))
    · exact entryStep_of_queue h rfl rfl (.inl rfl)
  · rename_i hstate
    exact entryStep_of_queue h rfl rfl (.inr (by rw [hstate]; decide))
  · exact entryStep_of_queue h rfl rfl (.inl rfl)

theorem mem_arpReplyEntry {sha : BitVec 48} {spa : UInt32}
    (hr : r ∈ (arpReplyEntry sha spa now entry).2) : r.how = .sent sha ∧ r.ipAddr = entry.ipAddr := by
  rw [arpReplyEntry] at hr
  split at hr
  · obtain ⟨hhow, hip, -⟩ := mem_releaseQueue hr
    exact ⟨hhow, hip⟩
  · cases hr
  · cases hr
  · cases hr

theorem mem_arpTickEntry (hr : r ∈ (arpTickEntry time now entry).2) : r.how = .failed ∧
    entry.state = .incomplete ∧ entry.ipAddr = r.ipAddr ∧
      ARP_MAX_REQUESTS ≤ entry.retransmitCount + 1 := by
  rw [arpTickEntry] at hr
  split at hr
  swap
  · cases hr
  split at hr
  · rename_i hstate
    dsimp only at hr
    split at hr
    · cases hr
    · rename_i hcount
      obtain ⟨hhow, hip, -⟩ := mem_releaseQueue hr
      exact ⟨hhow, hstate, hip.symm, Nat.not_lt.1 hcount⟩
  · cases hr
  · cases hr
  · dsimp only at hr
    split at hr <;> cases hr
  · cases hr

end Entries

/-! ## The events -/

section Events

variable {s : ArpCache P} {e : ArpEvent P} {entries : List (ArpCacheEntry P)}
  {ipAddr : UInt32} {i : ℕ}

theorem justified_of_eq (h : step s e = s) : Justified s e :=
  ⟨[], by rw [h, List.append_nil], fun r hr => absurd hr List.not_mem_nil⟩

theorem kept_of_eq (h : Invariant s) (heq : step s e = s) : Invariant (step s e) ∧ Justified s e :=
  ⟨by rwa [heq], justified_of_eq heq⟩

theorem arpFindEntry_some (h : arpFindEntry entries ipAddr = some i) :
    i < entries.length ∧ entries.getD i emptyEntry ∈ entries ∧
      (entries.getD i emptyEntry).state ≠ .none ∧ (entries.getD i emptyEntry).ipAddr = ipAddr := by
  obtain ⟨hi, hfound, -⟩ := List.findIdx?_eq_some_iff_getElem.1 h
  rw [List.getD_eq_getElem _ _ hi]
  exact ⟨hi, List.getElem_mem hi, of_decide_eq_true hfound⟩

theorem arpFindEntry_none (h : arpFindEntry entries ipAddr = none) :
    ∀ b ∈ entries, b.state ≠ .none → b.ipAddr ≠ ipAddr := by
  intro b hb hstate hip
  exact absurd (List.findIdx?_eq_none_iff.1 h b hb) (by simp [hstate, hip])

theorem Invariant.ne_nil (h : Invariant s) : s.entries ≠ [] := by
  rw [← List.length_pos_iff, h.size]
  decide

/-- One entry takes a step of its own. -/
theorem Invariant.set (h : Invariant s) (hi : i < s.entries.length) {entry' : ArpCacheEntry P}
    {gone : List (Released P)}
    (hstep : slots.EntryStep (s.entries.getD i emptyEntry) entry' (packets gone)) :
    Invariant { s with entries := s.entries.set i entry', released := s.released ++ gone } := by
  refine ⟨(List.length_set ..).trans h.size, ?_⟩
  show slots.Invariant _ s.accepted (packets (s.released ++ gone))
  rw [packets_append]
  exact h.table.set hi hstep

theorem Invariant.resolve (h : Invariant s) (ipAddr time now : UInt32) :
    Invariant (step s (.resolve ipAddr time now)) ∧ Justified s (.resolve ipAddr time now) := by
  have hstep : step s (.resolve ipAddr time now) = (arpResolve ipAddr time now s).2 := rfl
  rw [arpResolve] at hstep
  cases hfind : arpFindEntry s.entries ipAddr with
  | some i =>
      obtain ⟨hi, -⟩ := arpFindEntry_some hfind
      rw [hfind] at hstep
      dsimp only at hstep
      split at hstep
      · exact kept_of_eq h hstep
      · split at hstep
        · rename_i hstale
          let entry' : ArpCacheEntry P := { s.entries.getD i emptyEntry with
            timestamp := now, timeout := ARP_DELAY_FIRST_PROBE_TIME, state := .delay, requests := 0 }
          have hentry : slots.EntryStep (s.entries.getD i emptyEntry) entry' (packets []) :=
            entryStep_of_queue (h.table.owns_getD hi) rfl rfl (.inr (by rw [hstale]; decide))
          have hset := h.set hi hentry
          rw [List.append_nil] at hset
          rw [Justified, hstep]
          exact ⟨hset, [], (List.append_nil _).symm, fun r hr => absurd hr List.not_mem_nil⟩
        · exact kept_of_eq h hstep
  | none =>
      have hother := arpFindEntry_none hfind
      obtain ⟨i, hi, hcreate⟩ := Slots.recycleLoop_spec
        (fun entry : ArpCacheEntry P => decide (entry.state = .none)) ArpCacheEntry.timestamp time
        emptyEntry h.ne_nil (s.entries.headD emptyEntry).timestamp
      have howns := h.table.owns_getD (d := emptyEntry) hi
      -- the new entry takes the place of one whose packets are released
      have hnew : ∀ released : List (Released P),
          packets released = slots.release (s.entries.getD i emptyEntry) →
          Invariant { s with
            entries := s.entries.set i (newEntry ipAddr now), released := s.released ++ released } := by
        intro released hreleased
        refine ⟨(List.length_set ..).trans h.size, ?_⟩
        show slots.Invariant _ s.accepted (packets (s.released ++ released))
        rw [packets_append, hreleased]
        exact h.table.create hi rfl hother (Slots.forKey_release howns)
      rw [hfind] at hstep
      dsimp only [arpCreateEntry, createLoop] at hstep
      rcases hcreate with ⟨heq, hfree⟩ | ⟨heq, hall⟩
      · -- the entry was free
        have hfree : (s.entries.getD i emptyEntry).state = .none := of_decide_eq_true hfree
        rw [heq] at hstep
        rw [Justified, hstep]
        refine ⟨hnew [] ?_, [], rfl, fun r hr => absurd hr List.not_mem_nil⟩
        have hnot : ¬ slots.waiting (s.entries.getD i emptyEntry) := fun hwaiting =>
          slots.used_of_waiting _ hwaiting hfree
        exact (if_neg hnot).symm
      · rw [heq] at hstep
        rw [Justified, hstep]
        refine ⟨hnew _ (packets_releaseQueue .recycled _), _, rfl, fun r hr => ?_⟩
        obtain ⟨hhow, -, -⟩ := mem_releaseQueue hr
        rw [Caused, hhow]
        have hused : ∀ b ∈ s.entries, b.state ≠ .none := fun b hb hnone =>
          hall b hb (decide_eq_true hnone)
        exact ⟨ipAddr, time, now, rfl, fun b hb => ⟨hused b hb, hother b hb (hused b hb)⟩⟩

theorem Invariant.enqueue (h : Invariant s) (ipAddr : UInt32) (packet : P) (alloc : Bool) :
    Invariant (step s (.enqueue ipAddr packet alloc)) ∧
      Justified s (.enqueue ipAddr packet alloc) := by
  have hstep : step s (.enqueue ipAddr packet alloc) = (arpEnqueuePacket ipAddr packet alloc s).2 :=
    rfl
  rw [arpEnqueuePacket] at hstep
  cases hfind : arpFindEntry s.entries ipAddr with
  | none =>
      rw [hfind] at hstep
      exact kept_of_eq h hstep
  | some i =>
      obtain ⟨hi, hmem, -, hip⟩ := arpFindEntry_some hfind
      have hlen : (s.entries.getD i emptyEntry).queue.length ≤ ARP_MAX_PENDING_PACKETS :=
        (h.table.owns_getD hi).length_le
      rw [hfind] at hstep
      dsimp only at hstep
      split at hstep
      swap
      · exact kept_of_eq h hstep
      rename_i hstate
      let entry := s.entries.getD i emptyEntry
      let made := Slots.makeRoom ARP_MAX_PENDING_PACKETS entry.queue
      let dropped := made.2.map fun packet => (⟨entry.ipAddr, packet, .overflowed⟩ : Released P)
      have hmade : (if ARP_MAX_PENDING_PACKETS ≤ entry.queue.length then
          (entry.queue.drop 1, (entry.queue.take 1).map fun packet =>
            (⟨entry.ipAddr, packet, .overflowed⟩ : Released P))
          else (entry.queue, [])) = (made.1, dropped) := by
        simp only [dropped, made, Slots.makeRoom]
        split <;> rfl
      have hcaused : ∀ r ∈ dropped, Caused s (.enqueue ipAddr packet alloc) r := by
        intro r hr
        obtain ⟨item, hitem, rfl⟩ := List.mem_map.1 hr
        obtain ⟨hfull, hhead⟩ := Slots.mem_makeRoom hlen hitem
        exact ⟨packet, alloc, by rw [hip], entry, hmem, hstate, rfl, hfull, hhead⟩
      have hroom := Slots.makeRoom_length hlen (by decide)
      have hinvariant : ∀ added : List P, (made.1 ++ added).length ≤ ARP_MAX_PENDING_PACKETS →
          Invariant { entries := s.entries.set i { entry with queue := made.1 ++ added }
                      accepted := s.accepted ++ added.map fun packet => (ipAddr, packet)
                      released := s.released ++ dropped } := by
        intro added hlen'
        refine ⟨(List.length_set ..).trans h.size, ?_⟩
        have hqueue : made.2 ++ (made.1 ++ added) = entry.queue ++ added := by
          rw [← List.append_assoc, Slots.makeRoom_append]
        let entry' := { entry with queue := made.1 ++ added }
        have hwaiting : slots.waiting entry := hstate
        have hwaiting' : slots.waiting entry' := hstate
        have henqueue := h.table.enqueue hi hwaiting hwaiting' rfl hlen' hqueue
        have hdropped : packets dropped = made.2.map fun packet => (entry.ipAddr, packet) :=
          List.map_map
        show slots.Invariant _ _ (packets (s.released ++ dropped))
        rw [packets_append, hdropped, ← hip]
        exact henqueue
      rw [hmade] at hstep
      dsimp only at hstep
      cases alloc with
      | true =>
          have hnew := hinvariant [packet] (by
            rw [List.length_append]
            exact hroom)
          rw [Justified, hstep, if_pos rfl]
          exact ⟨hnew, dropped, rfl, hcaused⟩
      | false =>
          have hnew := hinvariant [] (by
            rw [List.append_nil]
            exact hroom.le)
          rw [List.append_nil, List.map_nil, List.append_nil] at hnew
          rw [Justified, hstep, if_neg Bool.false_ne_true]
          exact ⟨hnew, dropped, rfl, hcaused⟩

/-- A reply changes the entry of its sender only. -/
theorem arpProcessPacket_cases (context : Ipv4Context) (arpPacket : ArpPacket) (length : ℕ)
    (now : UInt32) (s : ArpCache P) : arpProcessPacket context arpPacket length now s = s ∨
      arpPacket.op = ARP_OPCODE_ARP_REPLY ∧ ∃ i, arpFindEntry s.entries arpPacket.spa = some i ∧
        arpProcessPacket context arpPacket length now s = { s with
          entries := s.entries.set i
            (arpReplyEntry arpPacket.sha arpPacket.spa now (s.entries.getD i emptyEntry)).1
          released := s.released ++
            (arpReplyEntry arpPacket.sha arpPacket.spa now (s.entries.getD i emptyEntry)).2 } := by
  rw [arpProcessPacket]
  split_ifs with h1 h2 h3 h4 h5 hop
  · exact .inl rfl
  · exact .inl rfl
  · exact .inl rfl
  · exact .inl rfl
  · exact .inl rfl
  · rw [arpProcessReply]
    split
    · exact .inl rfl
    · cases hfind : arpFindEntry s.entries arpPacket.spa with
      | none => exact .inl rfl
      | some i => exact .inr ⟨hop, i, rfl, rfl⟩
  · exact .inl rfl

theorem Invariant.packet (h : Invariant s) (context : Ipv4Context) (arpPacket : ArpPacket)
    (length : ℕ) (now : UInt32) : Invariant (step s (.packet context arpPacket length now)) ∧
      Justified s (.packet context arpPacket length now) := by
  have hstep : step s (.packet context arpPacket length now) =
    arpProcessPacket context arpPacket length now s := rfl
  rcases arpProcessPacket_cases context arpPacket length now s with hsame | ⟨hop, i, hfind, hset⟩
  · exact kept_of_eq h (hstep.trans hsame)
  · obtain ⟨hi, -, -, hip⟩ := arpFindEntry_some hfind
    have hentry := arpReplyEntry_step (h.table.owns_getD (d := emptyEntry) hi) arpPacket.sha now
    rw [hip] at hentry
    rw [Justified, hstep, hset]
    refine ⟨h.set hi hentry, _, rfl, fun r hr => ?_⟩
    obtain ⟨hhow, hrip⟩ := mem_arpReplyEntry hr
    rw [Caused, hhow]
    exact ⟨context, arpPacket, length, now, rfl, hop, by rw [hrip, hip], rfl⟩

/-- Every entry takes a step of its own. -/
theorem Invariant.mapIdx (h : Invariant s)
    (f : ℕ → ArpCacheEntry P → ArpCacheEntry P × List (Released P))
    (hstep : ∀ i, ∀ entry ∈ s.entries,
      slots.EntryStep entry (f i entry).1 (packets (f i entry).2)) :
    Invariant { s with
      entries := (s.entries.mapIdx f).map Prod.fst
      released := s.released ++ (s.entries.mapIdx f).flatMap Prod.snd } := by
  refine ⟨?_, ?_⟩
  · show ((s.entries.mapIdx f).map Prod.fst).length = _
    rw [List.length_map, List.length_mapIdx, h.size]
  · show slots.Invariant _ s.accepted (packets (s.released ++ _))
    rw [packets_append]
    exact h.table.mapIdx f Released.item hstep

theorem Invariant.tick (h : Invariant s) (time : UInt32) (now : ℕ → UInt32) :
    Invariant (step s (.tick time now)) ∧ Justified s (.tick time now) := by
  refine ⟨h.mapIdx (fun i entry => arpTickEntry time (now i) entry) fun i entry hentry =>
    arpTickEntry_step (h.table.owns entry hentry) time (now i), _, rfl, fun r hr => ?_⟩
  obtain ⟨b, hb, hr⟩ := List.mem_flatMap.1 hr
  obtain ⟨i, hi, rfl⟩ := List.mem_mapIdx.1 hb
  obtain ⟨hhow, hstate, hip, hcount⟩ := mem_arpTickEntry hr
  rw [Caused, hhow]
  exact ⟨time, now, rfl, _, List.getElem_mem hi, hstate, hip, hcount⟩

theorem Invariant.flush (h : Invariant s) :
    Invariant (step s .flush) ∧ Justified s .flush := by
  have hmap := h.mapIdx (fun _ entry => arpFlushEntry entry) fun i entry hentry =>
    arpFlushEntry_step (h.table.owns entry hentry)
  rw [Slots.mapIdx_const] at hmap
  refine ⟨hmap, _, rfl, fun r hr => ?_⟩
  obtain ⟨b, hb, hr⟩ := List.mem_flatMap.1 hr
  obtain ⟨entry, -, rfl⟩ := List.mem_map.1 hb
  obtain ⟨hhow, -, -⟩ := mem_releaseQueue hr
  rw [Caused, hhow]

/-- One step lemma for all events. -/
theorem Invariant.step (h : Invariant s) (e : ArpEvent P) :
    Invariant (Arp.step s e) ∧ Justified s e := by
  cases e with
  | resolve ipAddr time now => exact h.resolve ipAddr time now
  | enqueue ipAddr packet alloc => exact h.enqueue ipAddr packet alloc
  | packet context arpPacket length now => exact h.packet context arpPacket length now
  | tick time now => exact h.tick time now
  | flush => exact h.flush

theorem invariant_init : Invariant (arpInit : ArpCache P) :=
  ⟨rfl, Slots.invariant_replicate _ (fun hused => hused rfl) rfl⟩

end Events

/-! ## Runs -/

/-- In every run, no two entries in use have the same address, an entry owns packets in the
INCOMPLETE state only and not too many, and the packets accepted for an address are those that have
been released for it, in this order, and those that wait. Every packet is released for a reason. -/
theorem arpCache_run (es : List (ArpEvent P)) :
    Invariant (run step arpInit es) ∧ Along Justified step (arpInit : ArpCache P) es := by
  have hall : Along (fun _ _ => True) step (arpInit : ArpCache P) es :=
    Along.of_forall (fun _ _ => trivial) _ _
  exact ⟨run_invariant (fun s e h _ => (h.step e).1) invariant_init hall,
    Along.of_invariant (fun s e h _ => (h.step e).1) (fun s e h _ => (h.step e).2) invariant_init hall⟩

/-- A packet is dropped when its entry is recycled: the address of a ninth neighbour is resolved. -/
theorem arpCache_recycled : ¬ ∀ es : List (ArpEvent ℕ),
    ∀ r ∈ (run step arpInit es).released, r.how ≠ .recycled := by
  intro h
  exact h (.resolve 1 0 0 :: .enqueue 1 7 true ::
    (List.range 8).map fun i => .resolve (UInt32.ofNat (i + 2)) 1 1) ⟨1, 7, .recycled⟩
    (by decide) rfl

end Arp
