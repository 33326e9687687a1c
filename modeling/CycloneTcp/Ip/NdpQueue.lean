import CycloneTcp.Ip.ArpQueue
import CycloneTcp.Ip.Ndp

set_option autoImplicit false

/-! # Packets that wait in the Neighbor cache

What has been accepted for an address is, at any time, what has been released for it, followed by
what waits in the entry of the address, as in the ARP cache. The buffers of an entry are released in
the INCOMPLETE state only, so that an entry must not leave that state with packets in its queue.

While an entry is updated a probe is sent, which may resolve another address: the update of one
entry is therefore an event of its own as well. -/

namespace Ndp

open Arp (timeCompare)

inductive QueueEvent (P : Type*) where
  | ndp (e : NdpEvent P)
  /-- One entry of `ndpUpdateNeighborCache`. -/
  | updateEntry (i : ℕ) (time now : UInt32)

section Functions

variable {P : Type*}

/-- The link-layer address that a message tells, with the time at which an entry is created. -/
def learnt : NdpEvent P → Option (BitVec 128 × BitVec 48 × UInt32)
  | .routerAdv srcAddr (some linkLayerAddr) _ _ time _ => some (srcAddr, linkLayerAddr, time)
  | .routerSol srcAddr (some linkLayerAddr) _ time' =>
      if srcAddr = IPV6_UNSPECIFIED_ADDR then none else some (srcAddr, linkLayerAddr, time')
  | .neighborSol srcAddr (some linkLayerAddr) time _ =>
      if srcAddr = IPV6_UNSPECIFIED_ADDR then none else some (srcAddr, linkLayerAddr, time)
  | .redirect targetAddr (some linkLayerAddr) time _ => some (targetAddr, linkLayerAddr, time)
  | _ => none

/-- One event on the cache. -/
def queueStep (s : NdpContext P) : QueueEvent P → NdpContext P
  | .ndp e => step s e
  | .updateEntry i time now =>
      let (entry, dropped) :=
        ndpUpdateEntry s.retransTimer time now (s.neighborCache.getD i emptyEntry)
      { s with neighborCache := s.neighborCache.set i entry, released := s.released ++ dropped }

end Functions

variable {P : Type*}

/-! ## The invariant -/

/-- The entries of the cache as slots that hold packets. -/
def slots : Slots (NdpNeighborCacheEntry P) (BitVec 128) P where
  used entry := entry.state ≠ .none
  key entry := entry.ipAddr
  queue entry := entry.queue
  waiting entry := entry.state = .incomplete
  used_of_waiting entry h := by
    show entry.state ≠ .none
    rw [show entry.state = .incomplete from h]
    decide
  bound := NDP_MAX_PENDING_PACKETS

instance : DecidablePred (slots : Slots (NdpNeighborCacheEntry P) (BitVec 128) P).waiting :=
  fun entry => inferInstanceAs (Decidable (entry.state = .incomplete))

/-- A packet with its address. -/
def Released.item (r : Released P) : BitVec 128 × P := (r.ipAddr, r.packet)

/-- The packets of a log with their addresses. -/
def packets (released : List (Released P)) : List (BitVec 128 × P) := released.map Released.item

/-- What holds of the cache at any time: no two entries in use have the same address, an entry owns
packets in the INCOMPLETE state only and not too many, and for every address, what has been accepted
is what has been released, followed by what waits. -/
structure Invariant (s : NdpContext P) : Prop where
  size : s.neighborCache.length = NDP_NEIGHBOR_CACHE_SIZE
  table : slots.Invariant s.neighborCache s.accepted (packets s.released)

/-! ## Why packets are released -/

/-- What the release of a packet says about the event and the cache before it. -/
def Caused (s : NdpContext P) (e : QueueEvent P) (r : Released P) : Prop :=
  match r.how with
  | .sent macAddr => ∃ m, e = .ndp m ∧
      ((∃ time, learnt m = some (r.ipAddr, macAddr, time)) ∨
        ∃ solicited override now,
          m = .neighborAdv r.ipAddr (some macAddr) solicited override now)
  | .overflowed => ∃ packet alloc, e = .ndp (.enqueue r.ipAddr packet alloc) ∧
      ∃ entry ∈ s.neighborCache, entry.state = .incomplete ∧ entry.ipAddr = r.ipAddr ∧
        entry.queue.length = NDP_MAX_PENDING_PACKETS ∧ entry.queue.head? = some r.packet
  | .failed => ((∃ time now, e = .ndp (.tick time now)) ∨ ∃ i time now, e = .updateEntry i time now) ∧
      ∃ entry ∈ s.neighborCache, entry.state = .incomplete ∧ entry.ipAddr = r.ipAddr ∧
        NDP_MAX_MULTICAST_SOLICIT ≤ entry.retransmitCount + 1
  | .flushed => e = .ndp .linkChange
  | .recycled => ∃ m, e = .ndp m ∧ ∃ ipAddr,
      ((∃ time now, m = .resolve ipAddr time now) ∨
        ∃ linkLayerAddr time, learnt m = some (ipAddr, linkLayerAddr, time)) ∧
      ∀ entry ∈ s.neighborCache, entry.state ≠ .none ∧ entry.ipAddr ≠ ipAddr

/-- The packets that an event releases are released for a reason. -/
def Justified (s : NdpContext P) (e : QueueEvent P) : Prop :=
  ∃ released, (queueStep s e).released = s.released ++ released ∧ ∀ r ∈ released, Caused s e r

section Entries

variable {entry entry' : NdpNeighborCacheEntry P} {how : Arp.Release} {r : Released P}
  {retransTimer time now : UInt32}

theorem packets_append (a c : List (Released P)) : packets (a ++ c) = packets a ++ packets c :=
  List.map_append

theorem mem_releaseQueue (h : r ∈ (releaseQueue how entry).2) :
    r.how = how ∧ r.ipAddr = entry.ipAddr ∧ entry.state = .incomplete := by
  rw [releaseQueue] at h
  dsimp only at h
  split at h
  · rename_i hstate
    obtain ⟨packet, -, rfl⟩ := List.mem_map.1 h
    exact ⟨rfl, rfl, hstate⟩
  · cases h

theorem packets_releaseQueue (how : Arp.Release) (entry : NdpNeighborCacheEntry P) :
    packets (releaseQueue how entry).2 = slots.release entry := by
  rw [releaseQueue, Slots.release]
  dsimp only
  by_cases hstate : entry.state = .incomplete
  · rw [if_pos hstate, if_pos (show slots.waiting entry from hstate), packets, List.map_map]
    rfl
  · rw [if_neg hstate, if_neg (show ¬ slots.waiting entry from hstate)]
    rfl

/-! ## The entries one by one -/

/-- The queue is left alone. -/
theorem entryStep_of_queue (h : slots.Owns entry) (hqueue : entry'.queue = entry.queue)
    (hip : entry'.ipAddr = entry.ipAddr)
    (hstate : entry'.state = entry.state ∨ entry.state ≠ .incomplete ∧ entry.state ≠ .none) :
    slots.EntryStep entry entry' (packets []) := by
  refine Slots.EntryStep.of_queue h hqueue hip (fun hused => ?_) fun hwaiting => ?_
  · rcases hstate with hsame | ⟨-, hnone⟩
    · exact fun hnone => hused (hsame.trans hnone)
    · exact hnone
  · rcases hstate with hsame | ⟨hnot, -⟩
    · exact hsame.trans hwaiting
    · exact absurd hwaiting hnot

/-- The queue is emptied. -/
theorem entryStep_of_release (h : slots.Owns entry) (how : Arp.Release) (hqueue : entry'.queue = [])
    (hip : entry'.ipAddr = entry.ipAddr) (hnone : entry'.state ≠ .none → entry.state ≠ .none) :
    slots.EntryStep entry entry' (packets (releaseQueue how entry).2) := by
  rw [packets_releaseQueue]
  exact Slots.EntryStep.of_release h hqueue hip hnone

theorem updateLinkLayerAddr_step (h : slots.Owns entry) (hused : entry.state ≠ .none)
    (linkLayerAddr : BitVec 48) (now : UInt32) :
    slots.EntryStep entry (updateLinkLayerAddr linkLayerAddr now entry).1
      (packets (updateLinkLayerAddr linkLayerAddr now entry).2) := by
  rw [updateLinkLayerAddr]
  by_cases hstate : entry.state = .incomplete
  · rw [if_pos hstate]
    dsimp only
    split
    · exact entryStep_of_release h (.sent linkLayerAddr) rfl rfl fun _ => hused
    · exact entryStep_of_release h (.sent linkLayerAddr) rfl rfl fun _ => hused
  · rw [if_neg hstate]
    split
    · exact entryStep_of_queue h rfl rfl (.inr ⟨hstate, hused⟩)
    · exact entryStep_of_queue h rfl rfl (.inl rfl)

/-- The packets are sent to the address just learnt. -/
theorem mem_updateLinkLayerAddr {linkLayerAddr : BitVec 48}
    (hr : r ∈ (updateLinkLayerAddr linkLayerAddr now entry).2) :
    r.how = .sent linkLayerAddr ∧ r.ipAddr = entry.ipAddr := by
  have hsent : r ∈ (releaseQueue (.sent linkLayerAddr)
      { entry with macAddr := linkLayerAddr }).2 → r.how = .sent linkLayerAddr ∧
        r.ipAddr = entry.ipAddr := fun hr => by
    obtain ⟨hhow, hip, -⟩ := mem_releaseQueue hr
    exact ⟨hhow, hip⟩
  rw [updateLinkLayerAddr] at hr
  split at hr
  · dsimp only at hr
    split at hr
    · exact hsent hr
    · exact hsent hr
  · split at hr <;> cases hr

theorem advertisedEntry_step (h : slots.Owns entry) (hused : entry.state ≠ .none)
    (option : Option (BitVec 48)) (solicited override : Bool) (reachableTime now : UInt32) :
    slots.EntryStep entry (advertisedEntry option solicited override reachableTime now entry).1
      (packets (advertisedEntry option solicited override reachableTime now entry).2) := by
  unfold advertisedEntry
  dsimp only
  by_cases hstate : entry.state = .incomplete
  · rw [if_pos hstate]
    cases option with
    | none => exact entryStep_of_queue h rfl rfl (.inl rfl)
    | some linkLayerAddr =>
        dsimp only
        split_ifs <;> exact entryStep_of_release h (.sent linkLayerAddr) rfl rfl fun _ => hused
  · rw [if_neg hstate]
    split_ifs
    · exact entryStep_of_queue h rfl rfl (.inr ⟨hstate, hused⟩)
    · exact entryStep_of_queue h rfl rfl (.inl rfl)
    · exact entryStep_of_queue h rfl rfl (.inr ⟨hstate, hused⟩)
    · exact entryStep_of_queue h rfl rfl (.inr ⟨hstate, hused⟩)
    · exact entryStep_of_queue h rfl rfl (.inl rfl)

theorem mem_advertisedEntry {option : Option (BitVec 48)} {solicited override : Bool}
    {reachableTime : UInt32}
    (hr : r ∈ (advertisedEntry option solicited override reachableTime now entry).2) :
    ∃ linkLayerAddr, option = some linkLayerAddr ∧ r.how = .sent linkLayerAddr ∧
      r.ipAddr = entry.ipAddr := by
  unfold advertisedEntry at hr
  dsimp only at hr
  by_cases hstate : entry.state = .incomplete
  · rw [if_pos hstate] at hr
    cases option with
    | none => cases hr
    | some linkLayerAddr =>
        have hsent : r ∈ (releaseQueue (.sent linkLayerAddr)
            { entry with macAddr := linkLayerAddr }).2 := by
          dsimp only at hr
          split_ifs at hr <;> exact hr
        obtain ⟨hhow, hip, -⟩ := mem_releaseQueue hsent
        exact ⟨linkLayerAddr, rfl, hhow, hip⟩
  · rw [if_neg hstate] at hr
    split_ifs at hr <;> cases hr

theorem ndpUpdateEntry_step (h : slots.Owns entry) (retransTimer time now : UInt32) :
    slots.EntryStep entry (ndpUpdateEntry retransTimer time now entry).1
      (packets (ndpUpdateEntry retransTimer time now entry).2) := by
  rw [ndpUpdateEntry]
  split
  swap
  · exact entryStep_of_queue h rfl rfl (.inl rfl)
  split
  · dsimp only
    split
    · exact entryStep_of_queue h rfl rfl (.inl rfl)
    · exact entryStep_of_release h .failed rfl rfl fun hne => absurd rfl hne
  · rename_i hstate
    exact entryStep_of_queue h rfl rfl (.inr (by rw [hstate]; decide))
  · rename_i hstate
    exact entryStep_of_queue h rfl rfl (.inr (by rw [hstate]; decide))
  · rename_i hstate
    dsimp only
    split
    · exact entryStep_of_queue h rfl rfl (.inl rfl)
    · exact entryStep_of_queue h rfl rfl (.inr (by rw [hstate]; decide))
  · exact entryStep_of_queue h rfl rfl (.inl rfl)

theorem mem_ndpUpdateEntry (hr : r ∈ (ndpUpdateEntry retransTimer time now entry).2) :
    r.how = .failed ∧ entry.state = .incomplete ∧ entry.ipAddr = r.ipAddr ∧
      NDP_MAX_MULTICAST_SOLICIT ≤ entry.retransmitCount + 1 := by
  rw [ndpUpdateEntry] at hr
  split at hr
  swap
  · cases hr
  split at hr
  · rename_i hstate
    dsimp only at hr
    split at hr
    · cases hr
    · rename_i hcount
      obtain ⟨hhow, hip, -⟩ := mem_releaseQueue hr
      exact ⟨hhow, hstate, hip.symm, Nat.not_lt.1 hcount⟩
  · cases hr
  · cases hr
  · dsimp only at hr
    split at hr <;> cases hr
  · cases hr

theorem ndpFlushEntry_step (h : slots.Owns entry) :
    slots.EntryStep entry (ndpFlushEntry entry).1 (packets (ndpFlushEntry entry).2) :=
  entryStep_of_release h .flushed rfl rfl fun hne => absurd rfl hne

end Entries

/-! ## The events -/

section Events

variable {s : NdpContext P} {e : QueueEvent P} {entries : List (NdpNeighborCacheEntry P)}
  {ipAddr : BitVec 128} {i : ℕ}

/-- An event that leaves the entries and the logs alone. -/
theorem kept_of_eq (h : Invariant s) (hcache : (queueStep s e).neighborCache = s.neighborCache)
    (haccepted : (queueStep s e).accepted = s.accepted)
    (hreleased : (queueStep s e).released = s.released) :
    Invariant (queueStep s e) ∧ Justified s e := by
  refine ⟨⟨by rw [hcache, h.size], ?_⟩, [], ?_, fun r hr => absurd hr List.not_mem_nil⟩
  · rw [hcache, haccepted, hreleased]
    exact h.table
  · rw [hreleased, List.append_nil]

theorem ndpFindNeighborCacheEntry_some (h : ndpFindNeighborCacheEntry entries ipAddr = some i) :
    i < entries.length ∧ entries.getD i emptyEntry ∈ entries ∧
      (entries.getD i emptyEntry).state ≠ .none ∧ (entries.getD i emptyEntry).ipAddr = ipAddr := by
  obtain ⟨hi, hfound, -⟩ := List.findIdx?_eq_some_iff_getElem.1 h
  rw [List.getD_eq_getElem _ _ hi]
  exact ⟨hi, List.getElem_mem hi, of_decide_eq_true hfound⟩

theorem ndpFindNeighborCacheEntry_none (h : ndpFindNeighborCacheEntry entries ipAddr = none) :
    ∀ b ∈ entries, b.state ≠ .none → b.ipAddr ≠ ipAddr := by
  intro b hb hstate hip
  exact absurd (List.findIdx?_eq_none_iff.1 h b hb) (by simp [hstate, hip])

theorem Invariant.ne_nil (h : Invariant s) : s.neighborCache ≠ [] := by
  rw [← List.length_pos_iff, h.size]
  decide

/-- One entry takes a step of its own. -/
theorem Invariant.set (h : Invariant s) (hi : i < s.neighborCache.length)
    {entry' : NdpNeighborCacheEntry P} {gone : List (Released P)}
    (hstep : slots.EntryStep (s.neighborCache.getD i emptyEntry) entry' (packets gone)) :
    Invariant { s with
      neighborCache := s.neighborCache.set i entry', released := s.released ++ gone } := by
  refine ⟨(List.length_set ..).trans h.size, ?_⟩
  show slots.Invariant _ s.accepted (packets (s.released ++ gone))
  rw [packets_append]
  exact h.table.set hi hstep

/-- A new entry is made: if it takes the place of another one, all are in use. -/
theorem Invariant.create (h : Invariant s) (time : UInt32) (entry : NdpNeighborCacheEntry P)
    (hfind : ndpFindNeighborCacheEntry s.neighborCache entry.ipAddr = none)
    (hqueue : entry.queue = []) : Invariant (createEntry time entry s) ∧
      ∃ dropped, (createEntry time entry s).released = s.released ++ dropped ∧
        ∀ r ∈ dropped, r.how = .recycled ∧
          ∀ b ∈ s.neighborCache, b.state ≠ .none ∧ b.ipAddr ≠ entry.ipAddr := by
  have hother := ndpFindNeighborCacheEntry_none hfind
  obtain ⟨i, hi, hcreate⟩ := Slots.recycleLoop_spec
    (fun entry : NdpNeighborCacheEntry P => decide (entry.state = .none))
    NdpNeighborCacheEntry.timestamp time emptyEntry h.ne_nil
    (s.neighborCache.headD emptyEntry).timestamp
  have howns := h.table.owns_getD (d := emptyEntry) hi
  -- the new entry takes the place of one whose packets are released
  have hnew : ∀ released : List (Released P),
      packets released = slots.release (s.neighborCache.getD i emptyEntry) →
      Invariant { s with
        neighborCache := s.neighborCache.set i entry, released := s.released ++ released } := by
    intro released hreleased
    refine ⟨(List.length_set ..).trans h.size, ?_⟩
    show slots.Invariant _ s.accepted (packets (s.released ++ released))
    rw [packets_append, hreleased]
    exact h.table.create hi hqueue hother (Slots.forKey_release howns)
  unfold createEntry ndpCreateNeighborCacheEntry createLoop
  rcases hcreate with ⟨heq, hfree⟩ | ⟨heq, hall⟩
  · have hfree : (s.neighborCache.getD i emptyEntry).state = .none := of_decide_eq_true hfree
    rw [heq]
    refine ⟨hnew [] ?_, [], rfl, fun r hr => absurd hr List.not_mem_nil⟩
    have hnot : ¬ slots.waiting (s.neighborCache.getD i emptyEntry) := fun hwaiting =>
      slots.used_of_waiting _ hwaiting hfree
    exact (if_neg hnot).symm
  · rw [heq]
    refine ⟨hnew _ (packets_releaseQueue .recycled _), _, rfl, fun r hr => ?_⟩
    have hused : ∀ b ∈ s.neighborCache, b.state ≠ .none := fun b hb hnone =>
      hall b hb (decide_eq_true hnone)
    exact ⟨(mem_releaseQueue hr).1, fun b hb => ⟨hused b hb, hother b hb (hused b hb)⟩⟩

theorem Invariant.resolve (h : Invariant s) (ipAddr : BitVec 128) (time now : UInt32) :
    Invariant (queueStep s (.ndp (.resolve ipAddr time now))) ∧
      Justified s (.ndp (.resolve ipAddr time now)) := by
  have hstep : queueStep s (.ndp (.resolve ipAddr time now)) = (ndpResolve ipAddr time now s).2 :=
    rfl
  rw [ndpResolve] at hstep
  cases hfind : ndpFindNeighborCacheEntry s.neighborCache ipAddr with
  | some i =>
      obtain ⟨hi, -⟩ := ndpFindNeighborCacheEntry_some hfind
      rw [hfind] at hstep
      dsimp only at hstep
      split at hstep
      · exact kept_of_eq h (by rw [hstep]) (by rw [hstep]) (by rw [hstep])
      · split at hstep
        · rename_i hstale
          let entry' : NdpNeighborCacheEntry P := { s.neighborCache.getD i emptyEntry with
            timestamp := now, timeout := NDP_DELAY_FIRST_PROBE_TIME, state := .delay, requests := 0 }
          have hentry : slots.EntryStep (s.neighborCache.getD i emptyEntry) entry' (packets []) :=
            entryStep_of_queue (h.table.owns_getD hi) rfl rfl (.inr (by rw [hstale]; decide))
          have hset := h.set hi hentry
          rw [List.append_nil] at hset
          rw [Justified, hstep]
          exact ⟨hset, [], (List.append_nil _).symm, fun r hr => absurd hr List.not_mem_nil⟩
        · exact kept_of_eq h (by rw [hstep]) (by rw [hstep]) (by rw [hstep])
  | none =>
      rw [hfind] at hstep
      obtain ⟨hinvariant, dropped, hdropped, hmem⟩ :=
        h.create time (newEntry ipAddr s.retransTimer now) hfind rfl
      rw [Justified, hstep]
      refine ⟨hinvariant, dropped, hdropped, fun r hr => ?_⟩
      obtain ⟨hhow, hall⟩ := hmem r hr
      rw [Caused, hhow]
      exact ⟨_, rfl, ipAddr, .inl ⟨time, now, rfl⟩, hall⟩

/-- What a link-layer address does to the cache. -/
theorem Invariant.record (h : Invariant s) (ipAddr : BitVec 128) (linkLayerAddr : BitVec 48)
    (time now : UInt32) : Invariant (recordLinkLayerAddr ipAddr linkLayerAddr time now s) ∧
      ∃ released, (recordLinkLayerAddr ipAddr linkLayerAddr time now s).released =
          s.released ++ released ∧
        ∀ r ∈ released, r.how = .sent linkLayerAddr ∧ r.ipAddr = ipAddr ∨
          r.how = .recycled ∧ ∀ b ∈ s.neighborCache, b.state ≠ .none ∧ b.ipAddr ≠ ipAddr := by
  unfold recordLinkLayerAddr
  cases hfind : ndpFindNeighborCacheEntry s.neighborCache ipAddr with
  | none =>
      obtain ⟨hinvariant, dropped, hdropped, hmem⟩ :=
        h.create time { (emptyEntry : NdpNeighborCacheEntry P) with
          ipAddr := ipAddr, macAddr := linkLayerAddr, timestamp := now, state := .stale } hfind rfl
      exact ⟨hinvariant, dropped, hdropped, fun r hr => .inr (hmem r hr)⟩
  | some i =>
      obtain ⟨hi, -, hused, hip⟩ := ndpFindNeighborCacheEntry_some hfind
      refine ⟨h.set hi (updateLinkLayerAddr_step (h.table.owns_getD hi) hused linkLayerAddr now), _,
        rfl, fun r hr => .inl ?_⟩
      obtain ⟨hhow, hrip⟩ := mem_updateLinkLayerAddr hr
      exact ⟨hhow, hrip.trans hip⟩

/-- A message that tells a link-layer address records it. -/
theorem step_of_learnt {m : NdpEvent P} {linkLayerAddr : BitVec 48} {time : UInt32}
    (hlearnt : learnt m = some (ipAddr, linkLayerAddr, time)) :
    ∃ now reachableTime retransTimer, step s m = recordLinkLayerAddr ipAddr linkLayerAddr time now
      { s with reachableTime := reachableTime, retransTimer := retransTimer } := by
  cases m with
  | routerAdv srcAddr option reachableTime retransTimer time' now =>
      cases option with
      | none => cases hlearnt
      | some mac =>
          obtain ⟨rfl, rfl, rfl⟩ : srcAddr = ipAddr ∧ mac = linkLayerAddr ∧ time' = time := by
            simpa [learnt] using hlearnt
          refine ⟨now, if reachableTime ≠ 0 then reachableTime else s.reachableTime,
            if retransTimer ≠ 0 then retransTimer else s.retransTimer, ?_⟩
          simp only [step, ndpProcessRouterAdv]
          congr 1
          split_ifs <;> rfl
  | routerSol srcAddr option time' time'' =>
      cases option with
      | none => cases hlearnt
      | some mac =>
          by_cases hsrc : srcAddr = IPV6_UNSPECIFIED_ADDR
          · simp [learnt, hsrc] at hlearnt
          · obtain ⟨rfl, rfl, rfl⟩ : srcAddr = ipAddr ∧ mac = linkLayerAddr ∧ time'' = time := by
              simpa [learnt, hsrc] using hlearnt
            exact ⟨time', s.reachableTime, s.retransTimer, if_neg hsrc⟩
  | neighborSol srcAddr option time' now =>
      cases option with
      | none => cases hlearnt
      | some mac =>
          by_cases hsrc : srcAddr = IPV6_UNSPECIFIED_ADDR
          · simp [learnt, hsrc] at hlearnt
          · obtain ⟨rfl, rfl, rfl⟩ : srcAddr = ipAddr ∧ mac = linkLayerAddr ∧ time' = time := by
              simpa [learnt, hsrc] using hlearnt
            exact ⟨now, s.reachableTime, s.retransTimer, if_neg hsrc⟩
  | redirect targetAddr option time' now =>
      cases option with
      | none => cases hlearnt
      | some mac =>
          obtain ⟨rfl, rfl, rfl⟩ : targetAddr = ipAddr ∧ mac = linkLayerAddr ∧ time' = time := by
            simpa [learnt] using hlearnt
          exact ⟨now, s.reachableTime, s.retransTimer, rfl⟩
  | resolve ipAddr time now => cases hlearnt
  | enqueue ipAddr packet alloc => cases hlearnt
  | neighborAdv targetAddr option solicited override now => cases hlearnt
  | tick time now => cases hlearnt
  | linkChange => cases hlearnt

theorem Invariant.learnt (h : Invariant s) {m : NdpEvent P} {linkLayerAddr : BitVec 48}
    {time : UInt32} (hlearnt : learnt m = some (ipAddr, linkLayerAddr, time)) :
    Invariant (queueStep s (.ndp m)) ∧ Justified s (.ndp m) := by
  obtain ⟨now, reachableTime, retransTimer, hstep⟩ := step_of_learnt (s := s) hlearnt
  have htimes : Invariant
      { s with reachableTime := reachableTime, retransTimer := retransTimer } := ⟨h.size, h.table⟩
  obtain ⟨hrecord, released, hreleased, hmem⟩ := htimes.record ipAddr linkLayerAddr time now
  have hqueue : queueStep s (.ndp m) = recordLinkLayerAddr ipAddr linkLayerAddr time now
      { s with reachableTime := reachableTime, retransTimer := retransTimer } := hstep
  rw [Justified, hqueue]
  refine ⟨hrecord, released, hreleased, fun r hr => ?_⟩
  rcases hmem r hr with ⟨hhow, hip⟩ | ⟨hhow, hall⟩
  · rw [Caused, hhow]
    exact ⟨m, rfl, .inl ⟨time, by rw [hlearnt, hip]⟩⟩
  · rw [Caused, hhow]
    exact ⟨m, rfl, ipAddr, .inr ⟨linkLayerAddr, time, hlearnt⟩, hall⟩

theorem Invariant.enqueue (h : Invariant s) (ipAddr : BitVec 128) (packet : P) (alloc : Bool) :
    Invariant (queueStep s (.ndp (.enqueue ipAddr packet alloc))) ∧
      Justified s (.ndp (.enqueue ipAddr packet alloc)) := by
  have hstep : queueStep s (.ndp (.enqueue ipAddr packet alloc)) =
    (ndpEnqueuePacket ipAddr packet alloc s).2 := rfl
  rw [ndpEnqueuePacket] at hstep
  cases hfind : ndpFindNeighborCacheEntry s.neighborCache ipAddr with
  | none =>
      rw [hfind] at hstep
      exact kept_of_eq h (by rw [hstep]) (by rw [hstep]) (by rw [hstep])
  | some i =>
      obtain ⟨hi, hmem, -, hip⟩ := ndpFindNeighborCacheEntry_some hfind
      have hlen : (s.neighborCache.getD i emptyEntry).queue.length ≤ NDP_MAX_PENDING_PACKETS :=
        (h.table.owns_getD hi).length_le
      rw [hfind] at hstep
      dsimp only at hstep
      split at hstep
      swap
      · exact kept_of_eq h (by rw [hstep]) (by rw [hstep]) (by rw [hstep])
      rename_i hstate
      let entry := s.neighborCache.getD i emptyEntry
      let made := Slots.makeRoom NDP_MAX_PENDING_PACKETS entry.queue
      let dropped := made.2.map fun packet => (⟨entry.ipAddr, packet, .overflowed⟩ : Released P)
      have hmade : (if NDP_MAX_PENDING_PACKETS ≤ entry.queue.length then
          (entry.queue.drop 1, (entry.queue.take 1).map fun packet =>
            (⟨entry.ipAddr, packet, .overflowed⟩ : Released P))
          else (entry.queue, [])) = (made.1, dropped) := by
        simp only [dropped, made, Slots.makeRoom]
        split <;> rfl
      have hcaused : ∀ r ∈ dropped, Caused s (.ndp (.enqueue ipAddr packet alloc)) r := by
        intro r hr
        obtain ⟨item, hitem, rfl⟩ := List.mem_map.1 hr
        obtain ⟨hfull, hhead⟩ := Slots.mem_makeRoom hlen hitem
        exact ⟨packet, alloc, by rw [hip], entry, hmem, hstate, rfl, hfull, hhead⟩
      have hroom := Slots.makeRoom_length hlen (by decide)
      have hinvariant : ∀ added : List P, (made.1 ++ added).length ≤ NDP_MAX_PENDING_PACKETS →
          Invariant { s with
            neighborCache := s.neighborCache.set i { entry with queue := made.1 ++ added }
            accepted := s.accepted ++ added.map fun packet => (ipAddr, packet)
            released := s.released ++ dropped } := by
        intro added hlen'
        refine ⟨(List.length_set ..).trans h.size, ?_⟩
        have hqueue : made.2 ++ (made.1 ++ added) = entry.queue ++ added := by
          rw [← List.append_assoc, Slots.makeRoom_append]
        let entry' := { entry with queue := made.1 ++ added }
        have hwaiting : slots.waiting entry := hstate
        have hwaiting' : slots.waiting entry' := hstate
        have henqueue := h.table.enqueue hi hwaiting hwaiting' rfl hlen' hqueue
        have hdropped : packets dropped = made.2.map fun packet => (entry.ipAddr, packet) :=
          List.map_map
        show slots.Invariant _ _ (packets (s.released ++ dropped))
        rw [packets_append, hdropped, ← hip]
        exact henqueue
      rw [hmade] at hstep
      dsimp only at hstep
      cases alloc with
      | true =>
          have hnew := hinvariant [packet] (by
            rw [List.length_append]
            exact hroom)
          rw [Justified, hstep, if_pos rfl]
          exact ⟨hnew, dropped, rfl, hcaused⟩
      | false =>
          have hnew := hinvariant [] (by
            rw [List.append_nil]
            exact hroom.le)
          rw [List.append_nil, List.map_nil, List.append_nil] at hnew
          rw [Justified, hstep, if_neg Bool.false_ne_true]
          exact ⟨hnew, dropped, rfl, hcaused⟩

theorem Invariant.neighborAdv (h : Invariant s) (targetAddr : BitVec 128)
    (option : Option (BitVec 48)) (solicited override : Bool) (now : UInt32) :
    Invariant (queueStep s (.ndp (.neighborAdv targetAddr option solicited override now))) ∧
      Justified s (.ndp (.neighborAdv targetAddr option solicited override now)) := by
  have hstep : queueStep s (.ndp (.neighborAdv targetAddr option solicited override now)) =
    ndpProcessNeighborAdv targetAddr option solicited override now s := rfl
  rw [ndpProcessNeighborAdv] at hstep
  cases hfind : ndpFindNeighborCacheEntry s.neighborCache targetAddr with
  | none =>
      rw [hfind] at hstep
      exact kept_of_eq h (by rw [hstep]) (by rw [hstep]) (by rw [hstep])
  | some i =>
      obtain ⟨hi, -, hused, hip⟩ := ndpFindNeighborCacheEntry_some hfind
      rw [hfind] at hstep
      rw [Justified, hstep]
      refine ⟨h.set hi (advertisedEntry_step (h.table.owns_getD hi) hused option solicited override
        s.reachableTime now), _, rfl, fun r hr => ?_⟩
      obtain ⟨linkLayerAddr, rfl, hhow, hrip⟩ := mem_advertisedEntry hr
      rw [Caused, hhow]
      exact ⟨_, rfl, .inr ⟨solicited, override, now, by rw [hrip, hip]⟩⟩

/-- Every entry takes a step of its own. -/
theorem Invariant.mapIdx (h : Invariant s)
    (f : ℕ → NdpNeighborCacheEntry P → NdpNeighborCacheEntry P × List (Released P))
    (hstep : ∀ i, ∀ entry ∈ s.neighborCache,
      slots.EntryStep entry (f i entry).1 (packets (f i entry).2)) :
    Invariant { s with
      neighborCache := (s.neighborCache.mapIdx f).map Prod.fst
      released := s.released ++ (s.neighborCache.mapIdx f).flatMap Prod.snd } := by
  refine ⟨?_, ?_⟩
  · show ((s.neighborCache.mapIdx f).map Prod.fst).length = _
    rw [List.length_map, List.length_mapIdx, h.size]
  · show slots.Invariant _ s.accepted (packets (s.released ++ _))
    rw [packets_append]
    exact h.table.mapIdx f Released.item hstep

theorem Invariant.tick (h : Invariant s) (time : UInt32) (now : ℕ → UInt32) :
    Invariant (queueStep s (.ndp (.tick time now))) ∧ Justified s (.ndp (.tick time now)) := by
  refine ⟨h.mapIdx (fun i entry => ndpUpdateEntry s.retransTimer time (now i) entry)
    fun i entry hentry => ndpUpdateEntry_step (h.table.owns entry hentry) _ time (now i), _, rfl,
    fun r hr => ?_⟩
  obtain ⟨b, hb, hr⟩ := List.mem_flatMap.1 hr
  obtain ⟨i, hi, rfl⟩ := List.mem_mapIdx.1 hb
  obtain ⟨hhow, hstate, hip, hcount⟩ := mem_ndpUpdateEntry hr
  rw [Caused, hhow]
  exact ⟨.inl ⟨time, now, rfl⟩, _, List.getElem_mem hi, hstate, hip, hcount⟩

theorem Invariant.updateEntry (h : Invariant s) (i : ℕ) (time now : UInt32) :
    Invariant (queueStep s (.updateEntry i time now)) ∧ Justified s (.updateEntry i time now) := by
  by_cases hi : i < s.neighborCache.length
  · refine ⟨h.set hi (ndpUpdateEntry_step (h.table.owns_getD hi) s.retransTimer time now), _, rfl,
      fun r hr => ?_⟩
    obtain ⟨hhow, hstate, hip, hcount⟩ := mem_ndpUpdateEntry hr
    rw [Caused, hhow]
    refine ⟨.inr ⟨i, time, now, rfl⟩, _, ?_, hstate, hip, hcount⟩
    rw [List.getD_eq_getElem _ _ hi]
    exact List.getElem_mem hi
  · have hle := Nat.le_of_not_lt hi
    have hnothing : (ndpUpdateEntry s.retransTimer time now
        (s.neighborCache.getD i emptyEntry)).2 = [] := by
      rw [List.getD_eq_default _ _ hle, ndpUpdateEntry]
      split <;> rfl
    refine kept_of_eq h (List.set_eq_of_length_le hle) rfl ?_
    show s.released ++ (ndpUpdateEntry _ time now (s.neighborCache.getD i emptyEntry)).2 = _
    rw [hnothing, List.append_nil]

theorem Invariant.linkChange (h : Invariant s) :
    Invariant (queueStep s (.ndp .linkChange)) ∧ Justified s (.ndp .linkChange) := by
  have hmap := h.mapIdx (fun _ entry => ndpFlushEntry entry) fun i entry hentry =>
    ndpFlushEntry_step (h.table.owns entry hentry)
  rw [Slots.mapIdx_const] at hmap
  refine ⟨⟨hmap.size, hmap.table⟩, _, rfl, fun r hr => ?_⟩
  obtain ⟨b, hb, hr⟩ := List.mem_flatMap.1 hr
  obtain ⟨entry, -, rfl⟩ := List.mem_map.1 hb
  rw [Caused, (mem_releaseQueue hr).1]

/-- A message without a link-layer address that can be used. -/
theorem Invariant.message (h : Invariant s) {m : NdpEvent P}
    (hstep : ∃ reachableTime retransTimer, Ndp.step s m = { s with
      reachableTime := reachableTime, retransTimer := retransTimer }) :
    Invariant (queueStep s (.ndp m)) ∧ Justified s (.ndp m) := by
  obtain ⟨reachableTime, retransTimer, hstep⟩ := hstep
  have hqueue : queueStep s (.ndp m) = { s with
    reachableTime := reachableTime, retransTimer := retransTimer } := hstep
  exact kept_of_eq h (by rw [hqueue]) (by rw [hqueue]) (by rw [hqueue])

/-- One step lemma for all events. -/
theorem Invariant.step (h : Invariant s) (e : QueueEvent P) :
    Invariant (queueStep s e) ∧ Justified s e := by
  cases e with
  | updateEntry i time now => exact h.updateEntry i time now
  | ndp m =>
      cases hlearnt : Ndp.learnt m with
      | some l => exact h.learnt hlearnt
      | none =>
        cases m with
        | resolve ipAddr time now => exact h.resolve ipAddr time now
        | enqueue ipAddr packet alloc => exact h.enqueue ipAddr packet alloc
        | neighborAdv targetAddr option solicited override now =>
            exact h.neighborAdv targetAddr option solicited override now
        | tick time now => exact h.tick time now
        | linkChange => exact h.linkChange
        | routerAdv srcAddr option reachableTime retransTimer time now =>
            cases option with
            | none =>
                refine h.message ⟨if reachableTime ≠ 0 then reachableTime else s.reachableTime,
                  if retransTimer ≠ 0 then retransTimer else s.retransTimer, ?_⟩
                simp only [Ndp.step, ndpProcessRouterAdv]
                split_ifs <;> rfl
            | some mac => cases hlearnt
        | routerSol srcAddr option time time' =>
            cases option with
            | none => exact h.message ⟨_, _, rfl⟩
            | some mac =>
                have hsrc : srcAddr = IPV6_UNSPECIFIED_ADDR := by simpa [Ndp.learnt] using hlearnt
                exact h.message ⟨_, _, if_pos hsrc⟩
        | neighborSol srcAddr option time now =>
            cases option with
            | none => exact h.message ⟨_, _, rfl⟩
            | some mac =>
                have hsrc : srcAddr = IPV6_UNSPECIFIED_ADDR := by simpa [Ndp.learnt] using hlearnt
                exact h.message ⟨_, _, if_pos hsrc⟩
        | redirect targetAddr option time now =>
            cases option with
            | none => exact h.message ⟨_, _, rfl⟩
            | some mac => cases hlearnt

theorem invariant_init : Invariant (ndpInit : NdpContext P) :=
  ⟨rfl, Slots.invariant_replicate _ (fun hused => hused rfl) rfl⟩

end Events

/-! ## Runs -/

end Ndp
