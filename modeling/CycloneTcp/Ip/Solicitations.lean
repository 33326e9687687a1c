import CycloneTcp.Ip.ArpQueue
import CycloneTcp.Ip.Ndp
import CycloneTcp.Lib.Attempts

set_option autoImplicit false

/-! # Requests before a neighbour is given up

An entry is removed when its retransmission counter reaches a limit. The counter is set to zero when
the entry is made, and never again: that it counts the requests sent in the PROBE state takes that
it is zero when this state is entered. -/

/-! ## ARP -/

namespace Arp

variable {P : Type*}

/-- Requests are sent in two states. -/
def attempts : Attempts (ArpCacheEntry P) where
  trying entry := entry.state = .incomplete ∨ entry.state = .probe
  sent entry := entry.requests
  retries entry := entry.retransmitCount

/-- No entry is removed before enough requests have been sent since it is in its state. -/
def Persistent (s : ArpCache P) : ArpEvent P → Prop
  | .tick time now => ∀ i entry, s.entries[i]? = some entry →
      (arpTickEntry time (now i) entry).1.state = .none →
        (entry.state = .incomplete → ARP_MAX_REQUESTS ≤ entry.requests) ∧
          (entry.state = .probe → ARP_MAX_PROBES ≤ entry.requests)
  | _ => True

/-- The retransmission counter is zero in every entry that enters the PROBE state. -/
def ProbesFromZero (s : ArpCache P) : ArpEvent P → Prop
  | .tick time _ => ∀ entry ∈ s.entries, entry.state = .delay →
      timeCompare time (entry.timestamp + entry.timeout) ≥ 0 → entry.retransmitCount = 0
  | _ => True

instance (s : ArpCache P) : (e : ArpEvent P) → Decidable (ProbesFromZero s e)
  | .tick time _ => List.decidableBAll
      (fun entry : ArpCacheEntry P => entry.state = .delay →
        timeCompare time (entry.timestamp + entry.timeout) ≥ 0 → entry.retransmitCount = 0) s.entries
  | .resolve .. | .enqueue .. | .packet .. | .flush => isTrue trivial

section Counted

variable {s : ArpCache P} {entry : ArpCacheEntry P} {entries : List (ArpCacheEntry P)}
  {time now : UInt32}

/-- In the other states, nothing is counted. -/
theorem counted_of_ne (hi : entry.state ≠ .incomplete) (hp : entry.state ≠ .probe) :
    attempts.Counted entry := Attempts.counted_of_not fun htrying => htrying.elim hi hp

theorem counted_emptyEntry : attempts.Counted (emptyEntry : ArpCacheEntry P) :=
  counted_of_ne (by simp [emptyEntry]) (by simp [emptyEntry])

theorem arpTickEntry_counted (h : attempts.Counted entry) (hzero : entry.state = .delay →
      timeCompare time (entry.timestamp + entry.timeout) ≥ 0 → entry.retransmitCount = 0) :
    attempts.Counted (arpTickEntry time now entry).1 := by
  rw [arpTickEntry]
  split
  swap
  · exact h
  rename_i htime
  split
  · rename_i hstate
    dsimp only
    split
    · exact h.next (.inl hstate) rfl rfl
    · exact counted_of_ne (by simp) (by simp)
  · exact counted_of_ne (by simp) (by simp)
  · rename_i hstate
    intro _
    show 1 = entry.retransmitCount + 1
    rw [hzero hstate htime]
  · rename_i hstate
    dsimp only
    split
    · exact h.next (.inr hstate) rfl rfl
    · exact counted_of_ne (by simp) (by simp)
  · exact h

/-- An entry that is removed has sent as many requests as its counter says. -/
theorem arpTickEntry_removed (h : attempts.Counted entry)
    (hnone : (arpTickEntry time now entry).1.state = .none) :
    (entry.state = .incomplete → ARP_MAX_REQUESTS ≤ entry.requests) ∧
      (entry.state = .probe → ARP_MAX_PROBES ≤ entry.requests) := by
  rw [arpTickEntry] at hnone
  split at hnone
  swap
  · rw [hnone]
    exact ⟨by simp, by simp⟩
  split at hnone
  · rename_i hstate
    dsimp only at hnone
    split at hnone
    · exact absurd (hstate.symm.trans hnone) (by decide)
    · rename_i hcount
      refine ⟨fun _ => h.le_sent (.inl hstate) (Nat.not_lt.1 hcount), fun hprobe => ?_⟩
      exact absurd (hstate.symm.trans hprobe) (by decide)
  · cases hnone
  · cases hnone
  · rename_i hstate
    dsimp only at hnone
    split at hnone
    · exact absurd (hstate.symm.trans hnone) (by decide)
    · rename_i hcount
      refine ⟨fun hincomplete => ?_, fun _ => h.le_sent (.inr hstate) (Nat.not_lt.1 hcount)⟩
      exact absurd (hstate.symm.trans hincomplete) (by decide)
  · rw [hnone]
    exact ⟨by simp, by simp⟩

theorem arpReplyEntry_counted (h : attempts.Counted entry) (sha : BitVec 48) (spa now : UInt32) :
    attempts.Counted (arpReplyEntry sha spa now entry).1 := by
  rw [arpReplyEntry]
  split
  · exact counted_of_ne (by simp) (by simp)
  · dsimp only
    split
    · exact counted_of_ne (by simp) (by simp)
    · exact h
  · exact counted_of_ne (by simp) (by simp)
  · exact h

/-- One event. -/
theorem counted_step (h : attempts.AllCounted s.entries) (e : ArpEvent P) (he : ProbesFromZero s e) :
    attempts.AllCounted (step s e).entries := by
  cases e with
  | resolve ipAddr time now =>
      rw [step, arpResolve]
      split
      · dsimp only
        split_ifs
        · exact h
        · exact h.set (counted_of_ne (by simp) (by simp)) _
        · exact h
      · exact h.set (fun _ => rfl) _
  | enqueue ipAddr packet alloc =>
      rw [step, arpEnqueuePacket]
      split
      · rename_i i _
        have hentry := h.getD counted_emptyEntry i
        dsimp only
        split
        · split
          · refine h.set ?_ _
            exact hentry
          · refine h.set ?_ _
            exact hentry
        · exact h
      · exact h
  | packet context arpPacket length now =>
      rw [step]
      rcases arpProcessPacket_cases context arpPacket length now s with hsame | ⟨-, i, -, hset⟩
      · rw [hsame]
        exact h
      · rw [hset]
        exact h.set (arpReplyEntry_counted (h.getD counted_emptyEntry i) _ _ _) _
  | tick time now => exact Attempts.allCounted_mapIdx _ fun i entry hentry =>
      arpTickEntry_counted (h entry hentry) (he entry hentry)
  | flush => exact Attempts.allCounted_map _ fun entry _ =>
      counted_of_ne (by simp [arpFlushEntry]) (by simp [arpFlushEntry])

end Counted

/-- An ARP entry is given up after enough requests if the counter is zero whenever PROBE is entered.
-/
theorem persistent_run {es : List (ArpEvent P)} (h : Along ProbesFromZero step arpInit es) :
    Along Persistent step arpInit es := by
  refine Along.of_invariant (I := fun s => attempts.AllCounted s.entries)
    (fun _ e hs he => counted_step hs e he) (fun s e hs _ => ?_)
    (Attempts.allCounted_replicate _ counted_emptyEntry) h
  cases e with
  | tick time now => exact fun i entry hentry hnone =>
      arpTickEntry_removed (hs entry (List.mem_of_getElem? hentry)) hnone
  | _ => exact trivial

end Arp

/-! ## NDP -/

namespace Ndp

open Arp (timeCompare)

variable {P : Type*}

/-- Solicitations are sent in two states. -/
def attempts : Attempts (NdpNeighborCacheEntry P) where
  trying entry := entry.state = .incomplete ∨ entry.state = .probe
  sent entry := entry.requests
  retries entry := entry.retransmitCount

/-- No entry is removed before enough solicitations have been sent since it is in its state. -/
def Persistent (s : NdpContext P) : NdpEvent P → Prop
  | .tick time now => ∀ i entry, s.neighborCache[i]? = some entry →
      (ndpUpdateEntry s.retransTimer time (now i) entry).1.state = .none →
        (entry.state = .incomplete → NDP_MAX_MULTICAST_SOLICIT ≤ entry.requests) ∧
          (entry.state = .probe → NDP_MAX_UNICAST_SOLICIT ≤ entry.requests)
  | _ => True

/-- The retransmission counter is zero in every entry that enters the PROBE state. -/
def ProbesFromZero (s : NdpContext P) : NdpEvent P → Prop
  | .tick time _ => ∀ entry ∈ s.neighborCache, entry.state = .delay →
      timeCompare time (entry.timestamp + entry.timeout) ≥ 0 → entry.retransmitCount = 0
  | _ => True

instance (s : NdpContext P) : (e : NdpEvent P) → Decidable (ProbesFromZero s e)
  | .tick time _ => List.decidableBAll
      (fun entry : NdpNeighborCacheEntry P => entry.state = .delay →
        timeCompare time (entry.timestamp + entry.timeout) ≥ 0 → entry.retransmitCount = 0) s.neighborCache
  | .resolve .. | .enqueue .. | .routerAdv .. | .routerSol .. | .neighborSol .. | .neighborAdv ..
  | .redirect .. | .linkChange => isTrue trivial

section Counted

variable {s : NdpContext P} {entry : NdpNeighborCacheEntry P}
  {entries : List (NdpNeighborCacheEntry P)} {retransTimer time now : UInt32}

theorem counted_of_ne (hi : entry.state ≠ .incomplete) (hp : entry.state ≠ .probe) :
    attempts.Counted entry := Attempts.counted_of_not fun htrying => htrying.elim hi hp

theorem counted_emptyEntry : attempts.Counted (emptyEntry : NdpNeighborCacheEntry P) :=
  counted_of_ne (by simp [emptyEntry]) (by simp [emptyEntry])

theorem ndpUpdateEntry_counted (h : attempts.Counted entry) (hzero : entry.state = .delay →
      timeCompare time (entry.timestamp + entry.timeout) ≥ 0 → entry.retransmitCount = 0) :
    attempts.Counted (ndpUpdateEntry retransTimer time now entry).1 := by
  rw [ndpUpdateEntry]
  split
  swap
  · exact h
  rename_i htime
  split
  · rename_i hstate
    dsimp only
    split
    · exact h.next (.inl hstate) rfl rfl
    · exact counted_of_ne (by simp) (by simp)
  · exact counted_of_ne (by simp) (by simp)
  · rename_i hstate
    intro _
    show 1 = entry.retransmitCount + 1
    rw [hzero hstate htime]
  · rename_i hstate
    dsimp only
    split
    · exact h.next (.inr hstate) rfl rfl
    · exact counted_of_ne (by simp) (by simp)
  · exact h

/-- An entry that is removed has sent as many solicitations as its counter says. -/
theorem ndpUpdateEntry_removed (h : attempts.Counted entry)
    (hnone : (ndpUpdateEntry retransTimer time now entry).1.state = .none) :
    (entry.state = .incomplete → NDP_MAX_MULTICAST_SOLICIT ≤ entry.requests) ∧
      (entry.state = .probe → NDP_MAX_UNICAST_SOLICIT ≤ entry.requests) := by
  rw [ndpUpdateEntry] at hnone
  split at hnone
  swap
  · rw [hnone]
    exact ⟨by simp, by simp⟩
  split at hnone
  · rename_i hstate
    dsimp only at hnone
    split at hnone
    · exact absurd (hstate.symm.trans hnone) (by decide)
    · rename_i hcount
      refine ⟨fun _ => h.le_sent (.inl hstate) (Nat.not_lt.1 hcount), fun hprobe => ?_⟩
      exact absurd (hstate.symm.trans hprobe) (by decide)
  · cases hnone
  · cases hnone
  · rename_i hstate
    dsimp only at hnone
    split at hnone
    · exact absurd (hstate.symm.trans hnone) (by decide)
    · rename_i hcount
      refine ⟨fun hincomplete => ?_, fun _ => h.le_sent (.inr hstate) (Nat.not_lt.1 hcount)⟩
      exact absurd (hstate.symm.trans hincomplete) (by decide)
  · rw [hnone]
    exact ⟨by simp, by simp⟩

theorem updateLinkLayerAddr_counted (h : attempts.Counted entry) (linkLayerAddr : BitVec 48)
    (now : UInt32) : attempts.Counted (updateLinkLayerAddr linkLayerAddr now entry).1 := by
  unfold updateLinkLayerAddr
  dsimp only
  split_ifs
  · exact counted_of_ne (by simp) (by simp)
  · exact counted_of_ne (by simp) (by simp)
  · exact counted_of_ne (by simp) (by simp)
  · exact h

theorem recordLinkLayerAddr_counted (h : attempts.AllCounted s.neighborCache) (ipAddr : BitVec 128)
    (linkLayerAddr : BitVec 48) (time now : UInt32) :
    attempts.AllCounted (recordLinkLayerAddr ipAddr linkLayerAddr time now s).neighborCache := by
  rw [recordLinkLayerAddr]
  split
  · exact h.set (counted_of_ne (by simp) (by simp)) _
  · exact h.set (updateLinkLayerAddr_counted (h.getD counted_emptyEntry _) _ _) _

theorem advertisedEntry_counted (h : attempts.Counted entry) (option : Option (BitVec 48))
    (solicited override : Bool) (reachableTime now : UInt32) :
    attempts.Counted (advertisedEntry option solicited override reachableTime now entry).1 := by
  unfold advertisedEntry
  extract_lets differentLinkLayerAddr
  split
  · split
    · exact h
    · dsimp only
      split_ifs
      · exact counted_of_ne (by simp) (by simp)
      · exact counted_of_ne (by simp) (by simp)
      · exact counted_of_ne (by simp) (by simp)
  · split_ifs
    · exact counted_of_ne (by simp) (by simp)
    · exact h
    · exact counted_of_ne (by simp) (by simp)
    · exact counted_of_ne (by simp) (by simp)
    · exact h

/-- The times that a router advertises do not matter. -/
theorem routerAdv_counted (h : attempts.AllCounted s.neighborCache) (srcAddr : BitVec 128)
    (option : Option (BitVec 48)) (reachableTime retransTimer time now : UInt32) :
    attempts.AllCounted
      (ndpProcessRouterAdv srcAddr option reachableTime retransTimer time now s).neighborCache := by
  unfold ndpProcessRouterAdv
  extract_lets s1 s2
  have hcache : s2.neighborCache = s.neighborCache := by
    have h1 : s1.neighborCache = s.neighborCache := by
      unfold s1
      split <;> rfl
    unfold s2
    split
    · exact h1
    · exact h1
  split
  · rw [hcache]
    exact h
  · exact recordLinkLayerAddr_counted (by rwa [hcache]) _ _ _ _

/-- One event. -/
theorem counted_step (h : attempts.AllCounted s.neighborCache) (e : NdpEvent P)
    (he : ProbesFromZero s e) : attempts.AllCounted (step s e).neighborCache := by
  cases e with
  | resolve ipAddr time now =>
      rw [step, ndpResolve]
      split
      · dsimp only
        split_ifs
        · exact h
        · exact h.set (counted_of_ne (by simp) (by simp)) _
        · exact h
      · exact h.set (fun _ => rfl) _
  | enqueue ipAddr packet alloc =>
      rw [step, ndpEnqueuePacket]
      split
      · rename_i i _
        have hentry := h.getD counted_emptyEntry i
        dsimp only
        split
        · split
          · refine h.set ?_ _
            exact hentry
          · refine h.set ?_ _
            exact hentry
        · exact h
      · exact h
  | routerAdv srcAddr option reachableTime retransTimer time now =>
      exact routerAdv_counted h _ _ _ _ _ _
  | routerSol srcAddr option time time' =>
      cases option with
      | none => exact h
      | some linkLayerAddr =>
          rw [step, ndpProcessRouterSol]
          split
          · exact h
          · exact recordLinkLayerAddr_counted h _ _ _ _
  | neighborSol srcAddr option time now =>
      cases option with
      | none => exact h
      | some linkLayerAddr =>
          rw [step, ndpProcessNeighborSol]
          split
          · exact h
          · exact recordLinkLayerAddr_counted h _ _ _ _
  | neighborAdv targetAddr option solicited override now =>
      rw [step, ndpProcessNeighborAdv]
      split
      · exact h
      · exact h.set (advertisedEntry_counted (h.getD counted_emptyEntry _) _ _ _ _ _) _
  | redirect targetAddr option time now =>
      cases option with
      | none => exact h
      | some linkLayerAddr => exact recordLinkLayerAddr_counted h _ _ _ _
  | tick time now => exact Attempts.allCounted_mapIdx _ fun i entry hentry =>
      ndpUpdateEntry_counted (h entry hentry) (he entry hentry)
  | linkChange => exact Attempts.allCounted_map _ fun entry _ =>
      counted_of_ne (by simp [ndpFlushEntry]) (by simp [ndpFlushEntry])

end Counted

/-- A neighbour is given up after enough solicitations if the counter is zero whenever PROBE is
entered. -/
theorem persistent_run {es : List (NdpEvent P)} (h : Along ProbesFromZero step ndpInit es) :
    Along Persistent step ndpInit es := by
  refine Along.of_invariant (I := fun s => attempts.AllCounted s.neighborCache)
    (fun _ e hs he => counted_step hs e he) (fun s e hs _ => ?_)
    (Attempts.allCounted_replicate _ counted_emptyEntry) h
  cases e with
  | tick time now => exact fun i entry hentry hnone =>
      ndpUpdateEntry_removed (hs entry (List.mem_of_getElem? hentry)) hnone
  | _ => exact trivial

end Ndp

/-! ## Both protocols -/

namespace Neighbor

/-- The first request is lost, and the neighbour is resolved. When it is probed later on, it is
given up one request too early. -/
def arpLostRequest : List (Arp.ArpEvent ℕ) :=
  [.resolve 1 0 0, .tick 1000 fun _ => 1000,
    .packet ⟨9, .valid, 0, 5⟩ ⟨1, 0x0800, 6, 4, 2, 2, 1, 9⟩ 28 1000,
    .tick 61000 fun _ => 61000, .resolve 1 61000 61000, .tick 66000 fun _ => 66000,
    .tick 126000 fun _ => 126000]

def ndpLostSolicitation : List (Ndp.NdpEvent ℕ) :=
  [.resolve 1 0 0, .tick 1000 fun _ => 1000, .neighborAdv 1 (some 2) true true 1000,
    .tick 31000 fun _ => 31000, .resolve 1 31000 31000, .tick 36000 fun _ => 36000,
    .tick 37000 fun _ => 37000, .tick 38000 fun _ => 38000]

end Neighbor
