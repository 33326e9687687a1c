import CycloneTcp.Core.TcpCwnd
import CycloneTcp.Core.TcpOwnership

set_option autoImplicit false

/-! # The address pairs of live connections

A segment is for the connection with its interface, addresses and ports. A socket stands for its own
connection, and a listening socket for those that the requests in its queue ask for. One lemma for
each kind of step, with what it can add to them: only `tcpConnect`, `tcpAccept`, `socketBind` and a
call that sends a FIN on a connection that has been lost give a pair to a socket, and only a SYN
gives one to a queue. -/

namespace Tcp

/-- The ends of a connection. -/
structure Pair where
  interface : Option ℕ
  localIpAddr : IpAddr
  localPort : UInt16
  remoteIpAddr : IpAddr
  remotePort : UInt16
  deriving DecidableEq

def Socket.pair (s : Socket) : Pair where
  interface := s.interface
  localIpAddr := s.localIpAddr
  localPort := s.localPort
  remoteIpAddr := s.remoteIpAddr
  remotePort := s.remotePort

/-- The connection that a segment belongs to. -/
def Segment.pair (segment : Segment) : Pair where
  interface := some segment.interface
  localIpAddr := segment.destAddr
  localPort := segment.destPort
  remoteIpAddr := segment.srcAddr
  remotePort := segment.srcPort

/-- The socket has a connection. -/
def Socket.Live (s : Socket) : Prop := s.type = .stream ∧ s.state ≠ .closed ∧ s.state ≠ .listen

instance (s : Socket) : Decidable s.Live := inferInstanceAs (Decidable (_ ∧ _))

/-- The connection that a pending request asks for. -/
def Socket.requested (s : Socket) (queueItem : TcpSynQueueItem) : Pair where
  interface := some queueItem.interface
  localIpAddr := queueItem.destAddr
  localPort := s.localPort
  remoteIpAddr := queueItem.srcAddr
  remotePort := queueItem.srcPort

/-- The connections that the requests in the SYN queue ask for. -/
def Socket.requests (s : Socket) : List Pair := s.synQueue.map s.requested

/-- The connection of the socket and those that its queue asks for. -/
def Socket.pairs (s : Socket) : List Pair := (if s.Live then [s.pair] else []) ++ s.requests

theorem Socket.pairs_live {s : Socket} (h : s.Live) : s.pairs = s.pair :: s.requests := by
  rw [Socket.pairs, if_pos h, List.singleton_append]

theorem Socket.pairs_not_live {s : Socket} (h : ¬ s.Live) : s.pairs = s.requests := by
  rw [Socket.pairs, if_neg h, List.nil_append]

theorem Socket.mem_pairs {s : Socket} {p : Pair} :
    p ∈ s.pairs ↔ (s.Live ∧ p = s.pair) ∨ p ∈ s.requests := by
  by_cases h : s.Live
  · simp [Socket.pairs_live h, h]
  · simp [Socket.pairs_not_live h, h]

theorem Socket.localPort_of_mem {s : Socket} {p : Pair} (h : p ∈ s.pairs) :
    p.localPort = s.localPort := by
  rcases Socket.mem_pairs.1 h with ⟨-, rfl⟩ | h
  · rfl
  · obtain ⟨item, -, rfl⟩ := List.mem_map.1 h
    rfl

/-! ## What a step leaves of a socket -/

/-- If there is a connection after the step, it was there before. -/
def Inherits (s s' : Socket) : Prop := s'.Live → s.Live ∧ s'.pair = s.pair

theorem Inherits.refl (s : Socket) : Inherits s s := fun h => ⟨h, rfl⟩

theorem SameEnds.pair {s s' : Socket} (h : SameEnds s s') : s'.pair = s.pair := by
  rw [Socket.pair, h.interface, h.localIpAddr, h.localPort, h.remoteIpAddr, h.remotePort]
  rfl

theorem Inherits.of_ends {s s' : Socket} (h : SameEnds s s') (hstate : s'.state = s.state) :
    Inherits s s' := by
  intro hlive
  rw [Socket.Live, h.type, hstate] at hlive
  exact ⟨hlive, h.pair⟩

theorem Serviced.inherits {queues : Prop} {s s' : Socket} (h : Serviced queues s s') :
    Inherits s s' := by
  rintro ⟨htype, hclosed, hlisten⟩
  rcases h.ends with hends | ⟨-, -, hunused, -⟩
  · refine ⟨⟨hends.type.symm.trans htype, fun hstate => ?_, fun hstate => ?_⟩, hends.pair⟩
    · rcases h.passive (.inl hstate) with hsame | hclosed'
      · exact hclosed (hsame.trans hstate)
      · exact hclosed hclosed'
    · rcases h.passive (.inr hstate) with hsame | hclosed'
      · exact hlisten (hsame.trans hstate)
      · exact hclosed hclosed'
  · exact absurd (htype.symm.trans hunused) (by simp)

/-- The local port stays, and no request is queued. -/
structure KeepsPort (s s' : Socket) : Prop where
  port : s'.type = .stream → s.type = .stream ∧ s'.localPort = s.localPort
  synQueue : s'.synQueue.Sublist s.synQueue
  stream : s'.synQueue ≠ [] → s.type = .stream → s'.type = .stream

/-- The queue stays, or it is emptied. -/
theorem sublist_of_queue {queue queue' : List TcpSynQueueItem} (h : queue' = queue ∨ queue' = []) :
    queue'.Sublist queue := by
  rcases h with rfl | rfl
  · exact .refl _
  · exact List.nil_sublist _

theorem KeepsPort.of_ends {s s' : Socket} (h : SameEnds s s') : KeepsPort s s' where
  port htype := ⟨h.type.symm.trans htype, h.localPort⟩
  synQueue := sublist_of_queue h.synQueue
  stream _ htype := h.type.trans htype

theorem KeepsPort.refl (s : Socket) : KeepsPort s s := .of_ends (.refl s)

theorem Serviced.keepsPort {queues : Prop} {s s' : Socket} (h : Serviced queues s s')
    (hqueues : ¬ queues) : KeepsPort s s' := by
  have hqueue := sublist_of_queue (h.synQueue hqueues)
  rcases h.ends with hends | ⟨-, -, hunused, hempty⟩
  · exact ⟨fun htype => ⟨hends.type.symm.trans htype, hends.localPort⟩, hqueue,
      fun _ htype => hends.type.trans htype⟩
  · exact ⟨fun htype => absurd (htype.symm.trans hunused) (by simp), hqueue,
      fun hne => absurd hempty hne⟩

theorem Called.keepsPort {slot : Slot} {s' : Socket} {event : Event} (h : Called slot s' event) :
    KeepsPort slot.socket s' := by
  cases h with
  | same hends _ => exact .of_ends hends
  | connect remoteIpAddr remotePort env htype hclosed hconnected =>
      cases hconnected with
      | failed htype' _ hport hqueue =>
          exact ⟨fun _ => ⟨htype, hport⟩, sublist_of_queue hqueue, fun _ h => htype'.trans h⟩
      | sent interface addr hsource hends =>
          exact ⟨fun _ => ⟨htype, hends.localPort⟩, sublist_of_queue hends.synQueue,
            fun _ h => hends.type.trans h⟩

/-- Requests are queued on stream sockets. -/
def Socket.QueueUsed (s : Socket) : Prop := s.synQueue ≠ [] → s.type = .stream

theorem KeepsPort.queueUsed {s s' : Socket} (h : KeepsPort s s') (hs : s.QueueUsed) :
    s'.QueueUsed := by
  intro hne
  refine h.stream hne (hs fun hempty => hne ?_)
  have hqueue := h.synQueue
  rw [hempty] at hqueue
  exact List.sublist_nil.1 hqueue

theorem KeepsPort.requests {s s' : Socket} (h : KeepsPort s s') (hs : s.QueueUsed) :
    s'.requests.Sublist s.requests := by
  by_cases hempty : s'.synQueue = []
  · rw [Socket.requests, hempty]
    exact List.nil_sublist _
  · have hport := (h.port (h.queueUsed hs hempty)).2
    have hrequested : s'.requested = s.requested := by
      funext item
      simp only [Socket.requested, hport]
    rw [Socket.requests, Socket.requests, hrequested]
    exact h.synQueue.map _

/-- No connection is opened, and none is asked for. -/
theorem KeepsPort.pairs {s s' : Socket} (h : KeepsPort s s') (hlive : Inherits s s')
    (hs : s.QueueUsed) : s'.pairs.Sublist s.pairs := by
  have hrequests := h.requests hs
  by_cases hnew : s'.Live
  · obtain ⟨hold, hpair⟩ := hlive hnew
    rw [Socket.pairs_live hnew, Socket.pairs_live hold, hpair]
    exact hrequests.cons_cons _
  · rw [Socket.pairs_not_live hnew]
    exact hrequests.trans (List.sublist_append_right _ _)

/-- The pair that a call gives to a socket without a connection. -/
def pairOfCall (slot : Slot) (event : Event) : Option Pair :=
  match event with
  | .connect remoteIpAddr remotePort env =>
      match env.source with
      | .ok (interface, addr) =>
          if slot.socket.state = .closed then
            some (connectedEnds slot.socket interface addr remoteIpAddr remotePort).pair
          else none
      | .error _ => none
  | event =>
      if resumesFin slot event = true ∧ ¬ slot.socket.Live then some slot.socket.pair else none

theorem Called.inherits {slot : Slot} {s' : Socket} {event : Event} (h : Called slot s' event)
    (hlive : s'.Live) :
    (slot.socket.Live ∧ s'.pair = slot.socket.pair) ∨
      ¬ slot.socket.Live ∧ pairOfCall slot event = some s'.pair := by
  cases h with
  | same hends hstate =>
      by_cases hold : slot.socket.Live
      · exact .inl ⟨hold, hends.pair⟩
      refine .inr ⟨hold, ?_⟩
      have hresumes : resumesFin slot event = true := by
        rcases hstate with hsame | hsends | ⟨-, hlisten⟩ | hresumes
        · exact absurd (Inherits.of_ends hends hsame hlive).1 hold
        · refine absurd ⟨hends.type.symm.trans hlive.1, ?_, ?_⟩ hold
          all_goals
            intro hstate
            rw [hstate] at hsends
            simp [TcpState.Sends] at hsends
        · exact absurd hlisten hlive.2.2
        · exact hresumes
      rw [hends.pair]
      cases event with
      | resume i missed => simp [pairOfCall, hresumes, hold]
      | _ => simp [resumesFin] at hresumes
  | connect remoteIpAddr remotePort env htype hclosed hconnected =>
      cases hconnected with
      | failed _ hclosed' => exact absurd hclosed' hlive.2.1
      | sent interface addr hsource hends =>
          refine .inr ⟨fun hold => hold.2.1 hclosed, ?_⟩
          rw [hends.pair]
          simp [pairOfCall, hsource, hclosed]

theorem socketClose_inherits (s : Socket) : Inherits s (Table.socketClose s) := by
  intro hlive
  rw [Table.socketClose] at hlive ⊢
  split at hlive
  case h_1 htype =>
    rcases tcpAbort_ends s with ⟨hunused, -⟩ | ⟨hstate, heq⟩
    · exact absurd (hlive.1.symm.trans hunused) (by simp)
    · rw [heq]
      exact ⟨⟨htype, by simp [hstate], by simp [hstate]⟩, rfl⟩
  case h_2 => exact absurd hlive.1 (by simp)

theorem socketClose_keepsPort {s : Socket} (hs : s.QueueUsed) :
    KeepsPort s (Table.socketClose s) := by
  rw [Table.socketClose]
  split
  case h_1 htype =>
    rcases tcpAbort_ends s with ⟨hunused, hempty⟩ | ⟨-, heq⟩
    · refine ⟨fun htype' => absurd (htype'.symm.trans hunused) (by simp), ?_,
        fun hne => absurd hempty hne⟩
      rw [hempty]
      exact List.nil_sublist _
    · rw [heq]
      exact ⟨fun _ => ⟨htype, rfl⟩, .refl _, fun _ _ => htype⟩
  case h_2 htype =>
    exact ⟨fun h => absurd h (by simp), .refl _, fun hne _ => absurd (hs hne) htype⟩

theorem reuseEntry_pairs (s : Socket) (type : SocketType) (port : UInt16) :
    (reuseEntry s type port).pairs = [] := by
  rw [Socket.pairs_not_live fun hlive => absurd rfl hlive.2.1]
  rfl

theorem reuseEntry_queueUsed (s : Socket) (type : SocketType) (port : UInt16) :
    (reuseEntry s type port).QueueUsed := fun h => absurd rfl h

theorem socketBind_live {s : Socket} {localIpAddr : IpAddr} {localPort : UInt16}
    (h : (Table.socketBind s localIpAddr localPort).Live) :
    s.Live ∧ (Table.socketBind s localIpAddr localPort).pair
      = { s.pair with localIpAddr := localIpAddr, localPort := localPort } := by
  rw [Table.socketBind] at h ⊢
  split at h
  case isTrue hother => exact absurd h.1 hother.1
  case isFalse hother =>
    rw [if_neg hother]
    exact ⟨h, rfl⟩

theorem socketBind_synQueue (s : Socket) (localIpAddr : IpAddr) (localPort : UInt16) :
    (Table.socketBind s localIpAddr localPort).synQueue = s.synQueue := by
  rw [Table.socketBind]
  split <;> rfl

theorem socketBind_localPort {s : Socket} {localIpAddr : IpAddr} {localPort : UInt16}
    (h : (Table.socketBind s localIpAddr localPort).type = .stream) :
    (Table.socketBind s localIpAddr localPort).localPort = localPort := by
  rw [Table.socketBind] at h ⊢
  split at h
  case isTrue hother => exact absurd h hother.1
  case isFalse hother => rw [if_neg hother]

theorem dequeue_keepsPort (slot : Slot) : KeepsPort slot.socket (Tcp.step slot .dequeue).socket :=
  ⟨fun htype => ⟨htype, rfl⟩, List.tail_sublist _, fun _ htype => htype⟩

theorem dequeue_inherits (slot : Slot) : Inherits slot.socket (Tcp.step slot .dequeue).socket :=
  fun hlive => ⟨hlive, rfl⟩

/-- The socket that `tcpAccept` has set up ends the connection that the request asks for, or it has
been disposed of. -/
theorem acceptConnection_pair (listener : Socket) {s : Socket} (hclosed : s.state = .closed)
    (hempty : s.synQueue = []) (queueItem : TcpSynQueueItem) (memory : Bool) (iss : UInt32) :
    (acceptConnection listener s queueItem memory iss).2.synQueue = [] ∧
      ((acceptConnection listener s queueItem memory iss).2.type = .unused ∨
        (acceptConnection listener s queueItem memory iss).2.pair = listener.requested queueItem) := by
  rcases acceptConnection_ends listener s queueItem memory iss with
    ⟨-, hends⟩ | ⟨-, s', hstate, -, heq⟩
  · exact ⟨hends.synQueue.elim (fun hsame => hsame.trans hempty) id, .inr hends.pair⟩
  · rw [heq]
    rcases tcpAbort_ends s' with ⟨hunused, hqueue⟩ | ⟨hwait, -⟩
    · exact ⟨hqueue, .inl hunused⟩
    · rw [hstate, hclosed] at hwait
      exact absurd hwait (by simp)

/-- The first request is gone from the queue. -/
theorem dequeue_not_mem {slot : Slot} {queueItem : TcpSynQueueItem}
    (hhead : slot.socket.synQueue.head? = some queueItem) (hnodup : slot.socket.pairs.Nodup) :
    slot.socket.requested queueItem ∉ (Tcp.step slot .dequeue).socket.pairs := by
  obtain ⟨rest, hqueue⟩ : ∃ rest, slot.socket.synQueue = queueItem :: rest := by
    cases hqueue : slot.socket.synQueue with
    | nil => simp [hqueue] at hhead
    | cons item rest =>
        rw [hqueue, List.head?_cons, Option.some.injEq] at hhead
        exact ⟨rest, by rw [hhead]⟩
  have hrequests : slot.socket.requests
      = slot.socket.requested queueItem :: rest.map slot.socket.requested := by
    rw [Socket.requests, hqueue, List.map_cons]
  have hrest : (Tcp.step slot .dequeue).socket.requests = rest.map slot.socket.requested := by
    change slot.socket.synQueue.tail.map slot.socket.requested = _
    rw [hqueue, List.tail_cons]
  intro hmem
  rcases Socket.mem_pairs.1 hmem with ⟨hlive, heq⟩ | hmem
  · have hlive : slot.socket.Live := hlive
    rw [Socket.pairs_live hlive, hrequests, List.nodup_cons] at hnodup
    exact hnodup.1 (List.mem_cons.2 (.inl heq.symm))
  · rw [hrest] at hmem
    have hsub := hnodup.sublist (List.sublist_append_right _ _)
    rw [hrequests, List.nodup_cons] at hsub
    exact hsub.1 hmem

/-! ## Connection requests -/

/-- The segment asks for a connection. -/
def Segment.Asks (segment : Segment) : Prop :=
  segment.flags.rst = false ∧ segment.flags.ack = false ∧ segment.flags.syn = true

instance (segment : Segment) : Decidable segment.Asks := inferInstanceAs (Decidable (_ ∧ _ ∧ _))

/-- The LISTEN state queues a request for the connection of the segment, unless it is a duplicate.
-/
theorem tcpStateListen_cases (s : Socket) (segment : Segment) (memory : Bool) :
    (tcpStateListen s segment memory).synQueue = s.synQueue ∨
      segment.Asks ∧ tcpIsDuplicateSyn s segment = false ∧ ∃ queueItem,
        (tcpStateListen s segment memory).synQueue = s.synQueue ++ [queueItem] ∧
          s.requested queueItem = { segment.pair with localPort := s.localPort } := by
  rw [tcpStateListen]
  by_cases hrst : segment.flags.rst = true
  · exact .inl (by rw [if_pos hrst])
  rw [if_neg hrst]
  by_cases hack : segment.flags.ack = true
  · exact .inl (by rw [if_pos hack])
  rw [if_neg hack]
  by_cases hsyn : segment.flags.syn = true
  case neg => exact .inl (by rw [if_neg hsyn])
  rw [if_pos hsyn]
  by_cases hdup : tcpIsDuplicateSyn s segment = true
  · exact .inl (by rw [if_pos hdup])
  rw [if_neg hdup]
  split_ifs
  · exact .inl rfl
  · exact .inl rfl
  · rw [Bool.not_eq_true] at hrst hack hdup
    exact .inr ⟨⟨hrst, hack, hsyn⟩, hdup, _, rfl, rfl⟩

theorem tcpProcessSegment_eq_listen {s : Socket} (hlisten : s.state = .listen) (segment : Segment)
    (memory : Bool) :
    ∃ s' : Socket, s'.state = .listen ∧ s'.localPort = s.localPort ∧ s'.synQueue = s.synQueue ∧
      tcpProcessSegment s segment memory = tcpStateListen s' segment memory := by
  refine ⟨{ s with history := { s.history with
    finAcked := s.history.finAcked || acksFin s segment } }, hlisten, rfl, rfl, ?_⟩
  rw [tcpProcessSegment]
  simp only [hlisten]

theorem tcpProcessSegment_listen {s : Socket} (hlisten : s.state = .listen) (segment : Segment)
    (memory : Bool) :
    (tcpProcessSegment s segment memory).state = .listen ∧
      ((tcpProcessSegment s segment memory).synQueue = s.synQueue ∨
        segment.Asks ∧ tcpIsDuplicateSyn s segment = false ∧ ∃ queueItem,
          (tcpProcessSegment s segment memory).synQueue = s.synQueue ++ [queueItem] ∧
            s.requested queueItem = { segment.pair with localPort := s.localPort }) := by
  obtain ⟨s', hstate, hport, hqueue, heq⟩ := tcpProcessSegment_eq_listen hlisten segment memory
  rw [heq]
  refine ⟨(tcpStateListen_keeps s' segment memory).same.state.trans hstate, ?_⟩
  have hdup : tcpIsDuplicateSyn s' segment = tcpIsDuplicateSyn s segment := by
    rw [tcpIsDuplicateSyn, hqueue]
    rfl
  have hrequested : s'.requested = s.requested := by
    funext queueItem
    simp only [Socket.requested, hport]
  have hcases := tcpStateListen_cases s' segment memory
  rw [hqueue, hdup, hrequested, hport] at hcases
  exact hcases

/-- The listening socket that the scan has found is for the destination of the segment, and no
connection is for the segment. -/
theorem findSocket_listen {sockets : List Socket} {segment : Segment} {i : ℕ} {s : Socket}
    (hfind : findSocket segment sockets 0 none = some i) (hs : sockets[i]? = some s)
    (hstale : matchesAll segment s = false) :
    matchesDest segment s = true ∧ ∀ other ∈ sockets, other.Live → other.pair ≠ segment.pair := by
  rw [findSocket_eq] at hfind
  cases hall : sockets.findIdx? (matchesAll segment) with
  | some j =>
      rw [hall, Option.some_or, Option.some.injEq] at hfind
      subst hfind
      obtain ⟨hlt, hmatches, -⟩ := List.findIdx?_eq_some_iff_getElem.1 hall
      rw [List.getElem?_eq_getElem hlt, Option.some.injEq] at hs
      rw [hs, hstale] at hmatches
      exact absurd hmatches (by simp)
  | none =>
      rw [hall, Option.none_or] at hfind
      obtain ⟨hlt, hmatches, -⟩ := List.findIdx?_eq_some_iff_getElem.1 hfind
      rw [List.getElem?_eq_getElem hlt, Option.some.injEq] at hs
      rw [hs] at hmatches
      refine ⟨?_, fun other hother hlive hpair => ?_⟩
      · simp only [passiveMatch, Bool.and_eq_true] at hmatches
        exact hmatches.1.1
      · have hnone := List.findIdx?_eq_none_iff.1 hall other hother
        have htype := hlive.1
        simp only [Socket.pair, Segment.pair, Pair.mk.injEq] at hpair
        obtain ⟨hinterface, hlocal, hport, hremote, hremotePort⟩ := hpair
        simp [matchesAll, matchesDest, matchesSource, htype, hinterface, hlocal, hport, hremote,
          hremotePort] at hnone

/-! ## The table -/

namespace Table

/-- Live connections have distinct pairs, so a segment belongs to at most one. -/
structure DistinctPairs (table : Table) : Prop where
  distinct : ∀ i j : ℕ, ∀ slot ∈ table.slots[i]?, ∀ slot' ∈ table.slots[j]?,
    slot.socket.Live → slot'.socket.Live → slot.socket.pair = slot'.socket.pair → i = j
  belongs : ∀ (segment : Segment) (i j : ℕ), ∀ slot ∈ table.slots[i]?, ∀ slot' ∈ table.slots[j]?,
    slot.socket.Live → slot'.socket.Live → slot.socket.pair = segment.pair →
      slot'.socket.pair = segment.pair → i = j

/-- The connections and the pending requests are apart from one another. -/
structure Apart (table : Table) : Prop where
  nodup : ∀ i : ℕ, ∀ slot ∈ table.slots[i]?, slot.socket.pairs.Nodup
  disjoint : ∀ i j : ℕ, i ≠ j → ∀ slot ∈ table.slots[i]?, ∀ slot' ∈ table.slots[j]?,
    ∀ p ∈ slot.socket.pairs, p ∉ slot'.socket.pairs

theorem Apart.distinctPairs {table : Table} (h : table.Apart) : table.DistinctPairs := by
  have hdistinct : ∀ i j : ℕ, ∀ slot ∈ table.slots[i]?, ∀ slot' ∈ table.slots[j]?,
      slot.socket.Live → slot'.socket.Live → slot.socket.pair = slot'.socket.pair → i = j := by
    intro i j slot hslot slot' hslot' hlive hlive' hpair
    by_contra hne
    refine h.disjoint i j hne slot hslot slot' hslot' slot.socket.pair ?_ ?_
    · exact Socket.mem_pairs.2 (.inl ⟨hlive, rfl⟩)
    · exact Socket.mem_pairs.2 (.inl ⟨hlive', hpair⟩)
  refine ⟨hdistinct, ?_⟩
  intro segment i j slot hslot slot' hslot' hlive hlive' hpair hpair'
  exact hdistinct i j slot hslot slot' hslot' hlive hlive' (hpair.trans hpair'.symm)

/-- What is new is in the entry `i`, and no other entry has it. -/
theorem Apart.of_gains {table table' : Table} (h : table.Apart) (i : ℕ)
    (hnodup : ∀ j : ℕ, ∀ slot' ∈ table'.slots[j]?, slot'.socket.pairs.Nodup)
    (hnew : ∀ j : ℕ, ∀ slot' ∈ table'.slots[j]?, ∀ p ∈ slot'.socket.pairs,
      (∃ slot ∈ table.slots[j]?, p ∈ slot.socket.pairs) ∨
        j = i ∧ ∀ k : ℕ, k ≠ i → ∀ other ∈ table'.slots[k]?, p ∉ other.socket.pairs) :
    table'.Apart := by
  refine ⟨hnodup, fun j k hne slot hslot slot' hslot' p hp hp' => ?_⟩
  rcases hnew j slot hslot p hp with ⟨old, hold, hmem⟩ | ⟨rfl, hfree⟩
  · rcases hnew k slot' hslot' p hp' with ⟨old', hold', hmem'⟩ | ⟨rfl, hfree⟩
    · exact h.disjoint j k hne old hold old' hold' p hmem hmem'
    · exact hfree j hne slot hslot hp
  · exact hfree k (fun hkj => hne hkj.symm) slot' hslot' hp'

/-- Nothing is new. -/
theorem Apart.of_sublist {table table' : Table} (h : table.Apart)
    (hslots : ∀ j : ℕ, ∀ slot' ∈ table'.slots[j]?, ∃ slot ∈ table.slots[j]?,
      slot'.socket.pairs.Sublist slot.socket.pairs) : table'.Apart := by
  refine h.of_gains 0 (fun j slot' hslot' => ?_) fun j slot' hslot' p hp => ?_
  · obtain ⟨slot, hslot, hsub⟩ := hslots j slot' hslot'
    exact (h.nodup j slot hslot).sublist hsub
  · obtain ⟨slot, hslot, hsub⟩ := hslots j slot' hslot'
    exact .inl ⟨slot, hslot, hsub.subset hp⟩

end Table

/-! ## What the requests announce -/

/-- The requests of the first queue are in the second one, or the segment size that they announce is
within the bounds. -/
def QueuesClamped (queue queue' : List TcpSynQueueItem) : Prop :=
  ∀ queueItem ∈ queue', queueItem ∈ queue ∨
    (TCP_MIN_MSS ≤ queueItem.mss.toNat ∧ queueItem.mss.toNat ≤ TCP_MAX_MSS)

theorem QueuesClamped.of_sublist {queue queue' : List TcpSynQueueItem} (h : queue'.Sublist queue) :
    QueuesClamped queue queue' := fun _ hmem => .inl (h.subset hmem)

theorem KeepsPort.queuesClamped {s s' : Socket} (h : KeepsPort s s') :
    QueuesClamped s.synQueue s'.synQueue := .of_sublist h.synQueue

theorem acceptConnection_synQueue (listener s : Socket) (queueItem : TcpSynQueueItem) (memory : Bool)
    (iss : UInt32) :
    (acceptConnection listener s queueItem memory iss).2.synQueue.Sublist s.synQueue := by
  rcases acceptConnection_ends listener s queueItem memory iss with
    ⟨-, hends⟩ | ⟨-, s', -, hends, heq⟩
  · exact sublist_of_queue hends.synQueue
  · have hqueue : s'.synQueue.Sublist s.synQueue := by
      rcases hends with hends | hends
      · exact sublist_of_queue hends.synQueue
      · exact sublist_of_queue hends.synQueue
    rw [heq]
    rcases tcpAbort_ends s' with ⟨-, hempty⟩ | ⟨-, habort⟩
    · rw [hempty]
      exact List.nil_sublist _
    · rw [habort]
      exact hqueue

theorem socketClose_synQueue (s : Socket) : (Table.socketClose s).synQueue.Sublist s.synQueue := by
  rw [Table.socketClose]
  split
  · rcases tcpAbort_ends s with ⟨-, hempty⟩ | ⟨-, habort⟩
    · rw [hempty]
      exact List.nil_sublist _
    · rw [habort]
  · exact .refl _

theorem step_segment_clamped (slot : Slot) (segment : Segment) (memory : Bool) :
    QueuesClamped slot.socket.synQueue (Tcp.step slot (.segment segment memory)).socket.synQueue := by
  rw [Tcp.step]
  split
  case isFalse => exact fun _ hmem => .inl hmem
  by_cases hlisten : slot.socket.state = .listen
  · obtain ⟨s', -, -, hqueue, heq⟩ := tcpProcessSegment_eq_listen hlisten segment memory
    intro queueItem hmem
    rw [heq] at hmem
    rw [← hqueue]
    exact tcpStateListen_mss s' segment memory queueItem hmem
  · exact ((tcpProcessSegment_serviced slot.socket segment memory).1.keepsPort hlisten).queuesClamped

namespace Table

/-- The requests in the queues announce a segment size within the bounds. -/
def Clamped (table : Table) : Prop :=
  ∀ i : ℕ, ∀ slot ∈ table.slots[i]?, QueuesClamped [] slot.socket.synQueue

theorem Clamped.of_slots {table table' : Table} (h : table.Clamped)
    (hslots : ∀ i : ℕ, ∀ slot' ∈ table'.slots[i]?, ∃ slot ∈ table.slots[i]?,
      QueuesClamped slot.socket.synQueue slot'.socket.synQueue) : table'.Clamped := by
  intro i slot' hslot' queueItem hmem
  obtain ⟨slot, hslot, hclamped⟩ := hslots i slot' hslot'
  rcases hclamped queueItem hmem with hold | hnew
  · exact h i slot hslot queueItem hold
  · exact .inr hnew

theorem Clamped.modify {table table' : Table} (h : table.Clamped) {i : ℕ} {f : Slot → Slot}
    (hslots : table'.slots = table.slots.modify i f)
    (hf : ∀ slot, QueuesClamped slot.socket.synQueue (f slot).socket.synQueue) : table'.Clamped := by
  refine h.of_slots fun j slot' hslot' => ?_
  rw [hslots] at hslot'
  rcases mem_modify hslot' with ⟨-, hold⟩ | ⟨rfl, old, hold, rfl⟩
  · exact ⟨slot', hold, fun _ hmem => .inl hmem⟩
  · exact ⟨old, hold, hf old⟩

theorem Clamped.socketOpen {table : Table} (h : table.Clamped) (type : SocketType) (env : OpenEnv) :
    (table.socketOpen type env).2.Clamped := by
  have hopen := socketOpen_opening table type env
  generalize table.socketOpen type env = result at hopen ⊢
  cases hopen with
  | fail next => exact h
  | take next i port htype slot hslot hentry hcase =>
      exact h.modify rfl fun slot => .of_sublist (List.nil_sublist slot.socket.synQueue)

theorem Clamped.acceptFinish {table : Table} (h : table.Clamped) (k : ℕ) (queueItem : TcpSynQueueItem)
    (memory : Bool) (iss : UInt32) : (table.acceptFinish k queueItem memory iss).Clamped := by
  have hdequeue : ∀ {table' : Table} (i : ℕ), table'.Clamped → (table'.removeRequest i).Clamped :=
    fun i h => h.modify rfl fun slot => (dequeue_keepsPort slot).queuesClamped
  rw [Table.acceptFinish]
  split
  · exact h
  case h_2 i hk => exact hdequeue i h
  case h_3 i j hk =>
    split
    case h_2 => exact h
    case h_1 listener newSocket hlistener hnew =>
      have hset : Clamped { table with
          slots := table.slots.modify j fun slot => slot.setSocket
            (acceptConnection listener.socket newSocket.socket queueItem memory iss).2
          accepting := table.accepting.eraseIdx k } := by
        refine h.of_slots fun m slot' hslot' => ?_
        rcases mem_modify hslot' with ⟨-, hold⟩ | ⟨rfl, old, hold, rfl⟩
        · exact ⟨slot', hold, fun _ hmem => .inl hmem⟩
        · exact ⟨newSocket, hnew, .of_sublist (acceptConnection_synQueue _ _ _ _ _)⟩
      simp only
      split
      · exact hdequeue i hset
      · exact hdequeue i hset

theorem Clamped.step {table : Table} (h : table.Clamped) (event : TableEvent) :
    (table.step event).Clamped := by
  cases event with
  | «open» type env =>
      have hopen := h.socketOpen type env
      rw [Table.step]
      generalize table.socketOpen type env = result at hopen ⊢
      obtain ⟨handle, table'⟩ := result
      cases handle with
      | none => exact hopen
      | some i => exact hopen
  | acceptOpen i env =>
      have hopen := h.socketOpen .stream env
      rw [Table.step, Table.acceptOpen]
      split
      · exact h
      split
      · exact h
      · exact hopen
  | acceptFinish k queueItem memory iss => exact h.acceptFinish k queueItem memory iss
  | bind i localIpAddr localPort =>
      refine h.modify rfl fun slot => .of_sublist ?_
      rw [Slot.setSocket, socketBind_synQueue]
  | call i event isCall =>
      exact h.modify rfl fun slot => (step_called slot isCall).keepsPort.queuesClamped
  | close i => exact h.modify rfl fun slot => .of_sublist (socketClose_synQueue slot.socket)
  | segment segment memory =>
      rw [Table.step]
      split
      · exact h
      · exact h.modify rfl fun slot => step_segment_clamped slot segment memory
  | tick elapsed =>
      refine h.of_slots fun i slot' hslot' => ?_
      obtain ⟨slot, hslot, rfl⟩ := mem_mapIdx hslot'
      refine ⟨slot, hslot, ?_⟩
      rw [Tcp.step]
      split
      · exact ((tcpTick_serviced slot.socket (elapsed i)).1.keepsPort not_false).queuesClamped
      · exact fun _ hmem => .inl hmem

/-- Whatever has happened to the table, a request that `tcpAccept` takes from a queue announces a
segment size within the bounds. -/
theorem mssClamped_of_queued (n : ℕ) (outcomes : ℕ → ℕ → SendOutcome) (events : List TableEvent)
    {i : ℕ} {slot : Slot} (hslot : slot ∈ (run step (init n outcomes) events).slots[i]?)
    {queueItem : TcpSynQueueItem} (hmem : queueItem ∈ slot.socket.synQueue) (sized : slot.socket.Sized)
    (port : UInt16) (memory : Bool) (iss : UInt32) :
    MssClamped (.accept slot.socket sized port queueItem memory iss) := by
  have hstart : (init n outcomes).Clamped := by
    intro j slot hslot queueItem hmem
    rw [init, Option.mem_def, List.getElem?_map, Option.map_eq_some_iff] at hslot
    obtain ⟨k, -, rfl⟩ := hslot
    exact absurd hmem (List.not_mem_nil (a := queueItem))
  have hclamped : (run step (init n outcomes) events).Clamped :=
    run_invariant (I := Clamped) (fun _ event hinv _ => hinv.step event) hstart
      (.of_forall (P := fun _ _ => True) (fun _ _ => trivial) _ _)
  exact (hclamped i slot hslot queueItem hmem).resolve_left (List.not_mem_nil (a := queueItem))

end Table

end Tcp
