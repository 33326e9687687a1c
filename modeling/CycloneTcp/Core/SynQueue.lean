import CycloneTcp.Core.NetMemPool
import CycloneTcp.Core.TcpWindows
import CycloneTcp.Lib.LinkedList

set_option autoImplicit false

/-! # The SYN queue

`tcpStateListen` hangs connection requests behind the queue of a listening socket, and `tcpAccept`
takes them from the front. A task that accepts a connection keeps a pointer to the first item while
it opens the new socket, and it does not hold the network mutex meanwhile: another task that comes to
the queue then finds the same item. As long as no task does, the linked queue is the list of requests
that `tcpStateListen` of the state machine appends to. -/

open Handles LinkedList

namespace Tcp

/-! ## The listening socket -/

/-- `sizeof(TcpSynQueueItem)`, with pointers of four bytes. -/
def synQueueItemSize : ℕ := 60

/-- Where a task is in `tcpAccept`: not in a call, waiting for a SYN, or opening the new socket for the
item at `queueItem`. -/
inductive AcceptCall where
  | idle
  | waiting
  | opening (queueItem : ℕ)
  deriving DecidableEq, Repr

/-- A listening socket and the `n` tasks that accept connections from it. The items are in memory, and
the list of the socket itself is not used. `queued` are the items that have been queued so far, with
their addresses, and `served` those that have been taken from the queue, accepted or not. -/
structure Listening (pool : MemPool) (n : ℕ) where
  socket : Socket
  synQueue : Option ℕ
  nodes : ℕ → Node ℕ TcpSynQueueItem
  heap : pool.Heap
  calls : Fin n → AcceptCall
  queued : List (ℕ × TcpSynQueueItem)
  served : List ((ℕ × TcpSynQueueItem) × Bool)

namespace Listening

variable {pool : MemPool} {n : ℕ}

/-- A socket that has been placed in the listening state. -/
def start (socket : Socket) (state : pool.State) (nodes : ℕ → Node ℕ TcpSynQueueItem) :
    Listening pool n where
  socket := socket
  synQueue := none
  nodes := nodes
  heap := { state := state, log := [] }
  calls _ := .idle
  queued := []
  served := []

/-- The items that the loops over the queue come to. -/
def items (s : Listening pool n) : Option (List (ℕ × TcpSynQueueItem)) :=
  follow s.nodes (2 ^ 16) s.synQueue

/-! ## Connection requests -/

/-- The item of a connection request. -/
def queueItem (segment : Segment) : TcpSynQueueItem :=
  { interface := segment.interface, srcAddr := segment.srcAddr, srcPort := segment.srcPort
    destAddr := segment.destAddr, isn := segment.seqNum
    mss := match segment.mss with
      | some mss => clampMss mss
      | none => UInt16.ofNat (min TCP_DEFAULT_MSS TCP_MAX_MSS) }

/-- Store the pointer behind the last item, or the pointer to the first one. -/
def link (s : Listening pool n) (last next : Option ℕ) : Listening pool n :=
  match last with
  | none => { s with synQueue := next }
  | some last => { s with nodes := setNext s.nodes last next }

/-- Hang the item at `p` behind the last one. -/
def addItem (s : Listening pool n) (last : Option ℕ) (p : ℕ) (item : TcpSynQueueItem) :
    Listening pool n :=
  let s := s.link last (some p)
  { s with
    nodes := Function.update s.nodes p ⟨item, none⟩
    queued := s.queued ++ [(p, item)] }

/-- The LISTEN state. There is no result if one of the loops over the queue does not end. -/
def tcpStateListen (s : Listening pool n) (segment : Segment) : Option (Listening pool n) :=
  if segment.flags.rst then some s
  else if segment.flags.ack then some s
  else if segment.flags.syn then
    match s.items with
    | none => none
    | some items =>
        let last := items.getLast?.map Prod.fst
        if tcpIsDuplicateSyn { s.socket with synQueue := items.map Prod.snd } segment then some s
        else if last ≠ none ∧ s.socket.synQueueSize ≤ items.length then some s
        else
          match memPoolAlloc s.heap synQueueItemSize with
          | (none, heap) => some ({ s with heap := heap }.link last none)
          | (some p, heap) => some ({ s with heap := heap }.addItem last p (queueItem segment))
  else some s

/-! ## Accepting connections -/

/-- The task `t` goes on in its call. -/
def setCall (s : Listening pool n) (t : Fin n) (call : AcceptCall) : Listening pool n :=
  { s with calls := Function.update s.calls t call }

/-- The beginning of the loop of `tcpAccept`: wait for a SYN, or point to the first item. -/
def awaitSyn (s : Listening pool n) (t : Fin n) : Listening pool n :=
  match s.synQueue with
  | none => s.setCall t .waiting
  | some queueItem => s.setCall t (.opening queueItem)

/-- Permit an incoming connection attempt. -/
def tcpAccept (s : Listening pool n) (t : Fin n) : Listening pool n :=
  if s.calls t ≠ .idle then s
  else if s.socket.state ≠ .listen then s
  else s.awaitSyn t

/-- The wait is over. If the queue is still empty, the call returns without a socket. -/
def wake (s : Listening pool n) (t : Fin n) : Listening pool n :=
  if s.calls t ≠ .waiting then s
  else
    match s.synQueue with
    | none => s.setCall t .idle
    | some queueItem => s.setCall t (.opening queueItem)

/-- Remove the item from the queue. -/
def removeItem (s : Listening pool n) (queueItem : ℕ) (accepted : Bool) : Listening pool n :=
  { s with
    synQueue := (s.nodes queueItem).next
    heap := memPoolFree s.heap queueItem
    served := s.served ++ [((queueItem, (s.nodes queueItem).value), accepted)] }

/-- The connection is accepted: there is a new socket, and it has been set up. -/
def accepts (s : Listening pool n) (queueItem : TcpSynQueueItem) (newSocket : Option Socket)
    (memory : Bool) (iss : UInt32) : Bool :=
  match newSocket with
  | none => false
  | some newSocket =>
      decide ((acceptConnection s.socket newSocket queueItem memory iss).1 = .noError)

/-- `socketOpen` has returned. The connection is accepted, and the call returns with the new socket, or
the request is dropped, and the loop goes on. -/
def opened (s : Listening pool n) (t : Fin n) (newSocket : Option Socket) (memory : Bool)
    (iss : UInt32) : Listening pool n :=
  match s.calls t with
  | .opening queueItem =>
      let accepted := s.accepts (s.nodes queueItem).value newSocket memory iss
      let s := s.removeItem queueItem accepted
      if accepted then s.setCall t .idle else s.awaitSyn t
  | _ => s

/-! ## Runs -/

/-- What happens to the socket. A task is interrupted where it does not hold the network mutex. -/
inductive Event (pool : MemPool) (n : ℕ) where
  /-- A segment that the socket table has found to belong to the listening socket. -/
  | segment (segment : Segment)
  | accept (t : Fin n)
  /-- The event of the socket has been signalled, or the wait of the task has timed out. -/
  | wake (t : Fin n)
  /-- `newSocket` is what `socketOpen` has returned to the task; `memory` tells whether the buffers can
  be had. -/
  | opened (t : Fin n) (newSocket : Option Socket) (memory : Bool) (iss : UInt32)
  /-- The other parts of the stack use the memory. -/
  | others (state : pool.State)

/-- One step. There is no state after a step from which the code does not return. -/
def step : Option (Listening pool n) → Event pool n → Option (Listening pool n)
  | none, _ => none
  | some s, .segment segment => s.tcpStateListen segment
  | some s, .accept t => some (s.tcpAccept t)
  | some s, .wake t => some (s.wake t)
  | some s, .opened t newSocket memory iss => some (s.opened t newSocket memory iss)
  | some s, .others state => some { s with heap := { s.heap with state := state } }

/-- The event makes a task point to the first item of the queue. -/
def Picks (s : Listening pool n) : Event pool n → Prop
  | .accept t => s.calls t = .idle ∧ s.socket.state = .listen ∧ s.synQueue ≠ none
  | .wake t => s.calls t = .waiting ∧ s.synQueue ≠ none
  | _ => False

instance (s : Listening pool n) : (e : Event pool n) → Decidable (s.Picks e)
  | .accept _ => inferInstanceAs (Decidable (_ ∧ _ ∧ _))
  | .wake _ => inferInstanceAs (Decidable (_ ∧ _))
  | .segment _ | .opened _ _ _ _ | .others _ => inferInstanceAs (Decidable False)

/-- What the tasks and the other parts of the stack have to heed. -/
structure Admits (s : Option (Listening pool n)) (e : Event pool n) : Prop where
  /-- No task comes to the first item while another one opens a socket for it. -/
  alone : ∀ s' ∈ s, s'.Picks e → ∀ t, s'.calls t = .idle ∨ s'.calls t = .waiting
  /-- The items are left in use. -/
  others : ∀ state, e = .others state → ∀ s' ∈ s, ∀ p ∈ held s'.heap.log, p ∈ pool.used state

/-! ## The queue -/

/-- Two requests for one connection. -/
def SameOrigin (x y : TcpSynQueueItem) : Prop :=
  x.srcAddr = y.srcAddr ∧ x.destAddr = y.destAddr ∧ x.srcPort = y.srcPort

/-- The segment size of the item lies between the bounds. -/
def MssBounded (x : TcpSynQueueItem) : Prop :=
  TCP_MIN_MSS ≤ x.mss.toNat ∧ x.mss.toNat ≤ TCP_MAX_MSS

theorem queueItem_mss (segment : Segment) : MssBounded (queueItem segment) := by
  rw [MssBounded, queueItem]
  cases segment.mss with
  | none =>
      exact ⟨show TCP_MIN_MSS ≤ (UInt16.ofNat (min TCP_DEFAULT_MSS TCP_MAX_MSS)).toNat by decide,
        show (UInt16.ofNat (min TCP_DEFAULT_MSS TCP_MAX_MSS)).toNat ≤ TCP_MAX_MSS by decide⟩
  | some mss => exact clampMss_toNat mss

/-- The items `q` are in the queue. -/
structure Holds (s : Listening pool n) (q : List (ℕ × TcpSynQueueItem)) : Prop where
  chain : Chain s.nodes s.synQueue q
  nodup : (q.map Prod.fst).Nodup
  size : 0 < s.socket.synQueueSize ∧ s.socket.synQueueSize ≤ TCP_MAX_SYN_QUEUE_SIZE
  length : q.length ≤ s.socket.synQueueSize
  distinct : q.Pairwise fun x y => ¬ SameOrigin x.2 y.2
  mss : ∀ x ∈ s.queued, MssBounded x.2
  order : s.queued = s.served.map Prod.fst ++ q
  acquires : acquired s.heap.log = s.queued.map Prod.fst
  releases : released s.heap.log = s.served.map fun x => x.1.1
  disciplined : Disciplined ∅ s.heap.log
  mem_held : ∀ p, p ∈ held s.heap.log ↔ p ∈ q.map Prod.fst
  used : ∀ p ∈ held s.heap.log, p ∈ s.heap.used

/-- At most one task opens a socket, for the first item. -/
def Alone (s : Listening pool n) : Prop :=
  ∀ t p, s.calls t = .opening p →
    s.synQueue = some p ∧ ∀ t' p', s.calls t' = .opening p' → t' = t

section Steps

variable {s : Listening pool n} {q : List (ℕ × TcpSynQueueItem)}

theorem Holds.items (h : s.Holds q) : s.items = some q := by
  refine h.chain.follow ?_
  have hlength := h.length
  have hsize := h.size.2
  have hmax : TCP_MAX_SYN_QUEUE_SIZE = 16 := rfl
  omega

/-- The items are in use. -/
theorem Holds.mem_used (h : s.Holds q) {p : ℕ} (hp : p ∈ q.map Prod.fst) : p ∈ s.heap.used :=
  h.used p ((h.mem_held p).2 hp)

section AddItem

variable (last : Option ℕ) (p : ℕ) (x : TcpSynQueueItem)

@[simp] theorem addItem_socket : (s.addItem last p x).socket = s.socket := by
  cases last <;> rfl

@[simp] theorem addItem_heap : (s.addItem last p x).heap = s.heap := by
  cases last <;> rfl

@[simp] theorem addItem_calls : (s.addItem last p x).calls = s.calls := by
  cases last <;> rfl

@[simp] theorem addItem_queued : (s.addItem last p x).queued = s.queued ++ [(p, x)] := by
  cases last <;> rfl

@[simp] theorem addItem_served : (s.addItem last p x).served = s.served := by
  cases last <;> rfl

end AddItem

/-- There is no last item if there is no item. -/
theorem last_eq_none {q : List (ℕ × TcpSynQueueItem)} :
    q.getLast?.map Prod.fst = none ↔ q = [] := by
  rw [Option.map_eq_none_iff, List.getLast?_eq_none_iff]

/-- Storing the end of the list where it is changes nothing. -/
theorem Holds.link_none (h : s.Holds q) : s.link (q.getLast?.map Prod.fst) none = s := by
  rcases List.eq_nil_or_concat' q with rfl | ⟨xs, ⟨a, x⟩, rfl⟩
  · have hnone : s.synQueue = none := h.chain
    show { s with synQueue := none } = s
    rw [← hnone]
  · rw [List.getLast?_concat]
    show { s with nodes := setNext s.nodes a none } = s
    rw [setNext_self h.chain.next_last]

/-- The queue with a fresh item behind the last one. -/
theorem chain_addItem (hchain : Chain s.nodes s.synQueue q) (hnodup : (q.map Prod.fst).Nodup) {p : ℕ}
    (hfresh : p ∉ q.map Prod.fst) (x : TcpSynQueueItem) :
    let s' := s.addItem (q.getLast?.map Prod.fst) p x
    Chain s'.nodes s'.synQueue (q ++ [(p, x)]) ∧
      ∀ a, s.synQueue = some a → s'.synQueue = some a := by
  intro s'
  rcases List.eq_nil_or_concat' q with rfl | ⟨xs, ⟨a, y⟩, rfl⟩
  · have hnone : s.synQueue = none := hchain
    have hnode : s'.nodes p = ⟨x, none⟩ := Function.update_self ..
    refine ⟨⟨rfl, by rw [hnode], by rw [hnode]; rfl⟩, fun a ha => ?_⟩
    rw [hnone] at ha
    cases ha
  · have hs' : s' = s.addItem (some a) p x := by
      simp only [s', List.getLast?_concat]
      rfl
    rw [hs']
    exact ⟨hchain.concat hnodup hfresh x, fun _ ha => ha⟩

/-- A connection request is queued. -/
theorem Holds.append (h : s.Holds q) {heap : pool.Heap} {p : ℕ}
    (halloc : memPoolAlloc s.heap synQueueItemSize = (some p, heap))
    (hroom : q.length < s.socket.synQueueSize) {x : TcpSynQueueItem} (hmss : MssBounded x)
    (hnew : ∀ y ∈ q, ¬ SameOrigin y.2 x) :
    let s' := { s with heap := heap }.addItem (q.getLast?.map Prod.fst) p x
    s'.Holds (q ++ [(p, x)]) ∧ ∀ a, s.synQueue = some a → s'.synQueue = some a := by
  obtain ⟨hfree, hused, hlog⟩ := memPoolAlloc_some halloc
  have hfresh : p ∉ q.map Prod.fst := fun hp => hfree (h.mem_used hp)
  obtain ⟨hchain, hqueue⟩ := @chain_addItem _ _ { s with heap := heap } q h.chain h.nodup p hfresh x
  refine ⟨⟨hchain, ?_, ?_, ?_, ?_, ?_, ?_, ?_, ?_, ?_, fun p' => ?_, fun p' hp' => ?_⟩, hqueue⟩
  · rw [List.map_append, List.nodup_append]
    refine ⟨h.nodup, List.nodup_singleton _, fun a ha b hb heq => ?_⟩
    have hb : b = p := List.mem_singleton.1 hb
    rw [heq, hb] at ha
    exact hfresh ha
  · rw [addItem_socket]
    exact h.size
  · rw [addItem_socket, List.length_append, List.length_singleton]
    exact hroom
  · rw [List.pairwise_append]
    refine ⟨h.distinct, List.pairwise_singleton _ _, fun y hy z hz => ?_⟩
    rw [List.mem_singleton.1 hz]
    exact hnew y hy
  · intro y hy
    rw [addItem_queued] at hy
    rcases List.mem_append.1 hy with hy | hy
    · exact h.mss y hy
    · rw [List.mem_singleton.1 hy]
      exact hmss
  · rw [addItem_queued, addItem_served]
    show s.queued ++ _ = _
    rw [h.order, List.append_assoc]
  · rw [addItem_queued, addItem_heap]
    show acquired heap.log = (s.queued ++ [(p, x)]).map Prod.fst
    rw [hlog, acquired_concat, h.acquires, List.map_append]
    rfl
  · rw [addItem_served, addItem_heap]
    show released heap.log = s.served.map fun x => x.1.1
    rw [hlog, released_concat, h.releases]
    exact List.append_nil _
  · rw [addItem_heap]
    show Disciplined ∅ heap.log
    rw [hlog]
    exact disciplined_concat h.disciplined fun hp => hfree (h.used p hp)
  · rw [addItem_heap]
    show p' ∈ held heap.log ↔ _
    rw [hlog, held_concat, List.map_append, List.mem_append, ← h.mem_held]
    show p' = p ∨ _ ↔ _ ∨ p' ∈ [p]
    rw [List.mem_singleton, or_comm]
  · rw [addItem_heap] at hp' ⊢
    have hp' : p' ∈ held heap.log := hp'
    rw [hlog, held_concat] at hp'
    show p' ∈ heap.used
    rw [hused]
    rcases hp' with rfl | hp'
    · exact Set.mem_insert ..
    · exact Set.mem_insert_of_mem _ (h.used p' hp')

/-- The memory changes, but not as far as the items are concerned. -/
theorem Holds.setHeap (h : s.Holds q) {heap : pool.Heap} (hlog : heap.log = s.heap.log)
    (hused : ∀ p ∈ held s.heap.log, p ∈ heap.used) : Holds { s with heap := heap } q := by
  refine ⟨h.chain, h.nodup, h.size, h.length, h.distinct, h.mss, h.order, ?_, ?_, ?_, ?_, ?_⟩ <;>
    dsimp only <;> rw [hlog]
  · exact h.acquires
  · exact h.releases
  · exact h.disciplined
  · exact h.mem_held
  · exact hused

theorem Holds.setCall (h : s.Holds q) (t : Fin n) (call : AcceptCall) :
    (s.setCall t call).Holds q :=
  ⟨h.chain, h.nodup, h.size, h.length, h.distinct, h.mss, h.order, h.acquires, h.releases,
    h.disciplined, h.mem_held, h.used⟩

/-- The first item is removed. -/
theorem Holds.removeItem {p : ℕ} {x : TcpSynQueueItem} (h : s.Holds ((p, x) :: q))
    (accepted : Bool) : (s.removeItem p accepted).Holds q := by
  obtain ⟨-, hvalue, hchain⟩ := h.chain
  obtain ⟨hfirst, hnodup⟩ := List.nodup_cons.1 h.nodup
  have hmem : p ∈ held s.heap.log := (h.mem_held p).2 (List.mem_cons_self ..)
  have hlog : (memPoolFree s.heap p).log = s.heap.log ++ [.release p] := rfl
  refine ⟨hchain, hnodup, h.size, (Nat.le_succ _).trans h.length, (List.pairwise_cons.1 h.distinct).2,
    h.mss, ?_, ?_, ?_, ?_, fun p' => ?_, fun p' hp' => ?_⟩
  · show s.queued = (s.served ++ [((p, (s.nodes p).value), accepted)]).map Prod.fst ++ q
    rw [hvalue, List.map_append, h.order, List.append_assoc]
    rfl
  · show acquired (memPoolFree s.heap p).log = _
    rw [hlog, acquired_concat]
    exact (List.append_nil _).trans h.acquires
  · show released (memPoolFree s.heap p).log = _
    rw [hlog, released_concat, h.releases]
    show s.served.map (fun x => x.1.1) ++ [p]
      = (s.served ++ [((p, (s.nodes p).value), accepted)]).map fun x => x.1.1
    rw [List.map_append]
    rfl
  · show Disciplined ∅ (memPoolFree s.heap p).log
    exact disciplined_concat h.disciplined hmem
  · show p' ∈ held (memPoolFree s.heap p).log ↔ _
    rw [hlog, held_concat]
    show p' ∈ held s.heap.log \ {p} ↔ _
    rw [Set.mem_sdiff, h.mem_held, Set.mem_singleton_iff, List.map_cons, List.mem_cons]
    constructor
    · rintro ⟨rfl | hp', hne⟩
      · exact absurd rfl hne
      · exact hp'
    · exact fun hp' => ⟨.inr hp', fun heq => hfirst (heq ▸ hp')⟩
  · have hp' : p' ∈ held (memPoolFree s.heap p).log := hp'
    rw [hlog, held_concat] at hp'
    show p' ∈ (memPoolFree s.heap p).used
    rw [memPoolFree_used (h.used p hmem)]
    exact ⟨h.used p' hp'.1, hp'.2⟩

/-! ## Steps -/

/-- The task `t` is the only one that may open a socket. -/
theorem alone_setCall {t : Fin n} {call : AcceptCall}
    (hothers : ∀ t', t' ≠ t → ∀ p, s.calls t' ≠ .opening p)
    (hcall : ∀ p, call = .opening p → s.synQueue = some p) : (s.setCall t call).Alone := by
  have hcalls : ∀ t' p, (s.setCall t call).calls t' = .opening p → t' = t ∧ call = .opening p := by
    intro t' p hp
    by_cases ht : t' = t
    · subst ht
      exact ⟨rfl, (Function.update_self ..).symm.trans hp⟩
    · exact absurd ((Function.update_of_ne ht ..).symm.trans hp) (hothers t' ht p)
  intro t' p hp
  obtain ⟨rfl, hopening⟩ := hcalls t' p hp
  exact ⟨hcall p hopening, fun t'' p'' hp'' => (hcalls t'' p'' hp'').1⟩

theorem not_opening {call : AcceptCall} (h : call = .idle ∨ call = .waiting) (p : ℕ) :
    call ≠ .opening p := by
  rcases h with rfl | rfl <;> nofun

/-- While the queue is empty, no task opens a socket. -/
theorem Alone.of_empty (h : s.Alone) (hempty : s.synQueue = none) (t : Fin n) (p : ℕ) :
    s.calls t ≠ .opening p := by
  intro hp
  have hsome := (h t p hp).1
  rw [hempty] at hsome
  cases hsome

theorem Holds.awaitSyn (h : s.Holds q) {t : Fin n}
    (hothers : ∀ t', t' ≠ t → ∀ p, s.calls t' ≠ .opening p) :
    (s.awaitSyn t).Holds q ∧ (s.awaitSyn t).Alone := by
  rw [Listening.awaitSyn]
  cases hqueue : s.synQueue with
  | none => exact ⟨h.setCall t _, alone_setCall hothers nofun⟩
  | some p =>
      refine ⟨h.setCall t _, alone_setCall hothers fun p' hp' => ?_⟩
      cases hp'
      exact hqueue

theorem Holds.tcpAccept (h : s.Holds q) (halone : s.Alone) {t : Fin n}
    (hadmits : Admits (some s) (.accept t)) :
    (s.tcpAccept t).Holds q ∧ (s.tcpAccept t).Alone := by
  rw [Listening.tcpAccept]
  by_cases hidle : s.calls t = .idle
  case neg => exact (if_pos hidle).symm ▸ ⟨h, halone⟩
  rw [if_neg (not_not.2 hidle)]
  by_cases hlisten : s.socket.state = .listen
  case neg => exact (if_pos hlisten).symm ▸ ⟨h, halone⟩
  rw [if_neg (not_not.2 hlisten)]
  refine h.awaitSyn fun t' _ p => ?_
  by_cases hempty : s.synQueue = none
  · exact halone.of_empty hempty t' p
  · exact not_opening (hadmits.alone s rfl ⟨hidle, hlisten, hempty⟩ t') p

theorem Holds.wake (h : s.Holds q) (halone : s.Alone) {t : Fin n}
    (hadmits : Admits (some s) (.wake t)) : (s.wake t).Holds q ∧ (s.wake t).Alone := by
  rw [Listening.wake]
  by_cases hwaiting : s.calls t = .waiting
  case neg => exact (if_pos hwaiting).symm ▸ ⟨h, halone⟩
  rw [if_neg (not_not.2 hwaiting)]
  cases hqueue : s.synQueue with
  | none =>
      exact ⟨h.setCall t _, alone_setCall (fun t' _ => halone.of_empty hqueue t') nofun⟩
  | some p =>
      have hcalls := hadmits.alone s rfl ⟨hwaiting, by rw [hqueue]; nofun⟩
      refine ⟨h.setCall t _, alone_setCall (fun t' _ => not_opening (hcalls t')) fun p' hp' => ?_⟩
      cases hp'
      exact hqueue

theorem Holds.opened (h : s.Holds q) (halone : s.Alone) (t : Fin n) (newSocket : Option Socket)
    (memory : Bool) (iss : UInt32) :
    ∃ q', (s.opened t newSocket memory iss).Holds q' ∧ (s.opened t newSocket memory iss).Alone := by
  rw [Listening.opened]
  cases hcall : s.calls t with
  | idle => exact ⟨q, h, halone⟩
  | waiting => exact ⟨q, h, halone⟩
  | opening p =>
      obtain ⟨hqueue, honly⟩ := halone t p hcall
      cases q with
      | nil =>
          have hnone : s.synQueue = none := h.chain
          rw [hqueue] at hnone
          cases hnone
      | cons x q =>
          obtain ⟨a, x⟩ := x
          obtain rfl : p = a := Option.some.inj (hqueue.symm.trans h.chain.1)
          dsimp only
          generalize s.accepts (s.nodes p).value newSocket memory iss = accepted
          have hremoved := h.removeItem accepted
          have hothers : ∀ t', t' ≠ t → ∀ p', (s.removeItem p accepted).calls t' ≠ .opening p' :=
            fun t' ht p' hp' => ht (honly t' p' hp')
          refine ⟨q, ?_⟩
          cases accepted with
          | true => exact ⟨hremoved.setCall t _, alone_setCall hothers nofun⟩
          | false => exact hremoved.awaitSyn hothers

/-- The LISTEN state: the loops end, and the queue is as if it were a list. -/
theorem Holds.tcpStateListen (h : s.Holds q) (halone : s.Alone) (segment : Segment) :
    ∃ s' q', s.tcpStateListen segment = some s' ∧ s'.Holds q' ∧ s'.Alone ∧ ∃ memory,
      (Tcp.tcpStateListen { s.socket with synQueue := q.map Prod.snd } segment memory).synQueue
        = q'.map Prod.snd := by
  rw [Listening.tcpStateListen]
  simp only [Tcp.tcpStateListen]
  by_cases hrst : segment.flags.rst = true
  · exact ⟨s, q, if_pos hrst, h, halone, true, by rw [if_pos hrst]⟩
  simp only [if_neg hrst]
  by_cases hack : segment.flags.ack = true
  · exact ⟨s, q, if_pos hack, h, halone, true, by rw [if_pos hack]⟩
  simp only [if_neg hack]
  by_cases hsyn : segment.flags.syn = true
  case neg => exact ⟨s, q, if_neg hsyn, h, halone, true, by rw [if_neg hsyn]⟩
  simp only [if_pos hsyn, h.items]
  by_cases hdup : tcpIsDuplicateSyn { s.socket with synQueue := q.map Prod.snd } segment = true
  · exact ⟨s, q, if_pos hdup, h, halone, true, by rw [if_pos hdup]⟩
  simp only [if_neg hdup]
  have hiff : (q.getLast?.map Prod.fst ≠ none ∧ s.socket.synQueueSize ≤ q.length) ↔
      (q.map Prod.snd ≠ [] ∧ s.socket.synQueueSize ≤ (q.map Prod.snd).length) := by
    rw [ne_eq, last_eq_none, ne_eq, List.map_eq_nil_iff, List.length_map]
  by_cases hfull : q.getLast?.map Prod.fst ≠ none ∧ s.socket.synQueueSize ≤ q.length
  · exact ⟨s, q, if_pos hfull, h, halone, true, by rw [if_pos (hiff.1 hfull)]⟩
  simp only [if_neg hfull, if_neg (mt hiff.2 hfull)]
  have hroom : q.length < s.socket.synQueueSize := by
    by_contra hge
    refine hfull ⟨fun hnone => ?_, not_lt.1 hge⟩
    rw [last_eq_none.1 hnone] at hge
    exact hge h.size.1
  cases halloc : memPoolAlloc s.heap synQueueItemSize with
  | mk answer heap =>
      cases answer with
      | none =>
          obtain ⟨hused, hlog⟩ := memPoolAlloc_none halloc
          have hheld : Holds { s with heap := heap } q :=
            h.setHeap hlog fun p hp => by rw [hused]; exact h.used p hp
          refine ⟨{ s with heap := heap }, q, ?_, hheld, halone, false, rfl⟩
          exact congrArg some hheld.link_none
      | some p =>
          have hnew : ∀ y ∈ q, ¬ SameOrigin y.2 (queueItem segment) := by
            rintro y hy ⟨hsrc, hdest, hport⟩
            refine hdup (List.any_eq_true.2 ⟨y.2, List.mem_map_of_mem hy, ?_⟩)
            have hsrc : y.2.srcAddr = segment.srcAddr := hsrc
            have hdest : y.2.destAddr = segment.destAddr := hdest
            have hport : y.2.srcPort = segment.srcPort := hport
            simp [hsrc, hdest, hport]
          obtain ⟨hholds, hhead⟩ := h.append halloc hroom (queueItem_mss segment) hnew
          refine ⟨_, _, rfl, hholds, fun t p' hp' => ?_, true, ?_⟩
          · rw [addItem_calls] at hp' ⊢
            obtain ⟨hqueue, honly⟩ := halone t p' hp'
            exact ⟨hhead p' hqueue, honly⟩
          · rw [List.map_append]
            rfl

end Steps

/-- The queue is empty at first. -/
theorem start_holds {socket : Socket} (hclosed : socket.state = .closed) (backlog : ℕ)
    (state : pool.State) (nodes : ℕ → Node ℕ TcpSynQueueItem) :
    Holds (start (tcpListen socket backlog).2 state nodes : Listening pool n) [] := by
  have hsize : (tcpListen socket backlog).2.synQueueSize
      = min (if 0 < backlog then backlog else TCP_DEFAULT_SYN_QUEUE_SIZE) TCP_MAX_SYN_QUEUE_SIZE := by
    rw [tcpListen, if_neg (not_not.2 hclosed)]
    rfl
  refine ⟨rfl, List.nodup_nil, ?_, Nat.zero_le _, List.Pairwise.nil, by simp [start], rfl, rfl, rfl, trivial,
    fun p => ?_, fun p hp => ?_⟩
  · show 0 < (tcpListen socket backlog).2.synQueueSize ∧ (tcpListen socket backlog).2.synQueueSize ≤ _
    rw [hsize]
    have hdefault : TCP_DEFAULT_SYN_QUEUE_SIZE = 4 := rfl
    have hmax : TCP_MAX_SYN_QUEUE_SIZE = 16 := rfl
    split <;> omega
  · exact ⟨fun hp => absurd hp (Set.notMem_empty p), by simp⟩
  · exact absurd hp (Set.notMem_empty p)

/-- **The SYN queue** along every run in which no task comes to the first item while another one opens
a socket for it: it is a finite list of at most `synQueueSize` items, of different origins; the items
are taken from it in the order of their arrival, each once, and released then. -/
theorem synQueue_run {socket : Socket} (hclosed : socket.state = .closed) (backlog : ℕ)
    (state : pool.State) (nodes : ℕ → Node ℕ TcpSynQueueItem) {es : List (Event pool n)}
    (hes : Along Admits step (some (start (tcpListen socket backlog).2 state nodes)) es) :
    ∃ (s : Listening pool n) (q : List (ℕ × TcpSynQueueItem)),
      run step (some (start (tcpListen socket backlog).2 state nodes)) es = some s ∧
      Chain s.nodes s.synQueue q ∧ q.length ≤ s.socket.synQueueSize ∧
      (q.Pairwise fun x y => ¬ SameOrigin x.2 y.2) ∧
      s.queued = s.served.map Prod.fst ++ q ∧ acquired s.heap.log = s.queued.map Prod.fst ∧
      (released s.heap.log = s.served.map fun x => x.1.1) ∧ Disciplined ∅ s.heap.log ∧
      ∀ x ∈ s.queued, MssBounded x.2 := by
  obtain ⟨s, q, hrun, h, -⟩ : ∃ (s : Listening pool n) (q : List (ℕ × TcpSynQueueItem)),
      run step (some (start (tcpListen socket backlog).2 state nodes)) es = some s ∧ s.Holds q ∧
        s.Alone := by
    refine run_invariant (I := fun s => ∃ s' q, s = some s' ∧ Holds s' q ∧ Alone s') ?_
      ⟨_, [], rfl, start_holds hclosed backlog state nodes, nofun⟩ hes
    rintro _ e ⟨s, q, rfl, h, halone⟩ hadmits
    cases e with
    | segment segment =>
        obtain ⟨s', q', hstep, h', halone', -⟩ := h.tcpStateListen halone segment
        exact ⟨s', q', hstep, h', halone'⟩
    | accept t => exact ⟨_, q, rfl, h.tcpAccept halone hadmits⟩
    | wake t => exact ⟨_, q, rfl, h.wake halone hadmits⟩
    | opened t newSocket memory iss =>
        obtain ⟨q', h'⟩ := h.opened halone t newSocket memory iss
        exact ⟨_, q', rfl, h'⟩
    | others state => exact ⟨_, q, rfl, h.setHeap rfl (hadmits.others state rfl s rfl), halone⟩
  exact ⟨s, q, hrun, h.chain, h.length, h.distinct, h.order, h.acquires, h.releases, h.disciplined,
    h.mss⟩

/-! ## Samples -/

/-- The SYN of a client. -/
def requestFrom (port : UInt16) : Segment :=
  { Segment.ofData { syn := true } 100 0 1000 [] noData_lt with
    srcAddr := .ipv4 9, destAddr := .ipv4 1, srcPort := port, destPort := 502 }

/-- What `socketOpen` returns. -/
def freshSocket : Socket := socketOpen (Slot.init fun _ => {}).socket .stream 502

/-- A socket with room for two requests, two tasks that accept connections, and four blocks of
memory. -/
def twoTasks : Option (Listening (fixedBlocks 4096) 2) :=
  some (start (tcpListen freshSocket 2).2 (freeBlocks 4).state
    fun _ => ⟨queueItem (requestFrom 0), none⟩)

/-- Two requests, one of them sent twice. The first is accepted, then the other task comes to the
queue. -/
def inTurn : List (Event (fixedBlocks 4096) 2) :=
  [.segment (requestFrom 4000), .segment (requestFrom 4001), .segment (requestFrom 4000), .accept 0,
    .opened 0 (some freshSocket) true 300, .accept 1]

theorem synQueue_run_inTurn :
    ∃ (s : Listening (fixedBlocks 4096) 2) (q : List (ℕ × TcpSynQueueItem)),
      run step twoTasks inTurn = some s ∧
      Chain s.nodes s.synQueue q ∧ q.length ≤ s.socket.synQueueSize ∧
      (q.Pairwise fun x y => ¬ SameOrigin x.2 y.2) ∧
      s.queued = s.served.map Prod.fst ++ q ∧ acquired s.heap.log = s.queued.map Prod.fst ∧
      (released s.heap.log = s.served.map fun x => x.1.1) ∧ Disciplined ∅ s.heap.log ∧
      ∀ x ∈ s.queued, MssBounded x.2 :=
  synQueue_run rfl 2 _ _ ⟨⟨by decide, nofun⟩, ⟨by decide, nofun⟩, ⟨by decide, nofun⟩,
    ⟨by decide, nofun⟩, ⟨by decide, nofun⟩, ⟨by decide, nofun⟩, trivial⟩

/-- Both tasks come to the queue before one of them has opened its socket. -/
def atOnce : List (Event (fixedBlocks 4096) 2) :=
  [.segment (requestFrom 4000), .accept 0, .accept 1, .opened 0 (some freshSocket) true 300,
    .opened 1 (some freshSocket) true 700]

/-- One request is accepted twice, and its item is released twice. -/
theorem synQueue_not_run :
    (run step twoTasks atOnce).map (fun s => (s.queued.map Prod.fst,
        s.served.map (fun x => (x.1.1, x.2)), released s.heap.log))
      = some ([4096], [(4096, true), (4096, true)], [4096, 4096]) ∧
    ¬ ∀ es : List (Event (fixedBlocks 4096) 2),
      ∃ (s : Listening (fixedBlocks 4096) 2) (q : List (ℕ × TcpSynQueueItem)),
        run step twoTasks es = some s ∧
        Chain s.nodes s.synQueue q ∧ q.length ≤ s.socket.synQueueSize ∧
        (q.Pairwise fun x y => ¬ SameOrigin x.2 y.2) ∧
        s.queued = s.served.map Prod.fst ++ q ∧ acquired s.heap.log = s.queued.map Prod.fst ∧
        (released s.heap.log = s.served.map fun x => x.1.1) ∧ Disciplined ∅ s.heap.log ∧
        ∀ x ∈ s.queued, MssBounded x.2 := by
  have hrun : (run step twoTasks atOnce).map (fun s => (s.queued.map Prod.fst,
      s.served.map (fun x => (x.1.1, x.2)), released s.heap.log))
        = some ([4096], [(4096, true), (4096, true)], [4096, 4096]) := by decide
  refine ⟨hrun, fun hall => ?_⟩
  obtain ⟨s, q, hs, -, -, -, horder, -⟩ := hall atOnce
  rw [hs, Option.map_some, Option.some_inj] at hrun
  have hqueued := congrArg List.length (congrArg Prod.fst hrun)
  have hserved := congrArg List.length (congrArg (fun r => r.2.1) hrun)
  have hlength := congrArg List.length horder
  simp only [List.length_map, List.length_append, List.length_cons, List.length_nil] at *
  omega

end Listening

end Tcp
