import CycloneTcp.Core.TcpPairs

set_option autoImplicit false

/-! # The ephemeral ports wrap around

Nothing compares the pair of a connection with those of the other sockets: neither the counter that
gives the ephemeral ports and wraps around, nor `tcpConnect`, `tcpAccept` and `socketBind`.

A run is followed with the number of the call of `tcpGetDynamicPort` that each socket has its port
from. Two sockets on an ephemeral port have the same one exactly if the counter has gone round
between the two calls. Accepted connections share the port of the listening socket; they are kept
apart by the scan of the socket table, which finds the connection before the listening socket, and
by the test for duplicate SYNs. -/

namespace Tcp

/-! ## Where a local port comes from -/

/-- The number of the ephemeral ports. -/
def ephemeralPorts : ℕ := SOCKET_EPHEMERAL_PORT_MAX - SOCKET_EPHEMERAL_PORT_MIN + 1

/-- A socket has its port from the `n`-th call of `tcpGetDynamicPort`, or its user has bound it. -/
inductive Origin where
  | ephemeral (n : ℕ)
  | bound (port : UInt16)
  deriving DecidableEq

namespace Origin

/-- The port, where the first call has given the `base`-th of the ephemeral ports. -/
def port (base : ℕ) : Origin → ℕ
  | ephemeral n => SOCKET_EPHEMERAL_PORT_MIN + (base + n) % ephemeralPorts
  | bound port => port.toNat

/-- The counter has gone round between the two calls, or both sockets have been bound to one port.
-/
def Clash : Origin → Origin → Prop
  | ephemeral n, ephemeral m => n % ephemeralPorts = m % ephemeralPorts
  | bound port, bound port' => port = port'
  | _, _ => False

instance : DecidableRel Clash
  | ephemeral _, ephemeral _ => inferInstanceAs (Decidable (_ = _))
  | bound _, bound _ => inferInstanceAs (Decidable (_ = _))
  | ephemeral _, bound _ | bound _, ephemeral _ => inferInstanceAs (Decidable False)

/-- There have been more calls than that, and users bind sockets to other ports. -/
def Valid (calls : ℕ) : Origin → Prop
  | ephemeral n => n < calls
  | bound port => port.toNat < SOCKET_EPHEMERAL_PORT_MIN

theorem Valid.mono {calls calls' : ℕ} {o : Origin} (h : o.Valid calls) (hle : calls ≤ calls') :
    o.Valid calls' := by
  cases o with
  | ephemeral n => exact lt_of_lt_of_le h hle
  | bound port => exact h

theorem port_ephemeral (base n : ℕ) : SOCKET_EPHEMERAL_PORT_MIN ≤ (ephemeral n).port base ∧
    (ephemeral n).port base ≤ SOCKET_EPHEMERAL_PORT_MAX := by
  simp only [port, ephemeralPorts, SOCKET_EPHEMERAL_PORT_MIN, SOCKET_EPHEMERAL_PORT_MAX]
  omega

/-- The port after that of the `n`-th call. -/
theorem port_succ (base n : ℕ) :
    (if (ephemeral n).port base < SOCKET_EPHEMERAL_PORT_MAX then (ephemeral n).port base + 1
      else SOCKET_EPHEMERAL_PORT_MIN) = (ephemeral (n + 1)).port base := by
  by_cases hlast : (ephemeral n).port base < SOCKET_EPHEMERAL_PORT_MAX
  · rw [if_pos hlast]
    simp only [port, ephemeralPorts, SOCKET_EPHEMERAL_PORT_MIN, SOCKET_EPHEMERAL_PORT_MAX] at *
    omega
  · rw [if_neg hlast]
    simp only [port, ephemeralPorts, SOCKET_EPHEMERAL_PORT_MIN, SOCKET_EPHEMERAL_PORT_MAX] at *
    omega

theorem port_lt {calls : ℕ} {o : Origin} (h : o.Valid calls) (base : ℕ) : o.port base < 2 ^ 16 := by
  cases o with
  | ephemeral n =>
      simp only [port, ephemeralPorts, SOCKET_EPHEMERAL_PORT_MIN, SOCKET_EPHEMERAL_PORT_MAX]
      omega
  | bound port => exact port.toNat_lt

/-- Sockets have the same port exactly if it comes from the same place of the counter. -/
theorem port_eq_iff {calls base : ℕ} {o o' : Origin} (h : o.Valid calls) (h' : o'.Valid calls) :
    o.port base = o'.port base ↔ o.Clash o' := by
  have hmin : ∀ n, SOCKET_EPHEMERAL_PORT_MIN ≤ (ephemeral n).port base := fun n =>
    (port_ephemeral base n).1
  cases o with
  | ephemeral n =>
      cases o' with
      | ephemeral m =>
          simp only [port, Clash, ephemeralPorts, SOCKET_EPHEMERAL_PORT_MIN,
            SOCKET_EPHEMERAL_PORT_MAX]
          omega
      | bound p =>
          exact iff_of_false (fun hport => absurd ((hmin n).trans_eq hport) (not_le.2 h')) id
  | bound p =>
      cases o' with
      | ephemeral m =>
          exact iff_of_false (fun hport => absurd ((hmin m).trans_eq hport.symm) (not_le.2 h)) id
      | bound p' => exact UInt16.toNat_inj

end Origin

/-- The two pairs differ in the local port at most. -/
def Pair.Alike (p p' : Pair) : Prop := { p with localPort := p'.localPort } = p'

instance (p p' : Pair) : Decidable (p.Alike p') := inferInstanceAs (Decidable (_ = _))

/-- No socket is bound to an ephemeral port by its user. -/
def BindsBelow : TableEvent → Prop
  | .bind _ _ localPort => localPort.toNat < SOCKET_EPHEMERAL_PORT_MIN
  | _ => True

/-! ## The table, and where the ports come from -/

/-- The table, the number of calls of `tcpGetDynamicPort` so far, and where the sockets have their
ports from. -/
structure Tracked where
  table : Table
  calls : ℕ
  origin : ℕ → Origin

namespace Tracked

open Table

def init (n : ℕ) (outcomes : ℕ → ℕ → SendOutcome) : Tracked where
  table := Table.init n outcomes
  calls := 0
  origin _ := .bound 0

/-- `socketOpen` gives a stream socket the next ephemeral port. -/
def socketOpen (t : Tracked) (env : OpenEnv) (table : Table) : Tracked where
  table := table
  calls := t.calls + 1
  origin :=
    match (t.table.socketOpen .stream env).1 with
    | some i => Function.update t.origin i (.ephemeral t.calls)
    | none => t.origin

/-- `tcpAccept` gives the new socket the port of the listening one. -/
def acceptFinish (t : Tracked) (k : ℕ) (table : Table) : Tracked where
  table := table
  calls := t.calls
  origin :=
    match t.table.accepting[k]? with
    | some (i, some j) =>
        if i < t.table.slots.length ∧ j < t.table.slots.length then
          Function.update t.origin j (t.origin i)
        else t.origin
    | _ => t.origin

/-- One step. -/
def step (t : Tracked) (event : TableEvent) : Tracked :=
  let table := t.table.step event
  match event with
  | .open .stream env => t.socketOpen env table
  | .acceptOpen i env =>
      if ∀ listener ∈ t.table.slots[i]?, listener.socket.synQueue = [] then { t with table := table }
      else t.socketOpen env table
  | .acceptFinish k _ _ _ => t.acceptFinish k table
  | .bind i _ localPort =>
      { t with table := table, origin := Function.update t.origin i (.bound localPort) }
  | _ => { t with table := table }

theorem step_table (t : Tracked) (event : TableEvent) : (t.step event).table = t.table.step event := by
  cases event with
  | «open» type env => cases type <;> rfl
  | acceptOpen i env =>
      simp only [step]
      split <;> rfl
  | _ => rfl

theorem run_table (t : Tracked) (events : List TableEvent) :
    (run step t events).table = run Table.step t.table events := by
  induction events generalizing t with
  | nil => rfl
  | cons event events ih => rw [run_cons, run_cons, ih, step_table]

/-! ### The condition -/

/-- No other connection, and no pending request, is between the same addresses with a port from the
same place of the counter. -/
def Unmet (t : Tracked) (i : ℕ) (pair : Pair) (origin : Origin) : Prop :=
  ∀ j : ℕ, ∀ slot ∈ t.table.slots[j]?,
    ∀ p ∈ if j = i then slot.socket.requests else slot.socket.pairs,
      p.Alike pair → ¬ (t.origin j).Clash origin

/-- No other socket has a request for the connection that the segment asks for. -/
def Unrequested (t : Tracked) (i : ℕ) (segment : Segment) : Prop :=
  ∀ j : ℕ, j ≠ i → ∀ slot ∈ t.table.slots[j]?, ∀ p ∈ slot.socket.requests,
    p.Alike segment.pair → ¬ (t.origin j).Clash (t.origin i)

/-- A connection is opened, or taken up again to send a FIN, or moved to other local ends only where
no other one between the same addresses has a port from the same place of the counter. A SYN
comes to a listening socket that is not found for the ends of a former connection, and no other socket has
a request for the same connection. `tcpAccept` goes on with the first request, and with a socket
that nobody has used. -/
def Admits (t : Tracked) : TableEvent → Prop
  | .call i event _ =>
      ∀ slot ∈ t.table.slots[i]?, ∀ pair ∈ pairOfCall slot event, t.Unmet i pair (t.origin i)
  | .bind i localIpAddr localPort =>
      ∀ slot ∈ t.table.slots[i]?, slot.socket.synQueue = [] ∧ (slot.socket.Live →
        t.Unmet i { slot.socket.pair with localIpAddr := localIpAddr } (.bound localPort))
  | .segment segment _ =>
      segment.Asks →
        ∀ i ∈ findSocket segment (t.table.slots.map (·.socket)) 0 none,
          ∀ slot ∈ t.table.slots[i]?, slot.socket.state = .listen →
            matchesAll segment slot.socket = false ∧ t.Unrequested i segment
  | .acceptFinish k queueItem _ _ =>
      ∀ call ∈ t.table.accepting[k]?, ∀ j ∈ call.2, ∀ listener ∈ t.table.slots[call.1]?,
        ∀ slot ∈ t.table.slots[j]?,
          listener.socket.synQueue.head? = some queueItem ∧ slot.socket.state = .closed ∧
            slot.socket.synQueue = []
  | _ => True

instance (t : Tracked) (i : ℕ) (pair : Pair) (origin : Origin) : Decidable (t.Unmet i pair origin) :=
  decidable_of_iff (∀ j < t.table.slots.length, ∀ slot ∈ t.table.slots[j]?,
      ∀ p ∈ if j = i then slot.socket.requests else slot.socket.pairs,
        p.Alike pair → ¬ (t.origin j).Clash origin)
    ⟨fun h j slot hslot => h j (List.getElem?_eq_some_iff.1 hslot).1 slot hslot, fun h j _ => h j⟩

instance (t : Tracked) (i : ℕ) (segment : Segment) : Decidable (t.Unrequested i segment) :=
  decidable_of_iff (∀ j < t.table.slots.length, j ≠ i → ∀ slot ∈ t.table.slots[j]?,
      ∀ p ∈ slot.socket.requests, p.Alike segment.pair → ¬ (t.origin j).Clash (t.origin i))
    ⟨fun h j hj slot hslot => h j (List.getElem?_eq_some_iff.1 hslot).1 hj slot hslot, fun h j _ => h j⟩

instance (t : Tracked) : DecidablePred t.Admits
  | .call i event _ => inferInstanceAs (Decidable (∀ slot ∈ t.table.slots[i]?,
      ∀ pair ∈ pairOfCall slot event, t.Unmet i pair (t.origin i)))
  | .bind i localIpAddr localPort => inferInstanceAs (Decidable (∀ slot ∈ t.table.slots[i]?,
      slot.socket.synQueue = [] ∧ (slot.socket.Live →
        t.Unmet i { slot.socket.pair with localIpAddr := localIpAddr } (.bound localPort))))
  | .segment segment _ => inferInstanceAs (Decidable (segment.Asks →
      ∀ i ∈ findSocket segment (t.table.slots.map (·.socket)) 0 none,
        ∀ slot ∈ t.table.slots[i]?, slot.socket.state = .listen →
          matchesAll segment slot.socket = false ∧ t.Unrequested i segment))
  | .acceptFinish k queueItem _ _ => inferInstanceAs (Decidable (∀ call ∈ t.table.accepting[k]?,
      ∀ j ∈ call.2, ∀ listener ∈ t.table.slots[call.1]?, ∀ slot ∈ t.table.slots[j]?,
        listener.socket.synQueue.head? = some queueItem ∧ slot.socket.state = .closed ∧
          slot.socket.synQueue = []))
  | .open _ _ | .acceptOpen _ _ | .close _ | .tick _ => isTrue trivial

/-! ### The ports -/

/-- The ports are those that the calls have given, one after the other, the first one being the
`base`-th of the ephemeral ports. -/
structure Counted (t : Tracked) (base : ℕ) : Prop where
  next : t.table.tcpDynamicPort = if t.calls = 0 then 0 else (Origin.ephemeral t.calls).port base
  valid : ∀ i, (t.origin i).Valid t.calls
  port : ∀ i : ℕ, ∀ slot ∈ t.table.slots[i]?, slot.socket.type = .stream →
    slot.socket.localPort.toNat = (t.origin i).port base
  queueUsed : ∀ i : ℕ, ∀ slot ∈ t.table.slots[i]?, slot.socket.QueueUsed

section Counted

variable {t t' : Tracked} {base : ℕ}

theorem Counted.port_of_mem (h : t.Counted base) {j : ℕ} {slot : Slot}
    (hslot : slot ∈ t.table.slots[j]?) {p : Pair} (hp : p ∈ slot.socket.pairs) :
    p.localPort.toNat = (t.origin j).port base := by
  rw [Socket.localPort_of_mem hp]
  refine h.port j slot hslot ?_
  rcases Socket.mem_pairs.1 hp with ⟨hlive, -⟩ | hmem
  · exact hlive.1
  · refine h.queueUsed j slot hslot fun hempty => ?_
    rw [Socket.requests, hempty] at hmem
    exact absurd hmem (by simp)

/-- What meets no other connection is not the pair of another one. -/
theorem Counted.not_mem (h : t.Counted base) {i : ℕ} {pair : Pair} {origin : Origin}
    (hunmet : t.Unmet i pair origin) (hvalid : origin.Valid t.calls) {p : Pair} (halike : p.Alike pair)
    (hport : p.localPort.toNat = origin.port base) {j : ℕ} {slot : Slot}
    (hslot : slot ∈ t.table.slots[j]?) :
    p ∉ if j = i then slot.socket.requests else slot.socket.pairs := by
  intro hmem
  have hmember : p ∈ slot.socket.pairs := by
    split at hmem
    · exact Socket.mem_pairs.2 (.inr hmem)
    · exact hmem
  have hsame : (t.origin j).port base = origin.port base :=
    (h.port_of_mem hslot hmember).symm.trans hport
  exact hunmet j slot hslot p hmem halike ((Origin.port_eq_iff (h.valid j) hvalid).1 hsame)

/-- Every socket keeps its port, or it has the one of its new origin. -/
theorem Counted.of_slots (h : t.Counted base) (hcalls : t.calls ≤ t'.calls)
    (hnext : t'.table.tcpDynamicPort =
      if t'.calls = 0 then 0 else (Origin.ephemeral t'.calls).port base)
    (hvalid : ∀ i, t'.origin i = t.origin i ∨ (t'.origin i).Valid t'.calls)
    (hslots : ∀ i : ℕ, ∀ slot' ∈ t'.table.slots[i]?,
      (t'.origin i = t.origin i ∧ ∃ slot ∈ t.table.slots[i]?, KeepsPort slot.socket slot'.socket) ∨
      ((slot'.socket.type = .stream →
        slot'.socket.localPort.toNat = (t'.origin i).port base) ∧ slot'.socket.QueueUsed)) :
    t'.Counted base := by
  refine ⟨hnext, fun i => ?_, fun i slot' hslot' htype => ?_, fun i slot' hslot' => ?_⟩
  · rcases hvalid i with hsame | hvalid
    · rw [hsame]
      exact (h.valid i).mono hcalls
    · exact hvalid
  · rcases hslots i slot' hslot' with ⟨horigin, slot, hslot, hkeeps⟩ | ⟨hport, -⟩
    · obtain ⟨htype, hport⟩ := hkeeps.port htype
      rw [hport, horigin]
      exact h.port i slot hslot htype
    · exact hport htype
  · rcases hslots i slot' hslot' with ⟨-, slot, hslot, hkeeps⟩ | ⟨-, hused⟩
    · exact hkeeps.queueUsed (h.queueUsed i slot hslot)
    · exact hused

theorem Counted.rebase (h : t.Counted base) (hzero : t.calls = 0) (base' : ℕ) : t.Counted base' := by
  have hport : ∀ i, (t.origin i).port base = (t.origin i).port base' := by
    intro i
    have hvalid := h.valid i
    cases horigin : t.origin i with
    | ephemeral n =>
        rw [horigin, hzero] at hvalid
        exact absurd hvalid (Nat.not_lt_zero n)
    | bound port => rfl
  refine ⟨?_, h.valid, fun i slot hslot htype => ?_, h.queueUsed⟩
  · rw [h.next, if_pos hzero, if_pos hzero]
  · rw [h.port i slot hslot htype, hport]

theorem tcpGetDynamicPort_zero (rand : UInt32) :
    Tcp.tcpGetDynamicPort 0 rand = ((Origin.ephemeral 0).port (rand.toNat % ephemeralPorts),
      (Origin.ephemeral 1).port (rand.toNat % ephemeralPorts)) := by
  have hfirst : (Origin.ephemeral 0).port (rand.toNat % ephemeralPorts)
      = SOCKET_EPHEMERAL_PORT_MIN + rand.toNat % ephemeralPorts := by
    rw [Origin.port, Nat.add_zero, Nat.mod_mod]
  rw [← Origin.port_succ, hfirst]
  rfl

theorem tcpGetDynamicPort_port (base n : ℕ) (rand : UInt32) :
    Tcp.tcpGetDynamicPort ((Origin.ephemeral n).port base) rand
      = ((Origin.ephemeral n).port base, (Origin.ephemeral (n + 1)).port base) := by
  obtain ⟨hmin, hmax⟩ := Origin.port_ephemeral base n
  rw [← Origin.port_succ, Tcp.tcpGetDynamicPort, if_neg (not_or.2 ⟨not_lt.2 hmin, not_lt.2 hmax⟩)]

/-- The counter goes on from the port after the last one, and from the highest to the lowest. -/
theorem Counted.tcpGetDynamicPort (h : t.Counted base) (rand : UInt32) :
    ∃ base', t.Counted base' ∧ Tcp.tcpGetDynamicPort t.table.tcpDynamicPort rand
      = ((Origin.ephemeral t.calls).port base', (Origin.ephemeral (t.calls + 1)).port base') := by
  by_cases hzero : t.calls = 0
  · refine ⟨rand.toNat % ephemeralPorts, h.rebase hzero _, ?_⟩
    rw [h.next, if_pos hzero, hzero]
    exact tcpGetDynamicPort_zero rand
  · refine ⟨base, h, ?_⟩
    rw [h.next, if_neg hzero]
    exact tcpGetDynamicPort_port base t.calls rand

end Counted

/-! ### The invariant -/

/-- The ports are those of the calls, and the connections are apart. -/
def Sound (t : Tracked) : Prop := (∃ base, t.Counted base) ∧ t.table.Apart

theorem sound_init (n : ℕ) (outcomes : ℕ → ℕ → SendOutcome) : (init n outcomes).Sound := by
  have hslots : ∀ i : ℕ, ∀ slot ∈ (init n outcomes).table.slots[i]?,
      slot.socket.type = .unused ∧ slot.socket.synQueue = [] := by
    intro i slot hslot
    rw [init, Table.init, Option.mem_def, List.getElem?_map, Option.map_eq_some_iff] at hslot
    obtain ⟨j, -, rfl⟩ := hslot
    exact ⟨rfl, rfl⟩
  have hpairs : ∀ i : ℕ, ∀ slot ∈ (init n outcomes).table.slots[i]?, slot.socket.pairs = [] := by
    intro i slot hslot
    obtain ⟨htype, hempty⟩ := hslots i slot hslot
    rw [Socket.pairs_not_live fun hlive => absurd (hlive.1.symm.trans htype) (by simp),
      Socket.requests, hempty, List.map_nil]
  have hvalid : (0 : UInt16).toNat < SOCKET_EPHEMERAL_PORT_MIN := by decide
  refine ⟨⟨0, rfl, fun _ => hvalid, fun i slot hslot htype => ?_, fun i slot hslot hne => ?_⟩,
    ⟨fun i slot hslot => ?_, fun i _ _ slot hslot _ _ p hp => ?_⟩⟩
  · exact absurd (htype.symm.trans (hslots i slot hslot).1) (by simp)
  · exact absurd (hslots i slot hslot).2 hne
  · rw [hpairs i slot hslot]
    exact List.nodup_nil
  · rw [hpairs i slot hslot] at hp
    exact absurd hp (by simp)

section Steps

variable {t t' : Tracked}

/-- No connection is opened or asked for, and no port is given. -/
theorem Sound.keeps (h : t.Sound) (hcalls : t'.calls = t.calls) (horigin : t'.origin = t.origin)
    (hnext : t'.table.tcpDynamicPort = t.table.tcpDynamicPort)
    (hslots : ∀ i : ℕ, ∀ slot' ∈ t'.table.slots[i]?, ∃ slot ∈ t.table.slots[i]?,
      (slot.socket.QueueUsed → KeepsPort slot.socket slot'.socket) ∧
        Inherits slot.socket slot'.socket) : t'.Sound := by
  obtain ⟨⟨base, hcounted⟩, hapart⟩ := h
  refine ⟨⟨base, ?_⟩, hapart.of_sublist fun i slot' hslot' => ?_⟩
  · refine hcounted.of_slots hcalls.ge ?_ (fun i => .inl (congrFun horigin i)) fun i slot' hslot' => ?_
    · rw [hnext, hcalls, hcounted.next]
    · obtain ⟨slot, hslot, hkeeps, -⟩ := hslots i slot' hslot'
      exact .inl ⟨congrFun horigin i, slot, hslot, hkeeps (hcounted.queueUsed i slot hslot)⟩
  · obtain ⟨slot, hslot, hkeeps, hlive⟩ := hslots i slot' hslot'
    have hused := hcounted.queueUsed i slot hslot
    exact ⟨slot, hslot, (hkeeps hused).pairs hlive hused⟩

/-- The same for a change of one entry. -/
theorem Sound.modify (h : t.Sound) (hcalls : t'.calls = t.calls) (horigin : t'.origin = t.origin)
    (hnext : t'.table.tcpDynamicPort = t.table.tcpDynamicPort) {i : ℕ} {f : Slot → Slot}
    (hslots : t'.table.slots = t.table.slots.modify i f)
    (hf : ∀ slot ∈ t.table.slots[i]?,
      (slot.socket.QueueUsed → KeepsPort slot.socket (f slot).socket) ∧
        Inherits slot.socket (f slot).socket) : t'.Sound := by
  refine h.keeps hcalls horigin hnext fun j slot' hslot' => ?_
  rw [hslots] at hslot'
  rcases mem_modify hslot' with ⟨-, hold⟩ | ⟨rfl, old, hold, rfl⟩
  · exact ⟨slot', hold, fun _ => .refl _, .refl _⟩
  · exact ⟨old, hold, hf old hold⟩

/-- What an entry gains meets no other connection. -/
theorem Counted.apart_modify {base : ℕ} (h : t.Counted base) (hapart : t.table.Apart)
    {table' : Table} {i : ℕ} {f : Slot → Slot} {origin : Origin} (hvalid : origin.Valid t.calls)
    (hslots : table'.slots = t.table.slots.modify i f)
    (hf : ∀ slot ∈ t.table.slots[i]?, (f slot).socket.pairs.Sublist slot.socket.pairs ∨
      ∃ p pair, (f slot).socket.pairs.Sublist (p :: slot.socket.requests) ∧
        t.Unmet i pair origin ∧ p.Alike pair ∧ p.localPort.toNat = origin.port base) :
    table'.Apart := by
  have hrequests : ∀ slot : Slot, slot.socket.requests.Sublist slot.socket.pairs := fun slot =>
    List.sublist_append_right _ _
  refine hapart.of_gains i (fun j slot' hslot' => ?_) fun j slot' hslot' q hq => ?_
  · rw [hslots] at hslot'
    rcases mem_modify hslot' with ⟨-, hold⟩ | ⟨rfl, old, hold, rfl⟩
    · exact hapart.nodup j slot' hold
    · rcases hf old hold with hsub | ⟨p, pair, hsub, hunmet, halike, hport⟩
      · exact (hapart.nodup j old hold).sublist hsub
      · have hfree := h.not_mem hunmet hvalid halike hport hold
        rw [if_pos rfl] at hfree
        have hown := (hapart.nodup j old hold).sublist (hrequests old)
        exact (List.nodup_cons.2 ⟨hfree, hown⟩).sublist hsub
  · rw [hslots] at hslot'
    rcases mem_modify hslot' with ⟨-, hold⟩ | ⟨rfl, old, hold, rfl⟩
    · exact .inl ⟨slot', hold, hq⟩
    · rcases hf old hold with hsub | ⟨p, pair, hsub, hunmet, halike, hport⟩
      · exact .inl ⟨old, hold, hsub.subset hq⟩
      · rcases List.mem_cons.1 (hsub.subset hq) with rfl | hmem
        · refine .inr ⟨rfl, fun k hk other hother => ?_⟩
          rw [hslots] at hother
          rcases mem_modify hother with ⟨-, hother⟩ | ⟨hki, -⟩
          · have hfree := h.not_mem hunmet hvalid halike hport hother
            rwa [if_neg hk] at hfree
          · exact absurd hki hk
        · exact .inl ⟨old, hold, (hrequests old).subset hmem⟩

/-! ### Opening a socket -/

/-- `socketOpen` fails, or it clears an entry and gives it a port. -/
theorem socketOpen_cases (table : Table) (type : SocketType) (env : OpenEnv) :
    table.socketOpen type env = (none, table) ∧ table.newPort env type = none ∨
    ∃ port next, table.newPort env type = some (port, next) ∧
      (table.socketOpen type env = (none, { table with tcpDynamicPort := next }) ∨
        ∃ i, table.socketOpen type env = (some i, { table with
          slots := table.slots.modify i fun slot => slot.setSocket (reuseEntry slot.socket type port)
          tcpDynamicPort := next })) := by
  rw [Table.socketOpen]
  cases hport : table.newPort env type with
  | none => exact .inl ⟨rfl, rfl⟩
  | some result =>
      obtain ⟨port, next⟩ := result
      refine .inr ⟨port, next, rfl, ?_⟩
      simp only
      cases entryToOpen table.slots env.age with
      | none => exact .inl rfl
      | some i => exact .inr ⟨i, rfl⟩

/-- An entry is cleared. -/
theorem apart_reuse {table table' : Table} (h : table.Apart) {i : ℕ} {type : SocketType} {port : UInt16}
    (hslots : table'.slots = table.slots.modify i fun slot =>
      slot.setSocket (reuseEntry slot.socket type port)) : table'.Apart := by
  refine h.of_sublist fun j slot' hslot' => ?_
  rw [hslots] at hslot'
  rcases mem_modify hslot' with ⟨-, hold⟩ | ⟨rfl, old, hold, rfl⟩
  · exact ⟨slot', hold, .refl _⟩
  · refine ⟨old, hold, ?_⟩
    rw [Slot.setSocket, reuseEntry_pairs]
    exact List.nil_sublist _

theorem Sound.congr (h : t.Sound) (hcalls : t'.calls = t.calls) (horigin : t'.origin = t.origin)
    (hnext : t'.table.tcpDynamicPort = t.table.tcpDynamicPort)
    (hslots : t'.table.slots = t.table.slots) : t'.Sound :=
  h.keeps hcalls horigin hnext fun _ slot' hslot' =>
    ⟨slot', hslots ▸ hslot', fun _ => .refl _, .refl _⟩

theorem Sound.socketOpen (h : t.Sound) (env : OpenEnv) {table' : Table}
    (hslots : table'.slots = (t.table.socketOpen .stream env).2.slots)
    (hnext : table'.tcpDynamicPort = (t.table.socketOpen .stream env).2.tcpDynamicPort) :
    (t.socketOpen env table').Sound := by
  obtain ⟨⟨base, hcounted⟩, hapart⟩ := h
  obtain ⟨base, hcounted, hdynamic⟩ := hcounted.tcpGetDynamicPort env.rand
  have hnewPort : t.table.newPort env .stream
      = some (UInt16.ofNat ((Origin.ephemeral t.calls).port base),
        (Origin.ephemeral (t.calls + 1)).port base) := by
    rw [Table.newPort, hdynamic]
  have hvalid : (Origin.ephemeral t.calls).Valid (t.calls + 1) := Nat.lt_succ_self _
  have hrange := Origin.port_lt hvalid base
  rcases socketOpen_cases t.table .stream env with ⟨-, hnone⟩ | ⟨port, next, hsome, hcase⟩
  · rw [hnewPort] at hnone
    exact absurd hnone (by simp)
  rw [hnewPort, Option.some.injEq, Prod.mk.injEq] at hsome
  obtain ⟨rfl, rfl⟩ := hsome
  rcases hcase with hopen | ⟨i, hopen⟩
  · rw [hopen] at hslots hnext
    refine ⟨⟨base, hcounted.of_slots (Nat.le_succ _) ?_ (fun j => .inl ?_) fun j slot' hslot' => ?_⟩,
      hapart.of_sublist fun j slot' hslot' => ?_⟩
    · exact hnext
    · simp only [Tracked.socketOpen, hopen]
    · exact .inl ⟨by simp only [Tracked.socketOpen, hopen], slot', hslots ▸ hslot', .refl _⟩
    · exact ⟨slot', hslots ▸ hslot', .refl _⟩
  · rw [hopen] at hslots hnext
    have horigin : (t.socketOpen env table').origin
        = Function.update t.origin i (.ephemeral t.calls) := by
      simp only [Tracked.socketOpen, hopen]
    refine ⟨⟨base, hcounted.of_slots (Nat.le_succ _) ?_ (fun j => ?_) fun j slot' hslot' => ?_⟩,
      apart_reuse hapart hslots⟩
    · exact hnext
    · rw [horigin]
      by_cases hj : j = i
      · subst hj
        rw [Function.update_self]
        exact .inr hvalid
      · exact .inl (Function.update_of_ne hj _ _)
    · rw [horigin]
      replace hslot' : slot' ∈ table'.slots[j]? := hslot'
      rw [hslots] at hslot'
      rcases mem_modify hslot' with ⟨hj, hold⟩ | ⟨rfl, old, hold, rfl⟩
      · exact .inl ⟨Function.update_of_ne hj _ _, slot', hold, .refl _⟩
      · refine .inr ⟨fun _ => ?_, reuseEntry_queueUsed _ _ _⟩
        rw [Function.update_self]
        exact (UInt16.toNat_ofNat').trans (Nat.mod_eq_of_lt hrange)

/-- A socket of another type takes none of these ports. -/
theorem Sound.open_other (h : t.Sound) {type : SocketType} (htype : type ≠ .stream) (env : OpenEnv)
    (hslots : t'.table.slots = (t.table.socketOpen type env).2.slots)
    (hnext : t'.table.tcpDynamicPort = (t.table.socketOpen type env).2.tcpDynamicPort)
    (hcalls : t'.calls = t.calls) (horigin : t'.origin = t.origin) : t'.Sound := by
  rcases socketOpen_cases t.table type env with ⟨hopen, -⟩ | ⟨port, next, hport, hcase⟩
  · rw [hopen] at hslots hnext
    exact h.congr hcalls horigin hnext hslots
  have hsame : next = t.table.tcpDynamicPort := by
    cases type with
    | stream => exact absurd rfl htype
    | dgram | rawIp | rawEth | unused => simp_all [Table.newPort]
  subst hsame
  rcases hcase with hopen | ⟨i, hopen⟩
  · rw [hopen] at hslots hnext
    exact h.congr hcalls horigin hnext hslots
  · rw [hopen] at hslots hnext
    obtain ⟨⟨base, hcounted⟩, hapart⟩ := h
    refine ⟨⟨base, hcounted.of_slots hcalls.ge ?_ (fun j => .inl (congrFun horigin j))
      fun j slot' hslot' => ?_⟩, apart_reuse hapart hslots⟩
    · rw [hnext, hcalls, ← hcounted.next]
    · rw [hslots] at hslot'
      rcases mem_modify hslot' with ⟨-, hold⟩ | ⟨rfl, old, hold, rfl⟩
      · exact .inl ⟨congrFun horigin j, slot', hold, .refl _⟩
      · exact .inr ⟨fun htype' => absurd htype' htype, reuseEntry_queueUsed _ _ _⟩

/-! ### Calls -/

theorem Sound.call (h : t.Sound) {i : ℕ} {event : Event} (isCall : event.IsCall)
    (hadmits : t.Admits (.call i event isCall)) : (t.step (.call i event isCall)).Sound := by
  obtain ⟨⟨base, hcounted⟩, hapart⟩ := h
  refine ⟨⟨base, hcounted.of_slots (le_refl _) hcounted.next (fun _ => .inl rfl)
    fun j slot' hslot' => ?_⟩, ?_⟩
  · refine .inl ⟨rfl, ?_⟩
    rcases mem_modify hslot' with ⟨-, hold⟩ | ⟨rfl, old, hold, rfl⟩
    · exact ⟨slot', hold, .refl _⟩
    · exact ⟨old, hold, (step_called old isCall).keepsPort⟩
  · refine hcounted.apart_modify hapart (hcounted.valid i) rfl fun slot hslot => ?_
    have hcalled := step_called slot isCall
    have hused := hcounted.queueUsed i slot hslot
    by_cases hlive : (Tcp.step slot event).socket.Live
    case neg => exact .inl (hcalled.keepsPort.pairs (fun h => absurd h hlive) hused)
    rcases hcalled.inherits hlive with hinherits | ⟨-, hpair⟩
    · exact .inl (hcalled.keepsPort.pairs (fun _ => hinherits) hused)
    · refine .inr ⟨(Tcp.step slot event).socket.pair, _, ?_, hadmits slot hslot _ hpair, rfl, ?_⟩
      · rw [Socket.pairs_live hlive]
        exact (hcalled.keepsPort.requests hused).cons_cons _
      · obtain ⟨htype, hport⟩ := hcalled.keepsPort.port hlive.1
        exact (congrArg UInt16.toNat hport).trans (hcounted.port i slot hslot htype)

theorem Sound.bind (h : t.Sound) {i : ℕ} {localIpAddr : IpAddr} {localPort : UInt16}
    (hbelow : BindsBelow (.bind i localIpAddr localPort))
    (hadmits : t.Admits (.bind i localIpAddr localPort)) :
    (t.step (.bind i localIpAddr localPort)).Sound := by
  obtain ⟨⟨base, hcounted⟩, hapart⟩ := h
  refine ⟨⟨base, hcounted.of_slots (le_refl _) hcounted.next (fun j => ?_)
    fun j slot' hslot' => ?_⟩, ?_⟩
  · by_cases hj : j = i
    · subst hj
      refine .inr ?_
      simp only [step, Function.update_self]
      exact hbelow
    · exact .inl (Function.update_of_ne hj _ _)
  · rcases mem_modify hslot' with ⟨hj, hold⟩ | ⟨rfl, old, hold, rfl⟩
    · exact .inl ⟨Function.update_of_ne hj _ _, slot', hold, .refl _⟩
    · refine .inr ⟨fun htype => ?_, fun hne => ?_⟩
      · simp only [step, Function.update_self]
        exact congrArg UInt16.toNat (socketBind_localPort htype)
      · exact absurd ((socketBind_synQueue _ _ _).trans (hadmits old hold).1) hne
  · have hvalid : (Origin.bound localPort).Valid t.calls := hbelow
    refine hcounted.apart_modify hapart hvalid rfl fun slot hslot => ?_
    obtain ⟨hempty, hunmet⟩ := hadmits slot hslot
    have hrequests : (socketBind slot.socket localIpAddr localPort).requests = [] := by
      rw [Socket.requests, socketBind_synQueue, hempty, List.map_nil]
    by_cases hlive : (socketBind slot.socket localIpAddr localPort).Live
    · obtain ⟨hold, hpair⟩ := socketBind_live hlive
      refine .inr ⟨(socketBind slot.socket localIpAddr localPort).pair, _, ?_, hunmet hold, ?_, ?_⟩
      · rw [Slot.setSocket, Socket.pairs_live hlive, hrequests]
        exact (List.nil_sublist _).cons_cons _
      · rw [hpair]
        rfl
      · rw [hpair]
        rfl
    · refine .inl ?_
      rw [Slot.setSocket, Socket.pairs_not_live hlive, hrequests]
      exact List.nil_sublist _

/-! ### Accepting a connection -/

/-- The connection moves from the queue of the entry `i` to the socket of the entry `j`. -/
theorem Sound.accepted (h : t.Sound) {i j : ℕ} {listener slot : Slot}
    (hi : t.table.slots[i]? = some listener) (hj : t.table.slots[j]? = some slot)
    {queueItem : TcpSynQueueItem} (hhead : listener.socket.synQueue.head? = some queueItem)
    (hempty : slot.socket.synQueue = []) {s' : Socket} (hqueue : s'.synQueue = [])
    (hpair : s'.type = .unused ∨ s'.pair = listener.socket.requested queueItem) {table' : Table}
    (hslots : table'.slots = (t.table.slots.modify j fun slot => slot.setSocket s').modify i
      (Tcp.step · .dequeue))
    (hnext : table'.tcpDynamicPort = t.table.tcpDynamicPort) :
    Sound { t with table := table', origin := Function.update t.origin j (t.origin i) } := by
  obtain ⟨⟨base, hcounted⟩, hapart⟩ := h
  have hne : i ≠ j := by
    rintro rfl
    obtain rfl := Option.some.inj (hi.symm.trans hj)
    rw [hempty] at hhead
    exact absurd hhead (by simp)
  have hused : listener.socket.type = .stream := by
    refine hcounted.queueUsed i listener hi fun hnil => ?_
    rw [hnil] at hhead
    exact absurd hhead (by simp)
  have hpairs : ∀ p ∈ s'.pairs, p = listener.socket.requested queueItem := by
    intro p hp
    rcases Socket.mem_pairs.1 hp with ⟨hlive, rfl⟩ | hmem
    · exact hpair.resolve_left fun hunused => absurd (hlive.1.symm.trans hunused) (by simp)
    · rw [Socket.requests, hqueue] at hmem
      exact absurd hmem (by simp)
  -- what the table has in its entries
  have hentry : ∀ m : ℕ, ∀ slot' ∈ table'.slots[m]?,
      (m ≠ j ∧ m ≠ i ∧ slot' ∈ t.table.slots[m]?) ∨ (m = i ∧ slot' = Tcp.step listener .dequeue) ∨
        (m = j ∧ slot'.socket = s') := by
    intro m slot' hslot'
    rw [hslots] at hslot'
    rcases mem_modify hslot' with ⟨hm, hold⟩ | ⟨rfl, old, hold, rfl⟩
    · rcases mem_modify hold with ⟨hmj, hold⟩ | ⟨rfl, old, hold, rfl⟩
      · exact .inl ⟨hmj, hm, hold⟩
      · exact .inr (.inr ⟨rfl, rfl⟩)
    · rcases mem_modify hold with ⟨-, hold⟩ | ⟨hmj, -⟩
      · obtain rfl := Option.some.inj (hi.symm.trans hold)
        exact .inr (.inl ⟨rfl, rfl⟩)
      · exact absurd hmj hne
  have hdequeued : (Tcp.step listener .dequeue).socket.pairs.Sublist listener.socket.pairs :=
    (dequeue_keepsPort listener).pairs (dequeue_inherits listener) (hcounted.queueUsed i listener hi)
  refine ⟨⟨base, hcounted.of_slots (le_refl _) ?_ (fun m => ?_) fun m slot' hslot' => ?_⟩,
    hapart.of_gains j (fun m slot' hslot' => ?_) fun m slot' hslot' p hp => ?_⟩
  · exact hnext.trans hcounted.next
  · by_cases hm : m = j
    · subst hm
      refine .inr ?_
      simp only [Function.update_self]
      exact hcounted.valid i
    · exact .inl (Function.update_of_ne hm _ _)
  · rcases hentry m slot' hslot' with ⟨hmj, -, hold⟩ | ⟨rfl, rfl⟩ | ⟨rfl, heq⟩
    · exact .inl ⟨Function.update_of_ne hmj _ _, slot', hold, .refl _⟩
    · exact .inl ⟨Function.update_of_ne hne _ _, listener, hi, dequeue_keepsPort listener⟩
    · refine .inr ⟨fun htype => ?_, fun hne => ?_⟩
      · simp only [Function.update_self]
        rw [heq] at htype ⊢
        have hport := hpair.resolve_left fun hunused => absurd (htype.symm.trans hunused) (by simp)
        exact (congrArg (fun p => p.localPort.toNat) hport).trans (hcounted.port i listener hi hused)
      · rw [heq] at hne
        exact absurd hqueue hne
  · rcases hentry m slot' hslot' with ⟨-, -, hold⟩ | ⟨rfl, rfl⟩ | ⟨rfl, heq⟩
    · exact hapart.nodup m slot' hold
    · exact (hapart.nodup m listener hi).sublist hdequeued
    · rw [heq, Socket.pairs, Socket.requests, hqueue]
      split <;> simp
  · rcases hentry m slot' hslot' with ⟨-, -, hold⟩ | ⟨rfl, rfl⟩ | ⟨rfl, heq⟩
    · exact .inl ⟨slot', hold, hp⟩
    · exact .inl ⟨listener, hi, hdequeued.subset hp⟩
    · refine .inr ⟨rfl, fun k hk other hother => ?_⟩
      rw [heq] at hp
      rw [hpairs p hp]
      rcases hentry k other hother with ⟨-, hki, hold⟩ | ⟨rfl, rfl⟩ | ⟨hkj, -⟩
      · refine hapart.disjoint i k (Ne.symm hki) listener hi other hold _ (Socket.mem_pairs.2 (.inr ?_))
        exact List.mem_map_of_mem (List.mem_of_mem_head? hhead)
      · exact dequeue_not_mem hhead (hapart.nodup k listener hi)
      · exact absurd hkj hk

theorem Sound.acceptFinish (h : t.Sound) {k : ℕ} {queueItem : TcpSynQueueItem} {memory : Bool}
    {iss : UInt32} (hadmits : t.Admits (.acceptFinish k queueItem memory iss)) :
    (t.step (.acceptFinish k queueItem memory iss)).Sound := by
  rw [step]
  simp only [Table.step, Tracked.acceptFinish, Table.acceptFinish]
  cases hk : t.table.accepting[k]? with
  | none => exact h
  | some call =>
      obtain ⟨i, newSocket⟩ := call
      cases newSocket with
      | none =>
          exact h.modify rfl rfl rfl rfl fun slot _ =>
            ⟨fun _ => dequeue_keepsPort slot, dequeue_inherits slot⟩
      | some j =>
          cases hi : t.table.slots[i]? with
          | none =>
              have hlen := List.getElem?_eq_none_iff.1 hi
              simp only [hi]
              rw [if_neg fun hlt => absurd hlt.1 (not_lt.2 hlen)]
              exact h
          | some listener =>
              cases hj : t.table.slots[j]? with
              | none =>
                  have hlen := List.getElem?_eq_none_iff.1 hj
                  simp only [hi, hj]
                  rw [if_neg fun hlt => absurd hlt.2 (not_lt.2 hlen)]
                  exact h
              | some slot =>
                  have hlengths : i < t.table.slots.length ∧ j < t.table.slots.length :=
                    ⟨(List.getElem?_eq_some_iff.1 hi).1, (List.getElem?_eq_some_iff.1 hj).1⟩
                  simp only [hi, hj, if_pos hlengths]
                  obtain ⟨hhead, hclosed, hempty⟩ := hadmits _ hk j rfl listener hi slot hj
                  obtain ⟨hqueue, hpair⟩ := acceptConnection_pair listener.socket hclosed hempty
                    queueItem memory iss
                  generalize acceptConnection listener.socket slot.socket queueItem memory iss
                    = result at hqueue hpair ⊢
                  split
                  · exact h.accepted hi hj hhead hempty hqueue hpair rfl rfl
                  · exact h.accepted hi hj hhead hempty hqueue hpair rfl rfl

/-! ### Segments and timers -/

/-- A request is queued that no other socket has, and that is for no connection. -/
theorem Sound.queued (h : t.Sound) {segment : Segment} {memory : Bool} {i : ℕ} {slot : Slot}
    (hfind : findSocket segment (t.table.slots.map (·.socket)) 0 none = some i)
    (hslot : t.table.slots[i]? = some slot) (hlisten : slot.socket.state = .listen)
    (htype : slot.socket.type = .stream) (hadmits : t.Admits (.segment segment memory)) :
    Sound { t with table := { t.table with
      slots := t.table.slots.modify i (Tcp.step · (.segment segment memory)) } } := by
  have hstep : (Tcp.step slot (.segment segment memory)).socket
      = tcpProcessSegment slot.socket segment memory := by
    rw [Tcp.step, if_pos htype]
  obtain ⟨hlisten', hqueue⟩ := tcpProcessSegment_listen hlisten segment memory
  have hends := (tcpProcessSegment_serviced slot.socket segment memory).1.ends.resolve_right
    fun hwait => absurd (hlisten.symm.trans hwait.1) (by simp)
  rw [← hstep] at hlisten' hqueue hends
  generalize hnew : Tcp.step slot (.segment segment memory) = new at hlisten' hqueue hends
  have hdead : ¬ new.socket.Live := fun hlive => hlive.2.2 hlisten'
  have hkeep : ∀ m : ℕ, ∀ slot' ∈ (t.table.slots.modify i (Tcp.step · (.segment segment memory)))[m]?,
      (m ≠ i ∧ slot' ∈ t.table.slots[m]?) ∨ (m = i ∧ slot' = new) := by
    intro m slot' hslot'
    rcases mem_modify hslot' with hold | ⟨rfl, old, hold, rfl⟩
    · exact .inl hold
    · obtain rfl := Option.some.inj (hslot.symm.trans hold)
      exact .inr ⟨rfl, hnew⟩
  rcases hqueue with hsame | ⟨hasks, hdup, queueItem, happend, hrequested⟩
  · refine h.modify rfl rfl rfl rfl fun old hold => ?_
    obtain rfl := Option.some.inj (hslot.symm.trans hold)
    rw [hnew]
    refine ⟨fun _ => ⟨fun _ => ⟨htype, hends.localPort⟩, by rw [hsame], fun _ _ => ?_⟩,
      fun hlive => absurd hlive hdead⟩
    exact hends.type.trans htype
  obtain ⟨⟨base, hcounted⟩, hapart⟩ := h
  obtain ⟨hstale, hunrequested⟩ := hadmits hasks i hfind slot hslot hlisten
  have hmapped : (t.table.slots.map (·.socket))[i]? = some slot.socket := by
    rw [List.getElem?_map, hslot, Option.map_some]
  obtain ⟨hdest, hfree⟩ := findSocket_listen hfind hmapped hstale
  have hport : slot.socket.localPort = segment.destPort := by
    simp only [matchesDest, Bool.and_eq_true, decide_eq_true_eq] at hdest
    exact hdest.1.2
  have hpair : slot.socket.requested queueItem = segment.pair := by
    rw [hrequested, hport]
    rfl
  have hrequests : new.socket.requests = slot.socket.requests ++ [segment.pair] := by
    have hsame : new.socket.requested = slot.socket.requested := by
      funext item
      simp only [Socket.requested, hends.localPort]
    rw [Socket.requests, happend, hsame, List.map_append, List.map_singleton, hpair]
    rfl
  -- a request from the same origin would make the SYN a duplicate
  have hown : segment.pair ∉ slot.socket.requests := by
    intro hmem
    obtain ⟨item, hitem, heq⟩ := List.mem_map.1 hmem
    simp only [Socket.requested, Segment.pair, Pair.mk.injEq] at heq
    obtain ⟨-, hdestAddr, -, hsrcAddr, hsrcPort⟩ := heq
    have hany : tcpIsDuplicateSyn slot.socket segment = true :=
      List.any_eq_true.2 ⟨item, hitem, by simp [hdestAddr, hsrcAddr, hsrcPort]⟩
    rw [hdup] at hany
    exact absurd hany (by simp)
  have hother : ∀ k : ℕ, k ≠ i → ∀ other ∈ t.table.slots[k]?, segment.pair ∉ other.socket.pairs := by
    intro k hk other hother hmem
    rcases Socket.mem_pairs.1 hmem with ⟨hlive, heq⟩ | hmem
    · refine hfree other.socket (List.mem_map_of_mem ?_) hlive heq.symm
      exact List.mem_of_getElem? hother
    · have hsame : (t.origin k).port base = (t.origin i).port base := by
        rw [← hcounted.port_of_mem hother (Socket.mem_pairs.2 (.inr hmem)),
          ← hcounted.port i slot hslot htype, hport]
        rfl
      exact hunrequested k hk other hother _ hmem rfl
        ((Origin.port_eq_iff (hcounted.valid k) (hcounted.valid i)).1 hsame)
  have hold := hapart.nodup i slot hslot
  rw [Socket.pairs_not_live fun hlive => hlive.2.2 hlisten] at hold
  refine ⟨⟨base, hcounted.of_slots (le_refl _) hcounted.next (fun _ => .inl rfl)
    fun m slot' hslot' => ?_⟩, hapart.of_gains i (fun m slot' hslot' => ?_)
    fun m slot' hslot' p hp => ?_⟩
  · rcases hkeep m slot' hslot' with ⟨-, hold⟩ | ⟨rfl, rfl⟩
    · exact .inl ⟨rfl, slot', hold, .refl _⟩
    · refine .inr ⟨fun _ => ?_, fun _ => hends.type.trans htype⟩
      exact (congrArg UInt16.toNat hends.localPort).trans (hcounted.port m slot hslot htype)
  · rcases hkeep m slot' hslot' with ⟨-, hold⟩ | ⟨rfl, rfl⟩
    · exact hapart.nodup m slot' hold
    · rw [Socket.pairs_not_live hdead, hrequests]
      exact List.nodup_append.2 ⟨hold, List.nodup_singleton _, by
        rintro p hp q hq rfl
        rw [List.mem_singleton] at hq
        exact hown (hq ▸ hp)⟩
  · rcases hkeep m slot' hslot' with ⟨-, hold⟩ | ⟨rfl, rfl⟩
    · exact .inl ⟨slot', hold, hp⟩
    · rw [Socket.pairs_not_live hdead, hrequests, List.mem_append, List.mem_singleton] at hp
      rcases hp with hp | rfl
      · exact .inl ⟨slot, hslot, Socket.mem_pairs.2 (.inr hp)⟩
      · refine .inr ⟨rfl, fun k hk other hmem => ?_⟩
        rcases hkeep k other hmem with ⟨-, hold⟩ | ⟨hki, -⟩
        · exact hother k hk other hold
        · exact absurd hki hk

theorem Sound.segment (h : t.Sound) {segment : Segment} {memory : Bool}
    (hadmits : t.Admits (.segment segment memory)) : (t.step (.segment segment memory)).Sound := by
  simp only [step, Table.step]
  cases hfind : findSocket segment (t.table.slots.map (·.socket)) 0 none with
  | none => exact h
  | some i =>
      have hserviced : ∀ slot : Slot, slot.socket.state ≠ .listen →
          KeepsPort slot.socket (Tcp.step slot (.segment segment memory)).socket ∧
            Inherits slot.socket (Tcp.step slot (.segment segment memory)).socket := by
        intro slot hstate
        rw [Tcp.step]
        split
        · have hserviced := (tcpProcessSegment_serviced slot.socket segment memory).1
          exact ⟨hserviced.keepsPort hstate, hserviced.inherits⟩
        · exact ⟨.refl _, .refl _⟩
      cases hslot : t.table.slots[i]? with
      | none =>
          refine h.modify rfl rfl rfl rfl fun slot hmem => ?_
          rw [hslot] at hmem
          exact absurd hmem (by simp)
      | some slot =>
          by_cases hlisten : slot.socket.state = .listen ∧ slot.socket.type = .stream
          case neg =>
            refine h.modify rfl rfl rfl rfl fun old hold => ?_
            obtain rfl := Option.some.inj (hslot.symm.trans hold)
            by_cases htype : slot.socket.type = .stream
            · have hkeeps := hserviced slot fun hstate => hlisten ⟨hstate, htype⟩
              exact ⟨fun _ => hkeeps.1, hkeeps.2⟩
            · rw [Tcp.step, if_neg htype]
              exact ⟨fun _ => .refl _, .refl _⟩
          case pos =>
            exact h.queued hfind hslot hlisten.1 hlisten.2 hadmits

theorem Sound.tick (h : t.Sound) (elapsed : ℕ → Elapsed) : (t.step (.tick elapsed)).Sound := by
  refine h.keeps rfl rfl rfl fun i slot' hslot' => ?_
  obtain ⟨slot, hslot, rfl⟩ := mem_mapIdx hslot'
  refine ⟨slot, hslot, ?_⟩
  rw [Tcp.step]
  split
  · have hserviced := (tcpTick_serviced slot.socket (elapsed i)).1
    exact ⟨fun _ => hserviced.keepsPort not_false, hserviced.inherits⟩
  · exact ⟨fun _ => .refl _, .refl _⟩

/-! ### Runs -/

theorem Sound.step (h : t.Sound) {event : TableEvent} (hbelow : BindsBelow event)
    (hadmits : t.Admits event) : (t.step event).Sound := by
  cases event with
  | «open» type env =>
      have hslots : (Table.step t.table (.open type env)).slots
            = (t.table.socketOpen type env).2.slots ∧
          (Table.step t.table (.open type env)).tcpDynamicPort
            = (t.table.socketOpen type env).2.tcpDynamicPort := by
        rw [Table.step]
        generalize t.table.socketOpen type env = result
        obtain ⟨handle, table'⟩ := result
        cases handle <;> exact ⟨rfl, rfl⟩
      by_cases htype : type = .stream
      · subst htype
        exact h.socketOpen env hslots.1 hslots.2
      · refine Sound.open_other h htype env ?_ ?_ ?_ ?_
        · rw [step_table]
          exact hslots.1
        · rw [step_table]
          exact hslots.2
        · cases type <;> first | rfl | exact absurd rfl htype
        · cases type <;> first | rfl | exact absurd rfl htype
  | acceptOpen i env =>
      rw [Tracked.step, Table.step, Table.acceptOpen]
      cases hslot : t.table.slots[i]? with
      | none =>
          rw [if_pos (by simp)]
          exact h
      | some listener =>
          by_cases hempty : listener.socket.synQueue = []
          · rw [if_pos (by simpa using hempty)]
            simp only [if_pos hempty]
            exact h
          · rw [if_neg (by simpa using hempty)]
            simp only [if_neg hempty]
            exact h.socketOpen env rfl rfl
  | acceptFinish k queueItem memory iss => exact h.acceptFinish hadmits
  | bind i localIpAddr localPort => exact h.bind hbelow hadmits
  | call i event isCall => exact h.call isCall hadmits
  | close i =>
      exact h.modify rfl rfl rfl rfl fun slot _ =>
        ⟨socketClose_keepsPort, socketClose_inherits slot.socket⟩
  | segment segment memory => exact h.segment hadmits
  | tick elapsed => exact h.tick elapsed

theorem sound_run {events : List TableEvent} (h : t.Sound)
    (hbelow : ∀ event ∈ events, BindsBelow event) (hadmits : Along Admits step t events) :
    (run step t events).Sound := by
  induction events generalizing t with
  | nil => exact h
  | cons event events ih =>
      have hstep := h.step (hbelow event (List.mem_cons_self ..)) hadmits.1
      exact ih hstep (fun later hmem => hbelow later (List.mem_cons_of_mem _ hmem)) hadmits.2

end Steps

/-- **Live connections have distinct pairs** in every run in which no user binds a socket to an
ephemeral port, and in which the counter of the ephemeral ports has not gone round to the port of
another connection with the same peer when a connection is opened, and listening sockets are used as
they should be. -/
theorem distinctPairs_of_admits (n : ℕ) (outcomes : ℕ → ℕ → SendOutcome) (events : List TableEvent)
    (hbelow : ∀ event ∈ events, BindsBelow event)
    (h : Along Admits step (init n outcomes) events) :
    (run Table.step (Table.init n outcomes) events).DistinctPairs := by
  have hpairs := (sound_run (sound_init n outcomes) hbelow h).2.distinctPairs
  rw [run_table] at hpairs
  exact hpairs

/-- The socket `i` is connected to the peer. -/
def connectPeer (i : ℕ) : TableEvent :=
  .call i (.connect (.ipv4 1) 80 ⟨.ok (0, .ipv4 2), true, 100⟩) trivial

/-- The SYN of a client. -/
def clientSyn : Segment :=
  { Segment.ofData { syn := true } 700 0 1000 [] noData_lt with
    srcAddr := .ipv4 9, destAddr := .ipv4 2, srcPort := 4000, destPort := 80 }

def threeConnections : List TableEvent :=
  [openStream, connectPeer 0, openStream, connectPeer 1, openStream, .bind 2 .unspecified 80,
    .call 2 (.listen 4) trivial, .segment clientSyn true, .acceptOpen 2 ⟨0, 0, fun _ => 0⟩,
    .acceptFinish 0 ⟨0, .ipv4 9, 4000, .ipv4 2, 700, 536⟩ true 300]

theorem threeConnections_below : ∀ event ∈ threeConnections, BindsBelow event := by
  simp [threeConnections, openStream, connectPeer, BindsBelow, SOCKET_EPHEMERAL_PORT_MIN]

/-- Two sockets are connected to the peer from successive ephemeral ports, and a third one listens
on the port 80 and accepts a connection. -/
theorem distinctPairs_threeConnections :
    (run Table.step (Table.init 4 fun _ _ => {}) threeConnections).DistinctPairs :=
  distinctPairs_of_admits 4 _ threeConnections threeConnections_below (by decide)

end Tracked

/-! ## The ephemeral ports wrap around -/

namespace Table

open Tracked (connectPeer)

/-- A socket is opened for a moment, `n` times. -/
def openAndClose (n : ℕ) : List TableEvent := (List.replicate n [openStream, .close 1]).flatten

/-- A socket is connected; the entry next to it is free, and the next ephemeral port is `port`. -/
structure Waiting (table : Table) (first : Slot) (port : ℕ) : Prop where
  slots : ∃ second : Slot, table.slots = [first, second] ∧ second.socket.type = .unused ∧
    ∀ i, second.socket.net.outcomes i = {}
  tcpDynamicPort : table.tcpDynamicPort = port
  first : first.socket.type = .stream
  range : SOCKET_EPHEMERAL_PORT_MIN ≤ port ∧ port ≤ SOCKET_EPHEMERAL_PORT_MAX

/-- The port after the next one. -/
def nextPort (port : ℕ) : ℕ :=
  if port < SOCKET_EPHEMERAL_PORT_MAX then port + 1 else SOCKET_EPHEMERAL_PORT_MIN

theorem Waiting.opened {table : Table} {first : Slot} {port : ℕ} (h : table.Waiting first port) :
    ∃ second : Slot, second.socket.type = .unused ∧ (∀ i, second.socket.net.outcomes i = {}) ∧
      (table.step openStream).slots
        = [first, second.setSocket (Tcp.socketOpen second.socket .stream (UInt16.ofNat port))] ∧
      (table.step openStream).tcpDynamicPort = nextPort port := by
  obtain ⟨second, hslots, htype, hnet⟩ := h.slots
  have hentry : ∀ age, entryToOpen [first, second] age = some 1 := by
    intro age
    simp [entryToOpen, List.findIdx?_cons, Slot.free, h.first, htype]
  have hport : tcpGetDynamicPort table.tcpDynamicPort 0 = (port, nextPort port) := by
    have hrange := not_or.2 ⟨not_lt.2 h.range.1, not_lt.2 h.range.2⟩
    rw [tcpGetDynamicPort, h.tcpDynamicPort, if_neg hrange, nextPort]
  refine ⟨second, htype, hnet, ?_, ?_⟩
  all_goals
    simp only [openStream, Table.step, Table.socketOpen, newPort, hport, hentry, give, hslots,
      List.modify_succ_cons, List.modify_zero_cons, reuseEntry, htype, if_true]

theorem Waiting.openAndClose {table : Table} {first : Slot} {port : ℕ}
    (h : table.Waiting first port) (n : ℕ) :
    (run step table (openAndClose n)).Waiting first (nextPort^[n] port) := by
  induction n generalizing table port with
  | zero => exact h
  | succ n ih =>
      obtain ⟨second, htype, hnet, hslots, hport⟩ := h.opened
      rw [Table.openAndClose, List.replicate_succ, List.flatten_cons, run_append,
        Function.iterate_succ_apply]
      generalize hopened : second.setSocket
        (Tcp.socketOpen second.socket .stream (UInt16.ofNat port)) = opened at hslots
      have hclosed : (run step table [openStream, .close 1]).slots
          = [first, opened.setSocket (socketClose opened.socket)] := by
        rw [run_cons, run_cons, run_nil, Table.step, hslots, List.modify_succ_cons,
          List.modify_zero_cons]
      have hnet' : ∀ i, (socketClose opened.socket).net.outcomes i = {} := by
        subst hopened
        exact hnet
      have hunused : (socketClose opened.socket).type = .unused := by
        subst hopened
        rfl
      refine ih ⟨⟨_, hclosed, hunused, hnet'⟩, hport, h.first, ?_⟩
      rw [nextPort]
      have hrange := h.range
      split <;> simp only [SOCKET_EPHEMERAL_PORT_MIN, SOCKET_EPHEMERAL_PORT_MAX] at * <;> omega

theorem nextPort_iterate {port n : ℕ} (h : port + n ≤ SOCKET_EPHEMERAL_PORT_MAX) :
    nextPort^[n] port = port + n := by
  induction n with
  | zero => rfl
  | succ n ih =>
      rw [Function.iterate_succ_apply', ih (by omega), nextPort, if_pos (by omega)]
      rfl

/-- The connection to the peer from a local port. -/
def peerPair (port : UInt16) : Pair where
  interface := some 0
  localIpAddr := .ipv4 2
  localPort := port
  remoteIpAddr := .ipv4 1
  remotePort := 80

/-- A socket that has just been opened is connected to the peer. -/
theorem connectPeer_live (slot : Slot) {s : Socket} {port : UInt16}
    (hslot : slot.socket = Tcp.socketOpen s .stream port) (hnet : ∀ i, s.net.outcomes i = {}) :
    let slot' := Tcp.step slot (.connect (.ipv4 1) 80 ⟨.ok (0, .ipv4 2), true, 100⟩)
    slot'.socket.Live ∧ slot'.socket.pair = peerPair port := by
  intro slot'
  have htype : slot.socket.type = .stream := by
    rw [hslot]
    rfl
  have hstate : slot.socket.state = .closed := by
    rw [hslot]
    rfl
  have hoc : slot.socket.net.outcomes 0 = {} := by
    rw [hslot]
    exact hnet 0
  have hport : slot.socket.localPort = port := by
    rw [hslot]
    rfl
  simp only [slot', Tcp.step, htype, if_true, endSection_socket]
  simp [tcpConnect, hstate, openConnection, sendSyn, tcpSendSegment, activeBlock, initControlBlock,
    allocBuffers, hoc, SendSide.payload, Socket.Live, Socket.pair, peerPair, tcpChangeState, htype,
    hport]

/-- Two sockets are connected to the peer from the same ephemeral port. -/
def wrapAround : List TableEvent :=
  [openStream, connectPeer 0] ++ openAndClose 16383 ++ [openStream, connectPeer 1]

theorem not_distinctPairs :
    ¬ ∀ (n : ℕ) (outcomes : ℕ → ℕ → SendOutcome) (events : List TableEvent),
      (∀ event ∈ events, BindsBelow event) →
        (run step (init n outcomes) events).DistinctPairs := by
  intro h
  have hbinds : ∀ event ∈ wrapAround, BindsBelow event := by
    intro event hmem
    simp only [wrapAround, openAndClose, List.mem_append, List.mem_cons, List.mem_flatten,
      List.mem_replicate, List.not_mem_nil, or_false] at hmem
    rcases hmem with ((rfl | rfl) | ⟨events, ⟨-, rfl⟩, hmem⟩) | rfl | rfl
    · trivial
    · trivial
    · simp only [List.mem_cons, List.not_mem_nil, or_false] at hmem
      rcases hmem with rfl | rfl <;> trivial
    · trivial
    · trivial
  have hpairs := h 2 (fun _ _ => {}) wrapAround hbinds
  obtain ⟨table, htable⟩ : ∃ table, table =
    run step (init 2 fun _ _ => {}) [openStream, connectPeer 0] := ⟨_, rfl⟩
  obtain ⟨first, second, hslots, hlive, hpair, hunused, hnet, hport⟩ :
      ∃ first second : Slot, table.slots = [first, second] ∧ first.socket.Live ∧
        first.socket.pair = peerPair 49152 ∧ second.socket.type = .unused ∧
        (∀ i, second.socket.net.outcomes i = {}) ∧ table.tcpDynamicPort = 49153 := by
    subst htable
    exact ⟨_, _, rfl, by decide, by decide, rfl, fun _ => rfl, by decide⟩
  have hwaiting : table.Waiting first 49153 :=
    ⟨⟨second, hslots, hunused, hnet⟩, hport, hlive.1, by decide, by decide⟩
  obtain ⟨second', -, hnet', hslots', -⟩ := (hwaiting.openAndClose 16383).opened
  have hwrapped : nextPort^[16383] 49153 = 49152 := by
    rw [Function.iterate_succ_apply', nextPort_iterate (by decide)]
    rfl
  rw [hwrapped] at hslots'
  obtain ⟨hlive', hpair'⟩ := connectPeer_live (second'.setSocket
    (Tcp.socketOpen second'.socket .stream 49152)) rfl hnet'
  rw [wrapAround, run_append, run_append, ← htable, run_cons, run_cons, run_nil] at hpairs
  generalize (run step table (openAndClose 16383)).step openStream = opened at hslots' hpairs
  have hlast : (opened.step (connectPeer 1)).slots = [first, Tcp.step (second'.setSocket
      (Tcp.socketOpen second'.socket .stream 49152))
      (.connect (.ipv4 1) 80 ⟨.ok (0, .ipv4 2), true, 100⟩)] := by
    change opened.slots.modify 1 (Tcp.step · (.connect (.ipv4 1) 80 ⟨.ok (0, .ipv4 2), true, 100⟩)) = _
    rw [hslots', List.modify_succ_cons, List.modify_zero_cons]
    rfl
  have heq := hpairs.distinct 0 1 first (by rw [hlast]; rfl) _ (by rw [hlast]; rfl) hlive hlive'
    (hpair.trans hpair'.symm)
  exact absurd heq (by decide)

end Table

end Tcp

