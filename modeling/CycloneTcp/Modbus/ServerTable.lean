import CycloneTcp.Lib.Handles
import CycloneTcp.Lib.Serial
import CycloneTcp.Modbus.EndToEnd

/-! # The server's connection table

`modbusServerTask` works on a table of connections: it calls the event handler for one entry, closes
idle entries, and installs new clients, for which it may have to evict the entry that has been idle
for longest. The table below has any number of entries. It carries two records the code does not
have: which sockets were accepted and closed so far, and when each entry was last active on a clock
that does not wrap. The run theorem says that the table holds exactly the accepted sockets that are
not closed, whatever order the operations come in. -/

set_option autoImplicit false

namespace Modbus

open Handles

variable {σ ν : Type*} {n : ℕ}

/-- What lies behind the sockets of the server, with the record of the sockets accepted and closed,
and the time in milliseconds since some moment. -/
structure Sockets (ν : Type*) where
  net : ν
  uses : List (Use ℕ)
  now : ℕ

/-- The socket interface of one entry. A socket that is closed is recorded as released, and the
system time is the time modulo `2 ^ 32`. -/
def onSocket (api : Option ℕ → SocketApi ν) (socket : Option ℕ) : SocketApi (Sockets ν) where
  socketReceive size v :=
    let r := (api socket).socketReceive size v.net
    (r.1, r.2.1, { v with net := r.2.2 })
  socketSend data v :=
    let r := (api socket).socketSend data v.net
    (r.1, r.2.1, { v with net := r.2.2 })
  socketSetTimeout timeout v := { v with net := (api socket).socketSetTimeout timeout v.net }
  socketClose v :=
    { v with
      net := (api socket).socketClose v.net
      uses := v.uses ++ (socket.map Use.release).toList }
  osGetSystemTime v := UInt32.ofNat v.now

/-- `ModbusServerContext`: the table with `MODBUS_SERVER_MAX_CONNECTIONS = n` entries, the
application, the sockets, and the time at which each entry was last active. -/
structure ServerTable (σ ν : Type*) (n : ℕ) where
  connection : Fin n → ModbusClientConnection
  world : ServerWorld σ
  sockets : Sockets ν
  lastActive : Fin n → ℕ

namespace ServerTable

variable (settings : ModbusServerSettings σ) (api : Option ℕ → SocketApi ν)

/-- One entry, as the event handler sees it. -/
def entry (s : ServerTable σ ν n) (i : Fin n) : Server σ (Sockets ν) :=
  ⟨s.connection i, s.world, s.sockets⟩

/-- The table after one entry has been worked on. -/
def put (s : ServerTable σ ν n) (i : Fin n) (r : Server σ (Sockets ν)) : ServerTable σ ν n :=
  { s with
    connection := Function.update s.connection i r.connection
    world := r.world
    sockets := r.net }

/-- `modbusServerCloseConnection` on an entry. -/
def modbusServerCloseConnection (i : Fin n) (s : ServerTable σ ν n) : ServerTable σ ν n :=
  s.put i (Modbus.modbusServerCloseConnection (onSocket api (s.connection i).socket) (s.entry i))

/-- `modbusServerProcessConnectionEvents` on an entry. -/
def modbusServerProcessConnectionEvents (i : Fin n) (s : ServerTable σ ν n) :
    ServerTable σ ν n :=
  { s.put i (Modbus.modbusServerProcessConnectionEvents settings
      (onSocket api (s.connection i).socket) (s.entry i)) with
    lastActive := Function.update s.lastActive i s.sockets.now }

/-- The body of the loop of `modbusServerTick`. -/
def tickEntry (s : ServerTable σ ν n) (i : Fin n) : ServerTable σ ν n :=
  s.put i (Modbus.modbusServerTick (onSocket api (s.connection i).socket) (s.entry i))

/-- `modbusServerTick`: the loop over all entries. -/
def modbusServerTick (s : ServerTable σ ν n) : ServerTable σ ν n :=
  (List.finRange n).foldl (tickEntry api) s

/-- The loop of `modbusServerAcceptConnection`: the first closed entry, and the entry that has been
idle for longest among the ones passed. -/
def findEntry (time : UInt32) (connection : Fin n → ModbusClientConnection) :
    List (Fin n) → Option (Fin n) → Option (Fin n) × Option (Fin n)
  | [], oldest => (none, oldest)
  | i :: rest, oldest =>
      if (connection i).state = .closed then
        (some i, oldest)
      else
        match oldest with
        | none => findEntry time connection rest (some i)
        | some o =>
            findEntry time connection rest
              (if time - (connection i).timestamp > time - (connection o).timestamp then some i
                else some o)

/-- The entry of a new client: cleared, and then filled in. -/
def install (i : Fin n) (socket : ℕ) (time : UInt32) (s : ServerTable σ ν n) : ServerTable σ ν n :=
  { s with
    connection := Function.update s.connection i (acceptedConnection socket time)
    lastActive := Function.update s.lastActive i s.sockets.now }

/-- `modbusServerAcceptConnection`, given what `socketAccept` returns. -/
def modbusServerAcceptConnection (socket : Option ℕ) (s : ServerTable σ ν n) : ServerTable σ ν n :=
  match socket with
  | none => s
  | some h =>
      let time := UInt32.ofNat s.sockets.now
      let s := { s with
        sockets := (onSocket api (some h)).socketSetTimeout 0
          { s.sockets with uses := s.sockets.uses ++ [.acquire h] } }
      match findEntry time s.connection (List.finRange n) none with
      | (some i, _) => install i h time s
      | (none, some i) => install i h time (modbusServerCloseConnection api i s)
      | (none, none) => s

/-- An operation on the table. -/
inductive Operation (n : ℕ) where
  | accept (socket : Option ℕ)
  | ready (i : Fin n)
  | tick
  | close (i : Fin n)

/-- An operation, the time at which it happens, and what has become of the network by then. -/
structure Event (ν : Type*) (n : ℕ) where
  time : ℕ
  net : ν
  operation : Operation n

/-- The table when an event comes. -/
def atTime (s : ServerTable σ ν n) (e : Event ν n) : ServerTable σ ν n :=
  { s with sockets := { s.sockets with net := e.net, now := e.time } }

/-- One operation. -/
def step (s : ServerTable σ ν n) (e : Event ν n) : ServerTable σ ν n :=
  match e.operation with
  | .accept socket => modbusServerAcceptConnection api socket (s.atTime e)
  | .ready i => modbusServerProcessConnectionEvents settings api i (s.atTime e)
  | .tick => modbusServerTick api (s.atTime e)
  | .close i => modbusServerCloseConnection api i (s.atTime e)

/-- The table after `modbusServerInit`. -/
def initial (world : ServerWorld σ) (net : ν) (now : ℕ) : ServerTable σ ν n where
  connection _ := { acceptedConnection 0 0 with state := .closed, socket := none }
  world := world
  sockets := ⟨net, [], now⟩
  lastActive _ := now

/-- What the environment does not do: the clock does not go back, no entry in use is idle for
`2 ^ 31` milliseconds, and `socketAccept` does not return a socket that is in use. -/
structure Permitted (s : ServerTable σ ν n) (e : Event ν n) : Prop where
  forward : s.sockets.now ≤ e.time
  idle : ∀ i, (s.connection i).state ≠ .closed → e.time - s.lastActive i < 2 ^ 31
  fresh : ∀ h, e.operation = .accept (some h) → h ∉ held s.sockets.uses

end ServerTable

/-! ## One entry -/

/-- The entry keeps its socket, its time stamp, and whether it is closed. -/
structure SameEntry (c c' : ModbusClientConnection) : Prop where
  socket : c'.socket = c.socket
  timestamp : c'.timestamp = c.timestamp
  closed : c'.state = .closed ↔ c.state = .closed

theorem SameEntry.refl (c : ModbusClientConnection) : SameEntry c c := ⟨rfl, rfl, .rfl⟩

/-- The entry is still the same one, and no socket was closed. -/
structure Undisturbed (s s' : Server σ (Sockets ν)) : Prop where
  entry : SameEntry s.connection s'.connection
  uses : s'.net.uses = s.net.uses
  now : s'.net.now = s.net.now

/-- The entry is closed, and so is its socket, if it had one. -/
structure ClosedEntry (s s' : Server σ (Sockets ν)) : Prop where
  state : s'.connection.state = .closed
  socket : s'.connection.socket = none
  uses : s'.net.uses = s.net.uses ++ (s.connection.socket.map Use.release).toList
  now : s'.net.now = s.net.now

theorem Undisturbed.refl (s : Server σ (Sockets ν)) : Undisturbed s s := ⟨.refl _, rfl, rfl⟩

theorem Handled.sameEntry {c c' : ModbusClientConnection} {error : ErrorCode}
    (h : Handled c error c') (hopen : c.state ≠ .closed) : SameEntry c c' := by
  cases h with
  | answered => exact ⟨rfl, rfl, iff_of_false nofun hopen⟩
  | failed => exact ⟨rfl, rfl, .rfl⟩

section Entry

variable (settings : ModbusServerSettings σ) (api : Option ℕ → SocketApi ν) (socket : Option ℕ)
  {s : Server σ (Sockets ν)}

theorem undisturbed_ite {p : Prop} [Decidable p] {a b : ErrorCode × Server σ (Sockets ν)}
    (ha : p → Undisturbed s a.2) (hb : ¬p → Undisturbed s b.2) :
    Undisturbed s (if p then a else b).2 := by
  by_cases h : p
  · rw [if_pos h]
    exact ha h
  · rw [if_neg h]
    exact hb h

theorem modbusServerParseMbapHeader_sameEntry (c : ModbusClientConnection) :
    SameEntry c (modbusServerParseMbapHeader c).2 := by
  unfold modbusServerParseMbapHeader
  dsimp only
  repeat' split
  all_goals exact ⟨rfl, rfl, .rfl⟩

theorem receiveHeader_undisturbed (s : Server σ (Sockets ν)) :
    Undisturbed s (receiveHeader (onSocket api socket) s).2 := by
  refine undisturbed_ite (fun _ => ?_) fun _ => ⟨⟨rfl, rfl, .rfl⟩, rfl, rfl⟩
  refine undisturbed_ite (fun _ => ?_) fun _ => ⟨⟨rfl, rfl, .rfl⟩, rfl, rfl⟩
  have hparse := modbusServerParseMbapHeader_sameEntry
    ((s.connection.store ((onSocket api socket).socketReceive
      (headerSize - s.connection.requestAduPos) s.net).2.1).advance
      ((onSocket api socket).socketReceive
        (headerSize - s.connection.requestAduPos) s.net).2.1.length)
  exact ⟨⟨hparse.socket, hparse.timestamp, hparse.closed⟩, rfl, rfl⟩

theorem receiveBody_undisturbed (hopen : s.connection.state ≠ .closed) :
    Undisturbed s (receiveBody settings (onSocket api socket) s).2 := by
  refine undisturbed_ite (fun _ => ?_) fun _ => ⟨⟨rfl, rfl, .rfl⟩, rfl, rfl⟩
  refine undisturbed_ite (fun _ => ?_) fun _ => ⟨⟨rfl, rfl, .rfl⟩, rfl, rfl⟩
  have hprocess := (modbusServerProcessRequest_handled settings
    ((s.connection.store ((onSocket api socket).socketReceive
      (s.connection.requestAduLen - s.connection.requestAduPos) s.net).2.1).advance
      ((onSocket api socket).socketReceive
        (s.connection.requestAduLen - s.connection.requestAduPos) s.net).2.1.length)
    s.world).sameEntry hopen
  exact ⟨⟨hprocess.socket, hprocess.timestamp, hprocess.closed⟩, rfl, rfl⟩

theorem sendResponse_undisturbed (hopen : s.connection.state ≠ .closed) :
    Undisturbed s (sendResponse (onSocket api socket) s).2 := by
  refine undisturbed_ite (fun _ => ?_) fun _ => ⟨⟨rfl, rfl, .rfl⟩, rfl, rfl⟩
  refine undisturbed_ite (fun _ => ?_) fun _ => ⟨⟨rfl, rfl, .rfl⟩, rfl, rfl⟩
  exact ⟨⟨rfl, rfl, iff_of_false nofun hopen⟩, rfl, rfl⟩

/-- Before its final check the event handler leaves the entry what it is. -/
theorem processEvents_undisturbed (s : Server σ (Sockets ν)) :
    Undisturbed s (processEvents settings (onSocket api socket) s).2 := by
  unfold processEvents
  cases hstate : s.connection.state with
  | receiving =>
      dsimp only
      split
      · exact receiveHeader_undisturbed api socket s
      · split
        · exact receiveBody_undisturbed settings api socket (by rw [hstate]; nofun)
        · exact .refl s
  | sending =>
      dsimp only
      split
      · exact sendResponse_undisturbed api socket (by rw [hstate]; nofun)
      · exact .refl s
  | closed => exact .refl s

theorem modbusServerCloseConnection_closed (s : Server σ (Sockets ν)) :
    ClosedEntry s (Modbus.modbusServerCloseConnection (onSocket api s.connection.socket) s) := by
  unfold Modbus.modbusServerCloseConnection
  cases hsocket : s.connection.socket with
  | none => exact ⟨rfl, rfl, by simp [hsocket], rfl⟩
  | some h => exact ⟨rfl, rfl, by simp [onSocket, hsocket], rfl⟩

/-- What the event handler does with an entry, once it has stamped it. -/
theorem processConnectionEvents_entry (s : Server σ (Sockets ν)) :
    let r := Modbus.modbusServerProcessConnectionEvents settings
      (onSocket api s.connection.socket) s
    let t := s.stamp (onSocket api s.connection.socket)
    Undisturbed t r ∨ ClosedEntry t r := by
  intro r t
  have hkept := processEvents_undisturbed settings api s.connection.socket t
  have hr : r = if (processEvents settings (onSocket api s.connection.socket) t).1 ≠ .noError ∧
        (processEvents settings (onSocket api s.connection.socket) t).1 ≠ .timeout then
      Modbus.modbusServerCloseConnection (onSocket api s.connection.socket)
        (processEvents settings (onSocket api s.connection.socket) t).2
    else (processEvents settings (onSocket api s.connection.socket) t).2 := rfl
  rw [hr]
  generalize processEvents settings (onSocket api s.connection.socket) t = p at hkept ⊢
  have hsocket : p.2.connection.socket = s.connection.socket := hkept.entry.socket
  split
  · have hclosed := modbusServerCloseConnection_closed api p.2
    rw [hsocket] at hclosed
    refine .inr ⟨hclosed.state, hclosed.socket, ?_, hclosed.now.trans hkept.now⟩
    rw [hclosed.uses, hkept.uses, hsocket]
    rfl
  · exact .inl hkept

theorem tick_entry (s : Server σ (Sockets ν)) :
    let r := Modbus.modbusServerTick (onSocket api s.connection.socket) s
    Undisturbed s r ∨ ClosedEntry s r := by
  intro r
  simp only [r, Modbus.modbusServerTick]
  split
  · exact .inr (modbusServerCloseConnection_closed api s)
  · exact .inl (.refl s)

end Entry

/-! ## The table -/

namespace ServerTable

/-- The sockets in the entries. -/
def slots (s : ServerTable σ ν n) (i : Fin n) : Option ℕ := (s.connection i).socket

/-- **The invariant of the table.** The entries hold exactly the sockets in use, an entry is closed
if and only if it holds none, and the time stamp of an entry in use is the time of its last
activity. -/
structure Inv (s : ServerTable σ ν n) : Prop where
  exact : Exact s.slots (held s.sockets.uses)
  disciplined : Disciplined ∅ s.sockets.uses
  closed_iff : ∀ i, (s.connection i).state = .closed ↔ (s.connection i).socket = none
  timestamp : ∀ i, (s.connection i).state ≠ .closed →
    (s.connection i).timestamp = UInt32.ofNat (s.lastActive i)
  lastActive_le : ∀ i, s.lastActive i ≤ s.sockets.now

variable {s : ServerTable σ ν n} {i : Fin n} {r : Server σ (Sockets ν)}

theorem slots_put : (s.put i r).slots = Function.update s.slots i r.connection.socket := by
  funext j
  by_cases hj : j = i
  · rw [hj, Function.update_self]
    simp only [slots, put, Function.update_self]
  · rw [Function.update_of_ne hj]
    simp only [slots, put, Function.update_of_ne hj]

theorem put_self : (s.put i r).connection i = r.connection := Function.update_self ..

theorem put_of_ne {j : Fin n} (hj : j ≠ i) : (s.put i r).connection j = s.connection j :=
  Function.update_of_ne hj ..

/-- An entry that is still the same keeps the invariant. -/
theorem Inv.undisturbed (hs : Inv s) (h : Undisturbed (s.entry i) r) : Inv (s.put i r) := by
  have hslots : (s.put i r).slots = s.slots := by
    rw [slots_put, h.entry.socket]
    exact Function.update_eq_self ..
  have huses : (s.put i r).sockets.uses = s.sockets.uses := h.uses
  have hnow : (s.put i r).sockets.now = s.sockets.now := h.now
  refine ⟨?_, ?_, fun j => ?_, fun j => ?_, fun j => ?_⟩
  · rw [hslots, huses]
    exact hs.exact
  · rw [huses]
    exact hs.disciplined
  · by_cases hj : j = i
    · subst hj
      rw [put_self, h.entry.closed, h.entry.socket]
      exact hs.closed_iff j
    · rw [put_of_ne hj]
      exact hs.closed_iff j
  · by_cases hj : j = i
    · subst hj
      rw [put_self, h.entry.timestamp]
      exact fun hopen => hs.timestamp j fun hclosed => hopen (h.entry.closed.2 hclosed)
    · rw [put_of_ne hj]
      exact hs.timestamp j
  · rw [hnow]
    exact hs.lastActive_le j

/-- An entry that is closed keeps the invariant. -/
theorem Inv.closedEntry (hs : Inv s) (h : ClosedEntry (s.entry i) r) : Inv (s.put i r) := by
  have hslots : (s.put i r).slots = Function.update s.slots i none := by
    rw [slots_put, h.socket]
  have huses : (s.put i r).sockets.uses
      = s.sockets.uses ++ ((s.slots i).map Use.release).toList := h.uses
  have hnow : (s.put i r).sockets.now = s.sockets.now := h.now
  have hheld : Exact (s.put i r).slots (held (s.put i r).sockets.uses) ∧
      Disciplined ∅ (s.put i r).sockets.uses := by
    rw [hslots, huses]
    cases hsocket : s.slots i with
    | none =>
        have hsame : Function.update s.slots i none = s.slots := by
          rw [← hsocket]
          exact Function.update_eq_self ..
        rw [hsame, Option.map_none, Option.toList_none, List.append_nil]
        exact ⟨hs.exact, hs.disciplined⟩
    | some g =>
        rw [Option.map_some, Option.toList_some, held_concat]
        exact ⟨hs.exact.release hsocket,
          disciplined_concat hs.disciplined ((hs.exact.mem_iff g).2 ⟨i, hsocket⟩)⟩
  refine ⟨hheld.1, hheld.2, fun j => ?_, fun j => ?_, fun j => ?_⟩
  · by_cases hj : j = i
    · subst hj
      rw [put_self]
      exact iff_of_true h.state h.socket
    · rw [put_of_ne hj]
      exact hs.closed_iff j
  · by_cases hj : j = i
    · subst hj
      rw [put_self]
      exact fun hopen => absurd h.state hopen
    · rw [put_of_ne hj]
      exact hs.timestamp j
  · rw [hnow]
    exact hs.lastActive_le j

theorem Inv.put (hs : Inv s) (h : Undisturbed (s.entry i) r ∨ ClosedEntry (s.entry i) r) :
    Inv (s.put i r) :=
  h.elim hs.undisturbed hs.closedEntry

section Operations

variable (settings : ModbusServerSettings σ) (api : Option ℕ → SocketApi ν)

theorem Inv.close (hs : Inv s) (i : Fin n) : Inv (modbusServerCloseConnection api i s) :=
  hs.closedEntry (modbusServerCloseConnection_closed api (s.entry i))

/-- The entry with its time stamp updated. -/
def stamp (i : Fin n) (s : ServerTable σ ν n) : ServerTable σ ν n :=
  { s with
    connection := Function.update s.connection i
      { s.connection i with timestamp := UInt32.ofNat s.sockets.now }
    lastActive := Function.update s.lastActive i s.sockets.now }

theorem Inv.stamp (hs : Inv s) (i : Fin n) : Inv (stamp i s) := by
  have hslots : (ServerTable.stamp i s).slots = s.slots := by
    funext j
    by_cases hj : j = i
    · subst hj
      simp only [slots, ServerTable.stamp, Function.update_self]
    · simp only [slots, ServerTable.stamp, Function.update_of_ne hj]
  refine ⟨hslots ▸ hs.exact, hs.disciplined, fun j => ?_, fun j => ?_, fun j => ?_⟩
  · by_cases hj : j = i
    · subst hj
      simp only [ServerTable.stamp, Function.update_self]
      exact hs.closed_iff j
    · simp only [ServerTable.stamp, Function.update_of_ne hj]
      exact hs.closed_iff j
  · by_cases hj : j = i
    · subst hj
      simp only [ServerTable.stamp, Function.update_self]
      exact fun _ => trivial
    · simp only [ServerTable.stamp, Function.update_of_ne hj]
      exact hs.timestamp j
  · by_cases hj : j = i
    · subst hj
      simp only [ServerTable.stamp, Function.update_self]
      exact le_refl _
    · simp only [ServerTable.stamp, Function.update_of_ne hj]
      exact hs.lastActive_le j

theorem Inv.process (hs : Inv s) (i : Fin n) :
    Inv (modbusServerProcessConnectionEvents settings api i s) := by
  have hentry := processConnectionEvents_entry settings api (s.entry i)
  have hstamped : (ServerTable.stamp i s).entry i
      = (s.entry i).stamp (onSocket api (s.entry i).connection.socket) := by
    simp only [entry, ServerTable.stamp, Function.update_self, Server.stamp, onSocket]
  have hput : modbusServerProcessConnectionEvents settings api i s
      = (ServerTable.stamp i s).put i (Modbus.modbusServerProcessConnectionEvents settings
        (onSocket api (s.connection i).socket) (s.entry i)) := by
    simp only [modbusServerProcessConnectionEvents, ServerTable.put, ServerTable.stamp,
      Function.update_idem]
  rw [hput]
  refine (hs.stamp i).put ?_
  rw [hstamped]
  exact hentry

theorem Inv.tick (hs : Inv s) : Inv (modbusServerTick api s) := by
  have hfold : ∀ (entries : List (Fin n)) (s : ServerTable σ ν n), Inv s →
      Inv (entries.foldl (tickEntry api) s) := by
    intro entries
    induction entries with
    | nil => exact fun _ hs => hs
    | cons i entries ih =>
        intro s hs
        exact ih _ (hs.put (tick_entry api (s.entry i)))
  exact hfold _ s hs

end Operations

/-! ## Accepting a client -/

section Accept

variable (time : UInt32) (connection : Fin n → ModbusClientConnection)

/-- The entry `o` has been idle for longest among `entries`, by the time stamps. -/
def Oldest (entries : List (Fin n)) (o : Fin n) : Prop :=
  o ∈ entries ∧ ∀ j ∈ entries,
    (time - (connection j).timestamp).toNat ≤ (time - (connection o).timestamp).toNat

/-- The loop over the table finds a closed entry; or there is none, and it knows the oldest one. -/
theorem findEntry_spec (entries passed : List (Fin n)) (oldest : Option (Fin n))
    (hpassed : ∀ j ∈ passed, (connection j).state ≠ .closed)
    (holdest : passed = [] ∧ oldest = none ∨
      ∃ o, oldest = some o ∧ Oldest time connection passed o) :
    (∃ i o, findEntry time connection entries oldest = (some i, o) ∧
        (connection i).state = .closed) ∨
      ∃ oldest', findEntry time connection entries oldest = (none, oldest') ∧
        (∀ j ∈ passed ++ entries, (connection j).state ≠ .closed) ∧
        (passed ++ entries = [] ∧ oldest' = none ∨
          ∃ o, oldest' = some o ∧ Oldest time connection (passed ++ entries) o) := by
  induction entries generalizing passed oldest with
  | nil =>
      refine .inr ⟨oldest, rfl, ?_, ?_⟩
      · rwa [List.append_nil]
      · rwa [List.append_nil]
  | cons i rest ih =>
      by_cases hclosed : (connection i).state = .closed
      · refine .inl ⟨i, oldest, ?_, hclosed⟩
        rw [findEntry.eq_def]
        exact if_pos hclosed
      · have hpassed' : ∀ j ∈ passed ++ [i], (connection j).state ≠ .closed := by
          intro j hj
          rcases List.mem_append.1 hj with hj | hj
          · exact hpassed j hj
          · rwa [List.mem_singleton.1 hj]
        have hsplit : passed ++ i :: rest = (passed ++ [i]) ++ rest := by simp
        rw [hsplit]
        rcases holdest with ⟨rfl, rfl⟩ | ⟨o, rfl, ho⟩
        · have hnext := ih [i] (some i) hpassed' (.inr ⟨i, rfl, List.mem_singleton_self i,
            fun j hj => by rw [List.mem_singleton.1 hj]⟩)
          have hstep : findEntry time connection (i :: rest) none
              = findEntry time connection rest (some i) := by
            rw [findEntry, if_neg hclosed]
          rw [hstep]
          exact hnext
        · set o' := if time - (connection i).timestamp > time - (connection o).timestamp then i
            else o with ho'
          have hstep : findEntry time connection (i :: rest) (some o)
              = findEntry time connection rest (some o') := by
            rw [findEntry, if_neg hclosed, ho']
            split <;> rfl
          rw [hstep]
          refine ih (passed ++ [i]) (some o') hpassed' (.inr ⟨o', rfl, ?_⟩)
          -- the older one of `o` and `i` is kept
          by_cases holder : time - (connection i).timestamp > time - (connection o).timestamp
          · rw [ho', if_pos holder]
            refine ⟨List.mem_append_right _ (List.mem_singleton_self i), fun j hj => ?_⟩
            rcases List.mem_append.1 hj with hj | hj
            · exact le_trans (ho.2 j hj) (le_of_lt (UInt32.lt_iff_toNat_lt.1 holder))
            · rw [List.mem_singleton.1 hj]
          · rw [ho', if_neg holder]
            refine ⟨List.mem_append_left _ ho.1, fun j hj => ?_⟩
            rcases List.mem_append.1 hj with hj | hj
            · exact ho.2 j hj
            · rw [List.mem_singleton.1 hj]
              exact not_lt.1 fun hlt => holder (UInt32.lt_iff_toNat_lt.2 hlt)

end Accept

/-- The age of an entry, as the code computes it, is the time since its last activity. -/
theorem age_toNat {now active : ℕ} (hle : active ≤ now) (hlt : now - active < 2 ^ 31) :
    (UInt32.ofNat now - UInt32.ofNat active).toNat = now - active := by
  have hseq : ∀ p, Serial.seq 0 p = UInt32.ofNat p := fun p => UInt32.zero_add _
  have hsub := Serial.sub_toNat 0 hle (by omega)
  rwa [hseq, hseq] at hsub

/-- A new client has been installed in the entry `i`: all others are as they were, and if the entry
was in use, so were all others, and none of them had been idle for longer. -/
structure AcceptedInto (s s' : ServerTable σ ν n) (socket : ℕ) (i : Fin n) : Prop where
  installed : s'.connection i = acceptedConnection socket (UInt32.ofNat s.sockets.now)
  others : ∀ j, j ≠ i → s'.connection j = s.connection j
  evicts : (s.connection i).state ≠ .closed → ∀ j, (s.connection j).state ≠ .closed ∧
    s.sockets.now - s.lastActive j ≤ s.sockets.now - s.lastActive i

section AcceptStep

variable (api : Option ℕ → SocketApi ν) {h : ℕ}

/-- The table right after `socketAccept` has returned the socket `h`. -/
def receiving (h : ℕ) (s : ServerTable σ ν n) : ServerTable σ ν n :=
  { s with
    sockets := (onSocket api (some h)).socketSetTimeout 0
      { s.sockets with uses := s.sockets.uses ++ [.acquire h] } }

theorem slots_install (i : Fin n) (time : UInt32) :
    (install i h time s).slots = Function.update s.slots i (some h) := by
  funext j
  by_cases hj : j = i
  · rw [hj, Function.update_self]
    simp only [slots, install, Function.update_self, acceptedConnection]
  · rw [Function.update_of_ne hj]
    simp only [slots, install, Function.update_of_ne hj]

/-- Installing the new socket where nothing is left of another completes the invariant. -/
theorem Inv.install {s' : ServerTable σ ν n} (hs : Inv s)
    (hslots : s'.slots = Function.update s.slots i none)
    (hsame : ∀ j, j ≠ i → s'.connection j = s.connection j)
    (hheld : Exact (Function.update s.slots i (some h)) (held s'.sockets.uses))
    (hdisciplined : Disciplined ∅ s'.sockets.uses) (hnow : s'.sockets.now = s.sockets.now)
    (hactive : s'.lastActive = s.lastActive) :
    Inv (install i h (UInt32.ofNat s.sockets.now) s') := by
  refine ⟨?_, hdisciplined, fun j => ?_, fun j => ?_, fun j => ?_⟩
  · rw [slots_install, hslots, Function.update_idem]
    exact hheld
  · by_cases hj : j = i
    · subst hj
      simp only [ServerTable.install, Function.update_self]
      exact iff_of_false nofun nofun
    · simp only [ServerTable.install, Function.update_of_ne hj, hsame j hj]
      exact hs.closed_iff j
  · by_cases hj : j = i
    · subst hj
      simp only [ServerTable.install, Function.update_self, hnow]
      exact fun _ => rfl
    · simp only [ServerTable.install, Function.update_of_ne hj, hsame j hj, hactive]
      exact hs.timestamp j
  · by_cases hj : j = i
    · subst hj
      simp only [ServerTable.install, Function.update_self]
      exact le_refl _
    · simp only [ServerTable.install, Function.update_of_ne hj, hactive, hnow]
      exact hs.lastActive_le j

/-- The new client goes to a closed entry. -/
theorem accept_free {o : Option (Fin n)}
    (hfind : findEntry (UInt32.ofNat s.sockets.now) s.connection (List.finRange n) none
      = (some i, o)) :
    modbusServerAcceptConnection api (some h) s
      = install i h (UInt32.ofNat s.sockets.now) (receiving api h s) := by
  have hfind' : findEntry (UInt32.ofNat s.sockets.now) (receiving api h s).connection
      (List.finRange n) none = (some i, o) := hfind
  simp only [receiving] at hfind' ⊢
  simp only [modbusServerAcceptConnection, hfind']

/-- The new client takes the place of another. -/
theorem accept_evict
    (hfind : findEntry (UInt32.ofNat s.sockets.now) s.connection (List.finRange n) none
      = (none, some i)) :
    modbusServerAcceptConnection api (some h) s
      = install i h (UInt32.ofNat s.sockets.now)
        (modbusServerCloseConnection api i (receiving api h s)) := by
  have hfind' : findEntry (UInt32.ofNat s.sockets.now) (receiving api h s).connection
      (List.finRange n) none = (none, some i) := hfind
  simp only [receiving] at hfind' ⊢
  simp only [modbusServerAcceptConnection, hfind']

/-- Accepting a client keeps the invariant. -/
theorem Inv.accept (hs : Inv s) (hfresh : h ∉ held s.sockets.uses)
    (hidle : ∀ i, (s.connection i).state ≠ .closed → s.sockets.now - s.lastActive i < 2 ^ 31)
    (hn : 1 ≤ n) :
    Inv (modbusServerAcceptConnection api (some h) s) ∧
      ∃ i, AcceptedInto s (modbusServerAcceptConnection api (some h) s) h i := by
  have hacquired : Disciplined ∅ (s.sockets.uses ++ [.acquire h]) :=
    disciplined_concat hs.disciplined hfresh
  rcases findEntry_spec (UInt32.ofNat s.sockets.now) s.connection (List.finRange n) [] none nofun
    (.inl ⟨rfl, rfl⟩) with ⟨i, o, hfind, hclosed⟩ | ⟨oldest, hfind, hopen, holdest⟩
  · -- a closed entry
    have hresult := accept_free api (h := h) hfind
    have hempty : s.slots i = none := (hs.closed_iff i).1 hclosed
    have hslots : (receiving api h s).slots = Function.update s.slots i none := by
      rw [← hempty, Function.update_eq_self]
      rfl
    rw [hresult]
    refine ⟨hs.install hslots (fun _ _ => rfl) ?_ hacquired rfl rfl, i, ?_, fun j hj => ?_,
      fun hne => absurd hclosed hne⟩
    · change Exact _ (held (s.sockets.uses ++ [.acquire h]))
      rw [held_concat]
      exact hs.exact.acquire hempty hfresh
    · exact Function.update_self ..
    · exact Function.update_of_ne hj ..
  · -- no entry is closed: the oldest one makes room
    rw [List.nil_append] at hopen holdest
    rcases holdest with ⟨hnil, -⟩ | ⟨i, rfl, hi⟩
    · have hlength := congrArg List.length hnil
      rw [List.length_finRange, List.length_nil] at hlength
      omega
    have hresult := accept_evict api (h := h) hfind
    have hopen' : ∀ j, (s.connection j).state ≠ .closed := fun j => hopen j (List.mem_finRange j)
    obtain ⟨g, hg⟩ : ∃ g, s.slots i = some g :=
      Option.ne_none_iff_exists'.1 fun hnone => hopen' i ((hs.closed_iff i).2 hnone)
    have hclosed := modbusServerCloseConnection_closed api ((receiving api h s).entry i)
    have hslots : (modbusServerCloseConnection api i (receiving api h s)).slots
        = Function.update s.slots i none := by
      rw [modbusServerCloseConnection, slots_put]
      exact congrArg _ hclosed.socket
    have huses : (modbusServerCloseConnection api i (receiving api h s)).sockets.uses
        = s.sockets.uses ++ [.acquire h] ++ [.release g] := by
      refine hclosed.uses.trans ?_
      change s.sockets.uses ++ [.acquire h] ++ ((s.slots i).map Use.release).toList = _
      rw [hg]
      rfl
    have hheld : g ∈ held s.sockets.uses := (hs.exact.mem_iff g).2 ⟨i, hg⟩
    have hne : h ≠ g := fun heq => hfresh (heq ▸ hheld)
    have hothers : ∀ j, j ≠ i →
        (modbusServerCloseConnection api i (receiving api h s)).connection j = s.connection j :=
      fun j hj => put_of_ne hj
    have hnow : (modbusServerCloseConnection api i (receiving api h s)).sockets.now
        = s.sockets.now := hclosed.now
    have hage : ∀ j, (UInt32.ofNat s.sockets.now - (s.connection j).timestamp).toNat
        = s.sockets.now - s.lastActive j := by
      intro j
      rw [hs.timestamp j (hopen' j)]
      exact age_toNat (hs.lastActive_le j) (hidle j (hopen' j))
    rw [hresult]
    refine ⟨hs.install hslots hothers ?_ ?_ hnow rfl, i, ?_, fun j hj => ?_, fun _ j =>
      ⟨hopen' j, ?_⟩⟩
    · rw [huses, held_concat, held_concat]
      have hswap : Use.apply (Use.apply (held s.sockets.uses) (.acquire h)) (.release g)
          = insert h (held s.sockets.uses \ {g}) :=
        Set.insert_sdiff_singleton_comm hne _ |>.symm
      rw [hswap, ← Function.update_idem (a := i) none (some h) s.slots]
      exact (hs.exact.release hg).acquire (Function.update_self ..) fun hin => hfresh hin.1
    · rw [huses]
      refine disciplined_concat hacquired ?_
      rw [held_concat]
      exact Or.inr hheld
    · exact Function.update_self ..
    · exact (Function.update_of_ne hj ..).trans (hothers j hj)
    · rw [← hage j, ← hage i]
      exact hi.2 j (List.mem_finRange j)

end AcceptStep

/-! ## Runs -/

section Runs

variable {settings : ModbusServerSettings σ} {api : Option ℕ → SocketApi ν}

theorem Inv.atTime (hs : Inv s) {e : Event ν n} (he : s.sockets.now ≤ e.time) :
    Inv (s.atTime e) :=
  ⟨hs.exact, hs.disciplined, hs.closed_iff, hs.timestamp, fun i => (hs.lastActive_le i).trans he⟩

/-- What one operation preserves. -/
theorem Inv.step (hn : 1 ≤ n) (hs : Inv s) {e : Event ν n} (he : Permitted s e) :
    Inv (s.step settings api e) := by
  have hs' := hs.atTime he.forward
  unfold ServerTable.step
  split
  · next socket hop =>
    cases socket with
    | none => exact hs'
    | some h => exact (hs'.accept api (he.fresh h hop) he.idle hn).1
  · exact hs'.process settings api _
  · exact hs'.tick api
  · exact hs'.close api _

theorem inv_initial (world : ServerWorld σ) (net : ν) (now : ℕ) :
    Inv (initial world net now : ServerTable σ ν n) :=
  ⟨Exact.empty, trivial, fun _ => iff_of_true rfl rfl, fun _ hopen => absurd rfl hopen,
    fun _ => le_refl _⟩

/-- What holds of the table in every state of a run. -/
structure TableOk (settings : ModbusServerSettings σ) (api : Option ℕ → SocketApi ν)
    (s : ServerTable σ ν n) : Prop where
  closed_iff : ∀ i, (s.connection i).state = .closed ↔ (s.connection i).socket = none
  distinct : ∀ i j h, (s.connection i).socket = some h → (s.connection j).socket = some h → i = j
  inUse_iff : ∀ h, (∃ i, (s.connection i).socket = some h) ↔ h ∈ held s.sockets.uses
  closedOnce : Disciplined ∅ s.sockets.uses
  counts : ∀ h, ((∃ i, (s.connection i).socket = some h) →
      s.sockets.uses.count (.acquire h) = s.sockets.uses.count (.release h) + 1) ∧
    ((¬ ∃ i, (s.connection i).socket = some h) →
      s.sockets.uses.count (.acquire h) = s.sockets.uses.count (.release h))
  accepts : ∀ (e : Event ν n) (h : ℕ), Permitted s e → e.operation = .accept (some h) →
    ∃ i, AcceptedInto (s.atTime e) (s.step settings api e) h i

theorem Inv.ok (hn : 1 ≤ n) (hs : Inv s) : TableOk settings api s where
  closed_iff := hs.closed_iff
  distinct _ _ _ := hs.exact.distinct
  inUse_iff h := (hs.exact.mem_iff h).symm
  closedOnce := hs.disciplined
  counts h := by
    obtain ⟨hheld, hfree⟩ := count_acquire hs.disciplined h
    exact ⟨fun hin => hheld ((hs.exact.mem_iff h).2 hin),
      fun hout => hfree fun hin => hout ((hs.exact.mem_iff h).1 hin)⟩
  accepts e h he hop := by
    have hstep : s.step settings api e
        = modbusServerAcceptConnection api (some h) (s.atTime e) := by
      simp only [ServerTable.step, hop]
    rw [hstep]
    exact ((hs.atTime he.forward).accept api (he.fresh h hop) he.idle hn).2

/-- **The connection table over a run.** Whatever operations come in which order, the entries hold
exactly the accepted sockets that are not closed, no socket is closed twice, and each new client
finds an entry: a closed one, or the one that has been idle for longest if all are in use. -/
theorem connection_table (hn : 1 ≤ n) (world : ServerWorld σ) (net : ν) (now : ℕ)
    {es : List (Event ν n)}
    (hes : Along Permitted (step settings api) (initial world net now) es) :
    TableOk settings api (run (step settings api) (initial world net now) es) :=
  (run_invariant (I := Inv) (fun _ _ hs he => hs.step hn he) (inv_initial world net now) hes).ok hn

end Runs

/-- Sockets on which nothing ever arrives. -/
def silentApi : Option ℕ → SocketApi Unit := fun _ => {
  socketReceive := fun _ v => (.timeout, [], v)
  socketSend := fun _ v => (.timeout, 0, v)
  socketSetTimeout := fun _ v => v
  socketClose := fun v => v
  osGetSystemTime := fun _ => 0 }

/-- A table of one entry: the second client, at the wrap of the clock, takes the place of the first. -/
theorem connection_table_wrap :
    TableOk (tableSettings 17) silentApi
      (run (step (tableSettings 17) silentApi)
        (initial ⟨⟨fun _ => false, fun _ => 0⟩, [], []⟩ () 0 : ServerTable Table Unit 1)
        [⟨4294967290, (), .accept (some 5)⟩, ⟨4294967300, (), .accept (some 6)⟩]) := by
  refine connection_table (by decide) _ () 0
    ⟨⟨by decide, fun i hopen => absurd rfl hopen, fun h _ => Set.notMem_empty h⟩,
      ⟨by decide, fun i _ => ?_, fun h hop => ?_⟩, trivial⟩
  · have hi : i = 0 := Subsingleton.elim _ _
    subst hi
    decide
  · obtain rfl : h = 6 := by
      cases hop
      rfl
    rintro (heq | hmem)
    · exact absurd heq (by decide)
    · exact hmem

end ServerTable

end Modbus
