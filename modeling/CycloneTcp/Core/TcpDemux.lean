import CycloneTcp.Core.TcpSlot

set_option autoImplicit false

/-! # TCP demultiplexing

How `tcpProcessSegment` finds the socket for a segment whose header and checksum are right and whose
destination is no broadcast or multicast address. The table is scanned once, for an entry that matches
on everything; the first listening entry is remembered on the way. The state of the entry is not looked
at, so an entry that is not in use any more can stop the scan. -/

namespace Tcp

/-! ## The scan -/

/-- A TCP socket for the destination of the segment: the interface, the port and the address. -/
def matchesDest (segment : Segment) (socket : Socket) : Bool :=
  socket.type = .stream && (socket.interface = none || socket.interface = some segment.interface) &&
    socket.localPort = segment.destPort &&
    (socket.localIpAddr = .unspecified || socket.localIpAddr = segment.destAddr)

/-- Source IP address filtering. -/
def matchesSource (segment : Segment) (socket : Socket) : Bool :=
  socket.remoteIpAddr = .unspecified || socket.remoteIpAddr = segment.srcAddr

/-- Look through opened sockets, from the entry `i` on. `passiveSocket` is the first matching socket in
the LISTEN state, which is used if no other is found. -/
def findSocket (segment : Segment) : List Socket → ℕ → Option ℕ → Option ℕ
  | [], _, passiveSocket => passiveSocket
  | socket :: sockets, i, passiveSocket =>
      if matchesDest segment socket = false ∨ matchesSource segment socket = false then
        findSocket segment sockets (i + 1) passiveSocket
      else
        let passiveSocket :=
          if socket.state = .listen ∧ passiveSocket = none then some i else passiveSocket
        if socket.remotePort ≠ segment.srcPort then
          findSocket segment sockets (i + 1) passiveSocket
        else some i

/-- The reset in response to an invalid segment. -/
def tcpSendResetSegment (segment : Segment) : OutSegment where
  header :=
    if segment.flags.ack then
      { flags := { rst := true }, seqNum := segment.ackNum, ackNum := 0, window := 0 }
    else
      { flags := { rst := true, ack := true }, seqNum := 0
        ackNum := segment.seqNum + UInt32.ofNat segment.length +
          (if segment.flags.syn then 1 else 0) + (if segment.flags.fin then 1 else 0)
        window := 0 }
  data := []

/-- What becomes of a segment: the table, the entry whose state machine has processed it, and the reset
that is sent without a socket. -/
structure Processed where
  table : List Socket
  socket : Option ℕ
  reset : Option OutSegment

/-- The reset that a segment provokes in the CLOSED state, or where no socket is found. -/
def refuse (segment : Segment) : Option OutSegment :=
  if segment.flags.rst then none else some (tcpSendResetSegment segment)

/-- The reset that the state machine sends without the socket. -/
def resetInState (state : TcpState) (segment : Segment) : Option OutSegment :=
  match state with
  | .closed => refuse segment
  | .listen => if segment.flags.ack then refuse segment else none
  | _ => none

/-- Incoming segment processing, from the socket table on. -/
def processSegment (table : List Socket) (segment : Segment) (memory : Bool) : Processed :=
  match findSocket segment table 0 none with
  | none => { table := table, socket := none, reset := refuse segment }
  | some i =>
      { table := table.modify i (fun socket => tcpProcessSegment socket segment memory)
        socket := some i
        reset := table[i]?.bind fun socket => resetInState socket.state segment }

/-! ## What the scan finds -/

/-- The entry matches on everything, its state aside. -/
def matchesAll (segment : Segment) (socket : Socket) : Bool :=
  matchesDest segment socket && matchesSource segment socket &&
    socket.remotePort = segment.srcPort

/-- The listening entries that the scan considers. -/
def passiveMatch (segment : Segment) (socket : Socket) : Bool :=
  matchesDest segment socket && matchesSource segment socket && socket.state = .listen

theorem findSocket_from (segment : Segment) (sockets : List Socket) (i : ℕ) (passive : Option ℕ) :
    findSocket segment sockets i passive =
      ((sockets.findIdx? (matchesAll segment)).map (· + i)).or
        (passive.or ((sockets.findIdx? (passiveMatch segment)).map (· + i))) := by
  induction sockets generalizing i passive with
  | nil => simp [findSocket]
  | cons socket sockets ih =>
      have hshift : ∀ o : Option ℕ, (o.map (· + 1)).map (· + i) = o.map (· + (i + 1)) := by
        intro o
        cases o with
        | none => rfl
        | some n => exact congrArg some (Nat.add_right_comm n 1 i)
      rw [findSocket, List.findIdx?_cons, List.findIdx?_cons]
      by_cases hmatch : matchesDest segment socket = false ∨ matchesSource segment socket = false
      · have hall : matchesAll segment socket = false := by
          rcases hmatch with h | h <;> simp [matchesAll, h]
        have hpassive : passiveMatch segment socket = false := by
          rcases hmatch with h | h <;> simp [passiveMatch, h]
        rw [if_pos hmatch, ih, hall, hpassive]
        simp only [Bool.false_eq_true, if_false, hshift]
      · obtain ⟨hdest, hsource⟩ := not_or.1 hmatch
        rw [Bool.not_eq_false] at hdest hsource
        rw [if_neg hmatch]
        simp only
        by_cases hport : socket.remotePort = segment.srcPort
        · have hall : matchesAll segment socket = true := by
            simp [matchesAll, hdest, hsource, hport]
          rw [if_neg (not_not.2 hport), hall]
          simp
        · have hall : matchesAll segment socket = false := by
            simp [matchesAll, hport]
          rw [if_pos hport, ih, hall]
          simp only [Bool.false_eq_true, if_false, hshift]
          by_cases hlisten : socket.state = .listen
          · have hpassive : passiveMatch segment socket = true := by
              simp [passiveMatch, hdest, hsource, hlisten]
            rw [hpassive]
            cases passive with
            | none => simp [hlisten]
            | some p => simp
          · have hpassive : passiveMatch segment socket = false := by
              simp [passiveMatch, hlisten]
            simp [hpassive, hlisten, hshift]

/-- The first entry that matches on everything, else the first listening one. -/
theorem findSocket_eq (segment : Segment) (table : List Socket) :
    findSocket segment table 0 none =
      (table.findIdx? (matchesAll segment)).or (table.findIdx? (passiveMatch segment)) := by
  rw [findSocket_from]
  simp

/-! ## Where a segment belongs -/

/-- An entry for the connection that the segment belongs to. -/
def connectedMatch (segment : Segment) (socket : Socket) : Bool :=
  matchesAll segment socket && socket.state ≠ .closed && socket.state ≠ .listen

/-- An entry that listens on the destination of the segment. -/
def listensFor (segment : Segment) (socket : Socket) : Bool :=
  matchesDest segment socket && socket.state = .listen

/-- No entry is for the connection of the segment. -/
def Unconnected (table : List Socket) (segment : Segment) : Prop :=
  ∀ socket ∈ table, connectedMatch segment socket = false

instance (table : List Socket) (segment : Segment) : Decidable (Unconnected table segment) :=
  inferInstanceAs (Decidable (∀ socket ∈ table, _))

/-- The segment is processed by a socket of its connection; if there is none, by the first socket that
listens on its destination; and it is refused only if there is none either. -/
structure Demultiplexed (table : List Socket) (segment : Segment) (memory : Bool) : Prop where
  connected : ¬ Unconnected table segment → ∃ i socket,
    table[i]? = some socket ∧ connectedMatch segment socket = true ∧
      (processSegment table segment memory).socket = some i ∧
      (processSegment table segment memory).table
        = table.modify i (fun socket => tcpProcessSegment socket segment memory)
  listening : Unconnected table segment → ∀ i, table.findIdx? (listensFor segment) = some i →
    (processSegment table segment memory).socket = some i ∧
      (processSegment table segment memory).table
        = table.modify i (fun socket => tcpProcessSegment socket segment memory)
  refused : Unconnected table segment → table.findIdx? (listensFor segment) = none →
    (processSegment table segment memory).table = table ∧
      (processSegment table segment memory).reset = refuse segment

/-- The first entry that matches on everything is one of the connection; or there is none of the
connection, and it is the first listening one, or nobody listens. If no entry matches on everything, the
first listening one records no other remote address. -/
structure Unobstructed (table : List Socket) (segment : Segment) : Prop where
  first : ∀ i socket, table.findIdx? (matchesAll segment) = some i → table[i]? = some socket →
    connectedMatch segment socket = true ∨
      (Unconnected table segment ∧ (table.findIdx? (listensFor segment) = none ∨
        table.findIdx? (listensFor segment) = some i))
  source : table.findIdx? (matchesAll segment) = none →
    table.findIdx? (listensFor segment) = table.findIdx? (passiveMatch segment)

section Table

variable {table : List Socket} {segment : Segment} {memory : Bool} {i : ℕ} {socket : Socket}

theorem matchesAll_of_connected (h : connectedMatch segment socket = true) :
    matchesAll segment socket = true := by
  simp only [connectedMatch, Bool.and_eq_true] at h
  exact h.1.1

theorem listensFor_of_passive (h : passiveMatch segment socket = true) :
    listensFor segment socket = true := by
  simp only [passiveMatch, Bool.and_eq_true] at h
  simp only [listensFor, Bool.and_eq_true]
  exact ⟨h.1.1, h.2⟩

theorem listensFor_of_all (h : matchesAll segment socket = true) (hlisten : socket.state = .listen) :
    listensFor segment socket = true := by
  simp only [matchesAll, Bool.and_eq_true] at h
  simp [listensFor, h.1.1, hlisten]

theorem processSegment_socket (table : List Socket) (segment : Segment) (memory : Bool) :
    (processSegment table segment memory).socket =
      (table.findIdx? (matchesAll segment)).or (table.findIdx? (passiveMatch segment)) := by
  rw [← findSocket_eq, processSegment]
  split
  case h_1 h => rw [h]
  case h_2 h => rw [h]

theorem processSegment_table (h : (processSegment table segment memory).socket = some i) :
    (processSegment table segment memory).table
      = table.modify i (fun socket => tcpProcessSegment socket segment memory) := by
  have hfind := processSegment_socket table segment memory
  rw [← findSocket_eq] at hfind
  rw [processSegment, hfind.symm.trans h]

/-- What stands first satisfies the test. -/
theorem getElem_findIdx {test : Socket → Bool} (h : table.findIdx? test = some i) :
    ∃ socket, table[i]? = some socket ∧ test socket = true := by
  obtain ⟨hlt, htest, -⟩ := List.findIdx?_eq_some_iff_getElem.1 h
  exact ⟨table[i], List.getElem?_eq_getElem hlt, htest⟩

theorem findIdx_none {test : Socket → Bool} (h : table.findIdx? test = none) :
    ∀ socket ∈ table, test socket = false := List.findIdx?_eq_none_iff.1 h

/-- A segment that no socket is for is refused, by a closed socket too. -/
theorem processSegment_refused (hconn : Unconnected table segment)
    (hlisten : table.findIdx? (listensFor segment) = none) :
    (processSegment table segment memory).table = table ∧
      (processSegment table segment memory).reset = refuse segment := by
  have hnobody := findIdx_none hlisten
  have hpassive : table.findIdx? (passiveMatch segment) = none := by
    rw [List.findIdx?_eq_none_iff]
    intro socket hmem
    by_contra h
    rw [Bool.not_eq_false] at h
    have := hnobody socket hmem
    rw [listensFor_of_passive h] at this
    cases this
  have hfind := findSocket_eq segment table
  rw [hpassive, Option.or_none] at hfind
  rw [processSegment, hfind]
  cases hall : table.findIdx? (matchesAll segment) with
  | none => exact ⟨rfl, rfl⟩
  | some i =>
      obtain ⟨socket, hget, hmatch⟩ := getElem_findIdx hall
      have hmem := List.mem_of_getElem? hget
      have hclosed : socket.state = .closed := by
        by_contra hne
        have hno := hconn socket hmem
        by_cases hl : socket.state = .listen
        · have := hnobody socket hmem
          rw [listensFor_of_all hmatch hl] at this
          cases this
        · simp [connectedMatch, hmatch, hne, hl] at hno
      have hacks : acksFin socket segment = false := by simp [acksFin, hclosed]
      have hsame : tcpProcessSegment socket segment memory = socket := by
        simp only [tcpProcessSegment, hacks, Bool.or_false, hclosed]
        rw [← hclosed]
      constructor
      · apply List.ext_getElem?
        intro j
        simp only [List.getElem?_modify]
        by_cases hij : i = j
        · subst hij
          simp [hget, hsame]
        · simp [hij]
      · simp [hget, hclosed, resetInState]

end Table

/-- **A segment reaches the socket it belongs to** exactly if the entry at which the scan stops is one of
its connection, or neither its connection nor a listening socket loses by it. -/
theorem demultiplexed_iff (table : List Socket) (segment : Segment) (memory : Bool) :
    Demultiplexed table segment memory ↔ Unobstructed table segment := by
  have hsocket := processSegment_socket table segment memory
  constructor
  · rintro ⟨hconnected, hlistening, -⟩
    constructor
    · intro i socket hall hget
      rw [hall, Option.some_or] at hsocket
      by_cases hmatch : connectedMatch segment socket = true
      · exact .inl hmatch
      refine .inr ?_
      have hconn : Unconnected table segment := by
        by_contra h
        obtain ⟨j, socket', hget', hmatch', hj, -⟩ := hconnected h
        rw [hsocket, Option.some.injEq] at hj
        subst hj
        rw [hget, Option.some.injEq] at hget'
        subst hget'
        exact hmatch hmatch'
      refine ⟨hconn, ?_⟩
      cases hlisten : table.findIdx? (listensFor segment) with
      | none => exact .inl rfl
      | some j =>
          obtain ⟨hj, -⟩ := hlistening hconn j hlisten
          rw [hsocket] at hj
          exact .inr hj.symm
    · intro hall
      rw [hall, Option.none_or] at hsocket
      have hconn : Unconnected table segment := by
        intro socket hmem
        by_contra h
        rw [Bool.not_eq_false] at h
        have := findIdx_none hall socket hmem
        rw [matchesAll_of_connected h] at this
        cases this
      cases hlisten : table.findIdx? (listensFor segment) with
      | some j => rw [← hsocket, (hlistening hconn j hlisten).1]
      | none =>
          symm
          rw [List.findIdx?_eq_none_iff]
          intro socket hmem
          by_contra h
          rw [Bool.not_eq_false] at h
          have := findIdx_none hlisten socket hmem
          rw [listensFor_of_passive h] at this
          cases this
  · rintro ⟨hfirst, hsource⟩
    refine ⟨?_, ?_, processSegment_refused⟩
    · intro hconn
      cases hall : table.findIdx? (matchesAll segment) with
      | none =>
          refine absurd ?_ hconn
          intro socket hmem
          by_contra h
          rw [Bool.not_eq_false] at h
          have := findIdx_none hall socket hmem
          rw [matchesAll_of_connected h] at this
          cases this
      | some i =>
          rw [hall, Option.some_or] at hsocket
          obtain ⟨socket, hget, -⟩ := getElem_findIdx hall
          rcases hfirst i socket hall hget with hmatch | ⟨hno, -⟩
          · exact ⟨i, socket, hget, hmatch, hsocket, processSegment_table hsocket⟩
          · exact absurd hno hconn
    · intro hconn i hlisten
      have hi : (processSegment table segment memory).socket = some i := by
        cases hall : table.findIdx? (matchesAll segment) with
        | none =>
            rw [hsocket, hall, Option.none_or, ← hsource hall, hlisten]
        | some j =>
            obtain ⟨socket, hget, -⟩ := getElem_findIdx hall
            rw [hsocket, hall, Option.some_or]
            rcases hfirst j socket hall hget with hmatch | ⟨-, hnone | hj⟩
            · have := hconn socket (List.mem_of_getElem? hget)
              rw [hmatch] at this
              cases this
            · rw [hnone] at hlisten
              cases hlisten
            · rw [← hj, hlisten]
      exact ⟨hi, processSegment_table hi⟩

/-- A socket whose connection has been reset, and which the user has not closed yet. -/
def deadSocket : Socket :=
  { Socket.cleared { outcomes := fun _ => {}, sent := [] }
      { connections := 1, changes := [], written := [], delivered := []
        finAcked := false, finReceived := false } with
    type := .stream, localPort := 502, remoteIpAddr := .ipv4 9, remotePort := 4000 }

/-- A socket that listens on the same port. -/
def listener : Socket :=
  { deadSocket with state := .listen, remoteIpAddr := .unspecified, remotePort := 0, synQueueSize := 4 }

/-- A connection request from the peer of the connection that has been reset. -/
def newRequest : Segment :=
  { Segment.ofData { syn := true } 100 0 1000 [] noData_lt with
    srcAddr := .ipv4 9, destAddr := .ipv4 1, srcPort := 4000, destPort := 502 }

/-- The dead socket intercepts the request that the listening one behind it should queue. -/
theorem deadSocket_not_demultiplexed :
    (¬ ∀ table segment memory, Demultiplexed table segment memory) ∧
      (processSegment [deadSocket, listener] newRequest true).socket = some 0 ∧
      (processSegment [listener, deadSocket] newRequest true).socket = some 1 := by
  refine ⟨fun h => ?_, by decide, by decide⟩
  have hfound := (h [deadSocket, listener] newRequest true).listening (by decide) 1 (by decide)
  exact absurd hfound.1 (by decide)

end Tcp
