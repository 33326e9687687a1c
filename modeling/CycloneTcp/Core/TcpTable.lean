import CycloneTcp.Core.TcpDemux
import CycloneTcp.Core.TcpEnds
import CycloneTcp.Lib.Handles

set_option autoImplicit false

/-! # The socket table

The sockets of all tasks. `socketOpen` takes an unused entry or, if there is none, the connection that
has been in the TIME-WAIT state for the longest time; `tcpAccept` calls it between two sections of its
own. A step of the table is a section of a call of any task, an incoming segment or the timer handler,
and `log` records which handles the calls return and the tasks close. -/

namespace Tcp

open Handles

def SOCKET_EPHEMERAL_PORT_MIN : ℕ := 49152

def SOCKET_EPHEMERAL_PORT_MAX : ℕ := 65535

/-- The socket table, the counter of the ephemeral ports and the calls of `tcpAccept` between their
sections, with the listening socket and the new one. -/
structure Table where
  slots : List Slot
  tcpDynamicPort : ℕ
  accepting : List (ℕ × Option ℕ)
  log : List (Use ℕ)

/-- What the environment contributes to `socketOpen`: a random number, the ephemeral port of a UDP
socket, and for how long the timers of the TIME-WAIT state have been running. -/
structure OpenEnv where
  rand : UInt32
  udpPort : UInt16
  age : ℕ → UInt32

/-- What can happen to the table. -/
inductive TableEvent where
  | open (type : SocketType) (env : OpenEnv)
  /-- `tcpAccept` on the socket `i` opens a socket for the first connection request. -/
  | acceptOpen (i : ℕ) (env : OpenEnv)
  /-- The `k`-th call of `tcpAccept` goes on with the new socket. -/
  | acceptFinish (k : ℕ) (queueItem : TcpSynQueueItem) (memory : Bool) (iss : UInt32)
  | bind (i : ℕ) (localIpAddr : IpAddr) (localPort : UInt16)
  | call (i : ℕ) (event : Event) (isCall : event.IsCall)
  | close (i : ℕ)
  | segment (segment : Segment) (memory : Bool)
  | tick (elapsed : ℕ → Elapsed)

/-! ## Opening and closing -/

/-- Get an ephemeral port number, and the next one to use. -/
def tcpGetDynamicPort (tcpDynamicPort : ℕ) (rand : UInt32) : ℕ × ℕ :=
  let port :=
    if tcpDynamicPort < SOCKET_EPHEMERAL_PORT_MIN ∨ SOCKET_EPHEMERAL_PORT_MAX < tcpDynamicPort then
      SOCKET_EPHEMERAL_PORT_MIN +
        rand.toNat % (SOCKET_EPHEMERAL_PORT_MAX - SOCKET_EPHEMERAL_PORT_MIN + 1)
    else tcpDynamicPort
  (port, if port < SOCKET_EPHEMERAL_PORT_MAX then port + 1 else SOCKET_EPHEMERAL_PORT_MIN)

/-- The oldest connection in the TIME-WAIT state, from the entry `i` on. -/
def oldestConnection (age : ℕ → UInt32) : List Slot → ℕ → Option ℕ → Option ℕ
  | [], _, oldest => oldest
  | slot :: slots, i, oldest =>
      if slot.socket.type = .stream ∧ slot.socket.state = .timeWait then
        let j := oldest.getD i
        oldestConnection age slots (i + 1) (some (if age j < age i then i else j))
      else oldestConnection age slots (i + 1) oldest

/-- The entry is unused. -/
def Slot.free (slot : Slot) : Bool := slot.socket.type = .unused

/-- The entry that `socketOpen` takes. -/
def entryToOpen (slots : List Slot) (age : ℕ → UInt32) : Option ℕ :=
  match slots.findIdx? Slot.free with
  | some i => some i
  | none => oldestConnection age slots 0 none

/-- The socket is replaced. -/
def Slot.setSocket (slot : Slot) (socket : Socket) : Slot := { slot with socket := socket }

/-- Close the connection in the TIME-WAIT state. -/
def killConnection (socket : Socket) : Socket := disposeSocket (tcpChangeState socket .closed)

/-- The entry that is taken, cleared and initialized. -/
def reuseEntry (socket : Socket) (type : SocketType) (port : UInt16) : Socket :=
  Tcp.socketOpen (if socket.type = .unused then socket else killConnection socket) type port

namespace Table

/-- The port of a new socket, and the next ephemeral port; not for an unsupported type. -/
def newPort (table : Table) (env : OpenEnv) : SocketType → Option (UInt16 × ℕ)
  | .stream =>
      let (port, next) := tcpGetDynamicPort table.tcpDynamicPort env.rand
      some (UInt16.ofNat port, next)
  | .dgram => some (env.udpPort, table.tcpDynamicPort)
  | .rawIp | .rawEth => some (0, table.tcpDynamicPort)
  | .unused => none

/-- Create a socket. -/
def socketOpen (table : Table) (type : SocketType) (env : OpenEnv) : Option ℕ × Table :=
  match table.newPort env type with
  | none => (none, table)
  | some (port, next) =>
      let table := { table with tcpDynamicPort := next }
      match entryToOpen table.slots env.age with
      | none => (none, table)
      | some i =>
          let slots := table.slots.modify i fun slot =>
            slot.setSocket (reuseEntry slot.socket type port)
          (some i, { table with slots := slots })

/-- The call returns the handle to a task. -/
def give (table : Table) (i : ℕ) : Table := { table with log := table.log ++ [.acquire i] }

/-- Remove the first request from the SYN queue of the socket `i`. -/
def removeRequest (table : Table) (i : ℕ) : Table :=
  { table with slots := table.slots.modify i (step · .dequeue) }

/-- `tcpAccept`, up to the return of `socketOpen`. -/
def acceptOpen (table : Table) (i : ℕ) (env : OpenEnv) : Table :=
  match table.slots[i]? with
  | none => table
  | some listener =>
      if listener.socket.synQueue = [] then table
      else
        let (newSocket, table) := table.socketOpen .stream env
        { table with accepting := table.accepting ++ [(i, newSocket)] }

/-- `tcpAccept`, from there on. `queueItem` is what the queue item of the request holds then. -/
def acceptFinish (table : Table) (k : ℕ) (queueItem : TcpSynQueueItem) (memory : Bool)
    (iss : UInt32) : Table :=
  match table.accepting[k]? with
  | none => table
  | some (i, none) => { table with accepting := table.accepting.eraseIdx k }.removeRequest i
  | some (i, some j) =>
      match table.slots[i]?, table.slots[j]? with
      | some listener, some newSocket =>
          let (error, socket) :=
            acceptConnection listener.socket newSocket.socket queueItem memory iss
          let slots := table.slots.modify j fun slot => slot.setSocket socket
          let table := { table with slots := slots, accepting := table.accepting.eraseIdx k }
          if error ≠ .noError then table.removeRequest i else (table.give j).removeRequest i
      -- the entries exist
      | _, _ => table

/-- Close an existing socket. -/
def socketClose (socket : Socket) : Socket :=
  match socket.type with
  | .stream => (tcpAbort socket).2
  | _ => { socket with type := .unused }

/-- Associate a local address and a local port with a socket. -/
def socketBind (socket : Socket) (localIpAddr : IpAddr) (localPort : UInt16) : Socket :=
  if socket.type ≠ .stream ∧ socket.type ≠ .dgram then socket
  else { socket with localIpAddr := localIpAddr, localPort := localPort }

/-- One step of the table. -/
def step (table : Table) : TableEvent → Table
  | .open type env =>
      match table.socketOpen type env with
      | (none, table) => table
      | (some i, table) => table.give i
  | .acceptOpen i env => table.acceptOpen i env
  | .acceptFinish k queueItem memory iss => table.acceptFinish k queueItem memory iss
  | .bind i localIpAddr localPort =>
      let slots := table.slots.modify i fun slot =>
        slot.setSocket (socketBind slot.socket localIpAddr localPort)
      { table with slots := slots }
  | .call i event _ => { table with slots := table.slots.modify i (Tcp.step · event) }
  | .close i =>
      let slots := table.slots.modify i fun slot => slot.setSocket (socketClose slot.socket)
      { table with slots := slots, log := table.log ++ [.release i] }
  | .segment segment memory =>
      match findSocket segment (table.slots.map (·.socket)) 0 none with
      | none => table
      | some i =>
          { table with slots := table.slots.modify i (Tcp.step · (.segment segment memory)) }
  | .tick elapsed =>
      { table with slots := table.slots.mapIdx fun i slot => Tcp.step slot (.tick (elapsed i)) }

/-- The cleared table of `n` entries, on a network that answers `outcomes`. -/
def init (n : ℕ) (outcomes : ℕ → ℕ → SendOutcome) : Table where
  slots := (List.range n).map fun i => Slot.init (outcomes i)
  tcpDynamicPort := 0
  accepting := []
  log := []

end Table

end Tcp
