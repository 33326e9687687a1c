import CycloneTcp.Lib.Runs
import CycloneTcp.Modbus.ServerRequest

/-! # Modbus/TCP server: the connection event handler

`modbusServerProcessConnectionEvents` is called whenever the socket of a connection is ready. It is a
resumable state machine: it receives the seven header bytes, then the PDU the header announces, has
the request processed and sends the response, and each of these may take any number of calls. The
handler's three branches that talk to the socket are named here; each returns a status, and the
handler closes the connection on every status but success and timeout. -/

set_option autoImplicit false

namespace Modbus

/-- One connection of the server with the application and what lies behind the socket. -/
structure Server (σ ν : Type*) where
  connection : ModbusClientConnection
  world : ServerWorld σ
  net : ν

variable {σ ν : Type*} (settings : ModbusServerSettings σ) (api : SocketApi ν)

/-- `modbusServerCloseConnection`. -/
def modbusServerCloseConnection (s : Server σ ν) : Server σ ν :=
  { s with
    connection := { s.connection with socket := none, state := .closed }
    net := match s.connection.socket with
      | some _ => api.socketClose s.net
      | none => s.net }

/-- The unit identifiers the server answers to. -/
def acceptsUnit (unitId : UInt8) : Prop :=
  settings.unitId = 0 ∨ settings.unitId = 255 ∨ settings.unitId = unitId

instance (unitId : UInt8) : Decidable (acceptsUnit settings unitId) :=
  inferInstanceAs (Decidable (_ ∨ _))

/-- The connection after `socketReceive` has stored `bytes` at the current position of the request
buffer. -/
def ModbusClientConnection.store (connection : ModbusClientConnection) (bytes : List UInt8) :
    ModbusClientConnection :=
  { connection with requestAdu := connection.requestAdu.write connection.requestAduPos bytes }

/-- `connection->requestAduPos += n`. -/
def ModbusClientConnection.advance (connection : ModbusClientConnection) (n : ℕ) :
    ModbusClientConnection :=
  { connection with requestAduPos := connection.requestAduPos + n }

/-- Receive more of the MBAP header, and parse it when it is complete. -/
def receiveHeader (s : Server σ ν) : ErrorCode × Server σ ν :=
  let r := api.socketReceive (headerSize - s.connection.requestAduPos) s.net
  let connection := s.connection.store r.2.1
  if r.1 = .noError then
    let connection := connection.advance r.2.1.length
    if headerSize ≤ connection.requestAduPos then
      let p := modbusServerParseMbapHeader connection
      (p.1, { s with connection := p.2, net := r.2.2 })
    else
      (.noError, { s with connection := connection, net := r.2.2 })
  else
    (r.1, { s with connection := connection, net := r.2.2 })

/-- Receive more of the PDU, and process the request when it is complete. -/
def receiveBody (s : Server σ ν) : ErrorCode × Server σ ν :=
  let r := api.socketReceive (s.connection.requestAduLen - s.connection.requestAduPos) s.net
  let connection := s.connection.store r.2.1
  if r.1 = .noError then
    let connection := connection.advance r.2.1.length
    if connection.requestAduLen ≤ connection.requestAduPos ∧
        acceptsUnit settings connection.requestUnitId then
      let p := modbusServerProcessRequest settings connection s.world
      (p.1, { connection := p.2.1, world := p.2.2, net := r.2.2 })
    else
      (.noError, { s with connection := connection, net := r.2.2 })
  else
    (r.1, { s with connection := connection, net := r.2.2 })

/-- Send more of the response, and wait for the next request when it is sent. -/
def sendResponse (s : Server σ ν) : ErrorCode × Server σ ν :=
  let c := s.connection
  let r := api.socketSend
    (c.responseAdu.read c.responseAduPos (c.responseAduLen - c.responseAduPos)) s.net
  if r.1 = .noError then
    let c := { c with responseAduPos := c.responseAduPos + r.2.1 }
    if c.responseAduLen ≤ c.responseAduPos then
      (.noError, { s with
        connection := { c with requestAduLen := 0, requestAduPos := 0, state := .receiving }
        net := r.2.2 })
    else
      (.noError, { s with connection := c, net := r.2.2 })
  else
    (r.1, { s with net := r.2.2 })

/-- The body of the handler, up to the final check of the status. -/
def processEvents (s : Server σ ν) : ErrorCode × Server σ ν :=
  match s.connection.state with
  | .receiving =>
      if s.connection.requestAduPos < headerSize then
        receiveHeader api s
      else if s.connection.requestAduPos < s.connection.requestAduLen then
        receiveBody settings api s
      else
        (.wrongState, s)
  | .sending =>
      if s.connection.responseAduPos < s.connection.responseAduLen then
        sendResponse api s
      else
        (.wrongState, s)
  | .closed => (.wrongState, s)

/-- Update the time stamp of the connection. -/
def Server.stamp (s : Server σ ν) : Server σ ν :=
  { s with connection := { s.connection with timestamp := api.osGetSystemTime s.net } }

/-- `modbusServerProcessConnectionEvents`. -/
def modbusServerProcessConnectionEvents (s : Server σ ν) : Server σ ν :=
  let r := processEvents settings api (s.stamp api)
  if r.1 ≠ .noError ∧ r.1 ≠ .timeout then
    modbusServerCloseConnection api r.2
  else
    r.2

/-- `MODBUS_SERVER_TIMEOUT`. -/
abbrev serverTimeout : UInt32 := 60000

/-- `modbusServerTick`, for one entry of the connection table. -/
def modbusServerTick (s : Server σ ν) : Server σ ν :=
  if s.connection.state ≠ .closed ∧
      timeCompare (api.osGetSystemTime s.net) (s.connection.timestamp + serverTimeout) ≥ 0 then
    modbusServerCloseConnection api s
  else
    s

/-- What `modbusServerTask` does with one connection. -/
inductive ServerEvent where
  /-- `socketPoll` reports the socket as ready. -/
  | ready
  /-- The periodic operations run. -/
  | tick

/-- One event of `modbusServerTask`: the handler is called for active connections only. -/
def serverStep (s : Server σ ν) : ServerEvent → Server σ ν
  | .ready =>
      if s.connection.state = .closed then s
      else modbusServerProcessConnectionEvents settings api s
  | .tick => modbusServerTick api s

/-- The entry `modbusServerAcceptConnection` fills in for a new client. -/
def acceptedConnection (socket : ℕ) (time : UInt32) : ModbusClientConnection where
  state := .receiving
  socket := some socket
  timestamp := time
  requestAdu := fun _ => 0
  requestAduLen := 0
  requestAduPos := 0
  requestUnitId := 0
  responseAdu := fun _ => 0
  responseAduLen := 0
  responseAduPos := 0

/-! ## Headers -/

/-- What a successful `modbusServerParseMbapHeader` has found and what it records. -/
theorem modbusServerParseMbapHeader_ok {connection : ModbusClientConnection}
    (h : (modbusServerParseMbapHeader connection).1 = .noError) :
    headerSize ≤ connection.requestAduPos ∧
      1 ≤ (connection.requestAdu.getU16 4).toNat ∧
      (connection.requestAdu.getU16 4).toNat ≤ maxPduSize + 1 ∧
      (modbusServerParseMbapHeader connection).2 = { connection with
        requestUnitId := connection.requestAdu 6
        requestAduLen := headerSize + ((connection.requestAdu.getU16 4).toNat - 1) } := by
  unfold modbusServerParseMbapHeader at h ⊢
  by_cases hpos : connection.requestAduPos < headerSize
  · simp [hpos] at h
  · by_cases hlen : (connection.requestAdu.getU16 4).toNat < 1
    · simp [hpos, hlen] at h
    · by_cases hproto : connection.requestAdu.getU16 2 ≠ protocolId
      · simp [hpos, hlen, hproto] at h
      · by_cases hmax : (connection.requestAdu.getU16 4).toNat - 1 > maxPduSize
        · simp [hpos, hlen, hproto, hmax] at h
        · simp only [hpos, hlen, hproto, hmax, if_false, and_true]
          omega

theorem modbusServerParseMbapHeader_ne_timeout (connection : ModbusClientConnection) :
    (modbusServerParseMbapHeader connection).1 ≠ .timeout := by
  unfold modbusServerParseMbapHeader
  simp only
  split
  · nofun
  split
  · nofun
  split
  · nofun
  split <;> nofun

end Modbus
