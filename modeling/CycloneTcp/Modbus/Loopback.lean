import CycloneTcp.Modbus.Client
import CycloneTcp.Modbus.ServerHandler
import CycloneTcp.Modbus.TableServer

/-! # A client and a server joined

The client's socket leads straight to a server: what the client has sent is delivered to
`modbusServerParseMbapHeader` and `modbusServerProcessRequest` when the client waits for the
response, and the response is handed back. Each call of the socket transfers as many bytes as the
network likes, but at least one. `exchange` is the one argument all client calls share: a formatted
request that the server answers takes the transaction to its end with the server's response in the
client's buffer. -/

set_option autoImplicit false

namespace Modbus

/-- A server behind the client's socket. `pieces k` bounds, from below by one, how many bytes the
`k`-th transfer moves. -/
structure Loopback (σ : Type*) where
  connection : ModbusClientConnection
  world : ServerWorld σ
  toServer : List UInt8
  toClient : List UInt8
  pieces : ℕ → ℕ
  transfers : ℕ
  clock : ℕ → UInt32

namespace Loopback

variable {σ : Type*} (settings : ModbusServerSettings σ)

/-- Hand the bytes the client has sent to the server, and take its response. -/
def deliver (v : Loopback σ) : Loopback σ :=
  let p := modbusServerParseMbapHeader { v.connection with
    requestAdu := v.connection.requestAdu.write 0 v.toServer
    requestAduPos := headerSize }
  if p.1 = .noError ∧ acceptsUnit settings p.2.requestUnitId then
    let r := modbusServerProcessRequest settings
      { p.2 with requestAduPos := v.toServer.length } v.world
    { v with
      connection := r.2.1
      world := r.2.2
      toServer := []
      toClient := if r.1 = .noError then r.2.1.responseAdu.read 0 r.2.1.responseAduLen else [] }
  else
    { v with connection := p.2, toServer := [] }

/-- The network once what the client has sent is delivered. -/
def settle (v : Loopback σ) : Loopback σ :=
  if v.toClient = [] ∧ v.toServer ≠ [] then v.deliver settings else v

/-- `socketReceive` on the client's side. -/
def receive (size : ℕ) (v : Loopback σ) : ErrorCode × List UInt8 × Loopback σ :=
  let v := v.settle settings
  if v.toClient = [] then
    (.timeout, [], v)
  else
    let n := min size (v.pieces v.transfers + 1)
    (.noError, v.toClient.take n,
      { v with toClient := v.toClient.drop n, transfers := v.transfers + 1 })

/-- `socketSend` on the client's side. -/
def send (data : List UInt8) (v : Loopback σ) : ErrorCode × ℕ × Loopback σ :=
  let n := min data.length (v.pieces v.transfers + 1)
  (.noError, n,
    { v with toServer := v.toServer ++ data.take n, transfers := v.transfers + 1 })

/-- The socket interface of the client. -/
def api : SocketApi (Loopback σ) where
  socketReceive := receive settings
  socketSend := send
  socketSetTimeout _ v := v
  socketClose v := v
  osGetSystemTime v := v.clock v.transfers

theorem settle_of_toServer_nil {v : Loopback σ} (h : v.toServer = []) : v.settle settings = v :=
  if_neg fun hv => hv.2 h

/-- One receive, when something is there. -/
theorem receive_eq {size : ℕ} {v : Loopback σ} (h : (v.settle settings).toClient ≠ []) :
    receive settings size v
      = (.noError,
        (v.settle settings).toClient.take
          (min size ((v.settle settings).pieces (v.settle settings).transfers + 1)),
        { v.settle settings with
          toClient := (v.settle settings).toClient.drop
            (min size ((v.settle settings).pieces (v.settle settings).transfers + 1))
          transfers := (v.settle settings).transfers + 1 }) := by
  rw [receive, if_neg h]

end Loopback

/-! ## Progress of a transaction -/

section Progress

variable {ν β : Type*} (api : SocketApi ν)

/-- `modbusClientTransaction` has been called zero or more times, each time without an error. -/
inductive Progress : Client ν → Client ν → Prop where
  | refl (s : Client ν) : Progress s s
  | step {s s' s'' : Client ν} (hactive : s.context.state = .sending ∨ s.context.state = .receiving)
      (h : modbusClientTransaction api s = (.noError, s')) (rest : Progress s' s'') :
      Progress s s''

/-- A call that is in the state `s` ends with a status and a state for which `Q` holds. -/
def Ends (call : Call β) (s : Calling ν β) (Q : ErrorCode → Calling ν β → Prop) : Prop :=
  ∃ fuel error s', call.loop api fuel s = some (error, s') ∧ Q error s'

variable {api} {call : Call β} {Q : ErrorCode → Calling ν β → Prop}

theorem Progress.trans {s s' s'' : Client ν} (h : Progress api s s') (h' : Progress api s' s'') :
    Progress api s s'' := by
  induction h with
  | refl => exact h'
  | step hactive h _ ih => exact .step hactive h (ih h')

theorem modbusClientTransaction_noError {s s' : Client ν}
    (h : transact api (adjustTimeout api s) = (.noError, s')) :
    modbusClientTransaction api s = (.noError, s') := by
  simp [modbusClientTransaction, h]

/-- The loop goes on. -/
theorem Ends.of_iterate {s s' : Calling ν β} (h : call.iterate api s = ⟨.noError, false, s'⟩)
    (hends : Ends api call s' Q) : Ends api call s Q := by
  obtain ⟨fuel, error, s'', hloop, hQ⟩ := hends
  refine ⟨fuel + 1, error, s'', ?_, hQ⟩
  rw [Call.loop, h]
  simpa using hloop

/-- The loop is left. -/
theorem Ends.of_left {s s' : Calling ν β} {error : ErrorCode}
    (h : call.iterate api s = ⟨error, true, s'⟩) (hQ : Q error s') : Ends api call s Q := by
  refine ⟨1, error, s', ?_, hQ⟩
  rw [Call.loop, h]
  simp

/-- A call in which the transaction makes progress. -/
theorem Ends.of_progress {s s' : Client ν} {value : β} (h : Progress api s s')
    (hends : Ends api call { toClient := s', value := value } Q) :
    Ends api call { toClient := s, value := value } Q := by
  induction h with
  | refl => exact hends
  | step hactive h _ ih =>
      refine .of_iterate ?_ (ih hends)
      rcases hactive with hs | hs <;> simp only [Call.iterate, hs, h]

end Progress

/-! ## The request goes out -/

section Exchange

variable {σ : Type*} (settings : ModbusServerSettings σ) {c : ModbusClientContext} {n : ℕ}

/-- The context when the whole request is sent. -/
def ModbusClientContext.awaiting (context : ModbusClientContext) (n : ℕ) : ModbusClientContext :=
  { context with
    requestAduPos := headerSize + n
    responseAduLen := 0
    responseAduPos := 0
    state := .receiving }

/-- The client has sent the first `k` bytes of its request. -/
structure SentSome (c : ModbusClientContext) (v₀ : Loopback σ) (k : ℕ)
    (s : Client (Loopback σ)) : Prop where
  context_eq : s.context = { c with requestAduPos := k }
  toServer : s.net.toServer = c.requestAdu.read 0 k
  toClient : s.net.toClient = []
  world : s.net.world = v₀.world

/-- One more piece of the request. -/
theorem SentSome.piece (hc : Formatted c n) {v₀ : Loopback σ} {k : ℕ}
    {s : Client (Loopback σ)} (h : SentSome c v₀ k s) (hk : k < headerSize + n) :
    ∃ m s', 0 < m ∧ k + m ≤ headerSize + n ∧
      modbusClientTransaction (Loopback.api settings) s = (.noError, s') ∧
      SentSome c v₀ (k + m) s' := by
  obtain ⟨hcontext, htoServer, htoClient, hworld⟩ := h
  obtain ⟨c', v⟩ := s
  dsimp only at hcontext htoServer htoClient hworld
  subst hcontext
  obtain ⟨m, hm⟩ : ∃ m, m = min (headerSize + n - k) (v.pieces v.transfers + 1) := ⟨_, rfl⟩
  refine ⟨m, ⟨{ c with requestAduPos := k + m }, { v with
    toServer := v.toServer ++ (c.requestAdu.read k (headerSize + n - k)).take m
    transfers := v.transfers + 1 }⟩, by omega, by omega, modbusClientTransaction_noError ?_, ?_⟩
  · simp only [transact, adjustTimeout, Loopback.api, hc.state, sendRequest, hc.requestAduLen,
      if_pos hk, Loopback.send, Memory.length_read, ← hm, if_true]
  · refine ⟨rfl, ?_, htoClient, hworld⟩
    rw [htoServer, Memory.take_read _ _ (by omega), Memory.read_add, Nat.zero_add]

/-- The whole request goes out, and the client turns to the response. -/
theorem SentSome.progress (hc : Formatted c n) {v₀ : Loopback σ} {k : ℕ}
    {s : Client (Loopback σ)} (h : SentSome c v₀ k s) (hk : k ≤ headerSize + n) :
    ∃ v, Progress (Loopback.api settings) s ⟨c.awaiting n, v⟩ ∧
      v.toServer = c.requestAdu.read 0 (headerSize + n) ∧ v.toClient = [] ∧
      v.world = v₀.world := by
  -- the induction is on the bytes that are left
  induction hleft : headerSize + n - k using Nat.strong_induction_on generalizing k s with
  | _ left ih =>
      have hsending : s.context.state = .sending := by
        rw [h.context_eq]
        exact hc.state
      by_cases hlt : k < headerSize + n
      · obtain ⟨m, s', hm, hle, hstep, hnext⟩ := h.piece settings hc hlt
        obtain ⟨v, hrest, hv⟩ := ih (headerSize + n - (k + m)) (by omega) hnext hle rfl
        exact ⟨v, .step (.inl hsending) hstep hrest, hv⟩
      · obtain rfl : k = headerSize + n := by omega
        obtain ⟨hcontext, htoServer, htoClient, hworld⟩ := h
        obtain ⟨c', v⟩ := s
        dsimp only at hcontext htoServer htoClient hworld hsending
        subst hcontext
        refine ⟨v, .step (.inl hsending) (modbusClientTransaction_noError ?_) (.refl _), htoServer,
          htoClient, hworld⟩
        simp only [transact, adjustTimeout, Loopback.api, hc.state, sendRequest, hc.requestAduLen,
          lt_irrefl, if_false, ModbusClientContext.awaiting]

/-! ## The response comes back -/

/-- A response of `length` PDU bytes to the request in the client's buffer, as it stands in a
buffer of the server. -/
structure ResponseTo (c : ModbusClientContext) (length : ℕ) (responseAdu : Memory UInt8) :
    Prop where
  transactionId : responseAdu.getU16 0 = c.requestAdu.getU16 0
  protocol : responseAdu.getU16 2 = protocolId
  length_eq : (responseAdu.getU16 4).toNat = length + 1
  unitId : responseAdu 6 = c.requestAdu 6
  functionCode : responseAdu headerSize = c.requestAdu headerSize
  noException : (responseAdu headerSize &&& exceptionMask) = 0
  nonempty : 1 ≤ length
  le_max : length ≤ maxPduSize

/-- The client has the first `j` bytes of the response; the rest is on its way. -/
structure ReceivedSome (c : ModbusClientContext) (length : ℕ) (responseAdu : Memory UInt8)
    (world : ServerWorld σ) (j : ℕ) (s : Client (Loopback σ)) : Prop where
  context_eq : s.context = { c with
    responseAdu := s.context.responseAdu
    responseAduLen := s.context.responseAduLen
    responseAduPos := j }
  received : Memory.Agree j s.context.responseAdu responseAdu
  responseAduLen : headerSize ≤ j → s.context.responseAduLen = headerSize + length
  pending : (s.net.settle settings).toClient = responseAdu.read j (headerSize + length - j)
  settled : (s.net.settle settings).toServer = []
  world : (s.net.settle settings).world = world

variable {length : ℕ} {responseAdu : Memory UInt8} {world : ServerWorld σ} {j : ℕ}
  {s : Client (Loopback σ)}

/-- One receive while the response is on its way. -/
theorem ReceivedSome.receive (h : ReceivedSome settings c length responseAdu world j s) (size : ℕ)
    (hsize : 0 < size)
    (hle : j + size ≤ headerSize + length) :
    ∃ m v, 0 < m ∧ m ≤ size ∧
      Loopback.receive settings size s.net = (.noError, responseAdu.read j m, v) ∧
      v.toClient = responseAdu.read (j + m) (headerSize + length - (j + m)) ∧
      v.toServer = [] ∧ v.world = world := by
  set u := s.net.settle settings with hu
  obtain ⟨m, hm⟩ : ∃ m, m = min size (u.pieces u.transfers + 1) := ⟨_, rfl⟩
  have hne : u.toClient ≠ [] := by
    rw [h.pending]
    intro hnil
    have hlength := congrArg List.length hnil
    rw [Memory.length_read, List.length_nil] at hlength
    omega
  refine ⟨m, { u with
    toClient := responseAdu.read (j + m) (headerSize + length - (j + m))
    transfers := u.transfers + 1 }, by omega, by omega, ?_, rfl, h.settled, h.world⟩
  rw [Loopback.receive_eq settings hne, ← hu, ← hm, h.pending, Memory.take_read _ _ (by omega),
    Memory.drop_read _ _ (by omega), Nat.sub_sub]

/-- What the client has once it has stored the bytes of a receive. -/
theorem ReceivedSome.stored (h : ReceivedSome settings c length responseAdu world j s) {m : ℕ}
    {v : Loopback σ}
    (hpending : v.toClient = responseAdu.read (j + m) (headerSize + length - (j + m)))
    (hsettled : v.toServer = []) (hworld : v.world = world) (responseAduLen : ℕ)
    (hlen : headerSize ≤ j + m → responseAduLen = headerSize + length) :
    ReceivedSome settings c length responseAdu world (j + m)
      ⟨{ (s.context.store (responseAdu.read j m)).advance m with
          responseAduLen := responseAduLen }, v⟩ := by
  have hv : v.settle settings = v := Loopback.settle_of_toServer_nil settings hsettled
  have hpos : s.context.responseAduPos = j := by rw [h.context_eq]
  refine ⟨?_, ?_, hlen, by rw [hv, hpending], by rw [hv, hsettled], by rw [hv, hworld]⟩
  · simp only [ModbusClientContext.store, ModbusClientContext.advance, hpos]
    rw [h.context_eq]
  · simp only [ModbusClientContext.store, ModbusClientContext.advance, hpos]
    exact h.received.write

/-- The header is complete: parsing it announces the rest. -/
theorem parse_response (context : ModbusClientContext)
    (hr : ResponseTo c length responseAdu) (hpos : headerSize ≤ context.responseAduPos)
    (hagree : Memory.Agree headerSize context.responseAdu responseAdu) :
    modbusClientParseMbapHeader context
      = (.noError, { context with responseAduLen := headerSize + length }) := by
  have hlength : (context.responseAdu.getU16 4).toNat = length + 1 := by
    rw [hagree.getU16 (by decide), hr.length_eq]
  have hprotocol : context.responseAdu.getU16 2 = protocolId := by
    rw [hagree.getU16 (by decide), hr.protocol]
  have hmax := hr.le_max
  rw [modbusClientParseMbapHeader, if_neg (Nat.not_lt.2 hpos), hlength, if_neg (by omega),
    if_neg (not_not_intro hprotocol), Nat.add_sub_cancel, if_neg (Nat.not_lt.2 hmax)]

/-- One more piece of the response. -/
theorem ReceivedSome.piece (hc : c.state = .receiving) (hr : ResponseTo c length responseAdu)
    (h : ReceivedSome settings c length responseAdu world j s) (hj : j < headerSize + length) :
    ∃ m s', 0 < m ∧ j + m ≤ headerSize + length ∧
      modbusClientTransaction (Loopback.api settings) s = (.noError, s') ∧
      ReceivedSome settings c length responseAdu world (j + m) s' ∧ s'.net.toServer = [] := by
  have hstate : s.context.state = .receiving := by rw [h.context_eq, hc]
  have hpos : s.context.responseAduPos = j := by rw [h.context_eq]
  have hnonempty := hr.nonempty
  by_cases hheader : j < headerSize
  · obtain ⟨m, v, hm, hle, hreceive, hpending, hsettled, hworld⟩ :=
      h.receive settings (headerSize - j) (by omega) (by omega)
    have hadvanced : ((s.context.store (responseAdu.read j m)).advance m).responseAduPos = j + m := by
      simp only [ModbusClientContext.advance, ModbusClientContext.store, hpos]
    by_cases hfull : headerSize ≤ j + m
    · have hjm : j + m = headerSize := by omega
      have hstored := h.stored settings hpending hsettled hworld _ fun _ => rfl
      refine ⟨m, _, hm, by omega, modbusClientTransaction_noError ?_, hstored, hsettled⟩
      have hparse := parse_response ((s.context.store (responseAdu.read j m)).advance m) hr (hadvanced ▸ hfull) (hstored.received.mono (Nat.le_of_eq hjm.symm))
      simp only [transact, adjustTimeout, Loopback.api, hstate, receiveResponse, hpos, if_pos hheader,
        receiveResponseHeader, hreceive, Memory.length_read, if_true]
      rw [if_pos (hadvanced ▸ hfull), hparse]
    · have hstored := h.stored settings hpending hsettled hworld s.context.responseAduLen
        fun hle => absurd hle hfull
      refine ⟨m, _, hm, by omega, modbusClientTransaction_noError ?_, hstored, hsettled⟩
      simp only [transact, adjustTimeout, Loopback.api, hstate, receiveResponse, hpos, if_pos hheader,
        receiveResponseHeader, hreceive, Memory.length_read, if_true]
      rw [if_neg (hadvanced ▸ hfull)]
      rfl
  · have hlen := h.responseAduLen (Nat.not_lt.1 hheader)
    obtain ⟨m, v, hm, hle, hreceive, hpending, hsettled, hworld⟩ :=
      h.receive settings (headerSize + length - j) (by omega) (by omega)
    have hstored := h.stored settings hpending hsettled hworld s.context.responseAduLen fun _ => hlen
    refine ⟨m, _, hm, by omega, modbusClientTransaction_noError ?_, hstored, hsettled⟩
    simp only [transact, adjustTimeout, Loopback.api, hstate, receiveResponse, hpos, if_neg hheader,
      hlen, if_pos hj, receiveResponseBody, hreceive, Memory.length_read, if_true]
    rw [← hlen]
    rfl

/-- The client once the response has been accepted. -/
structure Accepted (c : ModbusClientContext) (length : ℕ) (responseAdu : Memory UInt8)
    (world : ServerWorld σ) (s : Client (Loopback σ)) : Prop where
  state : s.context.state = .complete
  unitId : s.context.unitId = c.unitId
  responseAduLen : s.context.responseAduLen = headerSize + length
  received : Memory.Agree (headerSize + length) s.context.responseAdu responseAdu
  toServer : s.net.toServer = []
  toClient : s.net.toClient = []
  world_eq : s.net.world = world

/-- The complete response passes `modbusClientCheckResp`. -/
theorem ReceivedSome.accept (hc : c.state = .receiving) (hr : ResponseTo c length responseAdu)
    (hlen : headerSize + 1 ≤ c.requestAduLen)
    (h : ReceivedSome settings c length responseAdu world (headerSize + length) s)
    (hsettled : s.net.toServer = []) :
    ∃ s', modbusClientTransaction (Loopback.api settings) s = (.noError, s') ∧
      Accepted c length responseAdu world s' := by
  have hstate : s.context.state = .receiving := by rw [h.context_eq, hc]
  have hpos : s.context.responseAduPos = headerSize + length := by rw [h.context_eq]
  have hresponseLen := h.responseAduLen (Nat.le_add_right _ _)
  have hnonempty := hr.nonempty
  have hrequestAdu : s.context.requestAdu = c.requestAdu := by rw [h.context_eq]
  have hrequestLen : s.context.requestAduLen = c.requestAduLen := by rw [h.context_eq]
  have htransaction : s.context.responseAdu.getU16 0 = c.requestAdu.getU16 0 := by
    rw [h.received.getU16 (Nat.le_add_right_of_le (by decide)), hr.transactionId]
  have hunit : s.context.responseAdu 6 = c.requestAdu 6 := by
    rw [h.received 6 (Nat.lt_add_right _ (by decide)), hr.unitId]
  have hcode : s.context.responseAdu headerSize = c.requestAdu headerSize := by
    rw [h.received headerSize (Nat.lt_add_of_pos_right hnonempty), hr.functionCode]
  have hexception : (c.requestAdu headerSize &&& exceptionMask) = 0 := by
    rw [← hr.functionCode, hr.noException]
  have hcheck : modbusClientCheckResp s.context = (.noError, s.context) := by
    rw [modbusClientCheckResp, hrequestLen, hresponseLen, hrequestAdu, htransaction, hunit, hcode,
      hexception, if_neg (Nat.not_lt.2 hlen), if_neg (by omega), if_neg (not_not_intro rfl),
      if_neg (not_not_intro rfl), if_neg (not_not_intro rfl), if_neg (not_not_intro rfl)]
  have hnet : s.net.settle settings = s.net := Loopback.settle_of_toServer_nil settings hsettled
  refine ⟨{ s with context := { s.context with state := .complete } },
    modbusClientTransaction_noError ?_, rfl, ?_, hresponseLen, h.received, hsettled, ?_, ?_⟩
  · simp only [transact, adjustTimeout, Loopback.api, hstate, receiveResponse, hpos, hresponseLen,
      Nat.not_lt.2 (Nat.le_add_right headerSize length), lt_irrefl, if_false, acceptResponse, hcheck,
      if_true]
  · rw [h.context_eq]
  · rw [← hnet, h.pending, Nat.sub_self]
    rfl
  · rw [← hnet, h.world]

/-- The rest of the response arrives and is accepted. -/
theorem ReceivedSome.progress (hc : c.state = .receiving) (hr : ResponseTo c length responseAdu)
    (hlen : headerSize + 1 ≤ c.requestAduLen)
    (h : ReceivedSome settings c length responseAdu world j s) (hj : j < headerSize + length) :
    ∃ s', Progress (Loopback.api settings) s s' ∧ Accepted c length responseAdu world s' := by
  -- the induction is on the bytes that are still to come
  induction hleft : headerSize + length - j using Nat.strong_induction_on generalizing j s with
  | _ left ih =>
      have hreceiving : s.context.state = .receiving := by rw [h.context_eq, hc]
      obtain ⟨m, s', hm, hle, hstep, hnext, hsettled⟩ := h.piece settings hc hr hj
      by_cases hlt : j + m < headerSize + length
      · obtain ⟨s'', hrest, haccepted⟩ := ih (headerSize + length - (j + m)) (by omega) hnext hlt rfl
        exact ⟨s'', .step (.inr hreceiving) hstep hrest, haccepted⟩
      · have hreceiving' : s'.context.state = .receiving := by rw [hnext.context_eq, hc]
        rw [show j + m = headerSize + length by omega] at hnext
        obtain ⟨s'', hlast, haccepted⟩ := hnext.accept settings hc hr hlen hsettled
        exact ⟨s'', .step (.inr hreceiving) hstep
          (.step (.inr hreceiving') hlast (.refl _)), haccepted⟩

/-! ## The server's side -/

/-- The server answers the request PDU `request` of `n` bytes with a response PDU of `length` bytes
that satisfies `Response`, and its table goes from `table` to `table'`. -/
def Serves (view : σ → Table) (request : Memory UInt8) (n length : ℕ)
    (Response : Memory UInt8 → Prop) (table table' : Table) : Prop :=
  ∀ (connection : ModbusClientConnection) (w : ServerWorld σ),
    Memory.Agree n (pdu connection.requestAdu) request →
    connection.requestAduLen = headerSize + n →
    headerSize ≤ connection.requestAduPos →
    view w.user = table →
    Answered view connection (modbusServerProcessRequest settings connection w) length Response
      table'

/-- The header of the request that was delivered passes `modbusServerParseMbapHeader`. -/
theorem parse_request (hc : Formatted c n) (connection : ModbusClientConnection)
    (hpos : headerSize ≤ connection.requestAduPos)
    (hagree : Memory.Agree (headerSize + n) connection.requestAdu c.requestAdu) :
    modbusServerParseMbapHeader connection
      = (.noError, { connection with
          requestUnitId := c.unitId
          requestAduLen := headerSize + n }) := by
  have hheader := hagree.mono (Nat.le_add_right headerSize n)
  have hlength : (connection.requestAdu.getU16 4).toNat = n + 1 := by
    rw [hheader.getU16 (by decide), hc.length]
  have hprotocol : connection.requestAdu.getU16 2 = protocolId := by
    rw [hheader.getU16 (by decide), hc.protocol]
  have hunit : connection.requestAdu 6 = c.unitId := by
    rw [hheader 6 (by decide), hc.unitId]
  have hmax := hc.le_max
  rw [modbusServerParseMbapHeader, if_neg (Nat.not_lt.2 hpos), hlength, if_neg (by omega),
    if_neg (not_not_intro hprotocol), Nat.add_sub_cancel, if_neg (Nat.not_lt.2 hmax), hunit]

/-- Delivering a complete request leaves the server's response on its way to the client. -/
theorem deliver_request (hc : Formatted c n) (hunit : acceptsUnit settings c.unitId)
    {view : σ → Table} {Response : Memory UInt8 → Prop} {table table' : Table}
    (hserves : Serves settings view (pdu c.requestAdu) n length Response table table')
    (hcode : ∀ p, Response p → p 0 = c.requestAdu headerSize)
    (hexception : (c.requestAdu headerSize &&& exceptionMask) = 0)
    (hlo : 1 ≤ length) (hhi : length ≤ maxPduSize) {v : Loopback σ}
    (hsent : v.toServer = c.requestAdu.read 0 (headerSize + n)) (htable : view v.world.user = table) :
    ∃ responseAdu, ResponseTo c length responseAdu ∧ Response (pdu responseAdu) ∧
      (v.deliver settings).toServer = [] ∧
      (v.deliver settings).toClient = responseAdu.read 0 (headerSize + length) ∧
      view (v.deliver settings).world.user = table' := by
  set connection : ModbusClientConnection := { v.connection with
    requestAdu := v.connection.requestAdu.write 0 v.toServer
    requestAduPos := headerSize } with hconnection
  have hagree : Memory.Agree (headerSize + n) connection.requestAdu c.requestAdu := by
    have hwrite := Memory.Agree.write (k := headerSize + n)
      (fun i hi => absurd hi (Nat.not_lt_zero i) : Memory.Agree 0 v.connection.requestAdu c.requestAdu)
    rw [hconnection, hsent]
    rwa [Nat.zero_add] at hwrite
  have hparse := parse_request hc connection (Nat.le_refl _) hagree
  set parsed : ModbusClientConnection := { connection with
    requestUnitId := c.unitId
    requestAduLen := headerSize + n
    requestAduPos := v.toServer.length } with hparsed
  have hpdu : Memory.Agree n (pdu parsed.requestAdu) (pdu c.requestAdu) :=
    fun i hi => hagree (headerSize + i) (by omega)
  obtain ⟨hok, ⟨responseAdu, hanswer, hresponse⟩, htable'⟩ := hserves parsed v.world hpdu rfl
    (by rw [hparsed, hsent, Memory.length_read]; exact Nat.le_add_right _ _) htable
  have hdeliver : v.deliver settings = { v with
      connection := (modbusServerProcessRequest settings parsed v.world).2.1
      world := (modbusServerProcessRequest settings parsed v.world).2.2
      toServer := []
      toClient := (parsed.answering responseAdu length).responseAdu.read 0 (headerSize + length) } := by
    rw [Loopback.deliver, hparse]
    simp only [hunit, and_self, if_true]
    rw [if_pos hok, hanswer]
    rfl
  obtain ⟨htransaction, hprotocol, hlength, hunitId, hpdu'⟩ := header_fields
    (rfl : responseHeader parsed.requestAdu length responseAdu = _)
  have hheader := hagree.mono (Nat.le_add_right headerSize n)
  refine ⟨(parsed.answering responseAdu length).responseAdu, ⟨?_, ?_, ?_, ?_, ?_, ?_, hlo, hhi⟩, ?_,
    ?_, ?_, ?_⟩
  · exact htransaction.trans (hheader.getU16 (by decide))
  · exact hprotocol.trans ((hheader.getU16 (by decide)).trans hc.protocol)
  · simp only [maxPduSize] at hhi
    refine (congrArg UInt16.toNat hlength).trans ?_
    rw [UInt16.toNat_ofNat']
    omega
  · exact hunitId.trans (hheader 6 (by decide))
  · exact (congrFun hpdu' 0).trans (hcode _ hresponse)
  · rw [← hexception, ← hcode _ hresponse]
    exact congrArg (· &&& exceptionMask) (congrFun hpdu' 0)
  · have hsame : pdu (parsed.answering responseAdu length).responseAdu = pdu responseAdu := hpdu'
    rw [hsame]
    exact hresponse
  · rw [hdeliver]
  · rw [hdeliver]
  · rw [hdeliver]
    exact htable'

/-- **A request the server answers is answered to the client.** From a formatted request, with
nothing else on its way, the transaction makes progress until the response is accepted; the client
then holds a copy of the server's response and the server's table is the new one. -/
theorem exchange_accepted (hc : Formatted c n) (hunit : acceptsUnit settings c.unitId)
    {view : σ → Table} {Response : Memory UInt8 → Prop} {table table' : Table}
    (hserves : Serves settings view (pdu c.requestAdu) n length Response table table')
    (hcode : ∀ p, Response p → p 0 = c.requestAdu headerSize)
    (hexception : (c.requestAdu headerSize &&& exceptionMask) = 0)
    (hlo : 1 ≤ length) (hhi : length ≤ maxPduSize) {v : Loopback σ} (htoServer : v.toServer = [])
    (htoClient : v.toClient = []) (htable : view v.world.user = table) :
    ∃ responseAdu world s', Progress (Loopback.api settings) ⟨c, v⟩ s' ∧
      Accepted (c.awaiting n) length responseAdu world s' ∧ Response (pdu responseAdu) ∧
      view world.user = table' := by
  have hstart : SentSome c v 0 ⟨c, v⟩ := by
    refine ⟨?_, htoServer, htoClient, rfl⟩
    simp only
    rw [← hc.requestAduPos]
  obtain ⟨u, hsend, hsent, hnone, hworld⟩ := hstart.progress settings hc (Nat.zero_le _)
  obtain ⟨responseAdu, hr, hresponse, hsettled, hpending, htable'⟩ := deliver_request settings hc
    hunit hserves hcode hexception hlo hhi hsent (by rw [hworld, htable])
  have hsettle : u.settle settings = u.deliver settings := by
    refine if_pos ⟨hnone, fun hnil => ?_⟩
    have hlength := congrArg List.length (hsent.symm.trans hnil)
    rw [Memory.length_read, List.length_nil] at hlength
    have hnonempty := hc.nonempty
    omega
  have hreceived : ReceivedSome settings (c.awaiting n) length responseAdu
      (u.deliver settings).world 0 ⟨c.awaiting n, u⟩ := by
    refine ⟨rfl, fun i hi => absurd hi (Nat.not_lt_zero i), fun hle => absurd hle (by decide), ?_,
      ?_, ?_⟩
    · rw [hsettle, hpending, Nat.sub_zero]
    · rw [hsettle, hsettled]
    · rw [hsettle]
  have hrequestLen : headerSize + 1 ≤ (c.awaiting n).requestAduLen := by
    have hnonempty := hc.nonempty
    rw [show (c.awaiting n).requestAduLen = headerSize + n from hc.requestAduLen]
    omega
  have hr' : ResponseTo (c.awaiting n) length responseAdu := { hr with }
  obtain ⟨s', hprogress, haccepted⟩ := hreceived.progress settings rfl hr' hrequestLen
    (Nat.add_pos_left (by decide) _)
  exact ⟨responseAdu, _, s', hsend.trans hprogress, haccepted, hresponse, htable'⟩

end Exchange

end Modbus
