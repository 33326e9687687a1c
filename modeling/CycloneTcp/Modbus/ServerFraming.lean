import CycloneTcp.Modbus.Adu
import CycloneTcp.Modbus.ServerHandler
import CycloneTcp.Modbus.ServerIsolation
import CycloneTcp.Modbus.StreamSocket

/-! # Server framing does not depend on TCP segmentation

The abstract server works on whole ADUs: `exchange` hands one complete request to
`modbusServerProcessRequest`, and a `Session` is what is left behind for the next one. The connection
handler reaches the same requests through single calls of `socketReceive` and `socketSend`, each of
which may time out or transfer any non-empty piece. `Phase` relates the handler's position inside the
streams to the abstract session; it is kept by every step (`phase_step`), and every planned transfer
brings the handler closer to the end of the stream (`phase_run`). -/

set_option autoImplicit false

namespace Modbus

variable {σ : Type*} (settings : ModbusServerSettings σ)

/-! ## The abstract server -/

/-- What a connection and the application carry from one request to the next. -/
structure Session (σ : Type*) where
  requestAdu : Memory UInt8
  responseAdu : Memory UInt8
  world : ServerWorld σ

/-- A connection that has received the whole ADU `a` and nothing behind it. -/
def Session.holding (m : Session σ) (a : Adu) : ModbusClientConnection where
  state := .receiving
  socket := some 0
  timestamp := 0
  requestAdu := m.requestAdu.write 0 a.bytes
  requestAduLen := a.bytes.length
  requestAduPos := a.bytes.length
  requestUnitId := a.unitId
  responseAdu := m.responseAdu
  responseAduLen := 0
  responseAduPos := 0

/-- The request `a` as a whole. -/
def exchange (m : Session σ) (a : Adu) : Outcome σ :=
  modbusServerProcessRequest settings (m.holding a) m.world

/-- The response ADU to `a`. -/
def response (m : Session σ) (a : Adu) : List UInt8 :=
  (exchange settings m a).2.1.responseAdu.read 0 (exchange settings m a).2.1.responseAduLen

/-- The session `a` leaves behind. -/
def Session.after (m : Session σ) (a : Adu) : Session σ :=
  let o := exchange settings m a
  ⟨o.2.1.requestAdu, o.2.1.responseAdu, o.2.2⟩

/-- The session a sequence of requests leaves behind. -/
def Session.afterAll (m : Session σ) : List Adu → Session σ
  | [] => m
  | a :: as => Session.afterAll (m.after settings a) as

/-- The responses to a sequence of requests, one behind the other. -/
def responses (m : Session σ) : List Adu → List UInt8
  | [] => []
  | a :: as => response settings m a ++ responses (m.after settings a) as

/-- Every request of the sequence is answered. -/
def AllAnswered (m : Session σ) : List Adu → Prop
  | [] => True
  | a :: as => (exchange settings m a).1 = .noError ∧ AllAnswered (m.after settings a) as

/-- Number of bytes that have to be transferred to serve the sequence, up to and including the first
request that is not answered. -/
def workload (m : Session σ) : List Adu → ℕ
  | [] => 0
  | a :: as => a.bytes.length +
      if (exchange settings m a).1 = .noError then
        (response settings m a).length + workload (m.after settings a) as
      else 0

theorem afterAll_concat (m : Session σ) (as : List Adu) (a : Adu) :
    m.afterAll settings (as ++ [a]) = (m.afterAll settings as).after settings a := by
  induction as generalizing m with
  | nil => rfl
  | cons b as ih => exact ih _

theorem responses_concat (m : Session σ) (as : List Adu) (a : Adu) :
    responses settings m (as ++ [a])
      = responses settings m as ++ response settings (m.afterAll settings as) a := by
  induction as generalizing m with
  | nil => simp [responses, Session.afterAll]
  | cons b as ih => simp only [List.cons_append, responses, ih, Session.afterAll, List.append_assoc]

theorem allAnswered_concat (m : Session σ) (as : List Adu) (a : Adu) :
    AllAnswered settings m (as ++ [a]) ↔ AllAnswered settings m as ∧
      (exchange settings (m.afterAll settings as) a).1 = .noError := by
  induction as generalizing m with
  | nil => simp [AllAnswered, Session.afterAll]
  | cons b as ih => simp only [List.cons_append, AllAnswered, ih, Session.afterAll, and_assoc]

/-- Exactly the PDU of `a` is handed to the request handler. -/
theorem after_pdus (m : Session σ) {a : Adu} (h : a.WellFormed) :
    (m.after settings a).world.pdus = m.world.pdus ++ [a.pdu] := by
  have hlen : (modbusServerGetRequestPdu (m.holding a)).2 = a.pdu.length := by
    simp only [modbusServerGetRequestPdu, Session.holding, Adu.length_bytes]
    rw [if_pos (by omega), Nat.add_sub_cancel_left]
  have hpdu := modbusServerProcessRequest_pdus settings (m.holding a) m.world
    (by rw [hlen]; exact Nat.ne_of_gt h.nonempty)
  have hread : (pdu (m.holding a).requestAdu).read 0 a.pdu.length = a.pdu := by
    rw [pdu_read, Session.holding, Nat.add_zero, Memory.read_eq_iff]
    intro k hk
    have hget := Memory.write_add m.requestAdu 0 a.bytes
      (show headerSize + k < a.bytes.length by rw [Adu.length_bytes]; omega)
    rw [Nat.zero_add] at hget
    change m.requestAdu.write 0 a.bytes (headerSize + k) = a.pdu[k]
    rw [hget]
    simp only [Adu.bytes]
    rw [List.getElem_append_right (by rw [Adu.length_header]; omega)]
    simp only [Adu.length_header, Nat.add_sub_cancel_left]
  rw [hlen, hread] at hpdu
  exact hpdu

theorem afterAll_pdus (m : Session σ) {as : List Adu} (h : ∀ a ∈ as, a.WellFormed) :
    (m.afterAll settings as).world.pdus = m.world.pdus ++ as.map Adu.pdu := by
  induction as generalizing m with
  | nil => simp [Session.afterAll]
  | cons a as ih =>
      rw [Session.afterAll, ih _ (fun b hb => h b (List.mem_cons_of_mem _ hb)),
        after_pdus settings m (h a (List.mem_cons_self ..))]
      simp

/-! ## Where the handler stands -/

/-- The connection has received the first `k` bytes of `a`. -/
structure Reading (m : Session σ) (a : Adu) (k : ℕ) (connection : ModbusClientConnection) :
    Prop where
  state : connection.state = .receiving
  requestAdu : connection.requestAdu = m.requestAdu.write 0 (a.bytes.take k)
  requestAduPos : connection.requestAduPos = k
  responseAdu : connection.responseAdu = m.responseAdu
  header : headerSize ≤ k →
    connection.requestAduLen = a.bytes.length ∧ connection.requestUnitId = a.unitId

/-- The connection has `unsent` still to send. -/
structure Sending (m : Session σ) (unsent : List UInt8) (connection : ModbusClientConnection) :
    Prop where
  state : connection.state = .sending
  requestAdu : connection.requestAdu = m.requestAdu
  responseAdu : connection.responseAdu = m.responseAdu
  responseAduPos : connection.responseAduPos < connection.responseAduLen
  unsent : connection.responseAdu.read connection.responseAduPos
    (connection.responseAduLen - connection.responseAduPos) = unsent

/-- Where the handler stands in the stream `adus` of a session that began as `m₀`, and how many bytes
are still to be transferred at most. -/
inductive Phase (m₀ : Session σ) (adus : List Adu) (s : Server σ StreamSocket) : ℕ → Prop where
  /-- Every request is answered and every response is sent. -/
  | idle (hanswered : AllAnswered settings m₀ adus) (hstate : s.connection.state = .receiving)
      (hpos : s.connection.requestAduPos = 0)
      (hworld : s.world = (m₀.afterAll settings adus).world)
      (hsent : s.net.outbound = responses settings m₀ adus) (hunread : s.net.inbound = []) :
      Phase m₀ adus s 0
  /-- The requests `done` are answered, the responses are sent, and `k` bytes of the next request are
  read. -/
  | reading (done : List Adu) (a : Adu) (rest : List Adu) (k : ℕ)
      (hsplit : adus = done ++ a :: rest) (hanswered : AllAnswered settings m₀ done)
      (hk : k < a.bytes.length)
      (hconnection : Reading (m₀.afterAll settings done) a k s.connection)
      (hworld : s.world = (m₀.afterAll settings done).world)
      (hsent : s.net.outbound = responses settings m₀ done)
      (hunread : s.net.inbound = a.bytes.drop k ++ stream rest) :
      Phase m₀ adus s (workload settings (m₀.afterAll settings done) (a :: rest) - k)
  /-- The requests `done` are answered, the last bytes of the responses are still to be sent, and
  nothing of the next request is read. -/
  | sending (done rest : List Adu) (unsent : List UInt8)
      (hsplit : adus = done ++ rest) (hanswered : AllAnswered settings m₀ done)
      (hconnection : Sending (m₀.afterAll settings done) unsent s.connection)
      (hworld : s.world = (m₀.afterAll settings done).world)
      (hsent : s.net.outbound ++ unsent = responses settings m₀ done)
      (hunread : s.net.inbound = stream rest) :
      Phase m₀ adus s (unsent.length + workload settings (m₀.afterAll settings done) rest)
  /-- The handler of the request behind `done` has reported `ERROR_INVALID_LENGTH`. -/
  | closed (done : List Adu) (a : Adu) (rest : List Adu)
      (hsplit : adus = done ++ a :: rest) (hanswered : AllAnswered settings m₀ done)
      (hstate : s.connection.state = .closed)
      (herror : (exchange settings (m₀.afterAll settings done) a).1 = .invalidLength)
      (hworld : s.world = ((m₀.afterAll settings done).after settings a).world)
      (hsent : s.net.outbound = responses settings m₀ done)
      (hunread : s.net.inbound = stream rest) :
      Phase m₀ adus s 0

/-! ## The stream socket -/

/-- The next call transfers something. -/
def StreamSocket.transfers (v : StreamSocket) : Bool :=
  match v.plan with
  | some _ :: _ => true
  | _ => false

theorem receive_of_not_transfers {v : StreamSocket} (h : v.transfers = false) (size : ℕ) :
    v.receive size = (.timeout, [], { v with plan := v.plan.tail }) := by
  unfold StreamSocket.transfers at h
  unfold StreamSocket.receive
  split
  · next hplan => simp [hplan] at h
  · rfl

theorem receive_of_inbound_nil {v : StreamSocket} (h : v.inbound = []) (size : ℕ) :
    v.receive size = (.timeout, [], { v with plan := v.plan.tail }) := by
  unfold StreamSocket.receive
  split
  · next hplan => rw [if_pos h, hplan]; rfl
  · rfl

theorem receive_of_transfers {v : StreamSocket} (h : v.transfers = true) (hin : v.inbound ≠ [])
    {size : ℕ} (hsize : 0 < size) :
    ∃ t, 1 ≤ t ∧ t ≤ size ∧ v.receive size
      = (.noError, v.inbound.take t, { v with inbound := v.inbound.drop t, plan := v.plan.tail }) := by
  unfold StreamSocket.transfers at h
  unfold StreamSocket.receive
  split
  · next k plan hplan =>
    refine ⟨min size (k + 1), by omega, by omega, ?_⟩
    rw [if_neg hin, hplan]
    rfl
  · next hplan =>
    split at h
    · next k plan hp => exact absurd hp (hplan k plan)
    · cases h

theorem send_of_not_transfers {v : StreamSocket} (h : v.transfers = false) (data : List UInt8) :
    v.send data = (.timeout, 0, { v with plan := v.plan.tail }) := by
  unfold StreamSocket.transfers at h
  unfold StreamSocket.send
  split
  · next hplan => simp [hplan] at h
  · rfl

theorem send_of_transfers {v : StreamSocket} (h : v.transfers = true) {data : List UInt8}
    (hdata : data ≠ []) :
    ∃ t, 1 ≤ t ∧ t ≤ data.length ∧ v.send data
      = (.noError, t, { v with outbound := v.outbound ++ data.take t, plan := v.plan.tail }) := by
  have hpos := List.length_pos_iff.2 hdata
  unfold StreamSocket.transfers at h
  unfold StreamSocket.send
  split
  · next k plan hplan =>
    refine ⟨min data.length (k + 1), by omega, by omega, ?_⟩
    rw [hplan, List.take_eq_take_min, Nat.min_comm]
    rfl
  · next hplan =>
    split at h
    · next k plan hp => exact absurd hp (hplan k plan)
    · cases h

/-! ## One step -/

section Step

variable {settings} {m m₀ : Session σ} {a : Adu} {adus done rest : List Adu} {k : ℕ}
  {s : Server σ StreamSocket}

/-- The bytes of `a` behind the ones that are read. -/
theorem take_inbound (hk : k < a.bytes.length)
    (hunread : s.net.inbound = a.bytes.drop k ++ stream rest) {t : ℕ} (ht : k + t ≤ a.bytes.length) :
    s.net.inbound.take t = (a.bytes.drop k).take t ∧
      s.net.inbound.drop t = a.bytes.drop (k + t) ++ stream rest := by
  have hlen : t ≤ (a.bytes.drop k).length := by rw [List.length_drop]; omega
  constructor
  · rw [hunread, List.take_append_of_le_length hlen]
  · rw [hunread, List.drop_append_of_le_length hlen, List.drop_drop]

/-- Storing the next piece extends what is read. -/
theorem Reading.store (h : Reading m a k s.connection) {t : ℕ} (ht : k + t ≤ a.bytes.length) :
    ((s.connection.store ((a.bytes.drop k).take t)).advance t).requestAdu
      = m.requestAdu.write 0 (a.bytes.take (k + t)) := by
  have hlen : (a.bytes.take k).length = k := by rw [List.length_take]; omega
  simp only [ModbusClientConnection.store, ModbusClientConnection.advance, h.requestAdu,
    h.requestAduPos]
  have happend := Memory.write_write_append m.requestAdu 0 (a.bytes.take k)
    ((a.bytes.drop k).take t)
  rw [Nat.zero_add, hlen, ← List.take_add] at happend
  exact happend

theorem Reading.stamp (h : Reading m a k s.connection) :
    Reading m a k (s.stamp streamApi).connection :=
  ⟨h.state, h.requestAdu, h.requestAduPos, h.responseAdu, h.header⟩

theorem store_nil (connection : ModbusClientConnection) : connection.store [] = connection := by
  simp [ModbusClientConnection.store]

/-- The header of `a` parses to what `a` is. -/
theorem parse_header (ha : a.WellFormed) {connection : ModbusClientConnection}
    (hpos : connection.requestAduPos = headerSize)
    (hbuf : connection.requestAdu = m.requestAdu.write 0 (a.bytes.take headerSize)) :
    modbusServerParseMbapHeader connection = (.noError, { connection with
      requestUnitId := a.unitId
      requestAduLen := a.bytes.length }) := by
  have hprefix : a.header <+: a.bytes.take headerSize := by rw [a.take_header]
  have hlen := a.header_length (m := m.requestAdu) hprefix
  have hproto := a.header_protocolId (m := m.requestAdu) hprefix
  have hunit := a.header_unitId (m := m.requestAdu) hprefix
  have hfield := Adu.lengthField_toNat ha
  have hmax := ha.le_max
  simp only [modbusServerParseMbapHeader, hpos, hbuf, hlen, hproto, hunit, hfield]
  rw [if_neg (by omega), if_neg (by omega), if_neg (by simp), if_neg (by omega), Adu.length_bytes,
    Nat.add_sub_cancel]

/-- The connection that has just received the whole of `a` is served like one that holds `a`. -/
theorem process_same (hlen : a.bytes.length = headerSize + a.pdu.length)
    {connection : ModbusClientConnection} (w : ServerWorld σ)
    (hbuf : connection.requestAdu = m.requestAdu.write 0 a.bytes)
    (hpos : connection.requestAduPos = a.bytes.length)
    (hadu : connection.requestAduLen = a.bytes.length)
    (hresp : connection.responseAdu = m.responseAdu) :
    SameService (modbusServerProcessRequest settings (m.holding a) w)
      (modbusServerProcessRequest settings connection w) := by
  have hlike : Like (m.holding a) connection :=
    ⟨fun i _ => by rw [hbuf, Session.holding], by rw [hpos, Session.holding],
      by rw [hresp, Session.holding]⟩
  have hn : (modbusServerGetRequestPdu (m.holding a)).2 = a.pdu.length := by
    simp only [modbusServerGetRequestPdu, Session.holding, hlen]
    rw [if_pos (by omega), Nat.add_sub_cancel_left]
  have hn' : (modbusServerGetRequestPdu connection).2 = a.pdu.length := by
    simp only [modbusServerGetRequestPdu, hadu, hlen]
    rw [if_pos (by omega), Nat.add_sub_cancel_left]
  have hpdu : pdu connection.requestAdu = pdu (m.holding a).requestAdu := by
    rw [hbuf, Session.holding]
  exact modbusServerProcessRequest_same settings w hlike hn hn' (fun i _ => by rw [hpdu])
    fun _ => hpdu

/-- The network after `t` more bytes of `a` are read. -/
def StreamSocket.afterReading (v : StreamSocket) (a : Adu) (rest : List Adu) (k : ℕ) : StreamSocket :=
  { v with inbound := a.bytes.drop k ++ stream rest, plan := v.plan.tail }

theorem inbound_ne_nil (hk : k < a.bytes.length)
    (hunread : s.net.inbound = a.bytes.drop k ++ stream rest) : s.net.inbound ≠ [] := by
  intro h
  have hlen := congrArg List.length (hunread.symm.trans h)
  simp only [List.length_append, List.length_drop, List.length_nil] at hlen
  omega

/-- A receive that transfers something returns the next bytes of `a`. -/
theorem receive_piece (hk : k < a.bytes.length)
    (hunread : s.net.inbound = a.bytes.drop k ++ stream rest) (ht : s.net.transfers = true)
    {n : ℕ} (hn : 0 < n) (hend : k + n ≤ a.bytes.length) :
    ∃ t, 1 ≤ t ∧ t ≤ n ∧ s.net.receive n
      = (.noError, (a.bytes.drop k).take t, s.net.afterReading a rest (k + t)) := by
  obtain ⟨t, hlo, hhi, hreceive⟩ := receive_of_transfers ht (inbound_ne_nil hk hunread) hn
  obtain ⟨htake, hdrop⟩ := take_inbound hk hunread (t := t) (by omega)
  refine ⟨t, hlo, hhi, ?_⟩
  rw [hreceive, htake, hdrop, StreamSocket.afterReading]

theorem receiveHeader_wait
    (ht : ∀ size, s.net.receive size = (.timeout, [], { s.net with plan := s.net.plan.tail })) :
    receiveHeader streamApi s
      = (.timeout, { s with net := { s.net with plan := s.net.plan.tail } }) := by
  simp only [receiveHeader, streamApi, ht, store_nil]
  rfl

theorem receiveBody_wait (ht : s.net.transfers = false) :
    receiveBody settings streamApi s
      = (.timeout, { s with net := { s.net with plan := s.net.plan.tail } }) := by
  simp only [receiveBody, streamApi, receive_of_not_transfers ht, store_nil]
  rfl

theorem receiveHeader_piece (ha : a.WellFormed) (h : Reading m a k s.connection)
    (hk : k < headerSize) (hunread : s.net.inbound = a.bytes.drop k ++ stream rest)
    (ht : s.net.transfers = true) :
    ∃ t connection, 1 ≤ t ∧ k + t ≤ headerSize ∧ Reading m a (k + t) connection ∧
      receiveHeader streamApi s = (.noError,
        { s with connection := connection, net := s.net.afterReading a rest (k + t) }) := by
  have hlen := a.length_bytes
  obtain ⟨t, hlo, hhi, hreceive⟩ := receive_piece (n := headerSize - k) (by omega) hunread ht
    (by omega) (by omega)
  have htake : ((a.bytes.drop k).take t).length = t := by
    rw [List.length_take, List.length_drop]
    omega
  have hstore := h.store (t := t) (by omega)
  have hpos : ((s.connection.store ((a.bytes.drop k).take t)).advance t).requestAduPos = k + t := by
    simp only [ModbusClientConnection.store, ModbusClientConnection.advance, h.requestAduPos]
  simp only [receiveHeader, streamApi, h.requestAduPos, hreceive, htake, if_true]
  by_cases hfull : headerSize ≤ k + t
  · have heq : k + t = headerSize := by omega
    rw [if_pos (by rw [hpos]; exact hfull),
      parse_header ha (hpos.trans heq) (by rw [hstore, heq])]
    refine ⟨t, _, hlo, by omega, ?_, rfl⟩
    exact ⟨h.state, hstore, hpos, h.responseAdu, fun _ => ⟨rfl, rfl⟩⟩
  · rw [if_neg (by rw [hpos]; exact hfull)]
    refine ⟨t, _, hlo, by omega, ?_, rfl⟩
    exact ⟨h.state, hstore, hpos, h.responseAdu, fun hge => absurd hge hfull⟩

/-- What receiving a piece of the PDU leads to: more of the PDU, or the service of the request. -/
theorem receiveBody_piece (hunit : acceptsUnit settings a.unitId)
    (h : Reading m a k s.connection) (hhdr : headerSize ≤ k) (hk : k < a.bytes.length)
    (hworld : s.world = m.world) (hunread : s.net.inbound = a.bytes.drop k ++ stream rest)
    (ht : s.net.transfers = true) :
    (∃ t connection, 1 ≤ t ∧ k + t < a.bytes.length ∧ Reading m a (k + t) connection ∧
      receiveBody settings streamApi s = (.noError,
        { s with connection := connection, net := s.net.afterReading a rest (k + t) })) ∨
    ∃ (o : Outcome σ) (connection : ModbusClientConnection),
      SameService (exchange settings m a) o ∧ Handled connection o.1 o.2.1 ∧
      connection.requestAdu = m.requestAdu.write 0 a.bytes ∧
      receiveBody settings streamApi s = (o.1, ⟨o.2.1, o.2.2,
        s.net.afterReading a rest a.bytes.length⟩) := by
  obtain ⟨hadu, hunitId⟩ := h.header hhdr
  obtain ⟨t, hlo, hhi, hreceive⟩ := receive_piece (n := a.bytes.length - k) hk hunread ht
    (by omega) (by omega)
  have htake : ((a.bytes.drop k).take t).length = t := by
    rw [List.length_take, List.length_drop]
    omega
  have hstore := h.store (t := t) (by omega)
  have hpos : ((s.connection.store ((a.bytes.drop k).take t)).advance t).requestAduPos = k + t := by
    simp only [ModbusClientConnection.store, ModbusClientConnection.advance, h.requestAduPos]
  simp only [receiveBody, streamApi, h.requestAduPos, hadu, hreceive, htake, if_true]
  set connection := (s.connection.store ((a.bytes.drop k).take t)).advance t with hconnection
  have hcadu : connection.requestAduLen = a.bytes.length := hadu
  have hcunit : connection.requestUnitId = a.unitId := hunitId
  by_cases hfull : a.bytes.length ≤ k + t
  · have heq : k + t = a.bytes.length := by omega
    rw [if_pos ⟨by rw [hpos, hcadu]; exact hfull, by rw [hcunit]; exact hunit⟩, hworld,
      heq]
    rw [heq, List.take_length] at hstore
    exact Or.inr ⟨modbusServerProcessRequest settings connection m.world, connection,
      process_same a.length_bytes m.world hstore (hpos.trans heq) hcadu h.responseAdu,
      modbusServerProcessRequest_handled settings connection m.world, hstore, rfl⟩
  · rw [if_neg (by rw [hpos, hcadu]; exact fun hc => hfull hc.1)]
    exact Or.inl ⟨t, connection, hlo, by omega,
      ⟨h.state, hstore, hpos, h.responseAdu, fun _ => ⟨hcadu, hcunit⟩⟩, rfl⟩

theorem sendResponse_wait (ht : s.net.transfers = false) :
    sendResponse streamApi s
      = (.timeout, { s with net := { s.net with plan := s.net.plan.tail } }) := by
  simp only [sendResponse, streamApi, send_of_not_transfers ht]
  rfl

/-- What sending a piece of the response leads to: less to send, or the wait for the next request. -/
theorem sendResponse_piece {unsent : List UInt8} (h : Sending m unsent s.connection)
    (ht : s.net.transfers = true) :
    ∃ t, 1 ≤ t ∧ t ≤ unsent.length ∧ ∃ connection,
      sendResponse streamApi s = (.noError, { s with
        connection := connection
        net := { s.net with
          outbound := s.net.outbound ++ unsent.take t
          plan := s.net.plan.tail } }) ∧
      (t < unsent.length → Sending m (unsent.drop t) connection) ∧
      (t = unsent.length → connection.state = .receiving ∧ connection.requestAduPos = 0 ∧
        connection.requestAdu = m.requestAdu ∧ connection.responseAdu = m.responseAdu) := by
  have hlen : unsent.length
      = s.connection.responseAduLen - s.connection.responseAduPos := by
    rw [← h.unsent, Memory.length_read]
  have hpos := h.responseAduPos
  have hne : unsent ≠ [] := List.length_pos_iff.1 (by omega)
  obtain ⟨t, hlo, hhi, hsend⟩ := send_of_transfers ht hne
  refine ⟨t, hlo, hhi, ?_⟩
  simp only [sendResponse, streamApi, h.unsent, hsend, if_true]
  by_cases hfull : s.connection.responseAduLen ≤ s.connection.responseAduPos + t
  · rw [if_pos hfull]
    exact ⟨_, rfl, fun hlt => by omega, fun _ => ⟨rfl, rfl, h.requestAdu, h.responseAdu⟩⟩
  · rw [if_neg hfull]
    refine ⟨_, rfl, fun hlt => ?_, fun heq => by omega⟩
    refine ⟨h.state, h.requestAdu, h.responseAdu, not_le.1 hfull, ?_⟩
    -- the rest of the response starts `t` cells further
    have hsplit := Memory.read_add s.connection.responseAdu s.connection.responseAduPos t
      (s.connection.responseAduLen - (s.connection.responseAduPos + t))
    rw [show t + (s.connection.responseAduLen - (s.connection.responseAduPos + t))
      = s.connection.responseAduLen - s.connection.responseAduPos by omega, h.unsent] at hsplit
    rw [hsplit, List.drop_left' (Memory.length_read _ _ _)]

end Step

/-! ## Runs -/

/-- The errors of the callbacks are those that are answered by an exception response. -/
def Mapped (error : ErrorCode) : Prop :=
  error = .noError ∨ error = .invalidLength ∨ isException error = true

theorem own_mapped : Own Mapped where
  noError := Or.inl rfl
  invalidLength := Or.inr (Or.inl rfl)
  invalidValue := Or.inr (Or.inr rfl)
  invalidAddress := Or.inr (Or.inr rfl)
  invalidFunctionCode := Or.inr (Or.inr rfl)

/-- A request is answered, or refused for its length. -/
theorem exchange_status {settings : ModbusServerSettings σ} (hcb : Reports settings Mapped)
    (m : Session σ) (a : Adu) :
    (exchange settings m a).1 = .noError ∨ (exchange settings m a).1 = .invalidLength := by
  obtain ⟨hmapped, hexc⟩ := modbusServerProcessRequest_error own_mapped hcb (m.holding a) m.world
  rcases hmapped with h | h | h
  · exact Or.inl h
  · exact Or.inr h
  · rw [hexc] at h
    cases h

section Runs

variable {settings} {m₀ : Session σ} {adus : List Adu} {s : Server σ StreamSocket}

/-- The handler's call ends without closing the connection. -/
theorem serverStep_open (hopen : s.connection.state ≠ .closed)
    (hstatus : (processEvents settings streamApi (s.stamp streamApi)).1 = .noError ∨
      (processEvents settings streamApi (s.stamp streamApi)).1 = .timeout) :
    serverStep settings streamApi s .ready
      = (processEvents settings streamApi (s.stamp streamApi)).2 := by
  simp only [serverStep, if_neg hopen, modbusServerProcessConnectionEvents]
  rw [if_neg (by tauto)]

/-- How far a step has come: nothing is left, or the next plan entry is used up, and with it at least
one byte if it transfers. -/
def Advanced (s s' : Server σ StreamSocket) (left left' : ℕ) : Prop :=
  left' = 0 ∨ (s'.net.plan = s.net.plan.tail ∧ left' + s.net.transfers.toNat ≤ left)

/-- The handler waits for the next request, and whichever request that is, nothing of it is read. -/
theorem phase_next {done rest : List Adu} (hsplit : adus = done ++ rest)
    (hanswered : AllAnswered settings m₀ done) (hstate : s.connection.state = .receiving)
    (hpos : s.connection.requestAduPos = 0)
    (hreq : s.connection.requestAdu = (m₀.afterAll settings done).requestAdu)
    (hresp : s.connection.responseAdu = (m₀.afterAll settings done).responseAdu)
    (hworld : s.world = (m₀.afterAll settings done).world)
    (hsent : s.net.outbound = responses settings m₀ done) (hunread : s.net.inbound = stream rest) :
    Phase settings m₀ adus s (workload settings (m₀.afterAll settings done) rest) := by
  cases rest with
  | nil =>
      rw [List.append_nil] at hsplit
      subst hsplit
      exact .idle hanswered hstate hpos hworld hsent hunread
  | cons a rest =>
      have hlen : 0 < a.bytes.length := by
        rw [a.length_bytes]
        exact Nat.add_pos_left (by decide) _
      refine .reading done a rest 0 hsplit hanswered hlen ?_ hworld hsent (by simpa using hunread)
      exact ⟨hstate, by rw [hreq, List.take_zero, Memory.write_nil], hpos, hresp,
        fun hge => absurd hge (Nat.not_succ_le_zero 6)⟩

/-- Changing the plan and the time stamp does not change the phase. -/
theorem Phase.wait {left : ℕ} (h : Phase settings m₀ adus s left) :
    Phase settings m₀ adus { s.stamp streamApi with
      net := { s.net with plan := s.net.plan.tail } } left := by
  cases h with
  | idle hanswered hstate hpos hworld hsent hunread =>
      exact .idle hanswered hstate hpos hworld hsent hunread
  | reading done a rest k hsplit hanswered hk hconnection hworld hsent hunread =>
      exact .reading done a rest k hsplit hanswered hk hconnection.stamp hworld hsent hunread
  | sending done rest unsent hsplit hanswered hconnection hworld hsent hunread =>
      exact .sending done rest unsent hsplit hanswered ⟨hconnection.state, hconnection.requestAdu,
        hconnection.responseAdu, hconnection.responseAduPos, hconnection.unsent⟩ hworld hsent hunread
  | closed done a rest hsplit hanswered hstate herror hworld hsent hunread =>
      exact .closed done a rest hsplit hanswered hstate herror hworld hsent hunread

/-- A complete request is served as the abstract server serves it. -/
theorem phase_served (hcb : Reports settings Mapped) {done rest : List Adu} {a : Adu} {k : ℕ}
    (hsplit : adus = done ++ a :: rest) (hanswered : AllAnswered settings m₀ done)
    (hk : k < a.bytes.length) (hstate : s.connection.state = .receiving)
    (hsent : s.net.outbound = responses settings m₀ done) {o : Outcome σ}
    {connection : ModbusClientConnection}
    (hsame : SameService (exchange settings (m₀.afterAll settings done) a) o)
    (hhandled : Handled connection o.1 o.2.1)
    (hbuf : connection.requestAdu = (m₀.afterAll settings done).requestAdu.write 0 a.bytes)
    (hbody : processEvents settings streamApi (s.stamp streamApi)
      = (o.1, ⟨o.2.1, o.2.2, s.net.afterReading a rest a.bytes.length⟩)) :
    ∃ left', Phase settings m₀ adus (serverStep settings streamApi s .ready) left' ∧
      Advanced s (serverStep settings streamApi s .ready)
        (workload settings (m₀.afterAll settings done) (a :: rest) - k) left' := by
  have hrequest : o.2.1.requestAdu = ((m₀.afterAll settings done).after settings a).requestAdu := by
    have hexchange := (modbusServerProcessRequest_handled settings
      ((m₀.afterAll settings done).holding a) (m₀.afterAll settings done).world).requestAdu
    rw [hhandled.requestAdu, hbuf, Session.after, exchange, hexchange]
    rfl
  have hopen : s.connection.state ≠ .closed := by rw [hstate]; decide
  rcases exchange_status hcb (m₀.afterAll settings done) a with hok | hfail
  · have hstatus : o.1 = .noError := hsame.status.trans hok
    rw [serverStep_open hopen (by rw [hbody]; exact Or.inl hstatus), hbody]
    have hlen := hsame.responseAduLen hok
    have hshape : o.2.1.state = .sending ∧ o.2.1.responseAduPos = 0 ∧ 0 < o.2.1.responseAduLen := by
      rw [hstatus] at hhandled
      generalize o.2.1 = c at hhandled
      cases hhandled with
      | answered responseAdu length hlo hhi hpos => exact ⟨rfl, rfl, Nat.add_pos_left (by decide) _⟩
      | failed _ _ hfail => exact absurd rfl hfail
    obtain ⟨hsending, hpos, hposlen⟩ := hshape
    have hunsent : o.2.1.responseAdu.read 0 o.2.1.responseAduLen
        = response settings (m₀.afterAll settings done) a := by
      rw [response, hsame.responseAdu, hlen]
    refine ⟨_, .sending (done ++ [a]) rest (response settings (m₀.afterAll settings done) a)
      (by rw [hsplit]; simp) ((allAnswered_concat ..).2 ⟨hanswered, hok⟩) ?_ ?_ ?_ ?_,
      Or.inr ⟨rfl, ?_⟩⟩
    · rw [afterAll_concat]
      refine ⟨hsending, hrequest, hsame.responseAdu, by rw [hpos]; exact hposlen, ?_⟩
      rw [hpos]
      exact hunsent
    · rw [afterAll_concat]
      exact hsame.world
    · rw [responses_concat, ← hsent]
      rfl
    · simp [StreamSocket.afterReading]
    · rw [afterAll_concat, workload, if_pos hok]
      have hbool : s.net.transfers.toNat ≤ 1 := Bool.toNat_le _
      omega
  · have hstatus : o.1 = .invalidLength := hsame.status.trans hfail
    have hstep : serverStep settings streamApi s .ready = modbusServerCloseConnection streamApi
        ⟨o.2.1, o.2.2, s.net.afterReading a rest a.bytes.length⟩ := by
      simp only [serverStep, if_neg hopen, modbusServerProcessConnectionEvents, hbody, hstatus]
      rfl
    rw [hstep]
    refine ⟨0, .closed done a rest hsplit hanswered rfl hfail hsame.world ?_ ?_, Or.inl rfl⟩
    · simp only [modbusServerCloseConnection]
      split <;> exact hsent
    · simp only [modbusServerCloseConnection]
      split <;> simp [StreamSocket.afterReading, streamApi]

/-- **Every step of the handler keeps its place in the streams**, and every planned transfer brings
it closer to the end. -/
theorem phase_step (hcb : Reports settings Mapped)
    (hadus : ∀ a ∈ adus, a.WellFormed ∧ acceptsUnit settings a.unitId) {left : ℕ}
    (h : Phase settings m₀ adus s left) :
    ∃ left', Phase settings m₀ adus (serverStep settings streamApi s .ready) left' ∧
      Advanced s (serverStep settings streamApi s .ready) left left' := by
  have hphase := h
  cases h with
  | idle hanswered hstate hpos hworld hsent hunread =>
      -- nothing is left to be read, so the call times out
      have hbody : processEvents settings streamApi (s.stamp streamApi)
          = (.timeout, { s.stamp streamApi with net := { s.net with plan := s.net.plan.tail } }) := by
        have hst : (s.stamp streamApi).connection.state = .receiving := hstate
        have hp : (s.stamp streamApi).connection.requestAduPos = 0 := hpos
        have hwait := receiveHeader_wait (s := s.stamp streamApi) (receive_of_inbound_nil hunread)
        simp only [processEvents, hst, hp]
        rw [if_pos (by decide), hwait]
        rfl
      rw [serverStep_open (by rw [hstate]; decide) (by rw [hbody]; exact Or.inr rfl), hbody]
      exact ⟨0, hphase.wait, Or.inl rfl⟩
  | reading done a rest k hsplit hanswered hk hconnection hworld hsent hunread =>
      obtain ⟨hwf, hunit⟩ := hadus a (by rw [hsplit]; simp)
      have hst : (s.stamp streamApi).connection.state = .receiving := hconnection.state
      have hopen : s.connection.state ≠ .closed := by rw [hconnection.state]; decide
      have hp : (s.stamp streamApi).connection.requestAduPos = k := hconnection.requestAduPos
      by_cases hhdr : k < headerSize
      · have hbody : processEvents settings streamApi (s.stamp streamApi)
            = receiveHeader streamApi (s.stamp streamApi) := by
          simp only [processEvents, hst, hp]
          rw [if_pos hhdr]
        cases ht : s.net.transfers with
        | false =>
            rw [receiveHeader_wait (s := s.stamp streamApi) (receive_of_not_transfers ht)] at hbody
            rw [serverStep_open hopen (by rw [hbody]; exact Or.inr rfl), hbody]
            exact ⟨_, hphase.wait, Or.inr ⟨rfl, by rw [ht]; exact Nat.le_refl _⟩⟩
        | true =>
            obtain ⟨t, connection, hlo, hhi, hreading, hpiece⟩ :=
              receiveHeader_piece hwf hconnection.stamp hhdr hunread ht
            rw [hpiece] at hbody
            rw [serverStep_open hopen (by rw [hbody]; exact Or.inl rfl), hbody]
            have hpdu := hwf.nonempty
            have hlen := a.length_bytes
            refine ⟨_, .reading done a rest (k + t) hsplit hanswered (by omega) hreading hworld hsent
              rfl, Or.inr ⟨rfl, ?_⟩⟩
            rw [ht]
            simp only [workload, Bool.toNat_true]
            omega
      · have hlenadu := (hconnection.header (not_lt.1 hhdr)).1
        have hbody : processEvents settings streamApi (s.stamp streamApi)
            = receiveBody settings streamApi (s.stamp streamApi) := by
          have hl : (s.stamp streamApi).connection.requestAduLen = a.bytes.length := hlenadu
          simp only [processEvents, hst, hp, hl]
          rw [if_neg hhdr, if_pos hk]
        cases ht : s.net.transfers with
        | false =>
            rw [receiveBody_wait (s := s.stamp streamApi) ht] at hbody
            rw [serverStep_open hopen (by rw [hbody]; exact Or.inr rfl), hbody]
            exact ⟨_, hphase.wait, Or.inr ⟨rfl, by rw [ht]; exact Nat.le_refl _⟩⟩
        | true =>
            rcases receiveBody_piece hunit hconnection.stamp (not_lt.1 hhdr) hk hworld hunread ht with
              ⟨t, connection, hlo, hhi, hreading, hpiece⟩ |
              ⟨o, connection, hsame, hhandled, hbuf, hpiece⟩
            · rw [hpiece] at hbody
              rw [serverStep_open hopen (by rw [hbody]; exact Or.inl rfl), hbody]
              refine ⟨_, .reading done a rest (k + t) hsplit hanswered hhi hreading hworld hsent
                rfl, Or.inr ⟨rfl, ?_⟩⟩
              rw [ht]
              simp only [workload, Bool.toNat_true]
              omega
            · rw [hpiece] at hbody
              exact phase_served hcb hsplit hanswered hk hconnection.state hsent hsame hhandled hbuf
                hbody
  | sending done rest unsent hsplit hanswered hconnection hworld hsent hunread =>
      have hst : (s.stamp streamApi).connection.state = .sending := hconnection.state
      have hopen : s.connection.state ≠ .closed := by rw [hconnection.state]; decide
      have hbody : processEvents settings streamApi (s.stamp streamApi)
          = sendResponse streamApi (s.stamp streamApi) := by
        simp only [processEvents, hst]
        rw [if_pos (by exact hconnection.responseAduPos)]
      cases ht : s.net.transfers with
      | false =>
          rw [sendResponse_wait (s := s.stamp streamApi) ht] at hbody
          rw [serverStep_open hopen (by rw [hbody]; exact Or.inr rfl), hbody]
          exact ⟨_, hphase.wait, Or.inr ⟨rfl, by rw [ht]; exact Nat.le_refl _⟩⟩
      | true =>
          have hstamp : Sending (m₀.afterAll settings done) unsent (s.stamp streamApi).connection :=
            ⟨hconnection.state, hconnection.requestAdu, hconnection.responseAdu,
              hconnection.responseAduPos, hconnection.unsent⟩
          obtain ⟨t, hlo, hhi, connection, hpiece, hmore, hdone⟩ := sendResponse_piece hstamp ht
          rw [hpiece] at hbody
          rw [serverStep_open hopen (by rw [hbody]; exact Or.inl rfl), hbody]
          rcases Nat.lt_or_ge t unsent.length with hlt | hge
          · refine ⟨_, .sending done rest (unsent.drop t) hsplit hanswered (hmore hlt) hworld ?_
              hunread, Or.inr ⟨rfl, ?_⟩⟩
            · rw [List.append_assoc, List.take_append_drop, ← hsent]
              rfl
            · rw [ht]
              simp only [Bool.toNat_true, List.length_drop]
              omega
          · have heq : t = unsent.length := by omega
            obtain ⟨hstate', hpos', hreq', hresp'⟩ := hdone heq
            refine ⟨_, phase_next hsplit hanswered hstate' hpos' hreq' hresp' hworld ?_ hunread,
              Or.inr ⟨rfl, ?_⟩⟩
            · rw [heq, List.take_length, ← hsent]
              rfl
            · rw [ht]
              simp only [Bool.toNat_true]
              omega
  | closed done a rest hsplit hanswered hstate herror hworld hsent hunread =>
      have hstep : serverStep settings streamApi s .ready = s := by
        simp only [serverStep, if_pos hstate]
      rw [hstep]
      exact ⟨0, hphase, Or.inl rfl⟩

/-- Number of calls that transfer something among those planned. -/
def transferCount (plan : List (Option ℕ)) : ℕ := plan.countP Option.isSome

theorem transferCount_take_succ (v : StreamSocket) (n : ℕ) :
    transferCount (v.plan.take (n + 1))
      = v.transfers.toNat + transferCount (v.plan.tail.take n) := by
  unfold StreamSocket.transfers transferCount
  cases hplan : v.plan with
  | nil => simp
  | cons p plan =>
      cases p with
      | none => simp
      | some k => simp [Nat.add_comm]

/-- Runs keep the handler's place, and `left` planned transfers bring it to the end. -/
theorem phase_run (hcb : Reports settings Mapped)
    (hadus : ∀ a ∈ adus, a.WellFormed ∧ acceptsUnit settings a.unitId) (n : ℕ) {left : ℕ}
    (h : Phase settings m₀ adus s left) :
    ∃ left', Phase settings m₀ adus
        (run (serverStep settings streamApi) s (List.replicate n .ready)) left' ∧
      left' ≤ left - transferCount (s.net.plan.take n) := by
  induction n generalizing s left with
  | zero => exact ⟨left, h, by simp [transferCount]⟩
  | succ n ih =>
      obtain ⟨left₁, h₁, hadv⟩ := phase_step hcb hadus h
      obtain ⟨left₂, h₂, hle⟩ := ih h₁
      refine ⟨left₂, h₂, ?_⟩
      rw [transferCount_take_succ]
      rcases hadv with hzero | ⟨hplan, hless⟩
      · omega
      · rw [hplan] at hle
        omega

end Runs

/-! ## What can be observed -/

section Observed

variable (m₀ : Session σ) (adus : List Adu) (s : Server σ StreamSocket)

/-- The service of the stream `adus`, as seen from outside the handler: which requests were handed to
`modbusServerProcessRequest`, what was sent, and what is still unread. -/
inductive Observed : Prop where
  /-- The requests `done` are answered and the answers sent; `k` bytes of the next request are read. -/
  | waiting (done rest : List Adu) (k : ℕ) (hsplit : adus = done ++ rest)
      (hanswered : AllAnswered settings m₀ done)
      (hworld : s.world = (m₀.afterAll settings done).world)
      (hhanded : s.world.pdus = m₀.world.pdus ++ done.map Adu.pdu)
      (hsent : s.net.outbound = responses settings m₀ done)
      (hunread : s.net.inbound = (stream rest).drop k)
      (hk : ∀ a ∈ rest.head?, k < a.bytes.length)
  /-- The requests `done` are answered but part of the answers is not sent, and no byte of the next
  request is read. -/
  | sending (done rest : List Adu) (unsent : List UInt8) (hsplit : adus = done ++ rest)
      (hanswered : AllAnswered settings m₀ done)
      (hworld : s.world = (m₀.afterAll settings done).world)
      (hhanded : s.world.pdus = m₀.world.pdus ++ done.map Adu.pdu)
      (hsent : s.net.outbound ++ unsent = responses settings m₀ done)
      (hunread : s.net.inbound = stream rest)
  /-- The requests `done` are answered and the answers sent; the next one was handed over, its handler
  has reported `ERROR_INVALID_LENGTH`, and the connection is closed. -/
  | closed (done : List Adu) (a : Adu) (rest : List Adu) (hsplit : adus = done ++ a :: rest)
      (hanswered : AllAnswered settings m₀ done)
      (herror : (exchange settings (m₀.afterAll settings done) a).1 = .invalidLength)
      (hworld : s.world = ((m₀.afterAll settings done).after settings a).world)
      (hhanded : s.world.pdus = m₀.world.pdus ++ (done ++ [a]).map Adu.pdu)
      (hsent : s.net.outbound = responses settings m₀ done)
      (hunread : s.net.inbound = stream rest)
      (hstate : s.connection.state = .closed)

/-- The service has come to its end: every request was handed over and every response sent, or
everything up to the first request whose handler reports `ERROR_INVALID_LENGTH`. -/
def Complete : Prop :=
  (AllAnswered settings m₀ adus ∧ s.world.pdus = m₀.world.pdus ++ adus.map Adu.pdu ∧
    s.net.outbound = responses settings m₀ adus ∧ s.net.inbound = []) ∨
  ∃ done a rest, adus = done ++ a :: rest ∧ AllAnswered settings m₀ done ∧
    (exchange settings (m₀.afterAll settings done) a).1 = .invalidLength ∧
    s.world.pdus = m₀.world.pdus ++ (done ++ [a]).map Adu.pdu ∧
    s.net.outbound = responses settings m₀ done ∧ s.connection.state = .closed

variable {settings m₀ adus s} (hadus : ∀ a ∈ adus, a.WellFormed)
include hadus

theorem Phase.handed {done rest : List Adu} (hsplit : adus = done ++ rest) :
    (m₀.afterAll settings done).world.pdus = m₀.world.pdus ++ done.map Adu.pdu :=
  afterAll_pdus settings m₀ fun a ha => hadus a (by rw [hsplit]; exact List.mem_append_left _ ha)

theorem Phase.handed_closed {done rest : List Adu} {a : Adu} (hsplit : adus = done ++ a :: rest) :
    ((m₀.afterAll settings done).after settings a).world.pdus
      = m₀.world.pdus ++ (done ++ [a]).map Adu.pdu := by
  rw [← afterAll_concat]
  exact Phase.handed hadus (hsplit.trans (List.append_cons done a rest))

theorem Phase.observed {left : ℕ} (h : Phase settings m₀ adus s left) :
    Observed settings m₀ adus s := by
  cases h with
  | idle hanswered hstate hpos hworld hsent hunread =>
      refine .waiting adus [] 0 (by simp) hanswered hworld ?_ hsent (by simpa using hunread)
        (by simp)
      rw [hworld]
      exact Phase.handed hadus (List.append_nil adus).symm
  | reading done a rest k hsplit hanswered hk hconnection hworld hsent hunread =>
      refine .waiting done (a :: rest) k hsplit hanswered hworld ?_ hsent ?_ ?_
      · rw [hworld]
        exact Phase.handed hadus hsplit
      · rw [hunread, stream_cons, List.drop_append_of_le_length (by omega)]
      · intro b hb
        obtain rfl : a = b := by simpa using hb
        exact hk
  | sending done rest unsent hsplit hanswered hconnection hworld hsent hunread =>
      refine .sending done rest unsent hsplit hanswered hworld ?_ hsent hunread
      rw [hworld]
      exact Phase.handed hadus hsplit
  | closed done a rest hsplit hanswered hstate herror hworld hsent hunread =>
      refine .closed done a rest hsplit hanswered herror hworld ?_ hsent hunread hstate
      rw [hworld]
      exact Phase.handed_closed hadus hsplit

theorem Phase.complete {left : ℕ} (h : Phase settings m₀ adus s left) (hleft : left = 0) :
    Complete settings m₀ adus s := by
  cases h with
  | idle hanswered hstate hpos hworld hsent hunread =>
      refine Or.inl ⟨hanswered, ?_, hsent, hunread⟩
      rw [hworld]
      exact Phase.handed hadus (List.append_nil adus).symm
  | reading done a rest k hsplit hanswered hk hconnection hworld hsent hunread =>
      rw [workload] at hleft
      omega
  | sending done rest unsent hsplit hanswered hconnection hworld hsent hunread =>
      have hpos := hconnection.responseAduPos
      have hlen : unsent.length = s.connection.responseAduLen - s.connection.responseAduPos := by
        rw [← hconnection.unsent, Memory.length_read]
      omega
  | closed done a rest hsplit hanswered hstate herror hworld hsent hunread =>
      refine Or.inr ⟨done, a, rest, hsplit, hanswered, herror, ?_, hsent, hstate⟩
      rw [hworld]
      exact Phase.handed_closed hadus hsplit

end Observed

/-- The session of a connection that has just been accepted. -/
def acceptedSession (world : ServerWorld σ) : Session σ := ⟨fun _ => 0, fun _ => 0, world⟩

/-- A connection that has just been accepted, with the stream `adus` to come in the pieces of
`plan`. -/
def acceptedServer (socket : ℕ) (time : UInt32) (world : ServerWorld σ) (adus : List Adu)
    (plan : List (Option ℕ)) (clock : ℕ → UInt32) : Server σ StreamSocket where
  connection := acceptedConnection socket time
  world := world
  net := { inbound := stream adus, outbound := [], plan := plan, clock := clock, isClosed := false }

/-- **Framing is independent of TCP segmentation.** Let a client send any sequence of well-formed
requests to accepted units. However the two directions of the stream are cut into pieces, and wherever
the calls time out: after any number of calls of the handler, the requests handed to the request
handler are the first ones of the stream, once each and in order; what was sent is a prefix of their
responses, and all of it before any byte of a further request was read. As soon as the plan has
transferred enough, the service is complete. -/
theorem server_framing (hcb : Reports settings Mapped) (adus : List Adu)
    (hadus : ∀ a ∈ adus, a.WellFormed ∧ acceptsUnit settings a.unitId) (socket : ℕ) (time : UInt32)
    (world : ServerWorld σ) (plan : List (Option ℕ)) (clock : ℕ → UInt32) (n : ℕ) :
    Observed settings (acceptedSession world) adus
        (run (serverStep settings streamApi) (acceptedServer socket time world adus plan clock)
          (List.replicate n .ready)) ∧
      (workload settings (acceptedSession world) adus ≤ transferCount (plan.take n) →
        Complete settings (acceptedSession world) adus
          (run (serverStep settings streamApi) (acceptedServer socket time world adus plan clock)
            (List.replicate n .ready))) := by
  have hwf : ∀ a ∈ adus, a.WellFormed := fun a ha => (hadus a ha).1
  have hstart : Phase settings (acceptedSession world) adus
      (acceptedServer socket time world adus plan clock)
      (workload settings (acceptedSession world) adus) :=
    phase_next (List.nil_append adus).symm trivial rfl rfl rfl rfl rfl rfl rfl
  obtain ⟨left, hphase, hleft⟩ := phase_run hcb hadus n hstart
  refine ⟨hphase.observed hwf, fun henough => hphase.complete hwf ?_⟩
  have hplan : (acceptedServer socket time world adus plan clock).net.plan = plan := rfl
  rw [hplan] at hleft
  omega

/-- One Read Holding Registers request, byte by byte. -/
theorem server_framing_readHoldingRegs :
    Observed noCallbacks (acceptedSession ⟨(), [], []⟩) [⟨1, 9, [3, 0, 0, 0, 1]⟩]
        (run (serverStep noCallbacks streamApi)
          (acceptedServer 0 0 ⟨(), [], []⟩ [⟨1, 9, [3, 0, 0, 0, 1]⟩] (List.replicate 40 (some 0))
            fun _ => 0) (List.replicate 30 .ready)) ∧
      (workload noCallbacks (acceptedSession ⟨(), [], []⟩) [⟨1, 9, [3, 0, 0, 0, 1]⟩]
          ≤ transferCount ((List.replicate 40 (some 0)).take 30) →
        Complete noCallbacks (acceptedSession ⟨(), [], []⟩) [⟨1, 9, [3, 0, 0, 0, 1]⟩]
          (run (serverStep noCallbacks streamApi)
            (acceptedServer 0 0 ⟨(), [], []⟩ [⟨1, 9, [3, 0, 0, 0, 1]⟩] (List.replicate 40 (some 0))
              fun _ => 0) (List.replicate 30 .ready))) :=
  server_framing noCallbacks (noCallbacks_reports _ 255) _ (by
    intro a ha
    obtain rfl := List.mem_singleton.1 ha
    exact ⟨⟨by decide, by decide⟩, by decide⟩) 0 0 _ _ _ _

end Modbus
