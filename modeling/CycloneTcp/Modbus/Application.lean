import CycloneTcp.Modbus.Device
import CycloneTcp.Modbus.ServerFraming
import CycloneTcp.Modbus.ServerTable

/-! # The server of the application

The application keeps two coils and two registers, and serves them with its callbacks to several clients
at once. It behaves like one device: a client's stream of requests is answered, whatever pieces it
comes in, by the stream of the device's responses; and over the whole connection table every response
is the one that the device gives at a definite place in a single sequence of requests, which is the
order in which the requests were handed to the handlers. -/

set_option autoImplicit false

namespace Modbus

/-! ## The callbacks of the application -/

/-- The variables `serverReg` and `serverCoil`. -/
structure Application where
  serverReg : Fin 2 → UInt16
  serverCoil : Fin 2 → Bool

namespace Application

/-- The indices of the two arrays. -/
def first : Fin 2 := ⟨0, Nat.zero_lt_two⟩

def second : Fin 2 := ⟨1, Nat.one_lt_two⟩

/-- `modbusServerLockCallback`. -/
def modbusServerLockCallback (s : Application) : Application := s

/-- `modbusServerUnlockCallback`. -/
def modbusServerUnlockCallback (s : Application) : Application := s

/-- `modbusServerReadCoilCallback`. Where it fails, `*state` is not written, and not used. -/
def modbusServerReadCoilCallback (address : UInt16) (s : Application) :
    ErrorCode × Bool × Application :=
  if address = 0 then
    (.noError, s.serverCoil first, s)
  else if address = 1 then
    (.noError, s.serverCoil second, s)
  else
    (.invalidAddress, false, s)

/-- `modbusServerWriteCoilCallback`. -/
def modbusServerWriteCoilCallback (address : UInt16) (state commit : Bool) (s : Application) :
    ErrorCode × Application :=
  if address = 0 then
    (.noError, if commit then { s with serverCoil := Function.update s.serverCoil first state } else s)
  else if address = 1 then
    (.noError, if commit then { s with serverCoil := Function.update s.serverCoil second state } else s)
  else
    (.invalidAddress, s)

/-- `modbusServerReadRegCallback`. -/
def modbusServerReadRegCallback (address : UInt16) (s : Application) :
    ErrorCode × UInt16 × Application :=
  if address = 0 then
    (.noError, s.serverReg first, s)
  else if address = 1 then
    (.noError, s.serverReg second, s)
  else
    (.invalidAddress, 0, s)

/-- `modbusServerWriteRegCallback`. -/
def modbusServerWriteRegCallback (address value : UInt16) (commit : Bool) (s : Application) :
    ErrorCode × Application :=
  if address = 0 then
    (.noError, if commit then { s with serverReg := Function.update s.serverReg first value } else s)
  else if address = 1 then
    (.noError, if commit then { s with serverReg := Function.update s.serverReg second value } else s)
  else
    (.invalidAddress, s)

/-- The settings that `main` makes for the server, over the default unit identifier. -/
def modbusServerSettings : ModbusServerSettings Application where
  unitId := 255
  lockCallback := some modbusServerLockCallback
  unlockCallback := modbusServerUnlockCallback
  readCoilCallback := some modbusServerReadCoilCallback
  writeCoilCallback := some modbusServerWriteCoilCallback
  readRegCallback := some modbusServerReadRegCallback
  writeRegValueCallback := some modbusServerWriteRegCallback

/-- The device of the application: two coils and two registers. -/
def device : Device where
  hasCoil a := a = 0 || a = 1
  hasReg a := a = 0 || a = 1

/-- The entries of the application, the others are zero. -/
def table (s : Application) : Table where
  coils a := if a = 0 then s.serverCoil first else if a = 1 then s.serverCoil second else false
  regs a := if a = 0 then s.serverReg first else if a = 1 then s.serverReg second else 0

theorem table_coil (s : Application) (i : Fin 2) (state : Bool) :
    table { s with serverCoil := Function.update s.serverCoil i state }
      = s.table.setCoil (UInt16.ofNat i) state := by
  simp only [table, Table.setCoil, Table.mk.injEq, and_true]
  funext a
  fin_cases i
  · by_cases ha : a = 0 <;> simp [ha, first, second]
  · by_cases ha : a = 1 <;> simp [ha, first, second]

theorem table_reg (s : Application) (i : Fin 2) (value : UInt16) :
    table { s with serverReg := Function.update s.serverReg i value }
      = s.table.setReg (UInt16.ofNat i) value := by
  simp only [table, Table.setReg, Table.mk.injEq, true_and]
  funext a
  fin_cases i
  · by_cases ha : a = 0 <;> simp [ha, first, second]
  · by_cases ha : a = 1 <;> simp [ha, first, second]

theorem has_iff {a : UInt16} : (a = 0 || a = 1) = true ↔ a = 0 ∨ a = 1 := by simp

/-- The callbacks know two coils and two registers. -/
theorem serves : ServesDevice modbusServerSettings table device where
  lock f hf s := by
    cases hf
    rfl
  unlock _ := rfl
  readCoil := by
    refine ⟨_, rfl, fun a s => ?_⟩
    simp only [modbusServerReadCoilCallback, device, table]
    split_ifs <;> simp_all
  writeCoil := by
    refine ⟨_, rfl, fun a b commit s => ?_⟩
    by_cases ha : a = 0 ∨ a = 1
    · rcases ha with rfl | rfl
      · cases commit
        · exact ⟨rfl, rfl⟩
        · exact ⟨rfl, table_coil s first b⟩
      · cases commit
        · exact ⟨rfl, rfl⟩
        · exact ⟨rfl, table_coil s second b⟩
    · have hno : ¬ device.hasCoil a = true := fun h => ha (has_iff.1 h)
      rw [if_neg hno, if_neg fun h => hno h.1, modbusServerWriteCoilCallback,
        if_neg fun h => ha (.inl h), if_neg fun h => ha (.inr h)]
      exact ⟨rfl, rfl⟩
  readReg := by
    refine ⟨_, rfl, fun a s => ?_⟩
    simp only [modbusServerReadRegCallback, device, table]
    split_ifs <;> simp_all
  writeReg := by
    refine ⟨_, rfl, fun a v commit s => ?_⟩
    by_cases ha : a = 0 ∨ a = 1
    · rcases ha with rfl | rfl
      · cases commit
        · exact ⟨rfl, rfl⟩
        · exact ⟨rfl, table_reg s first v⟩
      · cases commit
        · exact ⟨rfl, rfl⟩
        · exact ⟨rfl, table_reg s second v⟩
    · have hno : ¬ device.hasReg a = true := fun h => ha (has_iff.1 h)
      rw [if_neg hno, if_neg fun h => hno h.1, modbusServerWriteRegCallback,
        if_neg fun h => ha (.inl h), if_neg fun h => ha (.inr h)]
      exact ⟨rfl, rfl⟩

end Application

/-! ## Several requests -/

namespace Device

variable (d : Device)

/-- The table after some requests. -/
def after (t : Table) (requests : List (List UInt8)) : Table :=
  requests.foldl (fun t request => (d.answer t request).1) t

theorem after_concat (t : Table) (requests : List (List UInt8)) (request : List UInt8) :
    d.after t (requests ++ [request]) = (d.answer (d.after t requests) request).1 := by
  rw [after, List.foldl_append]
  rfl

/-- A client's requests are served until one of them is given up: the table, and the responses under
the identifiers of their requests. -/
def serve (t : Table) : List Adu → Table × List Adu
  | [] => (t, [])
  | a :: as =>
      match (d.answer t a.pdu).2 with
      | some response =>
          ((serve (d.answer t a.pdu).1 as).1,
            ⟨a.transactionId, a.unitId, response⟩ :: (serve (d.answer t a.pdu).1 as).2)
      | none => ((d.answer t a.pdu).1, [])

/-- A request that is answered. -/
theorem serve_cons {t t' : Table} {a : Adu} {response : List UInt8}
    (h : d.answer t a.pdu = (t', some response)) (as : List Adu) :
    d.serve t (a :: as)
      = ((d.serve t' as).1, ⟨a.transactionId, a.unitId, response⟩ :: (d.serve t' as).2) := by
  simp only [serve, h]

/-- A request that is given up ends the service. -/
theorem serve_stop {t t' : Table} {a : Adu} (h : d.answer t a.pdu = (t', none)) (as : List Adu) :
    d.serve t (a :: as) = (t', []) := by
  simp only [serve, h]

end Device

/-! ## One client -/

section Stream

variable {σ : Type*} {settings : ModbusServerSettings σ} {view : σ → Table} {d : Device}
  (h : ServesDevice settings view d)

theorem mapped_ite (p : Prop) [Decidable p] :
    Mapped (if p then .noError else .invalidAddress) := by
  split
  · exact .inl rfl
  · exact .inr (.inr rfl)

theorem holding_requestPdu (m : Session σ) {a : Adu} (ha : a.WellFormed) :
    (m.holding a).requestPdu = a.pdu := by
  have hlen : (modbusServerGetRequestPdu (m.holding a)).2 = a.pdu.length := by
    simp only [modbusServerGetRequestPdu, Session.holding, Adu.length_bytes]
    rw [if_pos (by omega), Nat.add_sub_cancel_left]
  have hpdus := after_pdus (noCallbacks) ⟨m.requestAdu, m.responseAdu, ⟨(), [], []⟩⟩ ha
  have hhanded := modbusServerProcessRequest_pdus noCallbacks (m.holding a) ⟨(), [], []⟩
    (by rw [hlen]; exact Nat.ne_of_gt ha.nonempty)
  exact List.singleton_inj.1 (hhanded.symm.trans hpdus)

/-- The response goes out as an ADU. -/
theorem replyBytes_write (m : Memory UInt8) (a : Adu) (response : List UInt8) :
    replyBytes (m.write 0 a.bytes) response
      = Adu.bytes ⟨a.transactionId, a.unitId, response⟩ := by
  have hcell (i : ℕ) (hi : i < headerSize) : m.write 0 a.bytes i = a.header.get ⟨i, hi⟩ :=
    a.header_apply (show a.header <+: a.bytes from List.prefix_append ..) i hi
  have hfront (m : Memory UInt8) : m.read 0 4 = [m 0, m 1, m 2, m 3] := rfl
  rw [replyBytes, hfront, hcell 0 (by decide), hcell 1 (by decide), hcell 2 (by decide),
    hcell 3 (by decide), hcell 6 (by decide)]
  rfl

include h

theorem exchange_served (m : Session σ) {a : Adu} (ha : a.WellFormed) (hend : ¬ Truncated a.pdu) :
    Served view d (m.holding a) m.world (exchange settings m a) := by
  have hpdu := holding_requestPdu m ha
  refine modbusServerProcessRequest_served h ?_ m.world (by rwa [hpdu])
  exact (Nat.le_add_right _ _).trans (Adu.length_bytes a).ge

/-- A request that is answered, as the client sees it. -/
theorem answered_exchange (m : Session σ) {a : Adu} (ha : a.WellFormed) (hend : ¬ Truncated a.pdu)
    (hok : (exchange settings m a).1 = .noError) :
    ∃ reply, d.answer (view m.world.user) a.pdu
        = (view (m.after settings a).world.user, some reply) ∧
      response settings m a = Adu.bytes ⟨a.transactionId, a.unitId, reply⟩ := by
  have hserved := exchange_served h m ha hend
  cases hserved with
  | answered reply hanswer hok' hstate hpos hrequest hbytes =>
      rw [holding_requestPdu m ha] at hanswer
      exact ⟨reply, hanswer, hbytes.trans (replyBytes_write _ _ _)⟩
  | malformed hanswer herror =>
      rw [herror] at hok
      cases hok

/-- A request that is given up. -/
theorem malformed_exchange (m : Session σ) {a : Adu} (ha : a.WellFormed) (hend : ¬ Truncated a.pdu)
    (herror : (exchange settings m a).1 = .invalidLength) :
    d.answer (view m.world.user) a.pdu = (view (m.after settings a).world.user, none) := by
  have hserved := exchange_served h m ha hend
  cases hserved with
  | answered reply hanswer hok' hstate hpos hrequest hbytes =>
      rw [hok'] at herror
      cases herror
  | malformed hanswer herror' =>
      rw [holding_requestPdu m ha] at hanswer
      exact hanswer

/-- The requests that are answered are those that the device serves. -/
theorem serve_answered (m : Session σ) {done : List Adu}
    (hdone : ∀ a ∈ done, a.WellFormed ∧ ¬ Truncated a.pdu) (hanswered : AllAnswered settings m done) :
    (d.serve (view m.world.user) done).1 = view (m.afterAll settings done).world.user ∧
      stream (d.serve (view m.world.user) done).2 = responses settings m done ∧
      ∀ rest, d.serve (view m.world.user) (done ++ rest)
        = ((d.serve (view (m.afterAll settings done).world.user) rest).1,
          (d.serve (view m.world.user) done).2
            ++ (d.serve (view (m.afterAll settings done).world.user) rest).2) := by
  induction done generalizing m with
  | nil => exact ⟨rfl, rfl, fun _ => rfl⟩
  | cons a as ih =>
      obtain ⟨hok, hrest⟩ := hanswered
      have ha := hdone a List.mem_cons_self
      obtain ⟨reply, hanswer, hbytes⟩ := answered_exchange h m ha.1 ha.2 hok
      obtain ⟨htable, hstream, hserve⟩ := ih (m.after settings a)
        (fun b hb => hdone b (List.mem_cons_of_mem _ hb)) hrest
      rw [d.serve_cons hanswer]
      refine ⟨htable, ?_, fun rest => ?_⟩
      · rw [stream_cons, hstream, responses, hbytes]
      · rw [List.cons_append, d.serve_cons hanswer, hserve]
        rfl

theorem workload_le (m : Session σ) {adus : List Adu}
    (hadus : ∀ a ∈ adus, a.WellFormed ∧ ¬ Truncated a.pdu) :
    workload settings m adus
      ≤ (stream adus).length + (stream (d.serve (view m.world.user) adus).2).length := by
  induction adus generalizing m with
  | nil => exact Nat.zero_le _
  | cons a as ih =>
      have ha := hadus a List.mem_cons_self
      rw [workload, stream_cons, List.length_append]
      split
      · next hok =>
        obtain ⟨reply, hanswer, hbytes⟩ := answered_exchange h m ha.1 ha.2 hok
        have hle := ih (m.after settings a) fun b hb => hadus b (List.mem_cons_of_mem _ hb)
        rw [d.serve_cons hanswer, stream_cons, List.length_append, ← hbytes]
        omega
      · omega

theorem ServesDevice.reports : Reports settings Mapped where
  readCoil f hf a s := by
    obtain ⟨g, hg, hspec⟩ := h.readCoil
    cases hg.symm.trans hf
    rw [(hspec a s).1]
    exact mapped_ite _
  writeCoil f hf a b c s := by
    obtain ⟨g, hg, hspec⟩ := h.writeCoil
    cases hg.symm.trans hf
    rw [(hspec a b c s).1]
    exact mapped_ite _
  readReg f hf a s := by
    obtain ⟨g, hg, hspec⟩ := h.readReg
    cases hg.symm.trans hf
    rw [(hspec a s).1]
    exact mapped_ite _
  writeReg f hf a v c s := by
    obtain ⟨g, hg, hspec⟩ := h.writeReg
    cases hg.symm.trans hf
    rw [(hspec a v c s).1]
    exact mapped_ite _

/-- **The server behaves like the device, whatever pieces the requests come in.** After any number of
calls of the handler there is a first part of the requests that has been handed over: the table is the
one the device leaves after it, and what was sent begins the device's responses to it. Once enough has
been transferred, these are all the requests that the device serves, and all of its responses. -/
theorem server_stream (adus : List Adu)
    (hadus : ∀ a ∈ adus, a.WellFormed ∧ acceptsUnit settings a.unitId ∧ ¬ Truncated a.pdu)
    (socket : ℕ) (time : UInt32) (user : σ) (plan : List (Option ℕ)) (clock : ℕ → UInt32) (n : ℕ) :
    let s := run (serverStep settings streamApi)
      (acceptedServer socket time ⟨user, [], []⟩ adus plan clock) (List.replicate n .ready)
    (∃ done, done <+: adus ∧ s.world.pdus = done.map Adu.pdu ∧
      view s.world.user = (d.serve (view user) done).1 ∧
      s.net.outbound <+: stream (d.serve (view user) done).2) ∧
    ((stream adus).length + (stream (d.serve (view user) adus).2).length
        ≤ transferCount (plan.take n) →
      view s.world.user = (d.serve (view user) adus).1 ∧
        s.net.outbound = stream (d.serve (view user) adus).2) := by
  intro s
  have hstart : Phase settings (acceptedSession ⟨user, [], []⟩) adus
      (acceptedServer socket time ⟨user, [], []⟩ adus plan clock)
      (workload settings (acceptedSession ⟨user, [], []⟩) adus) :=
    phase_next (List.nil_append adus).symm trivial rfl rfl rfl rfl rfl rfl rfl
  obtain ⟨left, hphase, hleft⟩ := phase_run h.reports (fun a ha => ⟨(hadus a ha).1, (hadus a ha).2.1⟩)
    n hstart
  have hwf : ∀ a ∈ adus, a.WellFormed := fun a ha => (hadus a ha).1
  have hserved : ∀ a ∈ adus, a.WellFormed ∧ ¬ Truncated a.pdu :=
    fun a ha => ⟨(hadus a ha).1, (hadus a ha).2.2⟩
  have hdone {done rest : List Adu} (hsplit : adus = done ++ rest)
      (hanswered : AllAnswered settings (acceptedSession ⟨user, [], []⟩) done) :
      (d.serve (view user) done).1
          = view ((acceptedSession ⟨user, [], []⟩).afterAll settings done).world.user ∧
        stream (d.serve (view user) done).2
          = responses settings (acceptedSession ⟨user, [], []⟩) done ∧
        ∀ rest, d.serve (view user) (done ++ rest) = _ :=
    serve_answered h (acceptedSession ⟨user, [], []⟩)
      (fun a ha => hserved a (by rw [hsplit]; exact List.mem_append_left _ ha)) hanswered
  have hwork := workload_le h (acceptedSession ⟨user, [], []⟩) hserved
  have hplan : (acceptedServer socket time ⟨user, [], []⟩ adus plan clock).net.plan = plan := rfl
  rw [hplan] at hleft
  change Phase settings (acceptedSession ⟨user, [], []⟩) adus s left at hphase
  change _ ≤ _ + (stream (d.serve (view user) adus).2).length at hwork
  have hzero : (stream adus).length + (stream (d.serve (view user) adus).2).length
      ≤ transferCount (plan.take n) → left = 0 := by
    intro henough
    omega
  cases hphase with
  | idle hanswered hstate hpos hworld hsent hunread =>
      obtain ⟨htable, hstream, -⟩ := hdone (List.append_nil adus).symm hanswered
      rw [← hworld] at htable
      rw [← hsent] at hstream
      refine ⟨⟨adus, List.prefix_rfl, ?_, htable.symm, ?_⟩, fun _ => ⟨htable.symm, hstream.symm⟩⟩
      · rw [hworld, Phase.handed hwf (List.append_nil adus).symm]
        rfl
      · rw [hstream]
  | reading done a rest k hsplit hanswered hk hconnection hworld hsent hunread =>
      obtain ⟨htable, hstream, -⟩ := hdone hsplit hanswered
      rw [← hworld] at htable
      rw [← hsent] at hstream
      refine ⟨⟨done, hsplit ▸ List.prefix_append .., ?_, htable.symm, ?_⟩, fun henough => ?_⟩
      · rw [hworld, Phase.handed hwf hsplit]
        rfl
      · rw [hstream]
      · have hpositive := hzero henough
        rw [workload] at hpositive
        omega
  | sending done rest unsent hsplit hanswered hconnection hworld hsent hunread =>
      obtain ⟨htable, hstream, -⟩ := hdone hsplit hanswered
      rw [← hworld] at htable
      rw [← hsent] at hstream
      refine ⟨⟨done, hsplit ▸ List.prefix_append .., ?_, htable.symm, ?_⟩, fun henough => ?_⟩
      · rw [hworld, Phase.handed hwf hsplit]
        rfl
      · rw [hstream]
        exact List.prefix_append ..
      · have hpos := hconnection.responseAduPos
        have hlength := congrArg List.length hconnection.unsent
        rw [Memory.length_read] at hlength
        have hpositive := hzero henough
        omega
  | closed done a rest hsplit hanswered hstate herror hworld hsent hunread =>
      obtain ⟨htable, hstream, hserve⟩ := hdone hsplit hanswered
      have ha := hserved a (by rw [hsplit]; exact List.mem_append_right _ List.mem_cons_self)
      have hstop := malformed_exchange h _ ha.1 ha.2 herror
      rw [← hworld] at hstop
      rw [← hsent] at hstream
      have hend (rest : List Adu) : d.serve (view user) (done ++ a :: rest)
          = (view s.world.user, (d.serve (view user) done).2) := by
        rw [hserve, d.serve_stop hstop, List.append_nil]
        rfl
      refine ⟨⟨done ++ [a], ?_, ?_, ?_, ?_⟩, fun _ => ?_⟩
      · exact ⟨rest, (List.append_cons ..).symm.trans hsplit.symm⟩
      · rw [hworld, Phase.handed_closed hwf hsplit]
        rfl
      · rw [hend []]
      · rw [hend [], hstream]
      · rw [hsplit, hend rest]
        exact ⟨rfl, hstream.symm⟩

end Stream

/-- Two requests, byte by byte: register 0 is written, and read. -/
theorem server_stream_writeRead :
    let s := run (serverStep Application.modbusServerSettings streamApi)
      (acceptedServer 5 0 ⟨⟨fun _ => 0, fun _ => false⟩, [], []⟩
        [⟨1, 255, [6, 0, 0, 18, 52]⟩, ⟨2, 255, [3, 0, 0, 0, 1]⟩] (List.replicate 60 (some 0))
        fun _ => 0) (List.replicate 60 .ready)
    s.net.outbound = stream [⟨1, 255, [6, 0, 0, 18, 52]⟩, ⟨2, 255, [3, 2, 18, 52]⟩] := by
  refine ((server_stream Application.serves _ (fun a ha => ?_) 5 0 _ _ _ 60).2 (by decide +kernel)).2.trans
    (by decide +kernel)
  rcases List.mem_cons.1 ha with rfl | ha
  · exact ⟨⟨by decide, by decide⟩, by decide, by decide⟩
  · rw [List.mem_singleton.1 ha]
    exact ⟨⟨by decide, by decide⟩, by decide, by decide⟩

/-! ## All clients -/

/-- The response is the device's, to a request at a definite place of the sequence. -/
def AnswersAt (d : Device) (t : Table) (requests : List (List UInt8)) (k : ℕ)
    (request response : List UInt8) : Prop :=
  requests[k]? = some request ∧ (d.answer (d.after t (requests.take k)) request).2 = some response

/-- The response buffer of a connection has the response of the device to the request of the
connection, which was the `k`-th of all. -/
def AnswersOwn (d : Device) (t : Table) (requests : List (List UInt8)) (k : ℕ)
    (connection : ModbusClientConnection) : Prop :=
  ∃ response, AnswersAt d t requests k connection.requestPdu response ∧
    connection.responseBytes = replyBytes connection.requestAdu response

theorem AnswersOwn.concat {d : Device} {t : Table} {requests : List (List UInt8)} {k : ℕ} {c : ModbusClientConnection}
    (h : AnswersOwn d t requests k c) (request : List UInt8) :
    AnswersOwn d t (requests ++ [request]) k c := by
  obtain ⟨response, ⟨hrequest, hanswer⟩, hbytes⟩ := h
  have hk : k < requests.length := (List.getElem?_eq_some_iff.1 hrequest).1
  refine ⟨response, ⟨?_, ?_⟩, hbytes⟩
  · rwa [List.getElem?_append_left hk]
  · rwa [List.take_append_of_le_length hk.le]

theorem AnswersOwn.lt {d : Device} {t : Table} {requests : List (List UInt8)} {k : ℕ} {c : ModbusClientConnection}
    (h : AnswersOwn d t requests k c) : k < requests.length := by
  obtain ⟨response, ⟨hrequest, -⟩, -⟩ := h
  exact (List.getElem?_eq_some_iff.1 hrequest).1

/-- A connection that is sending has been sending the same response before. -/
def KeepsResponse (c c' : ModbusClientConnection) : Prop :=
  c'.state = .sending → c.state = .sending ∧ c'.requestAdu = c.requestAdu ∧
    c'.requestPdu = c.requestPdu ∧ c'.responseBytes = c.responseBytes

/-- What the event handler does with an entry: it leaves the world alone, and the response if there is
one, or it serves the request of the entry. -/
inductive Attended {σ ν : Type*} (view : σ → Table) (d : Device) (s r : Server σ ν) : Prop
  | quiet (hworld : r.world = s.world)
      (hsending : KeepsResponse s.connection r.connection)
  | served (request : List UInt8) (hpdus : r.world.pdus = s.world.pdus ++ [request])
      (hanswer : ¬ Truncated request →
        view r.world.user = (d.answer (view s.world.user) request).1 ∧
        (r.connection.state = .sending → r.connection.requestPdu = request ∧
          ∃ response, (d.answer (view s.world.user) request).2 = some response ∧
            r.connection.responseBytes = replyBytes r.connection.requestAdu response))

section Entry

variable {σ ν : Type*} {settings : ModbusServerSettings σ} {view : σ → Table} {d : Device}
  {s r : Server σ ν}

theorem Attended.of_not_sending (hworld : r.world = s.world) (h : r.connection.state ≠ .sending) :
    Attended view d s r :=
  .quiet hworld fun hsending => absurd hsending h

/-- The entry may be closed behind it. -/
theorem Attended.close (h : Attended view d s r) (api : SocketApi ν) :
    Attended view d s (modbusServerCloseConnection api r) := by
  have hclosed : (modbusServerCloseConnection api r).connection.state ≠ .sending := by
    simp [modbusServerCloseConnection]
  cases h with
  | quiet hworld hsending => exact .of_not_sending hworld hclosed
  | served request hpdus hanswer =>
      exact .served request hpdus fun hend =>
        ⟨(hanswer hend).1, fun hsending => absurd hsending hclosed⟩

theorem parseMbapHeader_state (c : ModbusClientConnection) :
    (modbusServerParseMbapHeader c).2.state = c.state := by
  unfold modbusServerParseMbapHeader
  dsimp only
  repeat' split
  all_goals rfl

theorem attended_ite {p : Prop} [Decidable p] {a b : ErrorCode × Server σ ν}
    (ha : p → Attended view d s a.2) (hb : ¬p → Attended view d s b.2) :
    Attended view d s (if p then a else b).2 := by
  by_cases h : p
  · rw [if_pos h]
    exact ha h
  · rw [if_neg h]
    exact hb h

theorem receiveHeader_attended (api : SocketApi ν) (hstate : s.connection.state = .receiving) :
    Attended view d s (receiveHeader api s).2 := by
  have hopen : s.connection.state ≠ .sending := by rw [hstate]; decide
  refine attended_ite (fun _ => attended_ite (fun _ => .of_not_sending rfl ?_)
    fun _ => .of_not_sending rfl hopen) fun _ => .of_not_sending rfl hopen
  rw [parseMbapHeader_state]
  exact hopen

theorem receiveBody_attended (h : ServesDevice settings view d) (api : SocketApi ν)
    (hstate : s.connection.state = .receiving) (hpos : headerSize ≤ s.connection.requestAduPos) :
    Attended view d s (receiveBody settings api s).2 := by
  have hopen : s.connection.state ≠ .sending := by rw [hstate]; decide
  refine attended_ite (fun _ => attended_ite (fun _ => ?_) fun _ => .of_not_sending rfl hopen)
    fun _ => .of_not_sending rfl hopen
  set c := (s.connection.store (api.socketReceive (s.connection.requestAduLen
    - s.connection.requestAduPos) s.net).2.1).advance (api.socketReceive (s.connection.requestAduLen
    - s.connection.requestAduPos) s.net).2.1.length with hc
  have hcpos : headerSize ≤ c.requestAduPos := hpos.trans (Nat.le_add_right _ _)
  have hcstate : c.state = .receiving := hstate
  have hhandled := modbusServerProcessRequest_handled settings c s.world
  by_cases hempty : (modbusServerGetRequestPdu c).2 = 0
  · -- nothing is handed over
    refine .of_not_sending ?_ ?_
    · simp only [modbusServerProcessRequest, if_pos hempty]
    · simp only [modbusServerProcessRequest, if_pos hempty]
      rw [hcstate]
      decide
  · refine .served c.requestPdu (modbusServerProcessRequest_pdus settings c s.world hempty)
      fun hend => ?_
    have hserved := modbusServerProcessRequest_served h hcpos s.world hend
    generalize modbusServerProcessRequest settings c s.world = o at hhandled hserved ⊢
    cases hserved with
    | answered response hanswer hok hsending hresponsePos hrequest hbytes =>
        rw [hanswer]
        refine ⟨rfl, fun _ => ⟨hrequest.2, response, rfl, ?_⟩⟩
        rw [hrequest.1]
        exact hbytes
    | malformed hanswer herror =>
        rw [hanswer]
        refine ⟨rfl, fun hsending => absurd hsending ?_⟩
        obtain ⟨error, c', w'⟩ := o
        cases hhandled with
        | answered => cases herror
        | failed _ responseAdu _ =>
            change c.state ≠ .sending
            rw [hcstate]
            decide

theorem sendResponse_attended (api : SocketApi ν) : Attended view d s (sendResponse api s).2 := by
  refine attended_ite (fun _ => attended_ite (fun _ => .of_not_sending rfl
    (show ModbusConnectionState.receiving ≠ .sending by decide)) fun _ => ?_) fun _ => .quiet rfl fun hsending => ⟨hsending, rfl, rfl, rfl⟩
  exact .quiet rfl fun hsending => ⟨hsending, rfl, rfl, rfl⟩

theorem processEvents_attended (h : ServesDevice settings view d) (api : SocketApi ν)
    (s : Server σ ν) : Attended view d s (processEvents settings api s).2 := by
  have hsame : Attended view d s s := .quiet rfl fun hsending => ⟨hsending, rfl, rfl, rfl⟩
  unfold processEvents
  cases hstate : s.connection.state with
  | receiving =>
      refine attended_ite (fun _ => receiveHeader_attended api hstate) fun hpos => ?_
      exact attended_ite (fun _ => receiveBody_attended h api hstate (by omega)) fun _ => hsame
  | sending => exact attended_ite (fun _ => sendResponse_attended api) fun _ => hsame
  | closed => exact hsame

/-- One call of the event handler. -/
theorem modbusServerProcessConnectionEvents_attended (h : ServesDevice settings view d)
    (api : SocketApi ν) (s : Server σ ν) :
    Attended view d s (modbusServerProcessConnectionEvents settings api s) := by
  have hattended : Attended view d s (processEvents settings api (s.stamp api)).2 := by
    cases processEvents_attended h api (s.stamp api) with
    | quiet hworld hsending => exact .quiet hworld hsending
    | served request hpdus hanswer => exact .served request hpdus hanswer
  unfold modbusServerProcessConnectionEvents
  dsimp only
  split
  · exact hattended.close api
  · exact hattended

end Entry

namespace ServerTable

variable {σ ν : Type*} {n : ℕ} {settings : ModbusServerSettings σ} {view : σ → Table} {d : Device}
  {t : Table} {s s' s'' : ServerTable σ ν n}

/-- **The server is one device.** The table is what the device makes of all requests in their order, and
every connection that is sending has the device's response to its own request, at a place of its own in
that order. -/
structure Linear (view : σ → Table) (d : Device) (t : Table) (s : ServerTable σ ν n) : Prop where
  table : view s.world.user = d.after t s.world.pdus
  answers : ∃ place : Fin n → ℕ,
    (∀ i, (s.connection i).state = .sending →
      AnswersOwn d t s.world.pdus (place i) (s.connection i)) ∧
    ∀ i j, (s.connection i).state = .sending → (s.connection j).state = .sending →
      place i = place j → i = j

/-- The sequence of requests goes on, and so does the device, as long as no request is truncated. -/
structure Continues (view : σ → Table) (d : Device) (t : Table) (s s' : ServerTable σ ν n) : Prop where
  requests : s.world.pdus <+: s'.world.pdus
  linear : (∀ request ∈ s'.world.pdus, ¬ Truncated request) → Linear view d t s → Linear view d t s'

theorem Continues.trans (h : Continues view d t s s') (h' : Continues view d t s' s'') :
    Continues view d t s s'' :=
  ⟨h.requests.trans h'.requests, fun hend hs =>
    h'.linear hend (h.linear (fun r hr => hend r (h'.requests.mem hr)) hs)⟩

/-- Nothing has happened but that some entries may have stopped sending. -/
theorem Continues.quiet (hworld : s'.world = s.world)
    (h : ∀ i, KeepsResponse (s.connection i) (s'.connection i)) : Continues view d t s s' := by
  refine ⟨by rw [hworld], fun _ hs => ?_⟩
  obtain ⟨htable, place, hplace, hinj⟩ := hs
  refine ⟨by rw [hworld]; exact htable, place, fun i hi => ?_,
    fun i j hi hj => hinj i j (h i hi).1 (h j hj).1⟩
  obtain ⟨hsending, hadu, hpdu, hbytes⟩ := h i hi
  obtain ⟨response, hanswer, hresponse⟩ := hplace i hsending
  refine ⟨response, ?_, ?_⟩
  · rw [hworld, hpdu]
    exact hanswer
  · rw [hbytes, hadu]
    exact hresponse

theorem keepsResponse_put {i : Fin n} {r : Server σ (Sockets ν)}
    (h : KeepsResponse (s.connection i) r.connection) (j : Fin n) :
    KeepsResponse (s.connection j) ((s.put i r).connection j) := by
  by_cases hij : j = i
  · subst hij
    rw [put_self]
    exact h
  · rw [put_of_ne hij]
    exact fun hsending => ⟨hsending, rfl, rfl, rfl⟩

/-- The event handler has done its work on one entry. -/
theorem Continues.put {i : Fin n} {r : Server σ (Sockets ν)}
    (h : Attended view d (s.entry i) r) : Continues view d t s (s.put i r) := by
  cases h with
  | quiet hworld hsending => exact .quiet hworld (keepsResponse_put hsending)
  | served request hpdus hanswer =>
      refine ⟨⟨[request], hpdus.symm⟩, fun hend hs => ?_⟩
      obtain ⟨htable, place, hplace, hinj⟩ := hs
      have hpdus' : (s.put i r).world.pdus = s.world.pdus ++ [request] := hpdus
      obtain ⟨huser, hresponse⟩ := hanswer (hend request (by rw [hpdus']; simp))
      -- the request takes the last place, all others are before it
      have hothers (j : Fin n) (hj : j ≠ i) (hsending : ((s.put i r).connection j).state = .sending) :
          AnswersOwn d t s.world.pdus (place j) (s.connection j) := by
        rw [put_of_ne hj] at hsending
        exact hplace j hsending
      refine ⟨?_, Function.update place i s.world.pdus.length, fun j hj => ?_, fun j k hj hk => ?_⟩
      · rw [hpdus', d.after_concat, ← htable]
        exact huser
      · rw [hpdus']
        by_cases hji : j = i
        · subst hji
          rw [put_self] at hj ⊢
          obtain ⟨hrequest, response, hanswer, hbytes⟩ := hresponse hj
          rw [Function.update_self, AnswersOwn, hrequest]
          refine ⟨response, ⟨?_, ?_⟩, hbytes⟩
          · exact List.getElem?_concat_length ..
          · rw [List.take_left, ← htable]
            exact hanswer
        · rw [Function.update_of_ne hji, put_of_ne hji]
          exact (hothers j hji hj).concat request
      · by_cases hji : j = i
        · by_cases hki : k = i
          · exact fun _ => hji.trans hki.symm
          · have hlt := (hothers k hki hk).lt
            rw [hji, Function.update_self, Function.update_of_ne hki]
            omega
        · have hlt := (hothers j hji hj).lt
          rw [Function.update_of_ne hji]
          by_cases hki : k = i
          · rw [hki, Function.update_self]
            omega
          · rw [Function.update_of_ne hki]
            rw [put_of_ne hji] at hj
            rw [put_of_ne hki] at hk
            exact hinj j k hj hk

theorem continues_process (h : ServesDevice settings view d) (api : Option ℕ → SocketApi ν)
    (i : Fin n) (s : ServerTable σ ν n) :
    Continues view d t s (modbusServerProcessConnectionEvents settings api i s) := by
  have hput : Continues view d t s (s.put i _) := .put
    (modbusServerProcessConnectionEvents_attended h (onSocket api (s.connection i).socket) (s.entry i))
  exact hput.trans (.quiet rfl fun _ hsending => ⟨hsending, rfl, rfl, rfl⟩)

theorem continues_close (api : Option ℕ → SocketApi ν) (i : Fin n) (s : ServerTable σ ν n) :
    Continues view d t s (modbusServerCloseConnection api i s) :=
  .quiet rfl (keepsResponse_put fun hsending => absurd hsending
    (show ModbusConnectionState.closed ≠ .sending by decide))

theorem continues_tick (api : Option ℕ → SocketApi ν) (s : ServerTable σ ν n) :
    Continues view d t s (modbusServerTick api s) := by
  have hentry (i : Fin n) (s : ServerTable σ ν n) : Continues view d t s (tickEntry api s i) := by
    refine .put ?_
    unfold Modbus.modbusServerTick
    split
    · exact .of_not_sending rfl (show ModbusConnectionState.closed ≠ .sending by decide)
    · exact .quiet rfl fun hsending => ⟨hsending, rfl, rfl, rfl⟩
  have hfold (entries : List (Fin n)) : ∀ s : ServerTable σ ν n,
      Continues view d t s (entries.foldl (tickEntry api) s) := by
    induction entries with
    | nil => exact fun s => .quiet rfl fun _ hsending => ⟨hsending, rfl, rfl, rfl⟩
    | cons i entries ih => exact fun s => (hentry i s).trans (ih _)
  exact hfold _ s

/-- A new client starts without a response. -/
theorem continues_install (i : Fin n) (socket : ℕ) (time : UInt32) (s : ServerTable σ ν n) :
    Continues view d t s (install i socket time s) := by
  refine .quiet rfl fun j hsending => ?_
  by_cases hj : j = i
  · subst hj
    simp only [install, Function.update_self] at hsending
    cases hsending
  · simp only [install, Function.update_of_ne hj] at hsending ⊢
    exact ⟨hsending, trivial, trivial, trivial⟩

theorem continues_accept (api : Option ℕ → SocketApi ν) (socket : Option ℕ)
    (s : ServerTable σ ν n) : Continues view d t s (modbusServerAcceptConnection api socket s) := by
  have hsame (s' : ServerTable σ ν n) (hworld : s'.world = s.world)
      (hconnection : s'.connection = s.connection) : Continues view d t s s' :=
    .quiet hworld fun i => by rw [hconnection]; exact fun hsending => ⟨hsending, rfl, rfl, rfl⟩
  unfold modbusServerAcceptConnection
  cases socket with
  | none => exact hsame s rfl rfl
  | some h =>
      have hreceived : Continues view d t s (receiving api h s) := hsame _ rfl rfl
      dsimp only
      split
      · exact hreceived.trans (continues_install _ _ _ (receiving api h s))
      · next i hfind =>
        exact (hreceived.trans (continues_close api i _)).trans (continues_install i _ _ _)
      · exact hreceived

/-- What one operation preserves. -/
theorem continues_step (h : ServesDevice settings view d) (api : Option ℕ → SocketApi ν)
    (s : ServerTable σ ν n) (e : Event ν n) : Continues view d t s (s.step settings api e) := by
  have htime : Continues view d t s (s.atTime e) :=
    .quiet rfl fun _ hsending => ⟨hsending, rfl, rfl, rfl⟩
  refine htime.trans ?_
  unfold step
  split
  · exact continues_accept api _ _
  · exact continues_process h api _ _
  · exact continues_tick api _
  · exact continues_close api _ _

theorem continues_run (h : ServesDevice settings view d) (api : Option ℕ → SocketApi ν)
    (s : ServerTable σ ν n) (es : List (Event ν n)) :
    Continues view d t s (run (step settings api) s es) := by
  induction es generalizing s with
  | nil => exact .quiet rfl fun _ hsending => ⟨hsending, rfl, rfl, rfl⟩
  | cons e es ih => exact (continues_step h api s e).trans (ih _)

/-- **Several clients see one device.** Whatever the clients and the network do, in whichever order the
operations of the server come: as long as no request is truncated, the table is what the device makes
of the requests in the order in which they were handed over, and every response that is being sent is
the device's response to the request of that connection at its place in this order. -/
theorem server_linear (h : ServesDevice settings view d) (api : Option ℕ → SocketApi ν) (user : σ)
    (net : ν) (now : ℕ) (es : List (Event ν n))
    (hend : ∀ request ∈ (run (step settings api)
      (initial ⟨user, [], []⟩ net now : ServerTable σ ν n) es).world.pdus, ¬ Truncated request) :
    Linear view d (view user)
      (run (step settings api) (initial ⟨user, [], []⟩ net now : ServerTable σ ν n) es) := by
  refine (continues_run h api _ es).linear hend ⟨rfl, fun _ => 0, fun i hi => ?_, fun i j hi => ?_⟩
  · cases hi
  · cases hi

/-- Sockets on which the bytes of each event arrive. -/
def scriptApi : Option ℕ → SocketApi (List UInt8) := fun _ => {
  socketReceive := fun size v => (.noError, v.take size, v.drop size)
  socketSend := fun data v => (.noError, data.length, v)
  socketSetTimeout := fun _ v => v
  socketClose := fun v => v
  osGetSystemTime := fun _ => 0 }

/-- Two clients write the same register, and the second one is served first. -/
theorem server_linear_twoClients :
    Linear Application.table Application.device (Application.table ⟨fun _ => 0, fun _ => false⟩)
      (run (step Application.modbusServerSettings scriptApi)
        (initial ⟨⟨fun _ => 0, fun _ => false⟩, [], []⟩ [] 0 : ServerTable Application (List UInt8) 2)
        [⟨1, [], .accept (some 5)⟩, ⟨2, [], .accept (some 6)⟩,
          ⟨3, [0, 1, 0, 0, 0, 6, 255], .ready 0⟩, ⟨4, [0, 9, 0, 0, 0, 6, 255], .ready 1⟩,
          ⟨5, [6, 0, 0, 0, 7], .ready 1⟩, ⟨6, [6, 0, 0, 0, 8], .ready 0⟩]) := by
  refine server_linear Application.serves scriptApi _ [] 0 _ ?_
  decide +kernel

end ServerTable

end Modbus
