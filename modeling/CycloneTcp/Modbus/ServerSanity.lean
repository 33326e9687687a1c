import CycloneTcp.Modbus.ServerHandler
import CycloneTcp.Modbus.StreamSocket

/-! # The sanity branches of the connection handler

The handler refuses, with `ERROR_WRONG_STATE`, to receive into a request that is already complete and
to send a response that is already sent. `Sane` says that a connection is not in such a position.
Every path through the handler keeps `Sane`, with three exceptions: a request for another unit is
dropped without resetting the position, a header that announces an empty PDU completes the request
on its own, and a callback that reports `ERROR_TIMEOUT` leaves a processed request in place. On runs
that avoid the three, the sanity branches are not reached. -/

set_option autoImplicit false

namespace Modbus

variable {σ ν : Type*} (settings : ModbusServerSettings σ) (api : SocketApi ν)

/-- The handler, entered on this connection, does not take a sanity branch. -/
structure Sane (connection : ModbusClientConnection) : Prop where
  receiving : connection.state = .receiving →
    connection.requestAduPos < headerSize ∨
      (connection.requestAduPos < connection.requestAduLen ∧
        connection.requestAduLen ≤ maxAduSize)
  sending : connection.state = .sending →
    connection.responseAduPos < connection.responseAduLen ∧
      connection.responseAduLen ≤ maxAduSize

/-- The header that the next `socketReceive` completes, if it completes one: the request buffer after
the call. -/
def completedHeader (s : Server σ ν) : Option (Memory UInt8) :=
  let r := api.socketReceive (headerSize - s.connection.requestAduPos) s.net
  if s.connection.state = .receiving ∧ s.connection.requestAduPos < headerSize ∧ r.1 = .noError ∧
      headerSize ≤ s.connection.requestAduPos + r.2.1.length then
    some (s.connection.store r.2.1).requestAdu
  else
    none

/-- The condition on a step: a header it completes is addressed to this server and announces a
non-empty PDU (the length field counts the unit identifier too). -/
def HeaderServed (s : Server σ ν) : ServerEvent → Prop
  | .ready => ∀ requestAdu ∈ completedHeader api s,
      acceptsUnit settings (requestAdu 6) ∧ 2 ≤ (requestAdu.getU16 4).toNat
  | .tick => True

instance (s : Server σ ν) (e : ServerEvent) : Decidable (HeaderServed settings api s e) :=
  match e with
  | .ready => inferInstanceAs (Decidable (∀ requestAdu ∈ completedHeader api s, _ ∧ _))
  | .tick => inferInstanceAs (Decidable True)

/-- `Sane`, with what the handler has recorded about the header of an incomplete request. -/
structure Proceeding (connection : ModbusClientConnection) : Prop extends Sane connection where
  unit : connection.state = .receiving → headerSize ≤ connection.requestAduPos →
    acceptsUnit settings connection.requestUnitId

theorem proceeding_of_closed {connection : ModbusClientConnection}
    (h : connection.state = .closed) : Proceeding settings connection where
  receiving hr := by rw [h] at hr; cases hr
  sending hs := by rw [h] at hs; cases hs
  unit hr := by rw [h] at hr; cases hr

theorem proceeding_acceptedConnection (socket : ℕ) (time : UInt32) :
    Proceeding settings (acceptedConnection socket time) where
  receiving _ := Or.inl (Nat.succ_pos 6)
  sending hs := by cases hs
  unit _ hpos := absurd hpos (Nat.not_succ_le_zero 6)

/-- The handler ends in a closed connection, or with a success or timeout that keeps `Proceeding`. -/
def Proceeds (r : ErrorCode × Server σ ν) : Prop :=
  r.1 = .noError ∨ r.1 = .timeout → Proceeding settings r.2.connection

variable {settings api}

section Steps

variable {s : Server σ ν} (hlaw : api.Bounded)
include hlaw

theorem receiveHeader_proceeds (hstate : s.connection.state = .receiving)
    (hpos : s.connection.requestAduPos < headerSize)
    (hserved : ∀ requestAdu ∈ completedHeader api s,
      acceptsUnit settings (requestAdu 6) ∧ 2 ≤ (requestAdu.getU16 4).toNat) :
    Proceeds settings (receiveHeader api s) := by
  have hsize := hlaw.receive_le (headerSize - s.connection.requestAduPos) s.net
  simp only [completedHeader, hstate, true_and, hpos] at hserved
  unfold receiveHeader
  generalize api.socketReceive (headerSize - s.connection.requestAduPos) s.net = r at *
  obtain ⟨error, bytes, net⟩ := r
  simp only at hsize hserved ⊢
  by_cases hok : error = .noError
  · rw [if_pos hok]
    by_cases hfull : headerSize ≤ s.connection.requestAduPos + bytes.length
    · rw [if_pos (by exact hfull)]
      obtain ⟨hunit, hlen⟩ := hserved _ (by rw [if_pos ⟨hok, hfull⟩]; rfl)
      rintro (hparse | htimeout)
      · -- the header is complete and correct: the PDU it announces is still to come
        obtain ⟨-, -, hmax, hrec⟩ := modbusServerParseMbapHeader_ok hparse
        simp only [hrec]
        refine ⟨⟨fun _ => Or.inr ⟨?_, ?_⟩, fun hs => ?_⟩, fun _ _ => hunit⟩
        · simp only [ModbusClientConnection.advance, ModbusClientConnection.store] at hlen ⊢
          omega
        · simp only [ModbusClientConnection.advance, ModbusClientConnection.store] at hmax ⊢
          simp only [maxAduSize, maxPduSize, headerSize] at hmax ⊢
          omega
        · exact absurd (hstate.symm.trans hs) (by decide)
      · exact absurd htimeout (modbusServerParseMbapHeader_ne_timeout _)
    · rw [if_neg (by exact hfull)]
      rintro -
      refine ⟨⟨fun _ => Or.inl (by exact not_le.1 hfull), fun hs => ?_⟩,
        fun _ h => absurd h (by exact hfull)⟩
      exact absurd (hstate.symm.trans hs) (by decide)
  · rw [if_neg hok]
    rintro -
    refine ⟨⟨fun _ => Or.inl hpos, fun hs => ?_⟩, fun _ h => absurd h (by exact not_le.2 hpos)⟩
    exact absurd (hstate.symm.trans hs) (by decide)

theorem receiveBody_proceeds (hcb : Reports settings (· ≠ .timeout))
    (h : Proceeding settings s.connection) (hstate : s.connection.state = .receiving)
    (hpos : headerSize ≤ s.connection.requestAduPos) :
    Proceeds settings (receiveBody settings api s) := by
  obtain ⟨hmore, hmax⟩ := (h.receiving hstate).resolve_left (not_lt.2 hpos)
  have hunit := h.unit hstate hpos
  have hsize := hlaw.receive_le (s.connection.requestAduLen - s.connection.requestAduPos) s.net
  unfold receiveBody
  generalize api.socketReceive (s.connection.requestAduLen - s.connection.requestAduPos) s.net = r
    at *
  obtain ⟨error, bytes, net⟩ := r
  simp only at hsize ⊢
  have hwait : ∀ c : ModbusClientConnection, c.state = s.connection.state →
      c.requestAduLen = s.connection.requestAduLen →
      c.requestUnitId = s.connection.requestUnitId →
      c.requestAduPos < s.connection.requestAduLen → Proceeding settings c := by
    intro c hcs hclen hcu hcp
    refine ⟨⟨fun _ => Or.inr ⟨by rwa [hclen], by rwa [hclen]⟩, fun hs => ?_⟩, fun _ _ => by rwa [hcu]⟩
    exact absurd ((hstate.symm.trans hcs.symm).trans hs) (by decide)
  by_cases hok : error = .noError
  · rw [if_pos hok]
    by_cases hfull : s.connection.requestAduLen ≤ s.connection.requestAduPos + bytes.length
    · rw [if_pos (by exact ⟨hfull, hunit⟩)]
      set c := (s.connection.store bytes).advance bytes.length
      have hhandled := modbusServerProcessRequest_handled settings c s.world
      have hne : (modbusServerProcessRequest settings c s.world).1 ≠ .timeout :=
        (modbusServerProcessRequest_error (by constructor <;> decide) hcb c s.world).1
      rintro (herror | herror)
      · simp only at herror ⊢
        rw [herror] at hhandled
        generalize (modbusServerProcessRequest settings c s.world).2.1 = c' at hhandled ⊢
        cases hhandled with
        | answered responseAdu length hlo hhi _ =>
            refine ⟨⟨nofun, fun _ => ⟨?_, ?_⟩⟩, nofun⟩
            · simp only [ModbusClientConnection.answering]
              omega
            · simp only [ModbusClientConnection.answering, maxAduSize, headerSize]
              omega
        | failed _ _ hfail => exact absurd rfl hfail
      · exact absurd herror hne
    · rw [if_neg (by exact fun hc => hfull hc.1)]
      rintro -
      exact hwait _ rfl rfl rfl (not_le.1 hfull)
  · rw [if_neg hok]
    rintro -
    exact hwait _ rfl rfl rfl hmore

omit hlaw in
theorem sendResponse_proceeds (h : Proceeding settings s.connection)
    (hstate : s.connection.state = .sending) : Proceeds settings (sendResponse api s) := by
  obtain ⟨hmore, hmax⟩ := h.sending hstate
  simp only [sendResponse]
  generalize api.socketSend _ s.net = r
  obtain ⟨error, n, net⟩ := r
  simp only
  by_cases hok : error = .noError
  · rw [if_pos hok]
    by_cases hfull : s.connection.responseAduLen ≤ s.connection.responseAduPos + n
    · rw [if_pos hfull]
      rintro -
      exact ⟨⟨fun _ => Or.inl (Nat.succ_pos 6), nofun⟩,
        fun _ hp => absurd hp (Nat.not_succ_le_zero 6)⟩
    · rw [if_neg hfull]
      rintro -
      refine ⟨⟨fun hr => ?_, fun _ => ⟨not_le.1 hfull, hmax⟩⟩, fun hr => ?_⟩
      · exact absurd (hstate.symm.trans hr) (by decide)
      · exact absurd (hstate.symm.trans hr) (by decide)
  · rw [if_neg hok]
    rintro -
    exact h

theorem modbusServerProcessConnectionEvents_proceeds (hcb : Reports settings (· ≠ .timeout))
    (h : Proceeding settings s.connection) (hserved : HeaderServed settings api s .ready) :
    Proceeding settings (modbusServerProcessConnectionEvents settings api s).connection := by
  have h' : Proceeding settings (s.stamp api).connection := ⟨⟨h.receiving, h.sending⟩, h.unit⟩
  have hbody : Proceeds settings (processEvents settings api (s.stamp api)) := by
    unfold processEvents
    cases hstate : (s.stamp api).connection.state with
    | receiving =>
        simp only
        by_cases hpos : (s.stamp api).connection.requestAduPos < headerSize
        · rw [if_pos hpos]
          exact receiveHeader_proceeds hlaw hstate hpos hserved
        · rw [if_neg hpos, if_pos ((h'.receiving hstate).resolve_left hpos).1]
          exact receiveBody_proceeds hlaw hcb h' hstate (not_lt.1 hpos)
    | sending =>
        simp only
        rw [if_pos (h'.sending hstate).1]
        exact sendResponse_proceeds h' hstate
    | closed => rintro (herror | herror) <;> cases herror
  unfold modbusServerProcessConnectionEvents
  simp only
  split
  · exact proceeding_of_closed settings rfl
  · next hopen => exact hbody (by tauto)

theorem serverStep_proceeds (hcb : Reports settings (· ≠ .timeout)) (e : ServerEvent)
    (h : Proceeding settings s.connection) (hserved : HeaderServed settings api s e) :
    Proceeding settings (serverStep settings api s e).connection := by
  cases e with
  | ready =>
      simp only [serverStep]
      split
      · exact h
      · exact modbusServerProcessConnectionEvents_proceeds hlaw hcb h hserved
  | tick =>
      simp only [serverStep, modbusServerTick]
      split
      · exact proceeding_of_closed settings rfl
      · exact h

end Steps

/-- **The sanity branches are unreachable on runs whose headers are all served.** From a connection
that has just been accepted, whatever the network delivers, in whatever pieces, and whatever the
callbacks do short of reporting a timeout: if every header that is completed on the way carries an
accepted unit identifier and announces a non-empty PDU, the handler is never entered in a position
from which it would take a sanity branch. -/
theorem sane_run (hlaw : api.Bounded) (hcb : Reports settings (· ≠ .timeout)) (socket : ℕ)
    (time : UInt32) (world : ServerWorld σ) (net : ν) (events : List ServerEvent)
    (hserved : Along (HeaderServed settings api) (serverStep settings api)
      ⟨acceptedConnection socket time, world, net⟩ events) :
    Sane (run (serverStep settings api) ⟨acceptedConnection socket time, world, net⟩
      events).connection := by
  have hinv : Proceeding settings (run (serverStep settings api)
      ⟨acceptedConnection socket time, world, net⟩ events).connection :=
    run_invariant (I := fun s => Proceeding settings s.connection)
      (fun s e hs he => serverStep_proceeds hlaw hcb e hs he)
      (proceeding_acceptedConnection settings socket time) hserved
  exact hinv.toSane

/-! ## A request for another unit -/

/-- A server for unit 1. -/
def unitOne : ModbusServerSettings Unit := { noCallbacks with unitId := 1 }

/-- A Read Holding Registers request for unit 2, followed by the same request for unit 1, as they
arrive on a connection that has just been accepted. -/
def otherUnitFirst : Server Unit StreamSocket where
  connection := acceptedConnection 0 0
  world := ⟨(), [], []⟩
  net := {
    inbound := [0, 1, 0, 0, 0, 6, 2, 3, 0, 0, 0, 1] ++ [0, 2, 0, 0, 0, 6, 1, 3, 0, 0, 0, 1]
    outbound := []
    plan := List.replicate 8 (some 300)
    clock := fun _ => 0
    isClosed := false }

/-- The stream that starts with the request for unit 1. -/
def unitOneFirst : Server Unit StreamSocket :=
  { otherUnitFirst with net := { otherUnitFirst.net with
      inbound := [0, 2, 0, 0, 0, 6, 1, 3, 0, 0, 0, 1] } }

theorem sane_run_unitOneFirst :
    Sane (run (serverStep unitOne streamApi) unitOneFirst
      [.ready, .tick, .ready, .ready, .ready]).connection :=
  sane_run streamApi_bounded (noCallbacks_reports _ 1) 0 0 _ _ _ (by decide)

/-- The request for unit 2 leaves the connection where the sanity branch is taken next, and the
request for unit 1 is answered by closing the connection. -/
theorem otherUnitFirst_not_sane :
    ¬ Sane (run (serverStep unitOne streamApi) otherUnitFirst [.ready, .ready]).connection ∧
      (processEvents unitOne streamApi
        (run (serverStep unitOne streamApi) otherUnitFirst [.ready, .ready])).1 = .wrongState ∧
      (run (serverStep unitOne streamApi) otherUnitFirst
        [.ready, .ready, .ready]).net.isClosed = true := by
  refine ⟨fun h => ?_, by decide, by decide⟩
  have hpos := h.receiving (by decide)
  revert hpos
  decide

end Modbus
