import CycloneTcp.Lib.Runs
import CycloneTcp.Modbus.Adu
import CycloneTcp.Modbus.Client

/-! # Framing on the client's side of a connection

One TCP connection over many calls. The wire below fails whenever the environment says so, and a
failing send may have taken part of the data, as `tcpSend` does when it times out. The client goes on
with its next call after every failure, since `modbusClientTransaction` only reverts the state to
`CONNECTED`: it neither closes the connection nor remembers where in the two byte streams it
stopped. The run theorem below says that the framing survives all failures that leave both streams
at the border of an ADU; `timeout_in_header_not_framed` shows that it is lost otherwise. -/

set_option autoImplicit false

namespace Modbus

/-! ## The wire -/

/-- What the next socket call does: it transfers at most `k + 1` bytes, or fails. A send that fails
has taken the first `taken` bytes all the same. -/
inductive WireOutcome where
  | transfer (k : ℕ)
  | timeout (taken : ℕ)
  | wouldBlock (taken : ℕ)
  deriving DecidableEq

/-- The two byte streams of the connection, and the outcome of the next call. -/
structure Wire where
  sent : List UInt8
  received : List UInt8
  unread : List UInt8
  next : WireOutcome
  time : UInt32

/-- `socketReceive`: nothing is taken from the stream by a call that fails. -/
def Wire.receive (size : ℕ) (v : Wire) : ErrorCode × List UInt8 × Wire :=
  match v.next with
  | .transfer k =>
      if v.unread = [] then
        (.timeout, [], v)
      else
        (.noError, v.unread.take (min size (k + 1)),
          { v with
            received := v.received ++ v.unread.take (min size (k + 1))
            unread := v.unread.drop (min size (k + 1)) })
  | .timeout _ => (.timeout, [], v)
  | .wouldBlock _ => (.wouldBlock, [], v)

/-- `socketSend`. -/
def Wire.send (data : List UInt8) (v : Wire) : ErrorCode × ℕ × Wire :=
  match v.next with
  | .transfer k =>
      (.noError, min data.length (k + 1), { v with sent := v.sent ++ data.take (k + 1) })
  | .timeout taken =>
      (.timeout, min data.length taken, { v with sent := v.sent ++ data.take taken })
  | .wouldBlock taken =>
      (.wouldBlock, min data.length taken, { v with sent := v.sent ++ data.take taken })

/-- The socket interface over the wire. -/
def wireApi : SocketApi Wire where
  socketReceive := Wire.receive
  socketSend := Wire.send
  socketSetTimeout _ v := v
  socketClose v := v
  osGetSystemTime v := v.time

/-! ## Calls over one connection -/

/-- A call the application makes. -/
inductive ClientRequest where
  | readCoils (address : UInt16) (quantity : ℕ)
  | readDiscreteInputs (address : UInt8) (quantity : ℕ)
  | readHoldingRegs (address : UInt16) (quantity : ℕ)
  | readInputRegs (address : UInt16) (quantity : ℕ)
  | writeSingleCoil (address : UInt16) (value : Bool)
  | writeSingleReg (address value : UInt16)
  | writeMultipleCoils (address : UInt16) (quantity : ℕ) (value : Memory UInt8)
  | writeMultipleRegs (address : UInt16) (quantity : ℕ) (value : Memory UInt16)
  | maskWriteReg (address andMask orMask : UInt16)
  | readWriteMultipleRegs (readAddress readQuantity writeAddress writeQuantity : UInt16)
      (writeValue : Memory UInt16)

namespace ClientRequest

/-- The formatter the call uses. -/
def format : ClientRequest → ModbusClientContext → UInt32 → ErrorCode × ModbusClientContext
  | readCoils address quantity => (readCoilsCall address quantity).format
  | readDiscreteInputs address quantity => (readDiscreteInputsCall address quantity).format
  | readHoldingRegs address quantity => (readHoldingRegsCall address quantity).format
  | readInputRegs address quantity => (readInputRegsCall address quantity).format
  | writeSingleCoil address value => (writeSingleCoilCall address value).format
  | writeSingleReg address value => (writeSingleRegCall address value).format
  | writeMultipleCoils address quantity value => (writeMultipleCoilsCall address quantity value).format
  | writeMultipleRegs address quantity value => (writeMultipleRegsCall address quantity value).format
  | maskWriteReg address andMask orMask => (maskWriteRegCall address andMask orMask).format
  | readWriteMultipleRegs readAddress readQuantity writeAddress writeQuantity writeValue =>
      (readWriteMultipleRegsCall readAddress readQuantity writeAddress writeQuantity
        writeValue).format

/-- The check of the parameters. -/
def Accepted : ClientRequest → Prop
  | readCoils _ quantity | readDiscreteInputs _ quantity => 1 ≤ quantity ∧ quantity ≤ 2000
  | readHoldingRegs _ quantity | readInputRegs _ quantity => 1 ≤ quantity ∧ quantity ≤ 125
  | writeMultipleCoils _ quantity _ => 1 ≤ quantity ∧ quantity ≤ 1968
  | writeMultipleRegs _ quantity _ => 1 ≤ quantity ∧ quantity ≤ 123
  | readWriteMultipleRegs _ readQuantity _ writeQuantity _ =>
      (1 ≤ readQuantity.toNat ∧ readQuantity.toNat ≤ 125) ∧
        (1 ≤ writeQuantity.toNat ∧ writeQuantity.toNat ≤ 121)
  | writeSingleCoil _ _ | writeSingleReg _ _ | maskWriteReg _ _ _ => True

instance : DecidablePred Accepted
  | readCoils _ _ | readDiscreteInputs _ _ | readHoldingRegs _ _ | readInputRegs _ _
  | writeMultipleCoils _ _ _ | writeMultipleRegs _ _ _ => inferInstanceAs (Decidable (_ ∧ _))
  | readWriteMultipleRegs _ _ _ _ _ => inferInstanceAs (Decidable ((_ ∧ _) ∧ _ ∧ _))
  | writeSingleCoil _ _ | writeSingleReg _ _ | maskWriteReg _ _ _ => isTrue trivial

end ClientRequest

/-- The client over one connection, with two records: the request ADUs that were formatted, and for
each run of `modbusClientParseMbapHeader` the offset in the server's stream of the seven bytes it
parsed, and these bytes. -/
structure ClientSession where
  client : Client Wire
  requests : List (List UInt8)
  headers : List (ℕ × List UInt8)

/-- What one iteration of the loop of a call meets: the call that is made if the previous one has
ended, the outcome of the socket call the iteration may make, and the system time. -/
structure ClientEvent where
  request : ClientRequest
  outcome : WireOutcome
  time : UInt32

/-- The header that is parsed when `bytes` are received in the state `s`. -/
def parsedHeader (s : Client Wire) (r : ErrorCode × List UInt8 × Wire) : List (ℕ × List UInt8) :=
  if r.1 = .noError ∧ headerSize ≤ s.context.responseAduPos + r.2.1.length then
    [(r.2.2.received.length - headerSize, (s.context.store r.2.1).responseAdu.read 0 headerSize)]
  else []

/-- One iteration of the loop the calls share. -/
def clientStep (s : ClientSession) (e : ClientEvent) : ClientSession :=
  let client := { s.client with net := { s.client.net with next := e.outcome, time := e.time } }
  match client.context.state with
  | .connected =>
      if e.request.Accepted then
        let context := (e.request.format client.context e.time).2
        { s with
          client := { client with context := context }
          requests := s.requests ++ [context.requestAdu.read 0 context.requestAduLen] }
      else { s with client := client }
  | .sending => { s with client := (modbusClientTransaction wireApi client).2 }
  | .receiving =>
      { s with
        client := (modbusClientTransaction wireApi client).2
        headers := s.headers ++
          if client.context.responseAduPos < headerSize then
            parsedHeader client
              (client.net.receive (headerSize - client.context.responseAduPos))
          else [] }
  | .complete =>
      { s with client := { client with context := { client.context with state := .connected } } }
  | _ => { s with client := client }

/-! ## What a formatter leaves in the request buffer is an ADU -/

theorem Formatted.bytes_eq {context : ModbusClientContext} {n : ℕ} (h : Formatted context n) :
    ∃ a : Adu, a.WellFormed ∧ context.requestAdu.read 0 context.requestAduLen = a.bytes := by
  have hlength : context.requestAdu.getU16 4 = UInt16.ofNat (n + 1) := by
    apply UInt16.toNat_inj.1
    have hmax := h.le_max
    simp only [maxPduSize] at hmax
    rw [h.length, UInt16.toNat_ofNat']
    omega
  refine ⟨⟨context.requestAdu.getU16 0, context.requestAdu 6, context.requestAdu.read headerSize n⟩,
    ⟨?_, ?_⟩, ?_⟩
  · simpa using h.nonempty
  · simpa using h.le_max
  · rw [h.requestAduLen, Memory.read_add, Nat.zero_add, Adu.bytes]
    congr 1
    simp only [Adu.header, Adu.lengthField, Memory.length_read, ← hlength, ← h.protocol,
      Memory.getU16, Memory.hi8_be16, Memory.lo8_be16]
    rfl

theorem formatWordsReq_formatted (functionCode : UInt8) (word1 word2 : UInt16)
    (context : ModbusClientContext) (time : UInt32) :
    Formatted (formatWordsReq functionCode word1 word2 context time).2 5 :=
  (modbusClientFormatMbapHeader_formatted _ (by decide) (by decide) time).1

/-- Every accepted request is formatted into an ADU of at most 260 bytes. -/
theorem ClientRequest.format_formatted {r : ClientRequest} (h : r.Accepted)
    (context : ModbusClientContext) (time : UInt32) :
    ∃ n, Formatted (r.format context time).2 n := by
  have hcount : ∀ {k b : ℕ}, k + b ≤ 253 → 0 < k →
      1 ≤ k + (UInt8.ofNat b).toNat ∧ k + (UInt8.ofNat b).toNat ≤ maxPduSize := by
    intro k b hle hk
    rw [UInt8.toNat_ofNat', Nat.mod_eq_of_lt (by omega)]
    exact ⟨by omega, hle⟩
  cases r with
  | readCoils | readDiscreteInputs | readHoldingRegs | readInputRegs | writeSingleCoil
  | writeSingleReg => exact ⟨5, formatWordsReq_formatted ..⟩
  | writeMultipleCoils address quantity value =>
      have hbytes := hcount (k := 6) (b := coilBytes quantity) (by
        have hhi : quantity ≤ 1968 := h.2
        simp only [coilBytes]
        omega) (by decide)
      exact ⟨_, (modbusClientFormatMbapHeader_formatted _ hbytes.1 hbytes.2 time).1⟩
  | writeMultipleRegs address quantity value =>
      have hbytes := hcount (k := 6) (b := quantity * 2) (by
        have hhi : quantity ≤ 123 := h.2
        omega) (by decide)
      exact ⟨_, (modbusClientFormatMbapHeader_formatted _ hbytes.1 hbytes.2 time).1⟩
  | maskWriteReg =>
      exact ⟨7, (modbusClientFormatMbapHeader_formatted _ (by decide) (by decide) time).1⟩
  | readWriteMultipleRegs _ _ _ writeQuantity =>
      have hbytes := hcount (k := 10) (b := writeQuantity.toNat * 2) (by
        have hhi : writeQuantity.toNat ≤ 121 := h.2.2
        omega) (by decide)
      exact ⟨_, (modbusClientFormatMbapHeader_formatted _ hbytes.1 hbytes.2 time).1⟩

/-! ## The steps of a transaction -/

/-- After an error the client goes back to `CONNECTED`, whatever the error is. -/
theorem modbusClientTransaction_client {ν : Type*} (api : SocketApi ν) (s : Client ν) :
    (modbusClientTransaction api s).2
      = if (transact api (adjustTimeout api s)).1 = .noError then
          (transact api (adjustTimeout api s)).2
        else
          { (transact api (adjustTimeout api s)).2 with
            context := { (transact api (adjustTimeout api s)).2.context with state := .connected } } := by
  simp only [modbusClientTransaction]
  generalize transact api (adjustTimeout api s) = r
  by_cases hok : r.1 = .noError
  · simp [hok]
  · by_cases hlate : r.1 = .wouldBlock ∨ r.1 = .timeout
    · simp [hlate, hok]
    · obtain ⟨hblock, htimeout⟩ := not_or.1 hlate
      simp [hok, hblock, htimeout]

/-- What a failing call had taken. -/
def WireOutcome.failure : WireOutcome → Option ℕ
  | transfer _ => none
  | timeout taken => some taken
  | wouldBlock taken => some taken

theorem Wire.send_transfer {v : Wire} {k : ℕ} (h : v.next = .transfer k) (data : List UInt8) :
    Wire.send data v = (.noError, min data.length (k + 1), { v with sent := v.sent ++ data.take (k + 1) }) := by
  simp only [Wire.send, h]

theorem Wire.send_failure {v : Wire} {taken : ℕ} (h : v.next.failure = some taken)
    (data : List UInt8) :
    (Wire.send data v).1 ≠ .noError ∧
      (Wire.send data v).2.2 = { v with sent := v.sent ++ data.take taken } := by
  unfold Wire.send
  cases hnext : v.next with
  | transfer k => simp [hnext, WireOutcome.failure] at h
  | timeout n =>
      obtain rfl : n = taken := by simpa [hnext, WireOutcome.failure] using h
      exact ⟨nofun, rfl⟩
  | wouldBlock n =>
      obtain rfl : n = taken := by simpa [hnext, WireOutcome.failure] using h
      exact ⟨nofun, rfl⟩

theorem Wire.receive_transfer {v : Wire} {k : ℕ} (h : v.next = .transfer k) (hne : v.unread ≠ [])
    (size : ℕ) :
    Wire.receive size v = (.noError, v.unread.take (min size (k + 1)),
      { v with
        received := v.received ++ v.unread.take (min size (k + 1))
        unread := v.unread.drop (min size (k + 1)) }) := by
  simp only [Wire.receive, h, if_neg hne]

/-- A receive that fails takes nothing. -/
theorem Wire.receive_failure {v : Wire} (h : v.next.failure ≠ none ∨ v.unread = []) (size : ℕ) :
    (Wire.receive size v).1 ≠ .noError ∧ (Wire.receive size v).2 = ([], v) := by
  unfold Wire.receive
  cases hnext : v.next with
  | transfer k =>
      have hnil : v.unread = [] := by
        rcases h with h | h
        · exact absurd rfl (hnext ▸ h)
        · exact h
      simp [hnil]
  | timeout => exact ⟨nofun, rfl⟩
  | wouldBlock => exact ⟨nofun, rfl⟩

/-! ## The two streams -/

section Framing

variable (adus : List Adu)

/-- The client has read whole response ADUs. -/
def AtBorder (v : Wire) : Prop :=
  ∃ done rest, adus = done ++ rest ∧ v.received = stream done ∧ v.unread = stream rest

/-- The client has read whole response ADUs and the first `j` bytes of the next one, which stand at
the front of its buffer. -/
structure ReadingResponse (s : Client Wire) (done : List Adu) (a : Adu) (rest : List Adu) (j : ℕ) :
    Prop where
  split : adus = done ++ a :: rest
  received : s.net.received = stream done ++ a.bytes.take j
  unread : s.net.unread = a.bytes.drop j ++ stream rest
  le_length : j ≤ a.bytes.length
  buffer : s.context.responseAdu.read 0 j = a.bytes.take j
  responseAduPos : s.context.responseAduPos = j
  responseAduLen : headerSize ≤ j → s.context.responseAduLen = a.bytes.length

/-- Where the client stands in the two streams. -/
inductive ClientPhase (s : ClientSession) : Prop where
  | idle (whole : List (List UInt8))
      (hstate : s.client.context.state = .connected ∨ s.client.context.state = .complete)
      (hsent : s.client.net.sent = whole.flatten) (hsub : whole.Sublist s.requests)
      (hborder : AtBorder adus s.client.net)
  | sending (whole : List (List UInt8)) (hstate : s.client.context.state = .sending)
      (hpos : s.client.context.requestAduPos ≤ s.client.context.requestAduLen)
      (hsent : s.client.net.sent = whole.flatten ++
        s.client.context.requestAdu.read 0 s.client.context.requestAduPos)
      (hsub : (whole ++ [s.client.context.requestAdu.read 0 s.client.context.requestAduLen]).Sublist
        s.requests)
      (hborder : AtBorder adus s.client.net)
  | awaiting (whole : List (List UInt8)) (hstate : s.client.context.state = .receiving)
      (hsent : s.client.net.sent = whole.flatten) (hsub : whole.Sublist s.requests)
      (hpos : s.client.context.responseAduPos = 0) (hborder : AtBorder adus s.client.net)
  | receiving (whole : List (List UInt8)) (hstate : s.client.context.state = .receiving)
      (hsent : s.client.net.sent = whole.flatten) (hsub : whole.Sublist s.requests)
      (done : List Adu) (a : Adu) (rest : List Adu) (j : ℕ) (hj : 0 < j)
      (hreading : ReadingResponse adus s.client done a rest j)

/-- The records are what they should be. -/
structure Recorded (s : ClientSession) : Prop where
  requests : ∀ r ∈ s.requests, ∃ a : Adu, a.WellFormed ∧ r = a.bytes
  headers : ∀ p ∈ s.headers, ∃ done a rest, adus = done ++ a :: rest ∧
    p = ((stream done).length, a.header)

/-- **The framing of both streams.** What the client has sent is a sequence of the request ADUs it
formatted, in order, and then at most a prefix of the one being sent; and each header it parsed was
the first seven bytes of a response ADU, in their place in the server's stream. -/
structure ClientFramed (s : ClientSession) : Prop extends Recorded adus s where
  sent : ∃ (whole : List (List UInt8)) (unfinished : List UInt8), s.client.net.sent = whole.flatten ++ unfinished ∧
    whole.Sublist s.requests ∧
    (unfinished = [] ∨ s.client.context.state = .sending ∧
      unfinished <+: s.client.context.requestAdu.read 0 s.client.context.requestAduLen)

/-- A failing socket call leaves both streams at the border of an ADU: a send that fails has taken
nothing of the request so far, or all that was left of it; a receive that fails has nothing of a
response before it. -/
def FailsAtBorder (s : ClientSession) (e : ClientEvent) : Prop :=
  let c := s.client.context
  (c.state = .sending → c.requestAduPos < c.requestAduLen →
    ∀ taken ∈ e.outcome.failure,
      c.requestAduPos + taken = 0 ∨ c.requestAduLen ≤ c.requestAduPos + taken) ∧
  (c.state = .receiving → c.responseAduPos < headerSize ∨ c.responseAduPos < c.responseAduLen →
    e.outcome.failure ≠ none ∨ s.client.net.unread = [] → c.responseAduPos = 0)

instance (s : ClientSession) (e : ClientEvent) : Decidable (FailsAtBorder s e) :=
  inferInstanceAs (Decidable ((_ → _ → ∀ taken ∈ e.outcome.failure, _ ∨ _) ∧
    (_ → _ ∨ _ → _ ∨ _ → _)))

variable {adus} {s : ClientSession}

theorem ClientPhase.framed (h : ClientPhase adus s) (hr : Recorded adus s) :
    ClientFramed adus s := by
  refine ⟨hr, ?_⟩
  cases h with
  | idle whole hstate hsent hsub | awaiting whole hstate hsent hsub
  | receiving whole hstate hsent hsub =>
      exact ⟨whole, [], by rw [hsent, List.append_nil], hsub, .inl rfl⟩
  | sending whole hstate hpos hsent hsub =>
      refine ⟨whole, _, hsent, (List.sublist_append_left whole _).trans hsub, .inr ⟨hstate, ?_⟩⟩
      rw [← Memory.take_read _ 0 hpos]
      exact List.take_prefix _ _

/-- The server's stream goes on with a response, if anything is unread. -/
theorem AtBorder.reading {c : Client Wire} (h : AtBorder adus c.net) (hne : c.net.unread ≠ [])
    (hpos : c.context.responseAduPos = 0) :
    ∃ done a rest, ReadingResponse adus c done a rest 0 := by
  obtain ⟨done, rest, hsplit, hreceived, hunread⟩ := h
  cases rest with
  | nil => exact absurd hunread hne
  | cons a rest =>
      exact ⟨done, a, rest, hsplit, by simpa using hreceived, by simpa using hunread, Nat.zero_le _,
        rfl, hpos, fun h => absurd h (by decide)⟩

/-- At the end of a response the client is at a border again. -/
theorem ReadingResponse.border {c : Client Wire} {done rest : List Adu} {a : Adu} {j : ℕ}
    (h : ReadingResponse adus c done a rest j) (hj : a.bytes.length ≤ j) :
    AtBorder adus c.net := by
  refine ⟨done ++ [a], rest, by simpa using h.split, ?_, ?_⟩
  · rw [h.received, List.take_of_length_le hj, stream_append]
    simp
  · rw [h.unread, List.drop_of_length_le hj, List.nil_append]

/-! ### Sending -/

section Sending

variable {c : Client Wire} (hstate : c.context.state = .sending)
include hstate

theorem transact_send_transfer (hlt : c.context.requestAduPos < c.context.requestAduLen) {k : ℕ}
    (hnext : c.net.next = .transfer k) :
    ∃ t, c.context.requestAduPos + t ≤ c.context.requestAduLen ∧
      transact wireApi c = (.noError,
        ⟨{ c.context with requestAduPos := c.context.requestAduPos + t },
          { c.net with
            sent := c.net.sent ++ c.context.requestAdu.read c.context.requestAduPos t }⟩) := by
  obtain ⟨t, ht⟩ : ∃ t, t = min (c.context.requestAduLen - c.context.requestAduPos) (k + 1) :=
    ⟨_, rfl⟩
  have htake : (c.context.requestAdu.read c.context.requestAduPos
      (c.context.requestAduLen - c.context.requestAduPos)).take (k + 1)
      = c.context.requestAdu.read c.context.requestAduPos t := by
    by_cases hk : k + 1 ≤ c.context.requestAduLen - c.context.requestAduPos
    · rw [Memory.take_read _ _ hk, ht, Nat.min_eq_right hk]
    · rw [List.take_of_length_le (by rw [Memory.length_read]; omega), ht,
        Nat.min_eq_left (by omega)]
  refine ⟨t, by omega, ?_⟩
  simp only [transact, hstate, sendRequest, if_pos hlt, wireApi, Wire.send_transfer hnext, if_true,
    htake, Memory.length_read, ← ht]

/-- A send that fails reverts the state, but not the position in the stream. -/
theorem transact_send_failure (hlt : c.context.requestAduPos < c.context.requestAduLen) {taken : ℕ}
    (hnext : c.net.next.failure = some taken) :
    (transact wireApi c).1 ≠ .noError ∧
      (transact wireApi c).2 = ⟨c.context, { c.net with
        sent := c.net.sent ++ (c.context.requestAdu.read c.context.requestAduPos
          (c.context.requestAduLen - c.context.requestAduPos)).take taken }⟩ := by
  obtain ⟨herror, hnet⟩ := Wire.send_failure hnext (c.context.requestAdu.read c.context.requestAduPos
    (c.context.requestAduLen - c.context.requestAduPos))
  simp only [transact, hstate, sendRequest, if_pos hlt, wireApi, if_neg herror, hnet]
  exact ⟨herror, trivial⟩

theorem transact_sent (hle : c.context.requestAduLen ≤ c.context.requestAduPos) :
    transact wireApi c = (.noError,
      ⟨{ c.context with responseAduLen := 0, responseAduPos := 0, state := .receiving }, c.net⟩) := by
  simp only [transact, hstate, sendRequest, if_neg (Nat.not_lt.2 hle)]

end Sending

/-! ### Receiving -/

section Receiving

variable {c : Client Wire} {done rest : List Adu} {a : Adu} {j : ℕ}

theorem ReadingResponse.take_unread (h : ReadingResponse adus c done a rest j) {t : ℕ}
    (ht : j + t ≤ a.bytes.length) : c.net.unread.take t = (a.bytes.drop j).take t := by
  rw [h.unread, List.take_append_of_le_length (by rw [List.length_drop]; omega)]

/-- The client after it has stored the next `t` bytes of the response. -/
theorem ReadingResponse.advance (h : ReadingResponse adus c done a rest j) {t : ℕ}
    (ht : j + t ≤ a.bytes.length) (responseAduLen : ℕ)
    (hlen : headerSize ≤ j + t → responseAduLen = a.bytes.length) :
    ReadingResponse adus
      ⟨{ (c.context.store (c.net.unread.take t)).advance t with responseAduLen := responseAduLen },
        { c.net with
          received := c.net.received ++ c.net.unread.take t
          unread := c.net.unread.drop t }⟩ done a rest (j + t) := by
  have htake := h.take_unread ht
  have hlength : ((a.bytes.drop j).take t).length = t := by
    rw [List.length_take, List.length_drop]
    omega
  have hjoin : a.bytes.take j ++ (a.bytes.drop j).take t = a.bytes.take (j + t) :=
    (List.take_add ..).symm
  refine ⟨h.split, ?_, ?_, ht, ?_, ?_, hlen⟩
  · simp only
    rw [htake, h.received, List.append_assoc, hjoin]
  · simp only
    rw [h.unread, List.drop_append_of_le_length (by rw [List.length_drop]; omega), List.drop_drop]
  · simp only [ModbusClientContext.advance, ModbusClientContext.store, h.responseAduPos]
    rw [htake, Memory.read_add, Memory.read_write_of_le _ _ (by omega), h.buffer, Nat.zero_add]
    have hread := Memory.read_write_self c.context.responseAdu j ((a.bytes.drop j).take t)
    rw [hlength] at hread
    rw [hread, hjoin]
  · simp only [ModbusClientContext.advance, ModbusClientContext.store, h.responseAduPos]

/-- The header of a response passes `modbusClientParseMbapHeader`. -/
theorem parse_header_ok (ha : a.WellFormed) {context : ModbusClientContext}
    (hpos : headerSize ≤ context.responseAduPos)
    (hread : context.responseAdu.read 0 headerSize = a.header) :
    modbusClientParseMbapHeader context
      = (.noError, { context with responseAduLen := a.bytes.length }) := by
  have hget : ∀ i (hi : i < headerSize), context.responseAdu i = a.header.get ⟨i, hi⟩ := by
    intro i hi
    have hcells : ∀ (k : ℕ) (h : k < a.header.length), context.responseAdu (0 + k) = a.header[k] :=
      Memory.read_eq_iff.1 hread
    have h := hcells i hi
    rwa [Nat.zero_add] at h
  have hlength : (context.responseAdu.getU16 4).toNat = a.pdu.length + 1 := by
    rw [Memory.getU16, hget 4 (by decide), hget 5 (by decide), ← Adu.lengthField_toNat ha]
    exact congrArg UInt16.toNat (Memory.be16_hi8_lo8 _)
  have hprotocol : context.responseAdu.getU16 2 = protocolId := by
    rw [Memory.getU16, hget 2 (by decide), hget 3 (by decide)]
    exact Memory.be16_hi8_lo8 _
  have hmax := ha.le_max
  rw [modbusClientParseMbapHeader, if_neg (Nat.not_lt.2 hpos), hlength, if_neg (by omega),
    if_neg (not_not_intro hprotocol), Nat.add_sub_cancel, if_neg (Nat.not_lt.2 hmax), a.length_bytes]

theorem ReadingResponse.unread_ne_nil (h : ReadingResponse adus c done a rest j)
    (hj : j < a.bytes.length) : c.net.unread ≠ [] := by
  rw [h.unread]
  intro hnil
  have hlength := congrArg List.length (List.append_eq_nil_iff.1 hnil).1
  rw [List.length_drop, List.length_nil] at hlength
  omega

/-- A receive that transfers something takes the next bytes of the response, and parses the header
when it is complete. -/
theorem ReadingResponse.transfer (ha : a.WellFormed) (h : ReadingResponse adus c done a rest j)
    (hj : j < a.bytes.length) (hstate : c.context.state = .receiving) {k : ℕ}
    (hnext : c.net.next = .transfer k) :
    ∃ t responseAduLen, 0 < t ∧ j + t ≤ a.bytes.length ∧
      (headerSize ≤ j + t → responseAduLen = a.bytes.length) ∧
      transact wireApi c = (.noError,
        ⟨{ (c.context.store (c.net.unread.take t)).advance t with responseAduLen := responseAduLen },
          { c.net with
            received := c.net.received ++ c.net.unread.take t
            unread := c.net.unread.drop t }⟩) ∧
      (j < headerSize → parsedHeader c (c.net.receive (headerSize - j))
        = if headerSize ≤ j + t then [((stream done).length, a.header)] else []) := by
  have hne := h.unread_ne_nil hj
  have hbytes := a.length_bytes
  by_cases hheader : j < headerSize
  · obtain ⟨t, ht⟩ : ∃ t, t = min (headerSize - j) (k + 1) := ⟨_, rfl⟩
    have hle : j + t ≤ a.bytes.length := by omega
    have hreceive := Wire.receive_transfer hnext hne (headerSize - j)
    rw [← ht] at hreceive
    have hlength : (c.net.unread.take t).length = t := by
      rw [h.take_unread hle, List.length_take, List.length_drop]
      omega
    have hadvanced : ((c.context.store (c.net.unread.take t)).advance t).responseAduPos = j + t := by
      simp only [ModbusClientContext.advance, ModbusClientContext.store, h.responseAduPos]
    by_cases hfull : headerSize ≤ j + t
    · have hjt : j + t = headerSize := by omega
      have hnew := h.advance hle a.bytes.length fun _ => rfl
      have hread : ((c.context.store (c.net.unread.take t)).advance t).responseAdu.read 0 headerSize
          = a.header := by
        have hbuffer := hnew.buffer
        rw [hjt, a.take_header] at hbuffer
        exact hbuffer
      refine ⟨t, a.bytes.length, by omega, hle, fun _ => rfl, ?_, fun _ => ?_⟩
      · simp only [transact, hstate, receiveResponse, h.responseAduPos, if_pos hheader,
          receiveResponseHeader, wireApi, hreceive, hlength, if_true]
        rw [if_pos (hadvanced ▸ hfull), parse_header_ok ha (hadvanced ▸ hfull) hread]
      · have hreceived : (c.net.received ++ c.net.unread.take t).length - headerSize
            = (stream done).length := by
          rw [List.length_append, hlength, h.received, List.length_append, List.length_take]
          omega
        rw [parsedHeader, hreceive, if_pos ⟨rfl, by rw [hlength, h.responseAduPos]; exact hfull⟩,
          if_pos hfull, hreceived]
        exact congrArg (fun bytes => [((stream done).length, bytes)]) hread
    · refine ⟨t, c.context.responseAduLen, by omega, hle, fun hle => absurd hle hfull, ?_,
        fun _ => ?_⟩
      · simp only [transact, hstate, receiveResponse, h.responseAduPos, if_pos hheader,
          receiveResponseHeader, wireApi, hreceive, hlength, if_true]
        rw [if_neg (hadvanced ▸ hfull)]
        rfl
      · rw [parsedHeader, hreceive, if_neg hfull, if_neg fun hp => hfull (by
          rw [hlength, h.responseAduPos] at hp
          exact hp.2)]
  · have hlen := h.responseAduLen (Nat.not_lt.1 hheader)
    obtain ⟨t, ht⟩ : ∃ t, t = min (a.bytes.length - j) (k + 1) := ⟨_, rfl⟩
    have hle : j + t ≤ a.bytes.length := by omega
    have hreceive := Wire.receive_transfer hnext hne (a.bytes.length - j)
    rw [← ht] at hreceive
    have hlength : (c.net.unread.take t).length = t := by
      rw [h.take_unread hle, List.length_take, List.length_drop]
      omega
    refine ⟨t, c.context.responseAduLen, by omega, hle, fun _ => hlen, ?_,
      fun hlt => absurd hlt hheader⟩
    simp only [transact, hstate, receiveResponse, h.responseAduPos, if_neg hheader, hlen, if_pos hj,
      receiveResponseBody, wireApi, hreceive, hlength, if_true]
    rw [← hlen]
    rfl

end Receiving

/-- A receive that fails leaves the streams as they are. -/
theorem transact_receive_failure {c : Client Wire} (hstate : c.context.state = .receiving)
    (hwants : c.context.responseAduPos < headerSize ∨
      c.context.responseAduPos < c.context.responseAduLen)
    (hfails : c.net.next.failure ≠ none ∨ c.net.unread = []) :
    (transact wireApi c).1 ≠ .noError ∧ (transact wireApi c).2 = c := by
  have hstore : c.context.store [] = c.context := by
    simp only [ModbusClientContext.store, Memory.write_nil]
  by_cases hheader : c.context.responseAduPos < headerSize
  · obtain ⟨herror, hsame⟩ := Wire.receive_failure hfails (headerSize - c.context.responseAduPos)
    have htransact : transact wireApi c
        = ((c.net.receive (headerSize - c.context.responseAduPos)).1, c) := by
      simp only [transact, hstate, receiveResponse, if_pos hheader, receiveResponseHeader, wireApi,
        if_neg herror, hsame, hstore]
    rw [htransact]
    exact ⟨herror, rfl⟩
  · have hbody := hwants.resolve_left hheader
    obtain ⟨herror, hsame⟩ := Wire.receive_failure hfails
      (c.context.responseAduLen - c.context.responseAduPos)
    have htransact : transact wireApi c
        = ((c.net.receive (c.context.responseAduLen - c.context.responseAduPos)).1, c) := by
      simp only [transact, hstate, receiveResponse, if_neg hheader, if_pos hbody, receiveResponseBody,
        wireApi, if_neg herror, hsame, hstore]
    rw [htransact]
    exact ⟨herror, rfl⟩

/-- A complete response is accepted, dropped or ends the call with an error; the streams stay. -/
theorem acceptResponse_state {c : Client Wire} (hstate : c.context.state = .receiving) :
    (acceptResponse c).2.net = c.net ∧
      ((acceptResponse c).1 = .noError →
        (acceptResponse c).2.context.state = .complete ∨
          (acceptResponse c).2.context.state = .receiving ∧
            (acceptResponse c).2.context.responseAduPos = 0) := by
  have hcheck : (modbusClientCheckResp c.context).2.state = .receiving := by
    simp only [modbusClientCheckResp, modbusClientParseExceptionResp]
    repeat' split
    all_goals exact hstate
  rw [acceptResponse]
  by_cases hok : (modbusClientCheckResp c.context).1 = .noError
  · rw [if_pos hok]
    exact ⟨rfl, fun _ => .inl rfl⟩
  · by_cases hother : (modbusClientCheckResp c.context).1 = .wrongIdentifier
    · rw [if_neg hok, if_pos hother]
      exact ⟨rfl, fun _ => .inr ⟨hcheck, rfl⟩⟩
    · rw [if_neg hok, if_neg hother]
      exact ⟨rfl, fun h => absurd h hok⟩

/-! ### The run -/

/-- The state with the outcome of the next socket call and the time. -/
def Client.facing (c : Client Wire) (e : ClientEvent) : Client Wire :=
  { c with net := { c.net with next := e.outcome, time := e.time } }

theorem ReadingResponse.facing {c : Client Wire} {done rest : List Adu} {a : Adu} {j : ℕ}
    (h : ReadingResponse adus c done a rest j) (e : ClientEvent) :
    ReadingResponse adus (c.facing e) done a rest j :=
  ⟨h.split, h.received, h.unread, h.le_length, h.buffer, h.responseAduPos, h.responseAduLen⟩

theorem clientStep_sending {e : ClientEvent} (hstate : s.client.context.state = .sending) :
    clientStep s e
      = { s with client := (modbusClientTransaction wireApi (s.client.facing e)).2 } := by
  simp only [clientStep, hstate]
  rfl

theorem clientStep_receiving {e : ClientEvent} (hstate : s.client.context.state = .receiving) :
    clientStep s e
      = { s with
          client := (modbusClientTransaction wireApi (s.client.facing e)).2
          headers := s.headers ++
            if s.client.context.responseAduPos < headerSize then
              parsedHeader (s.client.facing e)
                ((s.client.facing e).net.receive (headerSize - s.client.context.responseAduPos))
            else [] } := by
  simp only [clientStep, hstate]
  rfl

/-- A call starts: its request ADU is there, and nothing of it is sent. -/
theorem phase_start {e : ClientEvent} (haccepted : e.request.Accepted)
    (hstate : s.client.context.state = .connected) {whole : List (List UInt8)}
    (hsent : s.client.net.sent = whole.flatten) (hsub : whole.Sublist s.requests)
    (hborder : AtBorder adus s.client.net) (hr : Recorded adus s) :
    ClientPhase adus (clientStep s e) ∧ Recorded adus (clientStep s e) := by
  obtain ⟨n, hformatted⟩ := ClientRequest.format_formatted haccepted s.client.context e.time
  obtain ⟨a, ha, hbytes⟩ := hformatted.bytes_eq
  have hstep : clientStep s e = ⟨⟨(e.request.format s.client.context e.time).2,
      (s.client.facing e).net⟩,
      s.requests ++ [(e.request.format s.client.context e.time).2.requestAdu.read 0
        (e.request.format s.client.context e.time).2.requestAduLen], s.headers⟩ := by
    simp only [clientStep, hstate, if_pos haccepted]
    rfl
  rw [hstep]
  refine ⟨.sending whole hformatted.state ?_ ?_ ?_ hborder, ⟨fun r hr' => ?_, hr.headers⟩⟩
  · simp only [hformatted.requestAduPos]
    exact Nat.zero_le _
  · simp only [hformatted.requestAduPos]
    rw [Memory.read_zero, List.append_nil]
    exact hsent
  · exact hsub.append (List.Sublist.refl _)
  · rcases List.mem_append.1 hr' with hold | hnew
    · exact hr.requests r hold
    · rw [List.mem_singleton.1 hnew]
      exact ⟨a, ha, hbytes⟩

/-- A step of the transaction while the request is being sent. -/
theorem phase_sending {e : ClientEvent} (hborderline : FailsAtBorder s e)
    (hstate : s.client.context.state = .sending)
    (hpos : s.client.context.requestAduPos ≤ s.client.context.requestAduLen)
    {whole : List (List UInt8)}
    (hsent : s.client.net.sent = whole.flatten ++
      s.client.context.requestAdu.read 0 s.client.context.requestAduPos)
    (hsub : (whole ++ [s.client.context.requestAdu.read 0 s.client.context.requestAduLen]).Sublist
      s.requests)
    (hborder : AtBorder adus s.client.net) : ClientPhase adus (clientStep s e) := by
  have hwhole : whole.Sublist s.requests := (List.sublist_append_left whole _).trans hsub
  have hadjust : adjustTimeout wireApi (s.client.facing e) = s.client.facing e := rfl
  rw [clientStep_sending hstate, modbusClientTransaction_client, hadjust]
  by_cases hlt : s.client.context.requestAduPos < s.client.context.requestAduLen
  · cases houtcome : e.outcome with
    | transfer k =>
        obtain ⟨t, ht, htransact⟩ :=
          transact_send_transfer (c := s.client.facing e) hstate hlt houtcome
        rw [htransact, if_pos rfl]
        refine .sending whole hstate ht ?_ hsub hborder
        simp only [Client.facing]
        rw [hsent, Memory.read_add, Nat.zero_add, List.append_assoc]
    | timeout taken | wouldBlock taken =>
        have hfailure : e.outcome.failure = some taken := by rw [houtcome]; rfl
        obtain ⟨herror, hclient⟩ :=
          transact_send_failure (c := s.client.facing e) hstate hlt hfailure
        rw [if_neg herror, hclient]
        -- the stream ends with nothing of the request, or with all of it
        rcases hborderline.1 hstate hlt taken hfailure with hnone | hall
        · obtain ⟨hpos0, htaken0⟩ : s.client.context.requestAduPos = 0 ∧ taken = 0 := by omega
          refine .idle whole (.inl rfl) ?_ hwhole hborder
          simp only [Client.facing]
          rw [hsent, hpos0, htaken0]
          simp
        · refine .idle _ (.inl rfl) ?_ hsub hborder
          simp only [Client.facing]
          rw [hsent, List.take_of_length_le (by rw [Memory.length_read]; omega), List.append_assoc,
            List.flatten_append, List.flatten_singleton]
          congr 1
          obtain ⟨d, hd⟩ : ∃ d, s.client.context.requestAduLen
              = s.client.context.requestAduPos + d :=
            ⟨s.client.context.requestAduLen - s.client.context.requestAduPos, by omega⟩
          rw [hd, Nat.add_sub_cancel_left, Memory.read_add, Nat.zero_add]
  · rw [transact_sent (c := s.client.facing e) hstate (Nat.not_lt.1 hlt), if_pos rfl]
    refine .awaiting _ rfl ?_ hsub rfl hborder
    have hend : s.client.context.requestAduPos = s.client.context.requestAduLen := by omega
    simp only [Client.facing]
    rw [hsent, hend, List.flatten_append, List.flatten_singleton]

theorem parsedHeader_failure {c : Client Wire} (h : c.net.next.failure ≠ none ∨ c.net.unread = [])
    (size : ℕ) : parsedHeader c (c.net.receive size) = [] :=
  if_neg fun hok => (Wire.receive_failure h size).1 hok.1

/-- A receive that transfers something. -/
theorem phase_transfer {e : ClientEvent} (hadus : ∀ a ∈ adus, a.WellFormed)
    (hr : Recorded adus s) (hstate : s.client.context.state = .receiving)
    {whole : List (List UInt8)} (hsent : s.client.net.sent = whole.flatten)
    (hsub : whole.Sublist s.requests) {done rest : List Adu} {a : Adu} {j k : ℕ}
    (hreading : ReadingResponse adus s.client done a rest j) (hj : j < a.bytes.length)
    (hnext : e.outcome = .transfer k) :
    ClientPhase adus (clientStep s e) ∧ Recorded adus (clientStep s e) := by
  have ha : a.WellFormed := hadus a (by rw [hreading.split]; simp)
  obtain ⟨t, responseAduLen, ht, hle, hlen, htransact, hparsed⟩ :=
    (hreading.facing e).transfer ha hj hstate hnext
  have hadjust : adjustTimeout wireApi (s.client.facing e) = s.client.facing e := rfl
  rw [clientStep_receiving hstate, modbusClientTransaction_client, hadjust, htransact, if_pos rfl]
  refine ⟨.receiving whole hstate hsent hsub done a rest (j + t) (by omega)
    ((hreading.facing e).advance hle responseAduLen hlen), ⟨hr.requests, fun p hp => ?_⟩⟩
  rcases List.mem_append.1 hp with hold | hnew
  · exact hr.headers p hold
  · rw [hreading.responseAduPos] at hnew
    by_cases hheader : j < headerSize
    · rw [if_pos hheader, hparsed hheader] at hnew
      by_cases hfull : headerSize ≤ j + t
      · rw [if_pos hfull] at hnew
        exact ⟨done, a, rest, hreading.split, List.mem_singleton.1 hnew⟩
      · rw [if_neg hfull] at hnew
        exact absurd hnew List.not_mem_nil
    · rw [if_neg hheader] at hnew
      exact absurd hnew List.not_mem_nil

/-- A receive that fails ends the call, at the border of a response. -/
theorem phase_receive_failure {e : ClientEvent} (hr : Recorded adus s)
    (hstate : s.client.context.state = .receiving) {whole : List (List UInt8)}
    (hsent : s.client.net.sent = whole.flatten) (hsub : whole.Sublist s.requests)
    (hborder : AtBorder adus s.client.net)
    (hwants : s.client.context.responseAduPos < headerSize ∨
      s.client.context.responseAduPos < s.client.context.responseAduLen)
    (hfails : e.outcome.failure ≠ none ∨ s.client.net.unread = []) :
    ClientPhase adus (clientStep s e) ∧ Recorded adus (clientStep s e) := by
  have hadjust : adjustTimeout wireApi (s.client.facing e) = s.client.facing e := rfl
  obtain ⟨herror, hsame⟩ := transact_receive_failure (c := s.client.facing e) hstate hwants hfails
  have hparsed : ∀ size, parsedHeader (s.client.facing e) ((s.client.facing e).net.receive size) = [] :=
    fun size => parsedHeader_failure (c := s.client.facing e) hfails size
  rw [clientStep_receiving hstate, modbusClientTransaction_client, hadjust, if_neg herror, hsame,
    hparsed, ite_self, List.append_nil]
  exact ⟨.idle whole (.inl rfl) hsent hsub hborder, ⟨hr.requests, hr.headers⟩⟩

/-- A complete response is looked at. -/
theorem phase_accept {e : ClientEvent} (hr : Recorded adus s)
    (hstate : s.client.context.state = .receiving) {whole : List (List UInt8)}
    (hsent : s.client.net.sent = whole.flatten) (hsub : whole.Sublist s.requests)
    (hborder : AtBorder adus s.client.net)
    (hheader : ¬ s.client.context.responseAduPos < headerSize)
    (hbody : ¬ s.client.context.responseAduPos < s.client.context.responseAduLen) :
    ClientPhase adus (clientStep s e) ∧ Recorded adus (clientStep s e) := by
  have hadjust : adjustTimeout wireApi (s.client.facing e) = s.client.facing e := rfl
  have htransact : transact wireApi (s.client.facing e) = acceptResponse (s.client.facing e) := by
    have hstate' : (s.client.facing e).context.state = .receiving := hstate
    have hheader' : ¬ (s.client.facing e).context.responseAduPos < headerSize := hheader
    have hbody' : ¬ (s.client.facing e).context.responseAduPos
        < (s.client.facing e).context.responseAduLen := hbody
    simp only [transact, hstate', receiveResponse, if_neg hheader', if_neg hbody']
  obtain ⟨hnet, hnext⟩ := acceptResponse_state (c := s.client.facing e) hstate
  rw [clientStep_receiving hstate, modbusClientTransaction_client, hadjust, htransact,
    if_neg hheader, List.append_nil]
  refine ⟨?_, ⟨hr.requests, hr.headers⟩⟩
  by_cases hok : (acceptResponse (s.client.facing e)).1 = .noError
  · rw [if_pos hok]
    rcases hnext hok with hcomplete | ⟨hreceiving, hpos⟩
    · exact .idle whole (.inr hcomplete) (hnet ▸ hsent) hsub (hnet ▸ hborder)
    · exact .awaiting whole hreceiving (hnet ▸ hsent) hsub hpos (hnet ▸ hborder)
  · rw [if_neg hok]
    exact .idle whole (.inl rfl) (hnet ▸ hsent) hsub (hnet ▸ hborder)

/-- What one iteration preserves, if it does not fail in the middle of an ADU. -/
theorem client_phase_step (hadus : ∀ a ∈ adus, a.WellFormed) {e : ClientEvent}
    (h : ClientPhase adus s) (hr : Recorded adus s) (hborderline : FailsAtBorder s e) :
    ClientPhase adus (clientStep s e) ∧ Recorded adus (clientStep s e) := by
  cases h with
  | idle whole hstate hsent hsub hborder =>
      rcases hstate with hstate | hstate
      · by_cases haccepted : e.request.Accepted
        · exact phase_start haccepted hstate hsent hsub hborder hr
        · have hstep : clientStep s e = { s with client := s.client.facing e } := by
            simp only [clientStep, hstate, if_neg haccepted]
            rfl
          rw [hstep]
          exact ⟨.idle whole (.inl hstate) hsent hsub hborder, ⟨hr.requests, hr.headers⟩⟩
      · have hstep : clientStep s e = { s with client := { s.client.facing e with
            context := { s.client.context with state := .connected } } } := by
          simp only [clientStep, hstate]
          rfl
        rw [hstep]
        exact ⟨.idle whole (.inl rfl) hsent hsub hborder, ⟨hr.requests, hr.headers⟩⟩
  | sending whole hstate hpos hsent hsub hborder =>
      refine ⟨phase_sending hborderline hstate hpos hsent hsub hborder, ?_⟩
      rw [clientStep_sending hstate]
      exact ⟨hr.requests, hr.headers⟩
  | awaiting whole hstate hsent hsub hpos hborder =>
      have hwants : s.client.context.responseAduPos < headerSize := by
        rw [hpos]
        decide
      by_cases hfails : e.outcome.failure ≠ none ∨ s.client.net.unread = []
      · exact phase_receive_failure hr hstate hsent hsub hborder (.inl hwants) hfails
      · obtain ⟨hgoes, hne⟩ := not_or.1 hfails
        obtain ⟨done, a, rest, hreading⟩ := hborder.reading hne hpos
        cases houtcome : e.outcome with
        | transfer k =>
            refine phase_transfer hadus hr hstate hsent hsub hreading ?_ houtcome
            rw [a.length_bytes]
            exact Nat.add_pos_left (by decide) _
        | timeout | wouldBlock => simp [houtcome, WireOutcome.failure] at hgoes
  | receiving whole hstate hsent hsub done a rest j hj hreading =>
      have hbytes := a.length_bytes
      by_cases hwants : s.client.context.responseAduPos < headerSize ∨
          s.client.context.responseAduPos < s.client.context.responseAduLen
      · have hlt : j < a.bytes.length := by
          rw [hreading.responseAduPos] at hwants
          by_cases hheader : j < headerSize
          · omega
          · rw [← hreading.responseAduLen (Nat.not_lt.1 hheader)]
            exact hwants.resolve_left hheader
        by_cases hfails : e.outcome.failure ≠ none ∨ s.client.net.unread = []
        · have hzero := hborderline.2 hstate hwants hfails
          rw [hreading.responseAduPos] at hzero
          omega
        · obtain ⟨hgoes, -⟩ := not_or.1 hfails
          cases houtcome : e.outcome with
          | transfer k => exact phase_transfer hadus hr hstate hsent hsub hreading hlt houtcome
          | timeout | wouldBlock => simp [houtcome, WireOutcome.failure] at hgoes
      · obtain ⟨hheader, hbody⟩ := not_or.1 hwants
        have hend : a.bytes.length ≤ j := by
          rw [hreading.responseAduPos] at hheader hbody
          rw [← hreading.responseAduLen (Nat.not_lt.1 hheader)]
          exact Nat.not_lt.1 hbody
        exact phase_accept hr hstate hsent hsub (hreading.border hend) hheader hbody

/-- A connection that has just been made: the client is `CONNECTED`, nothing has been sent or
received, and the server will send the responses `adus`. -/
structure Fresh (adus : List Adu) (s : ClientSession) : Prop where
  state : s.client.context.state = .connected
  sent : s.client.net.sent = []
  received : s.client.net.received = []
  unread : s.client.net.unread = stream adus
  requests : s.requests = []
  headers : s.headers = []

/-- **Failures at the border of an ADU do not harm the framing.** In every run of calls over one
connection in which each failing socket call leaves both streams at the border of an ADU, both
streams stay framed. -/
theorem client_framing (hadus : ∀ a ∈ adus, a.WellFormed) (hs : Fresh adus s)
    {es : List ClientEvent} (hes : Along FailsAtBorder clientStep s es) :
    ClientFramed adus (run clientStep s es) := by
  have hstart : ClientPhase adus s ∧ Recorded adus s := by
    refine ⟨.idle [] (.inl hs.state) (by rw [hs.sent]; rfl) (List.nil_sublist _)
      ⟨[], adus, rfl, hs.received, hs.unread⟩, ⟨?_, ?_⟩⟩
    · rw [hs.requests]
      nofun
    · rw [hs.headers]
      nofun
  obtain ⟨hphase, hr⟩ := run_invariant (I := fun s => ClientPhase adus s ∧ Recorded adus s)
    (fun s e hs he => client_phase_step hadus hs.1 hs.2 he) hstart hes
  exact hphase.framed hr

/-! ## The calls of the application -/

/-- The iterations of the loop of a call over the wire, each with the outcome of the socket call it may
make and the system time. -/
def iterations {β : Type*} (call : Call β) (s : Calling Wire β)
    (es : List (WireOutcome × UInt32)) : Calling Wire β :=
  run (fun s e =>
    (call.iterate wireApi { s with net := { s.net with next := e.1, time := e.2 } }).calling) s es

/-- `clientStep` is what the loop of a call does in the states a connected client can have. -/
theorem iterate_toClient {β : Type*} (call : Call β) (s : Calling Wire β) (e : ClientEvent)
    (hformat : call.format = e.request.format) (haccepted : e.request.Accepted)
    (hstate : s.context.state ≠ .disconnected ∧ s.context.state ≠ .connecting)
    (requests : List (List UInt8)) (headers : List (ℕ × List UInt8)) :
    (call.iterate wireApi { s with
      net := { s.net with next := e.outcome, time := e.time } }).calling.toClient
      = (clientStep ⟨s.toClient, requests, headers⟩ e).client := by
  unfold Call.iterate clientStep
  cases hs : s.context.state with
  | disconnected => exact absurd hs hstate.1
  | connecting => exact absurd hs hstate.2
  | connected => simp only [hs, haccepted, if_true, hformat, wireApi]
  | sending => simp only [hs]
  | receiving => simp only [hs]
  | complete => simp only [hs]

theorem ClientPhase.connected (h : ClientPhase adus s) :
    s.client.context.state ≠ .disconnected ∧ s.client.context.state ≠ .connecting := by
  cases h with
  | idle whole hstate => rcases hstate with hstate | hstate <;> rw [hstate] <;> decide
  | sending whole hstate | awaiting whole hstate | receiving whole hstate =>
      rw [hstate]
      decide

/-- A call of the application is a run of `clientStep`: it keeps both streams framed, after any calls
that have done so. -/
theorem iterations_framed (hadus : ∀ a ∈ adus, a.WellFormed) {β : Type*} {call : Call β}
    {r : ClientRequest} (hformat : call.format = r.format) (haccepted : r.Accepted)
    {c : Calling Wire β} {requests : List (List UInt8)} {headers : List (ℕ × List UInt8)}
    (hphase : ClientPhase adus ⟨c.toClient, requests, headers⟩)
    (hr : Recorded adus ⟨c.toClient, requests, headers⟩) {es : List (WireOutcome × UInt32)}
    (hes : Along FailsAtBorder clientStep ⟨c.toClient, requests, headers⟩
      (es.map fun e => ⟨r, e.1, e.2⟩)) :
    ∃ requests' headers', run clientStep ⟨c.toClient, requests, headers⟩
        (es.map fun e => ⟨r, e.1, e.2⟩) = ⟨(iterations call c es).toClient, requests', headers'⟩ ∧
      ClientFramed adus ⟨(iterations call c es).toClient, requests', headers'⟩ := by
  induction es generalizing c requests headers with
  | nil => exact ⟨requests, headers, rfl, hphase.framed hr⟩
  | cons e es ih =>
      obtain ⟨he, hes⟩ := hes
      have hstep := iterate_toClient call c ⟨r, e.1, e.2⟩ hformat haccepted hphase.connected
        requests headers
      obtain ⟨hphase, hr⟩ := client_phase_step hadus hphase hr he
      rw [List.map_cons, run_cons, iterations, run_cons]
      generalize clientStep ⟨c.toClient, requests, headers⟩ ⟨r, e.1, e.2⟩ = next at *
      obtain ⟨client, requests', headers'⟩ := next
      obtain rfl : _ = client := hstep
      exact ih hphase hr hes

end Framing

/-! ## Two runs -/

/-- A client at the start of a connection on which the server sends two responses to reads of one
holding register. -/
def freshSession : ClientSession where
  client := {
    context := {
      state := .connected, unitId := 1, transactionId := 0, timestamp := 0, timeout := 1000
      requestAdu := fun _ => 0, requestAduLen := 0, requestAduPos := 0
      responseAdu := fun _ => 0, responseAduLen := 0, responseAduPos := 0, exceptionCode := 0 }
    net := {
      sent := [], received := [], next := .transfer 0, time := 0
      unread := stream [⟨1, 1, [3, 2, 0, 7]⟩, ⟨2, 1, [3, 2, 0, 8]⟩] } }
  requests := []
  headers := []

/-- Iterations of calls that read one register, with the given outcomes of the socket calls. -/
def readingOneReg (outcomes : List WireOutcome) : List ClientEvent :=
  outcomes.map fun outcome => ⟨.readHoldingRegs 0 1, outcome, 0⟩

/-- The first response comes too late, and is dropped by the second call. -/
theorem client_framing_late :
    Along FailsAtBorder clientStep freshSession (readingOneReg [.transfer 0, .transfer 255,
      .transfer 0, .timeout 0, .transfer 0, .transfer 255, .transfer 0, .transfer 255,
      .transfer 255, .transfer 0, .transfer 255, .transfer 255]) ∧
    ClientFramed [⟨1, 1, [3, 2, 0, 7]⟩, ⟨2, 1, [3, 2, 0, 8]⟩] (run clientStep freshSession
      (readingOneReg [.transfer 0, .transfer 255, .transfer 0, .timeout 0, .transfer 0,
        .transfer 255, .transfer 0, .transfer 255, .transfer 255, .transfer 0, .transfer 255,
        .transfer 255])) := by
  refine ⟨by decide, client_framing ?_ ⟨rfl, rfl, rfl, rfl, rfl, rfl⟩ (by decide)⟩
  intro a ha
  simp only [List.mem_cons, List.not_mem_nil, or_false] at ha
  rcases ha with rfl | rfl <;> exact ⟨by decide, by decide⟩

/-- A timeout after three bytes of the first response: the second call takes its fourth to tenth
byte for a header. -/
theorem timeout_in_header_not_framed :
    Fresh [⟨1, 1, [3, 2, 0, 7]⟩, ⟨2, 1, [3, 2, 0, 8]⟩] freshSession ∧
    ¬ ClientFramed [⟨1, 1, [3, 2, 0, 7]⟩, ⟨2, 1, [3, 2, 0, 8]⟩] (run clientStep freshSession
      (readingOneReg [.transfer 0, .transfer 255, .transfer 0, .transfer 2, .timeout 0,
        .transfer 0, .transfer 255, .transfer 0, .transfer 255])) := by
  refine ⟨⟨rfl, rfl, rfl, rfl, rfl, rfl⟩, fun hframed => ?_⟩
  have hheaders : (run clientStep freshSession (readingOneReg [.transfer 0, .transfer 255,
      .transfer 0, .transfer 2, .timeout 0, .transfer 0, .transfer 255, .transfer 0,
      .transfer 255])).headers = [(3, [0, 0, 5, 1, 3, 2, 0])] := by decide
  obtain ⟨done, a, rest, -, hparsed⟩ := hframed.headers (3, [0, 0, 5, 1, 3, 2, 0]) (by
    rw [hheaders]
    exact List.mem_singleton_self _)
  have hoffset : (stream done).length = 3 := (congrArg Prod.fst hparsed).symm
  cases done with
  | nil => exact absurd hoffset (by decide)
  | cons b done =>
      rw [stream_cons, List.length_append, b.length_bytes] at hoffset
      simp only [headerSize] at hoffset
      omega

end Modbus
