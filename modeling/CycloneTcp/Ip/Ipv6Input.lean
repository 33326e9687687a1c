import CycloneTcp.Ip.Icmpv6

/-! # Incoming IPv6 packets

`ipv6ProcessPacket` follows the chain of extension headers; a packet for someone else is forwarded,
and a fragment goes to the reassembly queue. A datagram that has been put together is a packet that
comes in again. All this is followed as far as error messages are sent. -/

set_option autoImplicit false

namespace Ip

open Ipv6 (Ipv6Addr IPV6_UNSPECIFIED_ADDR IPV6_LOOPBACK_ADDR ipv6GetAddrScope)

/-! ## Extension headers -/

section Headers

variable (mem : Memory UInt8) (ipPacket : NetBuffer) (headerOffset nextHeaderOffset : ℕ)

def ERROR_INVALID_TYPE : ErrorCode := .other 239

/-- Parse Routing header. -/
def ipv6ParseRoutingHeader : ErrorCode × List Icmpv6Error × ℕ × ℕ :=
  let length := netBufferGetLength ipPacket - headerOffset
  if length < ipv6RoutingHeaderSize then (.invalidHeader, [], headerOffset, nextHeaderOffset)
  else
    match netBufferAt ipPacket headerOffset with
    | none => (.failure, [], headerOffset, nextHeaderOffset)
    | some header =>
        let headerLen := (mem (header + 1)).toNat * 8 + 8
        if length < headerLen then (.invalidHeader, [], headerOffset, nextHeaderOffset)
        else if mem (header + 3) ≠ 0 then
          -- segments are left: the message points to the Routing Type field
          (ERROR_INVALID_TYPE, [{ type := ICMPV6_TYPE_PARAM_PROBLEM
                                  code := ICMPV6_CODE_INVALID_HEADER_FIELD
                                  parameter := headerOffset + 2 }], headerOffset, nextHeaderOffset)
        else (.noError, [], headerOffset + headerLen, headerOffset)

/-- Parse the extension header of the given type, if it is one. Authentication headers and Encapsulating
Security Payload headers are not supported. -/
def parseExtensionHeader (type : UInt8) : Option (ErrorCode × List Icmpv6Error × ℕ × ℕ) :=
  if type = IPV6_HOP_BY_HOP_OPT_HEADER then
    some (ipv6ParseHopByHopOptHeader mem ipPacket 0 headerOffset nextHeaderOffset)
  else if type = IPV6_DEST_OPT_HEADER then
    some (ipv6ParseDestOptHeader mem ipPacket 0 headerOffset nextHeaderOffset)
  else if type = IPV6_ROUTING_HEADER then
    some (ipv6ParseRoutingHeader mem ipPacket headerOffset nextHeaderOffset)
  else if type = IPV6_AH_HEADER ∨ type = IPV6_ESP_HEADER then
    some (.failure, [], headerOffset, nextHeaderOffset)
  else none

/-- The header that is neither an extension header nor a Fragment header. `upper` is what
`udpProcessDatagram` returns, and `tentative` tells whether the packet goes to a tentative address. -/
def processUpperLayer (tentative : Bool) (upper : ErrorCode) (type : UInt8) : List Icmpv6Error :=
  if type = IPV6_ICMPV6_HEADER ∨ type = IPV6_TCP_HEADER ∨ type = IPV6_NO_NEXT_HEADER then []
  else if tentative = true then []
  else if type = IPV6_UDP_HEADER then
    if upper = ERROR_PORT_UNREACHABLE then
      [{ type := ICMPV6_TYPE_DEST_UNREACHABLE, code := ICMPV6_CODE_PORT_UNREACHABLE, parameter := 0 }]
    else []
  else
    [{ type := ICMPV6_TYPE_PARAM_PROBLEM, code := ICMPV6_CODE_UNKNOWN_NEXT_HEADER
       parameter := nextHeaderOffset }]

variable {mem ipPacket headerOffset nextHeaderOffset}

theorem parseOptHeader_progress {misplaced : Bool}
    (h : (parseOptHeader mem ipPacket 0 headerOffset nextHeaderOffset misplaced).1 = .noError) :
    headerOffset <
      (parseOptHeader mem ipPacket 0 headerOffset nextHeaderOffset misplaced).2.2.1 := by
  unfold parseOptHeader at h ⊢
  dsimp only at h ⊢
  repeat' split
  all_goals simp_all

theorem parseExtensionHeader_progress {type : UInt8} {messages : List Icmpv6Error} {next field : ℕ}
    (h : parseExtensionHeader mem ipPacket headerOffset nextHeaderOffset type =
      some (.noError, messages, next, field)) : headerOffset < next := by
  unfold parseExtensionHeader at h
  repeat' split at h
  all_goals simp only [Option.some.injEq, reduceCtorEq] at h
  · have := @parseOptHeader_progress mem _ _ _ _ (congrArg Prod.fst h)
    rwa [show parseOptHeader _ _ _ _ _ _ = _ from h] at this
  · have := @parseOptHeader_progress mem _ _ _ _ (congrArg Prod.fst h)
    rwa [show parseOptHeader _ _ _ _ _ _ = _ from h] at this
  · unfold ipv6ParseRoutingHeader at h
    dsimp only at h
    repeat' split at h
    all_goals simp [ERROR_INVALID_TYPE] at h
    omega
  · cases h

end Headers

section Loop

variable (mem : Memory UInt8) (ipPacket : NetBuffer) (tentative : Bool) (upper : ErrorCode)

/-- The loop of `ipv6ProcessPacket`: the messages sent, and the positions of the Fragment header and
of the Next Header field in front of it, if there is one. -/
def headerLoop (headerOffset nextHeaderOffset : ℕ) : List Icmpv6Error × Option (ℕ × ℕ) :=
  if _hlt : headerOffset < netBufferGetLength ipPacket then
    match netBufferAt ipPacket nextHeaderOffset with
    | none => ([], none)
    | some p =>
        let type := mem p
        if type = IPV6_FRAGMENT_HEADER then ([], some (headerOffset, nextHeaderOffset))
        else
          match _hparse : parseExtensionHeader mem ipPacket headerOffset nextHeaderOffset type with
          | none => (processUpperLayer nextHeaderOffset tentative upper type, none)
          | some (.noError, messages, next, field) =>
              let rest := headerLoop next field
              (messages ++ rest.1, rest.2)
          | some (_, messages, _, _) => (messages, none)
  else ([], none)
termination_by netBufferGetLength ipPacket - headerOffset
decreasing_by
  have := parseExtensionHeader_progress _hparse
  omega

end Loop

/-! ## Forwarding -/

/-- What `ipv6ForwardPacket` learns about the outgoing interface: its MTU, whether the packet is
addressed to it, and whether it is the one the packet was received on. -/
structure Route where
  linkMtu : ℕ
  addressed : Bool
  same : Bool

/-- Forward an IPv6 packet: the messages sent, and whether the packet goes on. `routing` tells whether
the interface is a router's with a valid link-local address, and `route` is what the determination
of the route results in. -/
def ipv6ForwardPacket (mem : Memory UInt8) (ipPacket : NetBuffer) (routing : Bool)
    (route : Option Route) (packet : InvokingPacket) : List Icmpv6Error × Bool :=
  let header := packet.header
  if routing = false then ([], false)
  else if header.srcAddr = IPV6_UNSPECIFIED_ADDR then ([], false)
  else if header.destAddr = IPV6_UNSPECIFIED_ADDR then ([], false)
  else if header.destAddr = IPV6_LOOPBACK_ADDR then ([], false)
  else
    match route with
    | none =>
        ([{ type := ICMPV6_TYPE_DEST_UNREACHABLE, code := ICMPV6_CODE_NO_ROUTE_TO_DEST
            parameter := 0 }], false)
    | some route =>
        if route.linkMtu < netBufferGetLength ipPacket then
          ([{ type := ICMPV6_TYPE_PACKET_TOO_BIG, code := 0, parameter := route.linkMtu }], false)
        else if route.addressed = true ∧ Ipv6.ipv6IsMulticastAddr header.destAddr = false then
          ([], false)
        else if route.same = false ∧
            ipv6GetAddrScope header.srcAddr < ipv6GetAddrScope header.destAddr then
          ([{ type := ICMPV6_TYPE_DEST_UNREACHABLE, code := ICMPV6_CODE_BEYOND_SCOPE_OF_SRC_ADDR
              parameter := 0 }], false)
        else if header.hopLimit ≤ 1 then
          ([{ type := ICMPV6_TYPE_TIME_EXCEEDED, code := ICMPV6_CODE_HOP_LIMIT_EXCEEDED
              parameter := 0 }], false)
        else if header.nextHeader = IPV6_HOP_BY_HOP_OPT_HEADER then
          let (error, messages, _, _) := ipv6ParseHopByHopOptHeader mem ipPacket 0 ipv6HeaderSize 6
          (messages, decide (error = .noError))
        else ([], true)

/-! ## Processing -/

/-- What `ipv6ProcessPacket` is called with, and what the rest of the stack answers: is the packet
for this host, is its destination tentative, what does the protocol return, and where is the packet
forwarded to? -/
structure Ipv6Arrival where
  mem : Memory UInt8
  ipPacket : NetBuffer
  accepted : Bool
  tentative : Bool
  upper : ErrorCode
  routing : Bool
  route : Option Route
  pool : Pool

/-- What becomes of a packet: the packet as it is answered, the messages about it, the fragment that it
carries, and whether it is forwarded. -/
structure Ipv6Processed where
  packet : InvokingPacket
  messages : List Icmpv6Error
  fragment : Option Ipv6Fragment
  forwarded : Bool
  deriving DecidableEq

/-- The packet as it is answered: a packet for this host ends where its header says. -/
def Ipv6Arrival.received (arrival : Ipv6Arrival) : Option InvokingPacket :=
  (invokingPacket arrival.mem arrival.ipPacket).map fun packet =>
    if arrival.accepted = true then
      { packet with data := packet.data.take packet.header.payloadLen.toNat }
    else packet

/-- The fragment that begins at `headerOffset`, if there is room for a Fragment header. -/
def fragmentAt (mem : Memory UInt8) (ipPacket : NetBuffer) (packet : InvokingPacket)
    (headerOffset nextHeaderOffset : ℕ) : Option Ipv6Fragment :=
  if netBufferGetLength ipPacket - headerOffset < ipv6FragmentHeaderSize then none
  else
    match netBufferAt ipPacket headerOffset with
    | none => none
    | some fragHeader =>
        some {
          header := packet.header
          extension := packet.data.take (headerOffset - ipv6HeaderSize)
          nextHeaderOffset :=
            if nextHeaderOffset < ipv6HeaderSize then none
            else some (nextHeaderOffset - ipv6HeaderSize)
          fragHeader :=
            { nextHeader := mem fragHeader
              reserved := mem (fragHeader + 1)
              fragmentOffset := mem.getU16 (fragHeader + 2)
              identification := ((mem.getU16 (fragHeader + 4)).toUInt32 <<< 16) |||
                (mem.getU16 (fragHeader + 6)).toUInt32 }
          data := packet.data.drop (headerOffset + ipv6FragmentHeaderSize - ipv6HeaderSize) }

/-- Incoming IPv6 packet processing, for a packet that passes the checks of its header. -/
def ipv6ProcessPacket (arrival : Ipv6Arrival) : Option Ipv6Processed :=
  match invokingPacket arrival.mem arrival.ipPacket with
  | none => none
  | some packet =>
      let header := packet.header
      if header.version ≠ IPV6_VERSION then none
      else if packet.data.length < header.payloadLen.toNat then none
      else if ipv6CheckSourceAddr header.srcAddr ≠ .noError then none
      else if arrival.accepted = false then
        let (messages, forwarded) := ipv6ForwardPacket arrival.mem arrival.ipPacket arrival.routing
          arrival.route packet
        some { packet := packet, messages := messages, fragment := none, forwarded := forwarded }
      else
        -- adjust the length of the multi-part buffer
        let ipPacket := { arrival.ipPacket with
          chunk := (adjustChunks arrival.ipPacket.chunk
            (ipv6HeaderSize + header.payloadLen.toNat)).1 }
        let packet := { packet with data := packet.data.take header.payloadLen.toNat }
        let (messages, position) := headerLoop arrival.mem ipPacket arrival.tentative arrival.upper
          ipv6HeaderSize 6
        some {
          packet := packet
          messages := messages
          fragment := position.bind fun position =>
            fragmentAt arrival.mem ipPacket packet position.1 position.2
          forwarded := false }

/-- The message that points to the Fragment Offset field of a fragment. -/
def offsetProblem (packet : Ipv6Fragment) : Icmpv6Error where
  type := ICMPV6_TYPE_PARAM_PROBLEM
  code := ICMPV6_CODE_INVALID_HEADER_FIELD
  parameter := ipv6HeaderSize + packet.extension.length + 2

/-- The messages that `ipv6ParseFragmentHeader` sends: the length of the fragment is no multiple of 8
bytes, or the datagram would become too large. -/
def fragmentMessages {n : ℕ} (pool : Pool) (queue : Fin n → FragDesc Ipv6Unfragmentable)
    (packet : Ipv6Fragment) : List Icmpv6Error :=
  let f := ipv6.fragment packet
  if f.more = true ∧ f.data.length % 8 ≠ 0 then
    -- the message points to the Payload Length field
    [{ type := ICMPV6_TYPE_PARAM_PROBLEM, code := ICMPV6_CODE_INVALID_HEADER_FIELD, parameter := 4 }]
  else
    match searchFragQueue ipv6 pool queue packet with
    | none => []
    | some (k, queue) =>
        let frag := queue k
        let dataLast := f.dataFirst + UInt16.ofNat f.data.length
        if f.dataFirst = 0 ∧ (ipv6.firstHeader packet).2 + frag.dataLen > ipv6.maxDatagramSize then
          [offsetProblem packet]
        else
          let frag := if f.dataFirst = 0 then firstFragment ipv6 frag packet else frag
          if frag.used = true ∧ dataLast.toNat > frag.dataLen ∧
              frag.headerLength + dataLast.toNat > ipv6.maxDatagramSize then
            [offsetProblem packet]
          else []

/-- The datagram in an entry of the reassembly queue, when its time is over. -/
def expiredInvoking (frag : FragDesc Ipv6Unfragmentable) : Option InvokingPacket :=
  (expiredDatagram frag).map fun datagram =>
    { header := datagram.1.header, data := datagram.1.extension ++ datagram.2 }

/-! ## The host -/

/-- A message that has been sent, the packet that it answers, and the anycast addresses of the
interface. -/
structure Ipv6Answer where
  anycastAddrList : List Ipv6Addr
  packet : InvokingPacket
  message : Icmpv6ErrorMessage

/-- The reassembly queue of an interface, the packets that are to be forwarded and wait for an address
to be resolved, and the messages that have been sent. -/
structure Ipv6Host where
  queue : Fin IPV6_MAX_FRAG_DATAGRAMS → FragDesc Ipv6Unfragmentable
  waiting : List InvokingPacket
  answers : List Ipv6Answer

/-- A packet comes in, the time of an entry is over, or the address that a packet waits for cannot be
resolved, or has been. -/
inductive Ipv6Event where
  | packet (sender : Icmpv6Sender) (arrival : Ipv6Arrival)
  | expire (sender : Icmpv6Sender) (k : Fin IPV6_MAX_FRAG_DATAGRAMS)
  | unresolved (sender : Icmpv6Sender) (i : ℕ)
  | resolved (i : ℕ)

/-- The messages that leave the host. -/
def Icmpv6Sender.answers (sender : Icmpv6Sender) (packet : InvokingPacket)
    (errors : List Icmpv6Error) : List Ipv6Answer :=
  errors.filterMap fun error =>
    (icmpv6SendErrorMessage sender error packet).map fun message =>
      { anycastAddrList := sender.anycastAddrList, packet := packet, message := message }

/-- A router decrements the Hop Limit. -/
def InvokingPacket.forward (packet : InvokingPacket) : InvokingPacket :=
  { packet with header := { packet.header with hopLimit := packet.header.hopLimit - 1 } }

namespace Ipv6Host

/-- One step of the host. There is no state after a step from which the code does not return. -/
def step (s : Ipv6Host) : Ipv6Event → Option Ipv6Host
  | .packet sender arrival =>
      match ipv6ProcessPacket arrival with
      | none => some s
      | some p =>
          let s := { s with
            waiting := if p.forwarded = true then s.waiting ++ [p.packet.forward] else s.waiting
            answers := s.answers ++ sender.answers p.packet p.messages }
          match p.fragment with
          | none => some s
          | some fragment =>
              match ipv6ParseFragmentHeader arrival.pool s.queue fragment with
              | none => none
              | some (queue, _) =>
                  some { s with
                    queue := queue
                    answers := s.answers ++
                      sender.answers p.packet (fragmentMessages arrival.pool s.queue fragment) }
  | .expire sender k =>
      if (s.queue k).used = true then
        some { s with
          queue := Function.update s.queue k (s.queue k).drop
          answers := s.answers ++ (expiredInvoking (s.queue k)).toList.flatMap fun packet =>
            sender.answers packet [{ type := ICMPV6_TYPE_TIME_EXCEEDED
                                     code := ICMPV6_CODE_REASSEMBLY_TIME_EXCEEDED
                                     parameter := 0 }] }
      else some s
  | .unresolved sender i =>
      some { s with
        waiting := s.waiting.eraseIdx i
        answers := s.answers ++ s.waiting[i]?.toList.flatMap fun packet =>
          sender.answers packet [{ type := ICMPV6_TYPE_DEST_UNREACHABLE
                                   code := ICMPV6_CODE_ADDR_UNREACHABLE
                                   parameter := 0 }] }
  | .resolved i => some { s with waiting := s.waiting.eraseIdx i }

/-- The packet that an event makes the host answer, if it makes it answer one. -/
def invoking (s : Ipv6Host) : Ipv6Event → Option InvokingPacket
  | .packet _ arrival => arrival.received
  | .expire _ k => if (s.queue k).used = true then expiredInvoking (s.queue k) else none
  | .unresolved _ i => s.waiting[i]?
  | .resolved _ => none

/-- The packet hides no error message behind its extension headers. -/
def Admits (s : Ipv6Host) (e : Ipv6Event) : Prop :=
  ∀ packet ∈ s.invoking e, ¬ packet.HidesError

/-- The sources in the host have passed the filter, and all answers are in order. -/
structure Kept (s : Ipv6Host) : Prop where
  queue : ∀ k, (s.queue k).used = true →
    Ipv6.ipv6IsMulticastAddr (s.queue k).header.header.srcAddr = false
  waiting : ∀ packet ∈ s.waiting, Ipv6.ipv6IsMulticastAddr packet.header.srcAddr = false
  answers : ∀ answer ∈ s.answers, answer.packet.Answerable answer.anycastAddrList answer.message

variable {s s' : Ipv6Host} {sender : Icmpv6Sender} {packet : InvokingPacket}
  {errors : List Icmpv6Error}

theorem mem_answers {answer : Ipv6Answer} (h : answer ∈ sender.answers packet errors) :
    ∃ error, answer.message ∈ icmpv6SendErrorMessage sender error packet ∧
      answer.packet = packet ∧ answer.anycastAddrList = sender.anycastAddrList := by
  obtain ⟨error, -, hmap⟩ := List.mem_filterMap.1 h
  obtain ⟨message, hmessage, rfl⟩ := Option.map_eq_some_iff.1 hmap
  exact ⟨error, hmessage, rfl, rfl⟩

/-- **A packet is answered properly iff it hides no error message**, once its source has passed the
filter. -/
theorem answers_answerable_iff
    (hsource : Ipv6.ipv6IsMulticastAddr packet.header.srcAddr = false)
    (hne : sender.answers packet errors ≠ []) :
    (∀ answer ∈ sender.answers packet errors,
      answer.packet.Answerable answer.anycastAddrList answer.message) ↔ ¬ packet.HidesError := by
  constructor
  · intro h
    obtain ⟨answer, hmem⟩ := List.exists_mem_of_ne_nil _ hne
    have hanswerable := h answer hmem
    obtain ⟨error, hmessage, hpacket, hanycast⟩ := mem_answers hmem
    rw [hpacket, hanycast] at hanswerable
    exact (InvokingPacket.answerable_iff hmessage hsource).1 hanswerable
  · intro hhides answer hmem
    obtain ⟨error, hmessage, hpacket, hanycast⟩ := mem_answers hmem
    rw [hpacket, hanycast]
    exact (InvokingPacket.answerable_iff hmessage hsource).2 hhides

theorem append_answerable {answers : List Ipv6Answer}
    (h : ∀ answer ∈ answers, answer.packet.Answerable answer.anycastAddrList answer.message)
    (hsource : Ipv6.ipv6IsMulticastAddr packet.header.srcAddr = false)
    (hhides : ¬ packet.HidesError) : ∀ answer ∈ answers ++ sender.answers packet errors,
      answer.packet.Answerable answer.anycastAddrList answer.message := by
  intro answer hmem
  rcases List.mem_append.1 hmem with hmem | hmem
  · exact h answer hmem
  · exact (answers_answerable_iff hsource (List.ne_nil_of_mem hmem)).2 hhides answer hmem

/-- The source of a packet that is processed has passed the filter. -/
theorem ipv6ProcessPacket_source {arrival : Ipv6Arrival} {p : Ipv6Processed}
    (h : ipv6ProcessPacket arrival = some p) :
    arrival.received = some p.packet ∧
      Ipv6.ipv6IsMulticastAddr p.packet.header.srcAddr = false ∧
      ∀ fragment ∈ p.fragment, fragment.header = p.packet.header := by
  unfold ipv6ProcessPacket at h
  split at h
  case h_1 => cases h
  case h_2 packet hpacket =>
    dsimp only at h
    by_cases hversion : packet.header.version ≠ IPV6_VERSION
    · rw [if_pos hversion] at h
      cases h
    by_cases hlen : packet.data.length < packet.header.payloadLen.toNat
    · rw [if_neg hversion, if_pos hlen] at h
      cases h
    by_cases hsource : ipv6CheckSourceAddr packet.header.srcAddr ≠ .noError
    · rw [if_neg hversion, if_neg hlen, if_pos hsource] at h
      cases h
    rw [if_neg hversion, if_neg hlen, if_neg hsource] at h
    have hmulticast : Ipv6.ipv6IsMulticastAddr packet.header.srcAddr = false := by
      unfold ipv6CheckSourceAddr at hsource
      by_contra hnot
      rw [Bool.not_eq_false] at hnot
      exact hsource (by rw [if_pos hnot]; decide)
    by_cases haccepted : arrival.accepted = true
    · rw [if_neg (by simp [haccepted])] at h
      cases h
      refine ⟨by simp [Ipv6Arrival.received, hpacket, haccepted], hmulticast, ?_⟩
      intro fragment hmem
      obtain ⟨position, -, hfragment⟩ := Option.bind_eq_some_iff.1 hmem
      unfold fragmentAt at hfragment
      repeat' split at hfragment
      all_goals cases hfragment
      all_goals rfl
    · rw [if_pos (by simpa using haccepted)] at h
      cases h
      exact ⟨by simp [Ipv6Arrival.received, hpacket, haccepted], hmulticast,
        fun _ hmem => by cases hmem⟩

/-- Reassembly brings no other sources into the queue. -/
theorem reassemble_sources {n : ℕ} {pool : Pool} {fragment : Ipv6Fragment}
    {queue queue' : Fin n → FragDesc Ipv6Unfragmentable}
    {datagram : Option (Ipv6Unfragmentable × List UInt8)}
    (hqueue : ∀ k, (queue k).used = true →
      Ipv6.ipv6IsMulticastAddr (queue k).header.header.srcAddr = false)
    (hfragment : Ipv6.ipv6IsMulticastAddr fragment.header.srcAddr = false)
    (h : ipv6ParseFragmentHeader pool queue fragment = some (queue', datagram)) (k : Fin n)
    (hused : (queue' k).used = true) :
    Ipv6.ipv6IsMulticastAddr (queue' k).header.header.srcAddr = false := by
  have hkeys := reassemble_keys (r := ipv6)
    (Q := fun key => Ipv6.ipv6IsMulticastAddr key.1 = false) hqueue hfragment h
  exact hkeys.1 k hused

theorem Kept.step (h : s.Kept) {e : Ipv6Event} (he : s.Admits e) (hstep : s.step e = some s') :
    s'.Kept := by
  cases e with
  | packet sender arrival =>
      rw [Ipv6Host.step] at hstep
      cases hprocess : ipv6ProcessPacket arrival with
      | none =>
          rw [hprocess] at hstep
          cases hstep
          exact h
      | some p =>
          rw [hprocess] at hstep
          dsimp only at hstep
          obtain ⟨hreceived, hsource, hheader⟩ := ipv6ProcessPacket_source hprocess
          have hhides : ¬ p.packet.HidesError := he p.packet hreceived
          have hanswers : ∀ answer ∈ s.answers ++ sender.answers p.packet p.messages,
              answer.packet.Answerable answer.anycastAddrList answer.message :=
            append_answerable h.answers hsource hhides
          have hwaiting : ∀ packet ∈ if p.forwarded = true then s.waiting ++ [p.packet.forward]
              else s.waiting, Ipv6.ipv6IsMulticastAddr packet.header.srcAddr = false := by
            intro packet hmem
            split at hmem
            · rcases List.mem_append.1 hmem with hmem | hmem
              · exact h.waiting packet hmem
              · rw [List.mem_singleton.1 hmem]
                exact hsource
            · exact h.waiting packet hmem
          cases hfragment : p.fragment with
          | none =>
              rw [hfragment] at hstep
              cases hstep
              exact ⟨h.queue, hwaiting, hanswers⟩
          | some fragment =>
              rw [hfragment] at hstep
              dsimp only at hstep
              split at hstep
              case h_1 => cases hstep
              case h_2 queue datagram hreassemble =>
                cases hstep
                refine ⟨?_, hwaiting, append_answerable hanswers hsource hhides⟩
                refine reassemble_sources h.queue ?_ hreassemble
                rw [hheader fragment hfragment]
                exact hsource
  | expire sender k =>
      rw [Ipv6Host.step] at hstep
      split at hstep
      case isFalse =>
          cases hstep
          exact h
      case isTrue hused =>
          cases hstep
          have hdropped : ({ s with queue := Function.update s.queue k (s.queue k).drop } :
              Ipv6Host).Kept := by
            refine ⟨?_, h.waiting, h.answers⟩
            intro k' hused'
            by_cases hk : k' = k
            · subst hk
              simp [FragDesc.drop] at hused'
            · simp only [Function.update_of_ne hk] at hused' ⊢
              exact h.queue k' hused'
          cases hpacket : expiredInvoking (s.queue k) with
          | none => simpa [hpacket] using hdropped
          | some packet =>
              have hheader : packet.header = (s.queue k).header.header := by
                unfold expiredInvoking expiredDatagram at hpacket
                repeat' split at hpacket
                all_goals simp at hpacket
                rw [← hpacket]
              have hhides : ¬ packet.HidesError := he packet (by
                rw [invoking, if_pos hused]
                exact hpacket)
              have hsource : Ipv6.ipv6IsMulticastAddr packet.header.srcAddr = false :=
                hheader ▸ h.queue k hused
              refine ⟨hdropped.queue, h.waiting, ?_⟩
              simpa using append_answerable h.answers hsource hhides
  | unresolved sender i =>
      cases hstep
      have herased : ({ s with waiting := s.waiting.eraseIdx i } : Ipv6Host).Kept :=
        ⟨h.queue, fun packet hmem => h.waiting packet (List.mem_of_mem_eraseIdx hmem), h.answers⟩
      cases hpacket : s.waiting[i]? with
      | none => simpa [hpacket] using herased
      | some packet =>
          have hsource := h.waiting packet (List.mem_of_getElem? hpacket)
          refine ⟨h.queue, herased.waiting, ?_⟩
          simpa using append_answerable h.answers hsource (he packet hpacket)
  | resolved i =>
      cases hstep
      exact ⟨h.queue, fun packet hmem => h.waiting packet (List.mem_of_mem_eraseIdx hmem), h.answers⟩

end Ipv6Host

end Ip
