import CycloneTcp.Modbus.Common

/-! # A socket over a byte stream

The network as a connection sees it when nothing fails but the timing: a stream of bytes still to be
read, the bytes accepted for sending so far, and a plan that says, call by call, whether the call
times out or how much of what was asked for is transferred. Every way of cutting the two streams
into non-empty pieces, with timeouts anywhere, is a plan. -/

set_option autoImplicit false

namespace Modbus

/-- The two directions of the stream, and what the next calls will do: `none` times out, `some k`
transfers at most `k + 1` bytes. -/
structure StreamSocket where
  inbound : List UInt8
  outbound : List UInt8
  plan : List (Option ℕ)
  clock : ℕ → UInt32
  isClosed : Bool

/-- `socketReceive` on a stream: times out as planned, or when nothing is there to be read. -/
def StreamSocket.receive (size : ℕ) (v : StreamSocket) : ErrorCode × List UInt8 × StreamSocket :=
  match v.plan with
  | some k :: plan =>
      if v.inbound = [] then
        (.timeout, [], { v with plan := plan })
      else
        (.noError, v.inbound.take (min size (k + 1)),
          { v with inbound := v.inbound.drop (min size (k + 1)), plan := plan })
  | _ => (.timeout, [], { v with plan := v.plan.tail })

/-- `socketSend` on a stream. -/
def StreamSocket.send (data : List UInt8) (v : StreamSocket) : ErrorCode × ℕ × StreamSocket :=
  match v.plan with
  | some k :: plan =>
      (.noError, min data.length (k + 1),
        { v with outbound := v.outbound ++ data.take (k + 1), plan := plan })
  | _ => (.timeout, 0, { v with plan := v.plan.tail })

/-- The socket interface over a byte stream. -/
def streamApi : SocketApi StreamSocket where
  socketReceive := StreamSocket.receive
  socketSend := StreamSocket.send
  socketSetTimeout _ v := v
  socketClose v := { v with isClosed := true }
  osGetSystemTime v := v.clock v.plan.length

theorem streamApi_bounded : streamApi.Bounded where
  receive_le size v := by
    simp only [streamApi, StreamSocket.receive]
    split
    · split
      · exact Nat.zero_le size
      · simp only [List.length_take]
        omega
    · exact Nat.zero_le size
  send_le data v := by
    simp only [streamApi, StreamSocket.send]
    split
    · exact Nat.min_le_left _ _
    · exact Nat.zero_le _

end Modbus
