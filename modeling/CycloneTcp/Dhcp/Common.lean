import CycloneTcp.Lib.Serial

/-! # DHCP messages and options

A message is the fixed part that the client reads, and the bytes of its options field. Addresses are
32-bit numbers, loaded from the options the way every other 32-bit field is. -/

set_option autoImplicit false

namespace Dhcp

/-! ## Constants -/

def DHCP_OPCODE_BOOTREPLY : UInt8 := 2
def DHCP_HARDWARE_TYPE_ETH : UInt8 := 1
def DHCP_MAGIC_COOKIE : UInt32 := 0x63825363
def DHCP_INFINITE_TIME : UInt32 := 0xFFFFFFFF
def DHCP_MAX_MSG_SIZE : ℕ := 548

def DHCP_MESSAGE_TYPE_OFFER : UInt8 := 2
def DHCP_MESSAGE_TYPE_ACK : UInt8 := 5
def DHCP_MESSAGE_TYPE_NAK : UInt8 := 6

def DHCP_OPT_PAD : UInt8 := 0
def DHCP_OPT_SUBNET_MASK : UInt8 := 1
def DHCP_OPT_ROUTER : UInt8 := 3
def DHCP_OPT_DNS_SERVER : UInt8 := 6
def DHCP_OPT_INTERFACE_MTU : UInt8 := 26
def DHCP_OPT_IP_ADDRESS_LEASE_TIME : UInt8 := 51
def DHCP_OPT_DHCP_MESSAGE_TYPE : UInt8 := 53
def DHCP_OPT_SERVER_IDENTIFIER : UInt8 := 54
def DHCP_OPT_RENEWAL_TIME_VALUE : UInt8 := 58
def DHCP_OPT_REBINDING_TIME_VALUE : UInt8 := 59
def DHCP_OPT_RAPID_COMMIT : UInt8 := 80
def DHCP_OPT_END : UInt8 := 255

def IPV4_UNSPECIFIED_ADDR : UInt32 := 0

/-! ## Messages -/

/-- `DhcpMessage`, as far as the client reads it. `options` is the rest of the datagram. -/
structure DhcpMessage where
  op : UInt8
  htype : UInt8
  hlen : UInt8
  xid : UInt32
  yiaddr : UInt32
  chaddr : BitVec 48
  magicCookie : UInt32
  options : List UInt8

/-- `sizeof(DhcpMessage)`: the fixed part. -/
def headerSize : ℕ := 240

def DhcpMessage.length (message : DhcpMessage) : ℕ := headerSize + message.options.length

/-- `LOAD16BE(p)`. -/
def LOAD16BE : List UInt8 → UInt16
  | a :: b :: _ => (a.toUInt16 <<< 8) ||| b.toUInt16
  | _ => 0

/-- `LOAD32BE(p)`. -/
def LOAD32BE : List UInt8 → UInt32
  | a :: b :: c :: d :: _ =>
      (a.toUInt32 <<< 24) ||| (b.toUInt32 <<< 16) ||| (c.toUInt32 <<< 8) ||| d.toUInt32
  | _ => 0

/-! ## Options -/

/-- The loop of `dhcpGetOption`, with `skip` more bytes of an option that was passed over. -/
def getOptionFrom (optionCode : UInt8) : ℕ → List UInt8 → Option (List UInt8)
  | _, [] => none
  | skip + 1, _ :: rest => getOptionFrom optionCode skip rest
  | 0, code :: rest =>
      if code = DHCP_OPT_PAD then getOptionFrom optionCode 0 rest
      else if code = DHCP_OPT_END then none
      else match rest with
        | [] => none
        | length :: value =>
            -- `i + 1 + option->length >= length`: the value runs over the end of the message
            if value.length < length.toNat then none
            else if code = optionCode then some (value.take length.toNat)
            else getOptionFrom optionCode (1 + length.toNat) (length :: value)

/-- `dhcpGetOption(message, length, optionCode)`: the value of the option, of `option->length` bytes. -/
def dhcpGetOption (message : DhcpMessage) (optionCode : UInt8) : Option (List UInt8) :=
  getOptionFrom optionCode 0 message.options

/-- The value of an option that must have four bytes. -/
def dhcpGetOption32 (message : DhcpMessage) (optionCode : UInt8) : Option UInt32 :=
  match dhcpGetOption message optionCode with
  | some value => if value.length = 4 then some (LOAD32BE value) else none
  | none => none

/-! ## Time -/

/-- `timeCompare(t1, t2)`: the sign of the difference of two clock readings. -/
def timeCompare (t1 t2 : UInt32) : ℤ := Serial.cmp t1 t2

/-- `MAX_DELAY`: the longest interval that can be compared, in milliseconds. -/
def MAX_DELAY : UInt32 := 0xFFFFFFFF / 2

end Dhcp
