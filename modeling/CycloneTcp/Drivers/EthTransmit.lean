import CycloneTcp.Core.NetMem
import CycloneTcp.Lib.Ring
import CycloneTcp.Lib.Runs

set_option autoImplicit false

/-! # Transmission by the MSP432E4 Ethernet driver

The driver fills the transmit buffers and gives their descriptors to the DMA, which completes them
in the order of the chain. `nicTxEvent` stands for a free buffer: `nicSendPacket` waits for it and
then calls `msp432e4EthSendPacket` with interrupts disabled. The interrupt handler may run between
these two halves, the DMA at any time. Descriptors are given by their index; `txBuffer` is the
address of the transmit buffers, which are static, and `count` is `MSP432E4_ETH_TX_BUFFER_COUNT`. -/

namespace Msp432e4Eth

def MSP432E4_ETH_TX_BUFFER_SIZE : ℕ := 1536

def EMAC_TDES0_OWN : UInt32 := 0x80000000

def EMAC_TDES0_IC : UInt32 := 0x40000000

def EMAC_TDES0_LS : UInt32 := 0x20000000

def EMAC_TDES0_FS : UInt32 := 0x10000000

def EMAC_TDES0_TCH : UInt32 := 0x00100000

def EMAC_TDES1_TBS1 : UInt32 := 0x00001FFF

/-- `Tm4c129TxDmaDesc`: the flags, the number of bytes, the address of the buffer and the next
descriptor. -/
structure TxDmaDesc where
  tdes0 : UInt32
  tdes1 : UInt32
  tdes2 : ℕ
  tdes3 : ℕ

section Model

variable (count txBuffer : ℕ)

/-- A frame that is passed to `nicSendPacket`, and the memory at that time. None of it lies in the
transmit buffers. -/
structure Packet where
  mem : Memory UInt8
  buffer : NetBuffer
  offset : ℕ
  inside : offset ≤ netBufferGetLength buffer
  apart : ∀ r ∈ buffer.regions, Region.Apart ⟨txBuffer, count * MSP432E4_ETH_TX_BUFFER_SIZE⟩ r

variable {count txBuffer}

/-- The bytes of the frame. -/
def Packet.frame (p : Packet count txBuffer) : List UInt8 := (flat p.mem p.buffer).drop p.offset

/-- The driver and the DMA. `ram` is what the transmit buffers hold, `sending` says that a call of
`nicSendPacket` is between its halves. `accepted` and `sent` record the frames, those that have been
accepted and those that the DMA has completed. -/
structure Driver where
  txDmaDesc : ℕ → TxDmaDesc
  txCurDmaDesc : ℕ
  ram : Memory UInt8
  nicTxEvent : Bool
  dmaCurDesc : ℕ
  ti : Bool
  sending : Bool
  accepted : List (List UInt8)
  sent : List (List UInt8)

namespace Driver

/-- The descriptor is owned by the DMA. -/
def Owned (s : Driver) (i : ℕ) : Prop := (s.txDmaDesc i).tdes0 &&& EMAC_TDES0_OWN ≠ 0

instance (s : Driver) (i : ℕ) : Decidable (s.Owned i) := inferInstanceAs (Decidable (_ ≠ _))

/-- What the DMA reads. -/
def content (s : Driver) (i : ℕ) : List UInt8 :=
  s.ram.read (s.txDmaDesc i).tdes2 ((s.txDmaDesc i).tdes1 &&& EMAC_TDES1_TBS1).toNat

end Driver

/-! ## The functions -/

variable (count txBuffer) in
/-- Initialize DMA descriptor lists. The last descriptor is chained to the first entry. -/
def msp432e4EthInitDmaDesc (i : ℕ) : TxDmaDesc where
  tdes0 := EMAC_TDES0_IC ||| EMAC_TDES0_TCH
  tdes1 := 0
  tdes2 := txBuffer + i * MSP432E4_ETH_TX_BUFFER_SIZE
  tdes3 := if i + 1 = count then 0 else i + 1

variable (count txBuffer) in
/-- The driver after `msp432e4EthInit`, which accepts any packets from the upper layer. -/
def msp432e4EthInit (ram : Memory UInt8) : Driver where
  txDmaDesc := msp432e4EthInitDmaDesc count txBuffer
  txCurDmaDesc := 0
  ram
  nicTxEvent := true
  dmaCurDesc := 0
  ti := false
  sending := false
  accepted := []
  sent := []

/-- Copy user data to the transmit buffer, give the ownership of the descriptor to the DMA, and
point to the next descriptor. -/
def fillDesc (p : Packet count txBuffer) (length : ℕ) (s : Driver) : Driver :=
  let desc := s.txDmaDesc s.txCurDmaDesc
  { s with
    ram := s.ram.write desc.tdes2
      ((netBufferRead p.mem desc.tdes2 p.buffer p.offset length).2.read desc.tdes2 length)
    txDmaDesc := Function.update s.txDmaDesc s.txCurDmaDesc { desc with
      tdes0 := desc.tdes0 ||| (EMAC_TDES0_LS ||| EMAC_TDES0_FS) ||| EMAC_TDES0_OWN
      tdes1 := UInt32.ofNat length &&& EMAC_TDES1_TBS1 }
    txCurDmaDesc := desc.tdes3 }

/-- Send a packet. -/
def msp432e4EthSendPacket (p : Packet count txBuffer) (s : Driver) : ErrorCode × Driver :=
  let length := netBufferGetLength p.buffer - p.offset
  if MSP432E4_ETH_TX_BUFFER_SIZE < length then
    (.invalidLength, { s with nicTxEvent := true })
  -- make sure the current buffer is available for writing
  else if s.Owned s.txCurDmaDesc then (.failure, s)
  else
    let s := fillDesc p length s
    -- check whether the next buffer is available for writing
    (.noError, { s with nicTxEvent := s.nicTxEvent || !decide (s.Owned s.txCurDmaDesc) })

/-- `EMAC0_IRQHandler`, as far as transmission is concerned. -/
def EMAC0_IRQHandler (s : Driver) : Driver :=
  if s.ti then
    { s with
      ti := false
      nicTxEvent := s.nicTxEvent || !decide (s.Owned s.txCurDmaDesc) }
  else s

/-- The DMA completes the next descriptor in the chain, with some status bits. -/
def dmaComplete (status : UInt32) (s : Driver) : Driver :=
  if s.Owned s.dmaCurDesc then
    let desc := s.txDmaDesc s.dmaCurDesc
    { s with
      txDmaDesc := Function.update s.txDmaDesc s.dmaCurDesc
        { desc with tdes0 := (desc.tdes0 ||| status) &&& ~~~EMAC_TDES0_OWN }
      dmaCurDesc := desc.tdes3
      ti := true
      sent := s.sent ++ [s.content s.dmaCurDesc] }
  else s

/-! ## Runs -/

variable (count txBuffer) in
/-- What can happen: the first half of `nicSendPacket` and the second one, the completion of a
descriptor, and the interrupt. -/
inductive Event where
  | wait
  | send (p : Packet count txBuffer)
  | dma (status : UInt32)
  | irq

/-- One event. A call that finds `nicTxEvent` not signalled is answered with
`ERROR_TRANSMITTER_BUSY`, and calls do not overlap. -/
def step (s : Driver) : Event count txBuffer → Driver
  | .wait =>
      if s.nicTxEvent ∧ ¬ s.sending then { s with nicTxEvent := false, sending := true } else s
  | .send p =>
      if s.sending then
        let result := msp432e4EthSendPacket p s
        { result.2 with
          sending := false
          accepted := if result.1 = .noError then s.accepted ++ [p.frame] else s.accepted }
      else s
  | .dma status => dmaComplete status s
  | .irq => EMAC0_IRQHandler s

/-- The frames in the descriptors from `i` on that are owned by the DMA, in chain order. -/
def queuedFrom (s : Driver) : ℕ → ℕ → List (List UInt8)
  | 0, _ => []
  | n + 1, i => if s.Owned i then s.content i :: queuedFrom s n (s.txDmaDesc i).tdes3 else []

end Model

end Msp432e4Eth
