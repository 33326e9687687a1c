/-! # Status codes

The error codes the modelled functions return or compare against, under the stack's own names. The
codes of the stack that no modelled function mentions are collected under `other`, so that a
callback or a socket may still report any of them. -/

set_option autoImplicit false

/-- `error_t`. -/
inductive ErrorCode where
  | noError
  | failure
  | addressNotFound
  | alreadyConnected
  | invalidParameter
  | bufferOverflow
  | connectionClosing
  | connectionFailed
  | connectionReset
  | deviceBusy
  | endOfStream
  | exceptionReceived
  | inProgress
  | invalidAddress
  | invalidFunctionCode
  | invalidHeader
  | invalidLength
  | invalidOption
  | invalidResponse
  | invalidSocket
  | invalidSyntax
  | invalidValue
  | notConfigured
  | notConnected
  | noAddress
  | noDnsServer
  | noRoute
  | notFound
  | outOfMemory
  | outOfRange
  | outOfResources
  | readFailed
  | timeout
  | unexpectedResponse
  | unexpectedState
  | wouldBlock
  | writeFailed
  | wrongChecksum
  | wrongIdentifier
  | wrongState
  | other (code : Nat)
  deriving DecidableEq, Repr
