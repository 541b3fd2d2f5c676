import Rtl8852be.Wire.Channel
import Rtl8852be.Wire.FirmwareProtocol

/-!
# Types — the vocabulary of the station controller

The value types and enumerations at the head of `StationController.hpp`, under the names the source
gives them.
-/

namespace Rtl8852be
namespace Station

open Network

/-! ## Tokens and addresses -/

/-- A firmware epoch and an operation number inside it.  The default is the empty token. -/
structure Token where
  epoch : UInt64 := 0
  operation : UInt64 := 0
  deriving DecidableEq, Repr, Inhabited

def Token.same (a b : Token) : Bool := a.epoch == b.epoch && a.operation == b.operation

@[simp] theorem Token.same_iff {a b : Token} : a.same b = true ↔ a = b := by
  cases a
  cases b
  simp [Token.same]

structure Address where
  bytes : Fin 6 → UInt8 := fun _ => 0
  deriving DecidableEq

def Address.same (a b : Address) : Bool := decide (∀ i, a.bytes i = b.bytes i)

@[simp] theorem Address.same_iff {a b : Address} : a.same b = true ↔ a = b := by
  cases a
  cases b
  simp [Address.same, funext_iff]

/-- An address has a first octet. -/
scoped instance firstOctet : NeZero 6 := ⟨by decide⟩

/-- `unicast`: not all zero, and the group bit clear. -/
def Address.unicast (a : Address) : Bool :=
  decide (∃ i, a.bytes i ≠ 0) && (a.bytes 0 &&& 1) == 0

def sameChannel (a b : Channel) : Bool :=
  a.band == b.band && a.width == b.width && a.center == b.center && a.primary == b.primary

@[simp] theorem sameChannel_iff {a b : Channel} : sameChannel a b = true ↔ a = b := by
  cases a
  cases b
  simp [sameChannel, and_assoc]

/-! ## Configuration records -/

structure Interface where
  macid : UInt8 := 0
  macIndex : UInt8 := 0
  wmm : UInt8 := 0
  port : UInt8 := 0
  address : Address := {}
  home : Channel := {}
  deriving DecidableEq

structure Peer where
  bssid : Address := {}
  channel : Channel := {}
  ssid : Fin 32 → UInt8 := fun _ => 0
  ssidLength : UInt8 := 0
  protectedNetwork : Bool := false
  deriving DecidableEq

structure Association where
  bssid : Address := {}
  channel : Channel := {}
  aid : UInt16 := 0
  deriving DecidableEq

structure ScanChannel where
  channel : Channel := {}
  dwellMs : UInt16 := 0
  active : Bool := false
  deriving DecidableEq, Inhabited

/-! ## Enumerations -/

inductive Traffic
  | none
  | management
  | scanProbe
  | controlledPort
  | authorized
  deriving DecidableEq, Repr

inductive Action
  | prepareInterface
  | idleTables
  | scanBegin
  | scanTune
  | scanRestore
  | scanEnd
  | prepareAuthentication
  | associationCmac
  | associationCam
  | disconnectCmac
  | disconnectCam
  | removeCam
  deriving DecidableEq, Repr

inductive State
  | stopped
  | preparing
  | creatingRole
  | initialNoLink
  | installingIdle
  | idle
  | scanningBegin
  | scanningTune
  | scanningDwell
  | scanningRestore
  | scanningEnd
  | preparingAuthentication
  | authenticating
  | installingAssociationCmac
  | joining
  | installingAssociationCam
  | associated
  | authorized
  | disconnectingCmac
  | disconnecting
  | disconnectingCam
  | removingRole
  | removingCam
  | faulted
  deriving DecidableEq, Repr

/-- The declaration order of the enumeration, which the source compares with `<` and `<=`. -/
def State.rank : State → Nat
  | .stopped => 0
  | .preparing => 1
  | .creatingRole => 2
  | .initialNoLink => 3
  | .installingIdle => 4
  | .idle => 5
  | .scanningBegin => 6
  | .scanningTune => 7
  | .scanningDwell => 8
  | .scanningRestore => 9
  | .scanningEnd => 10
  | .preparingAuthentication => 11
  | .authenticating => 12
  | .installingAssociationCmac => 13
  | .joining => 14
  | .installingAssociationCam => 15
  | .associated => 16
  | .authorized => 17
  | .disconnectingCmac => 18
  | .disconnecting => 19
  | .disconnectingCam => 20
  | .removingRole => 21
  | .removingCam => 22
  | .faulted => 23

inductive Error
  | none
  | backend
  | clock
  | timeout
  | firmwareRejected
  | sequenceExhausted
  | authentication
  | association
  | cancelled
  | invalidProtocol
  deriving DecidableEq, Repr

structure ActionRequest where
  action : Action
  token : Token := {}
  association : Token := {}
  interface : Interface := {}
  peer : Peer := {}
  channel : Channel := {}
  aid : UInt16 := 0
  activeScan : Bool := false
  deriving DecidableEq

/-- What the protocol stack knows about the access point when an action begins. -/
structure MacProtocolPeer where
  beaconInterval : UInt16 := 0
  basicRates : UInt16 := 0
  txop : UInt16 := 0
  dtimPeriod : UInt8 := 0
  aifsn : UInt8 := 0
  ecwMin : UInt8 := 0
  ecwMax : UInt8 := 0
  valid : Bool := false
  shortSlot : Bool := false
  shortPreamble : Bool := false
  useProtection : Bool := false
  deriving DecidableEq

end Station
end Rtl8852be
