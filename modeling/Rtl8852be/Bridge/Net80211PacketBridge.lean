import Rtl8852be.Interaction.Holdings
import Rtl8852be.Wire.Descriptors

/-!
# Net80211PacketBridge — frames on their way to the device

`prepareEthernetTx` and `prepareNextTx` of `Net80211PacketBridge.cpp`.  The network stack and the mbufs
are the environment; frames, nodes and keys are pointers.
-/

namespace Rtl8852be
namespace Bridge

open Interaction Network Code

/-! ## The network stack -/

abbrev Frame := ℕ

abbrev Node := ℕ

/-- A key, and whether `IEEE80211_KEY_SWCRYPTO` is set in it. -/
structure Key where
  id : ℕ
  swcrypto : Bool
  deriving DecidableEq

/-- A frame of the management queue, with the node in its packet header. -/
structure Management where
  frame : Frame
  rcvif : Option Node
  deriving DecidableEq

/-- What `ieee80211_encap` returns and leaves in its last argument. -/
structure Encapsulated where
  frame : Option Frame
  node : Option Node
  deriving DecidableEq

/-- The functions that are called, and the fields of `ieee80211com` that are read. -/
inductive Stack
  | inRun
  | running
  | mgmtOnly
  | pkthdrLen (frame : Frame)
  | mbufLen (frame : Frame)
  | copydata (frame : Frame) (offset length : ℕ)
  | pullup (frame : Frame) (length : ℕ)
  | freem (frame : Frame)
  | releaseNode (node : Node)
  | getTxkey (header : List UInt8) (node : Option Node)
  | encrypt (frame : Frame) (key : Key)
  | encap (frame : Frame)
  | mqDequeue
  | ifqDequeue
  deriving DecidableEq

/-- `pullup` and `copydata` fail with `none`; otherwise `none` is the null pointer. -/
@[reducible] def Answer : Stack → Type
  | .inRun => Bool
  | .running => Bool
  | .mgmtOnly => Bool
  | .pkthdrLen _ => ℕ
  | .mbufLen _ => ℕ
  | .copydata _ _ _ => Option (List UInt8)
  | .pullup _ _ => Option Frame
  | .freem _ => Unit
  | .releaseNode _ => Unit
  | .getTxkey _ _ => Option Key
  | .encrypt _ _ => Option Frame
  | .encap _ => Encapsulated
  | .mqDequeue => Option Management
  | .ifqDequeue => Option Frame

/-! ## The lease -/

structure TxLease where
  frame : Option Frame := none
  node : Option Node := none
  bytes : ℕ := 0
  deriving DecidableEq

/-- Code that works on `out`. -/
abbrev Bridged (α : Type) : Type := Code TxLease Stack Answer Empty α

abbrev Trace : Type := List (Event Stack Answer Empty)

def stack (c : Stack) : Bridged (Answer c) := ask c

def freeFrame : Option Frame → Bridged Unit
  | none => pure ()
  | some frame => stack (.freem frame)

def releaseNode : Option Node → Bridged Unit
  | none => pure ()
  | some node => stack (.releaseNode node)

/-- `releaseTx`; `ic` says that the first argument is not null. -/
def releaseTx (ic : Bool) : Bridged Unit := do
  let lease ← get
  freeFrame lease.frame
  releaseNode (if ic then lease.node else none)
  set ({} : TxLease)

/-- `releaseTx(ic,out);return e;` -/
def refuse (e : Errno) : Bridged (Option Errno) := do
  releaseTx true
  return some e

/-- `sizeof(ieee80211_frame)`. -/
def headerBytes : ℕ := 24

/-- `IEEE80211_FC1_PROTECTED` is set in the header. -/
def isProtected (header : List UInt8) : Bool := header.getD 1 0 &&& 0x40 != 0

/-- The end of `protectFrame`; `frame` is that of `out`. -/
def checkLength (frame : Frame) : Bridged (Option Errno) := do
  let bytes ← stack (.pkthdrLen frame)
  modify fun out => { out with bytes := bytes }
  if bytes = 0 ∨ bytes > 16383 then
    refuse .emsgsize
  else
    return none

/-- The encryption in `protectFrame`. -/
def encryptFrame (frame : Frame) (header : List UInt8) : Bridged (Option Errno) := do
  let out ← get
  match ← stack (.getTxkey header out.node) with
  | none => refuse .eacces
  | some key =>
      if !key.swcrypto then
        refuse .eacces
      else
        let encrypted ← stack (.encrypt frame key)
        modify fun out => { out with frame := encrypted }
        match encrypted with
        | none => refuse .enobufs
        | some frame => checkLength frame

/-- `protectFrame`; `frame` is that of `out`, and no error is `none`. -/
def protectFrame (frame : Frame) : Bridged (Option Errno) := do
  let length ← stack (.pkthdrLen frame)
  if length < headerBytes then
    refuse .einval
  else
    match ← stack (.copydata frame 0 headerBytes) with
    | none => refuse .einval
    | some header => if isProtected header then encryptFrame frame header else checkLength frame

/-- `mbuf_freem(ethernet);return e;` -/
def dropFrame (frame : Frame) (e : Errno) : Bridged (Option Errno) := do
  freeFrame (some frame)
  return some e

/-- The end of `prepareEthernetTx`. -/
def encapsulate (ethernet : Frame) : Bridged (Option Errno) := do
  let encapsulated ← stack (.encap ethernet)
  modify fun out => { out with frame := encapsulated.frame, node := encapsulated.node }
  match encapsulated.frame with
  | none => do
      set ({} : TxLease)
      return some .enobufs
  | some frame => protectFrame frame

/-- `prepareEthernetTx` from the length check on. -/
def checkLengths (ethernet : Frame) : Bridged (Option Errno) := do
  let length ← stack (.pkthdrLen ethernet)
  if length < 14 then
    dropFrame ethernet .einval
  else
    let first ← stack (.mbufLen ethernet)
    if first < 14 then
      match ← stack (.pullup ethernet 14) with
      | none => return some .enobufs
      | some ethernet => encapsulate ethernet
    else
      encapsulate ethernet

/-- `prepareEthernetTx` for a frame, after the checks of `out`. -/
def checkEthernet (ic : Bool) (ethernet : Frame) : Bridged (Option Errno) := do
  if ic then
    let inRun ← stack .inRun
    if !inRun then
      dropFrame ethernet .enetdown
    else
      checkLengths ethernet
  else
    dropFrame ethernet .enetdown

def prepareEthernetTx (ic : Bool) (ethernet : Option Frame) : Bridged (Option Errno) := do
  let out ← get
  if out.frame.isSome ∨ out.node.isSome then
    freeFrame ethernet
    return some .ebusy
  else
    set ({} : TxLease)
    match ethernet with
    | none => return some .einval
    | some ethernet => checkEthernet ic ethernet

/-- `prepareNextTx` after the checks of `out` and `ic`. -/
def dequeue (ic : Bool) : Bridged (Option Errno) := do
  match ← stack .mqDequeue with
  | some management => do
      modify fun out => { out with frame := some management.frame, node := management.rcvif }
      match management.rcvif with
      | none => refuse .einval
      | some _ => protectFrame management.frame
  | none => do
      let inRun ← stack .inRun
      if !inRun then
        return some .eagain
      else
        let mgmtOnly ← stack .mgmtOnly
        if mgmtOnly then
          return some .eagain
        else
          match ← stack .ifqDequeue with
          | none => return some .eagain
          | some frame => prepareEthernetTx ic (some frame)

def prepareNextTx (ic : Bool) : Bridged (Option Errno) := do
  let out ← get
  if out.frame.isSome ∨ out.node.isSome then
    return some .ebusy
  else
    set ({} : TxLease)
    if !ic then
      return some .enetdown
    else
      let running ← stack .running
      if !running then
        return some .enetdown
      else
        dequeue ic

end Bridge
end Rtl8852be
