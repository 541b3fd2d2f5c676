import Rtl8852be.Interaction.Checks
import Rtl8852be.Interaction.History

/-!
# SaeSession — the keys of one SAE exchange

`SaeSession.c`.  A session writes one Commit and any number of Confirms, and takes one Commit and any number
of Confirms from its peer.  The computations are those of a library, whose functions are called here with the
data of the session and return them changed in any way.  A pointer that may be null is an `Option`, or a
`Bool` where only its presence matters.
-/

namespace Rtl8852be
namespace SaeSession

open Interaction

/-! ## Types -/

/-- The states of `struct sae_data`. -/
inductive SaeState
  | nothing
  | committed
  | confirmed
  | accepted
  deriving DecidableEq

inductive KeyMgmt
  | none
  | sae
  deriving DecidableEq

/-- `struct sae_data`.  What the session never reads is in `rest`. -/
structure SaeData (τ : Type) where
  state : SaeState := .nothing
  akmp : KeyMgmt := .none
  sendConfirm : UInt16 := 0
  pmk : List UInt8 := []
  pmkLen : ℕ := 0
  pmkid : List UInt8 := []
  rest : τ
  deriving DecidableEq

/-- `struct r16_sae`. -/
structure Session (τ : Type) where
  sae : SaeData τ
  h2e : Bool := false
  commitSent : Bool := false
  peerCommit : Bool := false
  confirmSent : Bool := false
  accepted : Bool := false
  failed : Bool := false
  peerConfirm : UInt16 := 0
  deriving DecidableEq

/-- What a function of the library returns, and the data it leaves. -/
structure Computed (τ : Type) where
  error : Bool
  data : SaeData τ

structure Written (τ : Type) extends Computed τ where
  bytes : List UInt8

structure Parsed (τ : Type) extends Computed τ where
  tokenLen : ℕ

/-- The functions that are called.  `π` is `struct sae_pt`. -/
inductive Call (τ π : Type)
  | allocateSession
  | allocateBuffer (confirm : Bool)
  | setGroup (d : SaeData τ) (group : ℕ)
  | derivePt (ssid password : List UInt8)
  | prepareCommitPt (d : SaeData τ) (pt : π) (own peer : List UInt8)
  | deinitPt (pt : π)
  | prepareCommit (d : SaeData τ) (own peer password : List UInt8)
  | clearData (d : SaeData τ)
  | writeCommit (d : SaeData τ)
  | writeConfirm (d : SaeData τ)
  | parseCommit (d : SaeData τ) (bytes : List UInt8) (h2e : Bool)
  | processCommit (d : SaeData τ)
  | checkConfirm (d : SaeData τ) (bytes : List UInt8)

/-- A session is allocated with everything zero, its own data included. -/
abbrev Reply {τ π : Type} : Call τ π → Type
  | .allocateSession => Option τ
  | .allocateBuffer _ => Bool
  | .derivePt _ _ => Option π
  | .deinitPt _ => Unit
  | .clearData _ => SaeData τ
  | .writeCommit _ | .writeConfirm _ => Written τ
  | .parseCommit _ _ _ => Parsed τ
  | .setGroup _ _ | .prepareCommitPt _ _ _ _ | .prepareCommit _ _ _ _ | .processCommit _
  | .checkConfirm _ _ => Computed τ

abbrev TraceEvent (τ π : Type) := Event (Call τ π) Reply Empty

abbrev Trace (τ π : Type) := List (TraceEvent τ π)

abbrev Gated (τ π : Type) := Code (Session τ) (Call τ π) Reply Empty

variable {τ π : Type}

/-! ## A new session -/

def address (a : Option (List UInt8)) : Bool :=
  match a with
  | none => false
  | some a => (a.getD 0 0 &&& 1 == 0) && (a.take 6).foldl (· ||| ·) 0 != 0

/-- `r16_sae_destroy` on the way out. -/
def discard (d : SaeData τ) : Code Unit (Call τ π) Reply Empty (Option (Session τ)) := do
  let _ ← Code.ask (Call.clearData d)
  return none

def prepare (own peer ssid password : List UInt8) (h2e : Bool) (d : SaeData τ) :
    Code Unit (Call τ π) Reply Empty (Option (Session τ)) := do
  if h2e then do
    let pt : Option π ← Code.ask (Call.derivePt ssid password)
    match pt with
    | none => discard d
    | some pt => do
        let c : Computed τ ← Code.ask (Call.prepareCommitPt d pt own peer)
        Code.ask (Call.deinitPt pt)
        if c.error then discard c.data else return some { sae := c.data, h2e := h2e }
  else do
    let c : Computed τ ← Code.ask (Call.prepareCommit d own peer password)
    if c.error then discard c.data else return some { sae := c.data, h2e := h2e }

/-- `r16_sae_create`. -/
def create (own peer ssid password : Option (List UInt8)) (h2e : ℕ) :
    Code Unit (Call τ π) Reply Empty (Option (Session τ)) :=
  match own, peer, ssid, password with
  | some own, some peer, some ssid, some password =>
      if !address (some own) || !address (some peer) || own.take 6 == peer.take 6 || ssid.length == 0 ||
          32 < ssid.length || password.length == 0 || 63 < password.length || (h2e != 0 && h2e != 1) then
        return none
      else do
        let zero : Option τ ← Code.ask (Call.allocateSession (π := π))
        match zero with
        | none => return none
        | some zero => do
            let c : Computed τ ← Code.ask (Call.setGroup { rest := zero } 19)
            if c.error then discard c.data
            else prepare own peer ssid password (h2e == 1) { c.data with akmp := .sae }
  | _, _, _, _ => return none

/-! ## Messages -/

/-- `WPA_GET_LE16`. -/
def le16 (bytes : List UInt8) : UInt16 := (bytes.getD 0 0).toUInt16 ||| ((bytes.getD 1 0).toUInt16 <<< 8)

def Session.failing (s : Session τ) (d : SaeData τ) : Session τ :=
  { s with sae := d, failed := true, accepted := false }

def fail : Gated τ π Bool := do
  let s ← get
  let d : SaeData τ ← Code.ask (Call.clearData s.sae)
  modify fun s => s.failing d
  return false

/-- What a caller finds in its buffers. -/
structure Output where
  ok : Bool
  written : Option ℕ
  bytes : Option (List UInt8)
  deriving DecidableEq

/-- After acceptance every Confirm has the counter `0xffff`. -/
def Session.counting (s : Session τ) (confirm : Bool) : Session τ :=
  if confirm && s.accepted then { s with sae := { s.sae with sendConfirm := 0xffff } } else s

def Session.sent (s : Session τ) (confirm : Bool) : Session τ :=
  if confirm then
    { s with
      confirmSent := true
      sae := if s.accepted then s.sae else { s.sae with state := .confirmed } }
  else { s with commitSent := true, sae := { s.sae with state := .committed } }

def write (confirm : Bool) (d : SaeData τ) : Gated τ π (Written τ) :=
  if confirm then Code.ask (Call.writeConfirm d) else Code.ask (Call.writeCommit d)

def output (out : Bool) (capacity : ℕ) (written : Bool) (confirm : Bool) : Gated τ π Output := do
  let s ← get
  let nothing : Output := ⟨false, if written then some 0 else none, none⟩
  if s.failed || !out || !written then
    return nothing
  else if (if confirm then !s.peerCommit else s.accepted || s.commitSent) then
    return nothing
  else if ← Code.ask (Call.allocateBuffer confirm) then do
    modify fun s => s.counting confirm
    let s ← get
    let w ← write confirm s.sae
    modify fun s => { s with sae := w.data }
    if w.error || capacity < w.bytes.length then do
      let _ ← fail
      return nothing
    else do
      modify fun s => s.sent confirm
      return ⟨true, some w.bytes.length, some w.bytes⟩
  else
    return nothing

/-- `r16_sae_receive_commit`, with `SAE_COMMIT_MAX_LEN`. -/
def receiveCommit (commitMax : ℕ) (data : Option (List UInt8)) : Gated τ π Bool := do
  let s ← get
  match data with
  | none => return false
  | some bytes =>
      if s.failed || !s.commitSent || s.peerCommit || commitMax < bytes.length then
        return false
      else if bytes.length != 98 || le16 bytes != 19 then
        fail
      else do
        let p : Parsed τ ← Code.ask (Call.parseCommit s.sae bytes s.h2e)
        modify fun s => { s with sae := p.data }
        if p.error || p.tokenLen != 0 then
          fail
        else do
          let c : Computed τ ← Code.ask (Call.processCommit p.data)
          modify fun s => { s with sae := c.data }
          if c.error then
            fail
          else do
            modify fun s => { s with peerCommit := true }
            return true

/-- `return s->accepted?-1:fail(s)`. -/
def reject : Gated τ π Bool := do
  let s ← get
  if s.accepted then return false else fail

def Session.accepting (s : Session τ) (counter : UInt16) : Session τ :=
  { s with peerConfirm := counter, accepted := true, sae := { s.sae with state := .accepted } }

/-- `r16_sae_receive_confirm`. -/
def receiveConfirm (data : Option (List UInt8)) : Gated τ π Bool := do
  let s ← get
  match data with
  | none => return false
  | some bytes =>
      if s.failed || !s.peerCommit || !s.confirmSent then
        return false
      else if bytes.length != 34 || le16 bytes == 0 then
        reject
      else if s.accepted && (le16 bytes ≤ s.peerConfirm || le16 bytes == 0xffff) then
        return false
      else do
        let c : Computed τ ← Code.ask (Call.checkConfirm s.sae bytes)
        modify fun s => { s with sae := c.data }
        if c.error then
          reject
        else if c.data.pmkLen ≠ 32 then
          fail
        else do
          modify fun s => s.accepting (le16 bytes)
          return true

/-- What `r16_sae_export` returns and leaves in its outputs. -/
structure Exported where
  ok : Bool
  pmk : Option (List UInt8)
  pmkid : Option (List UInt8)
  deriving DecidableEq

/-- `r16_sae_export`. -/
def Session.exported (s : Session τ) (pmk pmkid : Bool) : Exported :=
  if !s.accepted || s.failed || !pmk || !pmkid then
    ⟨false, if pmk then some (List.replicate 32 0) else none, if pmkid then some (List.replicate 16 0) else none⟩
  else ⟨true, some (s.sae.pmk.take 32), some (s.sae.pmkid.take 16)⟩

/-! ## Calls -/

inductive Op
  | commit (out : Bool) (capacity : ℕ) (written : Bool)
  | confirm (out : Bool) (capacity : ℕ) (written : Bool)
  | receiveCommit (data : Option (List UInt8))
  | receiveConfirm (data : Option (List UInt8))
  | exportKeys (pmk pmkid : Bool)
  deriving DecidableEq

inductive Answer
  | wrote (output : Output)
  | took (ok : Bool)
  | exported (keys : Exported)
  deriving DecidableEq

def exec (commitMax : ℕ) : Op → Gated τ π Answer
  | .commit out capacity written => do return .wrote (← output out capacity written false)
  | .confirm out capacity written => do return .wrote (← output out capacity written true)
  | .receiveCommit data => do return .took (← receiveCommit commitMax data)
  | .receiveConfirm data => do return .took (← receiveConfirm data)
  | .exportKeys pmk pmkid => do
      let s ← get
      return .exported (s.exported pmk pmkid)

abbrev Record (τ π : Type) := Interaction.Record (Session τ) (Call τ π) Reply Empty Op Answer

/-- Any calls, with any arguments, on a session. -/
abbrev Run (commitMax : ℕ) (s₀ : Session τ) : List (Record τ π) → Session τ → Prop :=
  Interaction.Run (exec commitMax) s₀

end SaeSession
end Rtl8852be
