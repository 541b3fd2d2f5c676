import Rtl8852be.Interaction.Triple
import Rtl8852be.Interaction.History

/-!
# SaeExchange — one SAE authentication of a station

`SaeExchange.c`.  The exchange sends a Commit, waits for the Commit of its peer, answers it with a
Confirm, and waits for the Confirm of its peer.  It resends what is not answered, up to a number of
times, and gives up at a deadline.  The cryptography is in a session, which is called here and can fail
at every call.
-/

namespace Rtl8852be
namespace Sae

open Interaction

/-! ## Types -/

/-- `R16_SAE_AUTH_BODY_MAX`. -/
def authBodyMax : ℕ := 104

structure AuthBody where
  length : ℕ := 0
  bytes : Fin 104 → UInt8 := fun _ => 0
  deriving DecidableEq

inductive ExchangeState
  | ready
  | waitCommit
  | waitConfirm
  | accepted
  | failed
  | cancelled
  deriving DecidableEq, Repr

inductive ExchangeError
  | none
  | argument
  | sequence
  | protocol
  | crypto
  | timeout
  | retries
  | clock
  | cancelled
  deriving DecidableEq, Repr

inductive ExchangeResult
  | error
  | idle
  | send
  | accepted
  deriving DecidableEq, Repr

abbrev Address := Fin 6 → UInt8

/-- `struct r16_sae_exchange`.  Of the session only its presence is kept. -/
structure Exchange where
  session : Bool := false
  state : ExchangeState := .ready
  error : ExchangeError := .none
  own : Address := fun _ => 0
  peer : Address := fun _ => 0
  h2e : Bool := false
  retryMs : UInt32 := 0
  timeoutMs : UInt32 := 0
  retries : UInt32 := 0
  retriesUsed : UInt32 := 0
  lastMs : UInt64 := 0
  deadlineMs : UInt64 := 0
  retryAtMs : UInt64 := 0
  commit : AuthBody := {}
  confirm : AuthBody := {}

/-- What the session leaves in a body behind the six bytes of its header. -/
structure Output where
  error : Bool
  count : ℕ
  bytes : Fin 98 → UInt8

structure Keys where
  pmk : Fin 32 → UInt8 := fun _ => 0
  pmkid : Fin 16 → UInt8 := fun _ => 0
  deriving DecidableEq

/-- The functions of `SaeSession.h`. -/
inductive Call
  | commit
  | confirm
  | receiveCommit (payload : List UInt8)
  | receiveConfirm (payload : List UInt8)
  | exportKeys
  | destroy
  deriving DecidableEq

/-- Where the C function returns an error code, the reply says whether it is not zero. -/
@[reducible] def Reply : Call → Type
  | .commit => Output
  | .confirm => Output
  | .receiveCommit _ => Bool
  | .receiveConfirm _ => Bool
  | .exportKeys => Bool × Keys
  | .destroy => Unit

abbrev TraceEvent := Event Call Reply Empty

abbrev Trace := List TraceEvent

abbrev Gated := Code Exchange Call Reply Empty

/-! ## Parts -/

/-- `r16_sae_exchange_create`, where neither the session nor the memory is refused. -/
def create (own peer : Address) (h2e : Bool) (retryMs timeoutMs retries : UInt32) : Option Exchange :=
  if retryMs = 0 ∨ 10000 < retryMs ∨ timeoutMs < retryMs ∨ 120000 < timeoutMs ∨ 16 < retries then
    none
  else
    some {
      session := true
      h2e := h2e
      own := own
      peer := peer
      retryMs := retryMs
      timeoutMs := timeoutMs
      retries := retries }

def clearMaterial : Gated Unit := do
  if (← get).session then
    Code.ask Call.destroy
  modify fun x => { x with
    session := false
    commit := {}
    confirm := {}
    own := fun _ => 0
    peer := fun _ => 0 }

def fail (why : ExchangeError) : Gated ExchangeResult := do
  clearMaterial
  modify fun x => { x with error := why, state := .failed }
  return .error

/-- `le16(input + i)`. -/
def le16 (input : List UInt8) (i : ℕ) : UInt16 :=
  let low : UInt16 := (input.getD i 0).toUInt16
  let high : UInt16 := (input.getD (i + 1) 0).toUInt16
  low ||| (high <<< 8)

def checkTime (now : UInt64) : Gated ExchangeResult := do
  let x ← get
  if x.state = .failed ∨ x.state = .cancelled then
    return .error
  else if x.state = .ready then
    fail .sequence
  else if now < x.lastMs then
    fail .clock
  else do
    modify fun x => { x with lastMs := now }
    if x.state ≠ .accepted ∧ x.deadlineMs ≤ now then
      fail .timeout
    else
      return .idle

def nextRetry (now : UInt64) (x : Exchange) : Exchange :=
  let remaining := x.deadlineMs - now
  { x with retryAtMs := now + if remaining < x.retryMs.toUInt64 then remaining else x.retryMs.toUInt64 }

/-- The first six bytes of a body: algorithm, transaction and status, low byte first. -/
def header (h2e confirm : Bool) : List UInt8 :=
  [3, 0, if confirm then 2 else 1, 0, if !confirm && h2e then 126 else 0, 0]

def fillBody (h2e confirm : Bool) (r : Output) : AuthBody where
  length := r.count + 6
  bytes := fun i => if h : 6 ≤ i.val then r.bytes ⟨i.val - 6, by omega⟩ else (header h2e confirm).getD i 0

def output (confirm : Bool) : Gated Output :=
  if confirm then Code.ask Call.confirm else Code.ask Call.commit

def makeBody (confirm : Bool) : Gated ExchangeResult := do
  let r ← output confirm
  if r.error ∨ r.count ≠ (if confirm then 34 else 98) then
    fail .crypto
  else do
    modify fun x =>
      if confirm then
        { x with confirm := fillBody x.h2e true r }
      else
        { x with commit := fillBody x.h2e false r }
    return .idle

/-! ## Calls -/

/-- What a call returns, with the contents of its buffers where there are any. -/
inductive Answer
  | exchanged (result : ExchangeResult) (out : Option AuthBody)
  | cancelled
  | exported (error : Bool) (keys : Keys)
  deriving DecidableEq

/-- A null pointer is no buffer; every other buffer is cleared first. -/
def blank (out : Bool) : Option AuthBody := if out then some {} else none

def leave (out : Bool) (m : Gated ExchangeResult) : Gated Answer := do
  let r ← m
  return .exchanged r (blank out)

def start (now : UInt64) (out : Bool) : Gated Answer := do
  let x ← get
  if !out then
    leave out (fail .argument)
  else if x.state ≠ .ready then
    leave out (pure .error)
  else if (0xffffffffffffffff : UInt64) - x.timeoutMs.toUInt64 < now then
    leave out (fail .clock)
  else do
    modify fun x => { x with lastMs := now, deadlineMs := now + x.timeoutMs.toUInt64 }
    let r ← makeBody false
    if r ≠ .idle then
      leave out (pure .error)
    else do
      modify fun x => nextRetry now { x with state := .waitCommit }
      let x ← get
      return .exchanged .send (some x.commit)

def receiveCommit (input : List UInt8) (now : UInt64) : Gated Answer := do
  let x ← get
  if le16 input 4 ≠ (if x.h2e then 126 else 0) ∨ input.length ≠ 104 then
    leave true (fail .protocol)
  else if x.state = .waitConfirm then
    leave true (pure .idle)
  else do
    let error ← Code.ask (Call.receiveCommit (input.drop 6))
    if error then
      leave true (fail .crypto)
    else do
      let r ← makeBody true
      if r ≠ .idle then
        leave true (pure .error)
      else do
        modify fun x => nextRetry now { x with state := .waitConfirm, retriesUsed := 0 }
        let x ← get
        return .exchanged .send (some x.confirm)

def receiveConfirm (input : List UInt8) : Gated Answer := do
  let x ← get
  if le16 input 4 ≠ 0 ∨ input.length ≠ 40 then
    leave true (fail .protocol)
  else if x.state ≠ .waitConfirm then
    leave true (fail .sequence)
  else do
    let error ← Code.ask (Call.receiveConfirm (input.drop 6))
    if error then
      leave true (fail .crypto)
    else do
      modify fun x => { x with state := .accepted, commit := {}, confirm := {} }
      return .exchanged .accepted (some {})

def receiveFrame (source destination : Address) (input : List UInt8) (now : UInt64) : Gated Answer := do
  let r ← checkTime now
  if r ≠ .idle then
    leave true (pure .error)
  else do
    let x ← get
    if x.state = .accepted then
      leave true (pure .idle)
    else if source ≠ x.peer ∨ destination ≠ x.own then
      leave true (pure .idle)
    else if input.length < 6 ∨ authBodyMax < input.length ∨ le16 input 0 ≠ 3 then
      leave true (fail .protocol)
    else if le16 input 2 = 1 then
      receiveCommit input now
    else if le16 input 2 ≠ 2 then
      leave true (fail .sequence)
    else
      receiveConfirm input

def receive (source destination : Option Address) (body : Option (List UInt8)) (now : UInt64)
    (out : Bool) : Gated Answer :=
  match source, destination, body, out with
  | some source, some destination, some body, true => receiveFrame source destination body now
  | _, _, _, out => leave out (fail .argument)

/-- A Confirm is made anew for every retry, a Commit is not. -/
def renewBody : Gated ExchangeResult := do
  if (← get).state = .waitConfirm then
    makeBody true
  else
    return .idle

def pollRetry (now : UInt64) : Gated Answer := do
  let x ← get
  if x.state = .accepted ∨ now < x.retryAtMs then
    leave true (pure .idle)
  else if x.retriesUsed = x.retries then
    leave true (fail .retries)
  else do
    modify fun x => { x with retriesUsed := x.retriesUsed + 1 }
    let r ← renewBody
    if r ≠ .idle then
      leave true (pure .error)
    else do
      modify (nextRetry now)
      let x ← get
      return .exchanged .send (some (if x.state = .waitCommit then x.commit else x.confirm))

def poll (now : UInt64) (out : Bool) : Gated Answer :=
  if !out then
    leave out (fail .argument)
  else do
    let r ← checkTime now
    if r ≠ .idle then leave true (pure .error) else pollRetry now

def cancel : Gated Answer := do
  clearMaterial
  modify fun x => { x with state := .cancelled, error := .cancelled }
  return .cancelled

def exportKeys (pmk pmkid : Bool) : Gated Answer := do
  let x ← get
  if x.state ≠ .accepted ∨ !pmk ∨ !pmkid then
    return .exported true {}
  else do
    let (error, keys) ← Code.ask Call.exportKeys
    return .exported error keys

/-- The calls of an exchange.  A Boolean says whether a buffer was passed. -/
inductive Op
  | start (now : UInt64) (out : Bool)
  | receive (source destination : Option Address) (body : Option (List UInt8)) (now : UInt64) (out : Bool)
  | poll (now : UInt64) (out : Bool)
  | cancel
  | exportKeys (pmk pmkid : Bool)

def exec : Op → Gated Answer
  | .start now out => start now out
  | .receive source destination body now out => receive source destination body now out
  | .poll now out => poll now out
  | .cancel => cancel
  | .exportKeys pmk pmkid => exportKeys pmk pmkid

abbrev Record := Interaction.Record Exchange Call Reply Empty Op Answer

end Sae
end Rtl8852be
