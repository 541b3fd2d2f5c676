import Rtl8852be.Sae.Transcript

/-!
# Schedule — retries and deadline of an exchange

`Paced` is the invariant: how often something was sent in each state, that the clock of the exchange is
the latest time it was shown, that the deadline is the time of the start and the timeout, and that no
retry is due before its time.  All sums are sums of natural numbers: none of them wraps.
-/

namespace Rtl8852be
namespace Sae

open Interaction

/-! ## Answers and times -/

def Answer.sends : Answer → Bool
  | .exchanged .send _ => true
  | _ => false

def Answer.accepts : Answer → Bool
  | .exchanged .accepted _ => true
  | _ => false

/-- Something went out, or the peer was accepted. -/
def Answer.advances (a : Answer) : Bool := a.sends || a.accepts

/-- The message that was sent: 1 for a Commit, 2 for a Confirm. -/
def AuthBody.transaction (b : AuthBody) : UInt8 := b.bytes 2

/-- A call that sent this message at this time. -/
def Sent (message : UInt8) (now : UInt64) (y : Record) : Prop :=
  y.op.time = some now ∧ ∃ out : AuthBody, y.result = .exchanged .send (some out) ∧ out.transaction = message

/-- The call with which the exchange began. -/
def Began (now : UInt64) (y : Record) : Prop := y.op = .start now true ∧ y.result.sends = true

/-- The calls of which the exchange knows the time. -/
def Seen (now : UInt64) (y : Record) : Prop :=
  y.op.time = some now ∧ (y.op.clocked = true ∨ y.result.sends = true)

def sends (h : List Record) : ℕ := h.countP fun y => y.result.sends

theorem sends_cons (y : Record) (h : List Record) :
    sends (y :: h) = sends h + if y.result.sends = true then 1 else 0 :=
  List.countP_cons

/-- The time after which a message sent at `now` may be sent again. -/
def retryTime (x : Exchange) (now : UInt64) : ℕ :=
  now.toNat + min x.retryMs.toNat (x.deadlineMs.toNat - now.toNat)

theorem nextRetry_retryAtMs {x : Exchange} {now : UInt64} (hnow : now < x.deadlineMs) :
    (nextRetry now x).retryAtMs.toNat = retryTime x now := by
  have hlt := UInt64.lt_iff_toNat_lt.1 hnow
  have hdeadline := x.deadlineMs.toNat_lt
  have hsub : (x.deadlineMs - now).toNat = x.deadlineMs.toNat - now.toNat :=
    UInt64.toNat_sub_of_le _ _ (UInt64.le_of_lt hnow)
  have hretry : x.retryMs.toUInt64.toNat = x.retryMs.toNat := UInt32.toNat_toUInt64 _
  simp only [nextRetry, retryTime]
  rw [UInt64.toNat_add]
  split
  case isTrue hless =>
    rw [UInt64.lt_iff_toNat_lt, hsub, hretry] at hless
    rw [hsub, Nat.mod_eq_of_lt (by omega)]
    omega
  case isFalse hmore =>
    rw [UInt64.lt_iff_toNat_lt, hsub, hretry] at hmore
    rw [hretry, Nat.mod_eq_of_lt (by omega)]
    omega

theorem retryTime_le {x : Exchange} {now : UInt64} (hnow : now < x.deadlineMs) :
    retryTime x now ≤ x.deadlineMs.toNat := by
  have hlt := UInt64.lt_iff_toNat_lt.1 hnow
  unfold retryTime
  omega

/-! ## The invariant -/

/-- The message that is repeated in a state. -/
def ExchangeState.message : ExchangeState → UInt8
  | .waitCommit => 1
  | _ => 2

def SendBound (x : Exchange) (n : ℕ) : Prop :=
  match x.state with
  | .ready => x.retriesUsed.toNat = 0 ∧ n = 0
  | .waitCommit => x.retriesUsed.toNat ≤ x.retries.toNat ∧ n ≤ 1 + x.retriesUsed.toNat
  | .waitConfirm => x.retriesUsed.toNat ≤ x.retries.toNat ∧
      n ≤ 2 + x.retries.toNat + x.retriesUsed.toNat
  | _ => n ≤ 2 + 2 * x.retries.toNat

theorem SendBound.le {x : Exchange} {n : ℕ} (h : SendBound x n) : n ≤ 2 + 2 * x.retries.toNat := by
  unfold SendBound at h
  cases hstate : x.state <;> rw [hstate] at h <;> simp only at h <;> omega

def UnderWay (x : Exchange) : Prop := Waiting x ∨ x.state = .accepted

/-- A message is not repeated before its time. -/
def Apart (y₂ y₁ : Record) : Prop :=
  ∀ message t₁ t₂, Sent message t₁ y₁ → Sent message t₂ y₂ → retryTime y₁.after t₁ ≤ t₂.toNat

structure Paced (x₀ : Exchange) (h : List Record) (x : Exchange) : Prop where
  settings : Settings x₀ x
  bound : SendBound x (sends h)
  ready : x.state = .ready → ∀ y ∈ h, y.op.clocked = false ∧ y.result.advances = false
  last : UnderWay x → ∀ y ∈ h, ∀ now, Seen now y → now ≤ x.lastMs
  began : UnderWay x → ∃ t₀ : UInt64, (∃ y ∈ h, Began t₀ y) ∧ (∀ y ∈ h, ∀ t, Began t y → t = t₀) ∧
    x.deadlineMs.toNat = t₀.toNat + x₀.timeoutMs.toNat
  waiting : Waiting x → x.lastMs < x.deadlineMs ∧ x.retryAtMs ≤ x.deadlineMs
  due : Waiting x → ∀ y ∈ h, ∀ now, Sent x.state.message now y → retryTime y.after now ≤ x.retryAtMs.toNat
  commit : x.state = .waitCommit → x.commit.transaction = 1 ∧ ∀ y ∈ h, ∀ now, ¬ Sent 2 now y
  inTime : ∀ b ∈ h, ∀ t₀, Began t₀ b → ∀ y ∈ h, ∀ now, y.op.time = some now → y.result.advances = true →
    now.toNat < t₀.toNat + x₀.timeoutMs.toNat
  apart : h.Pairwise Apart

section Steps

variable {x₀ x x' : Exchange} {h : List Record} {y : Record} {now : UInt64}

theorem Sent.sends {message : UInt8} (hy : Sent message now y) : y.result.sends = true := by
  rcases hy with ⟨-, out, hresult, -⟩
  rw [hresult]
  rfl

theorem not_sends (hy : y.result.advances = false) : y.result.sends = false :=
  (Bool.or_eq_false_iff.1 hy).1

/-- A call after which nothing new has been sent or accepted. -/
theorem Paced.inTime_cons (hp : Paced x₀ h x) (hy : y.result.advances = false) :
    ∀ b ∈ y :: h, ∀ t₀, Began t₀ b → ∀ z ∈ y :: h, ∀ now, z.op.time = some now → z.result.advances = true →
      now.toNat < t₀.toNat + x₀.timeoutMs.toNat := by
  intro b hb t₀ hbegan z hz now htime hadvances
  rcases List.mem_cons.1 hz with rfl | hz
  · exact Bool.noConfusion (hy.symm.trans hadvances)
  · rcases List.mem_cons.1 hb with rfl | hb
    · exact Bool.noConfusion ((not_sends hy).symm.trans hbegan.2)
    · exact hp.inTime b hb t₀ hbegan z hz now htime hadvances

theorem Paced.apart_cons (hp : Paced x₀ h x) (hy : y.result.advances = false) :
    (y :: h).Pairwise Apart := by
  refine List.pairwise_cons.2 ⟨fun z _ message t₁ t₂ _ hsent => ?_, hp.apart⟩
  exact Bool.noConfusion ((not_sends hy).symm.trans hsent.sends)

theorem sends_quiet (hy : y.result.advances = false) : sends (y :: h) = sends h := by
  rw [sends_cons, not_sends hy]
  rfl

theorem Paced.quiet (hp : Paced x₀ h x) (hy : y.result.advances = false) (hsettings : Settings x x')
    (htiming : Timing x x') (hstate : x'.state = x.state) (hcommit : x'.commit = x.commit)
    (hclock : UnderWay x → x.lastMs ≤ x'.lastMs ∧ ∀ now, Seen now y → now ≤ x'.lastMs)
    (hdeadline : Waiting x → x'.lastMs < x.deadlineMs) (hready : x.state = .ready → y.op.clocked = false) :
    Paced x₀ (y :: h) x' := by
  have hwaiting : Waiting x' → Waiting x := by
    unfold Waiting
    rw [hstate]
    exact id
  have hunderWay : UnderWay x' → UnderWay x := by
    unfold UnderWay Waiting
    rw [hstate]
    exact id
  have hold : ∀ {P : Record → Prop}, (∀ z ∈ h, P z) → P y → ∀ z ∈ y :: h, P z := by
    intro P hh hy z hz
    rcases List.mem_cons.1 hz with rfl | hz
    · exact hy
    · exact hh z hz
  refine ⟨hp.settings.trans hsettings, ?_, ?_, ?_, ?_, ?_, ?_, ?_, hp.inTime_cons hy, hp.apart_cons hy⟩
  · have hbound := hp.bound
    unfold SendBound at hbound ⊢
    rw [sends_quiet hy, hstate, htiming.retriesUsed, hsettings.retries]
    exact hbound
  · intro hx'
    have hx := hstate.symm.trans hx'
    exact hold (hp.ready hx) ⟨hready hx, hy⟩
  · intro hx'
    rcases hclock (hunderWay hx') with ⟨hle, hnow⟩
    exact hold (fun z hz now hseen => UInt64.le_trans (hp.last (hunderWay hx') z hz now hseen) hle) hnow
  · intro hx'
    rcases hp.began (hunderWay hx') with ⟨t₀, ⟨b, hb, hbegan⟩, hunique, heq⟩
    refine ⟨t₀, ⟨b, List.mem_cons_of_mem y hb, hbegan⟩, ?_, htiming.deadlineMs ▸ heq⟩
    refine hold hunique fun t hy' => ?_
    exact Bool.noConfusion ((not_sends hy).symm.trans hy'.2)
  · intro hx'
    rw [htiming.deadlineMs, htiming.retryAtMs]
    exact ⟨hdeadline (hwaiting hx'), (hp.waiting (hwaiting hx')).2⟩
  · intro hx'
    rw [hstate, htiming.retryAtMs]
    refine hold (hp.due (hwaiting hx')) fun now hsent => ?_
    exact Bool.noConfusion ((not_sends hy).symm.trans hsent.sends)
  · intro hx'
    rw [hcommit]
    refine ⟨(hp.commit (hstate.symm.trans hx')).1, hold (hp.commit (hstate.symm.trans hx')).2 fun now hsent => ?_⟩
    exact Bool.noConfusion ((not_sends hy).symm.trans hsent.sends)

theorem Paced.finish (hp : Paced x₀ h x) (hy : y.result.advances = false) (hsettings : Settings x x')
    (hover : Over x') : Paced x₀ (y :: h) x' := by
  have hnot : ∀ {s : ExchangeState}, s ≠ .failed → s ≠ .cancelled → x'.state ≠ s := by
    rintro s hfailed hcancelled rfl
    exact hover.elim hfailed hcancelled
  have hwaiting : ¬ Waiting x' := fun hx' => hx'.elim (hnot nofun nofun) (hnot nofun nofun)
  have hunderWay : ¬ UnderWay x' := fun hx' => hx'.elim hwaiting (hnot nofun nofun)
  refine ⟨hp.settings.trans hsettings, ?_, fun hx' => absurd hx' (hnot nofun nofun), fun hx' => absurd hx' hunderWay,
    fun hx' => absurd hx' hunderWay, fun hx' => absurd hx' hwaiting, fun hx' => absurd hx' hwaiting,
    fun hx' => absurd hx' (hnot nofun nofun), hp.inTime_cons hy, hp.apart_cons hy⟩
  have hle := hp.bound.le
  rw [← hsettings.retries] at hle
  unfold SendBound
  rw [sends_quiet hy]
  rcases hover with hstate | hstate
  · rw [hstate]
    exact hle
  · rw [hstate]
    exact hle

/-- A message was sent at `now`, and the exchange is left as `nextRetry` leaves `z`. -/
theorem Paced.send {z : Exchange} (out : AuthBody) (hp : Paced x₀ h x) (hsettings : Settings x₀ z)
    (hlast : z.lastMs = now) (hdeadline : now < z.deadlineMs) (hwaiting : Waiting z) (htime : y.op.time = some now)
    (hresult : y.result = .exchanged .send (some out)) (hmessage : out.transaction = z.state.message)
    (hafter : y.after = nextRetry now z) (hbound : SendBound z (sends h + 1))
    (hseen : ∀ w ∈ h, ∀ t, Seen t w → t ≤ now)
    (hbegan : ∃ t₀ : UInt64, (∃ w ∈ y :: h, Began t₀ w) ∧ (∀ w ∈ y :: h, ∀ t, Began t w → t = t₀) ∧
      z.deadlineMs.toNat = t₀.toNat + x₀.timeoutMs.toNat)
    (hfresh : ∀ t, Began t y → ∀ w ∈ h, w.result.advances = false)
    (hold : ∀ w ∈ h, ∀ t, Sent z.state.message t w → retryTime w.after t ≤ now.toNat)
    (hcommit : z.state = .waitCommit → z.commit.transaction = 1 ∧ ∀ w ∈ h, ∀ t, ¬ Sent 2 t w) :
    Paced x₀ (y :: h) (nextRetry now z) := by
  have hretry := nextRetry_retryAtMs hdeadline
  have hnow : now.toNat ≤ retryTime z now := Nat.le_add_right _ _
  have hsends : y.result.sends = true := by
    rw [hresult]
    rfl
  have hsent : ∀ {message t}, Sent message t y → message = z.state.message ∧ t = now := by
    rintro message t ⟨htime', out', hresult', rfl⟩
    rw [hresult] at hresult'
    cases hresult'
    exact ⟨hmessage, Option.some.inj (htime'.symm.trans htime)⟩
  refine ⟨⟨hsettings.h2e, hsettings.retryMs, hsettings.timeoutMs, hsettings.retries⟩, ?_, ?_, ?_, ?_, ?_, ?_, ?_,
    ?_, ?_⟩
  · rw [sends_cons, if_pos hsends]
    exact hbound
  · intro hready
    rcases hwaiting with hstate | hstate
    · exact ExchangeState.noConfusion (hstate.symm.trans hready)
    · exact ExchangeState.noConfusion (hstate.symm.trans hready)
  · intro _ w hw t hw'
    show t ≤ z.lastMs
    rw [hlast]
    rcases List.mem_cons.1 hw with rfl | hw
    · rw [Option.some.inj (hw'.1.symm.trans htime)]
      exact UInt64.le_refl now
    · exact hseen w hw t hw'
  · intro _
    exact hbegan
  · intro _
    refine ⟨?_, ?_⟩
    · show z.lastMs < z.deadlineMs
      rw [hlast]
      exact hdeadline
    · rw [UInt64.le_iff_toNat_le, hretry]
      exact retryTime_le hdeadline
  · intro _ w hw t hw'
    rw [hretry]
    rcases List.mem_cons.1 hw with rfl | hw
    · rw [(hsent hw').2, hafter]
      exact le_rfl
    · exact (hold w hw t hw').trans hnow
  · intro hstate
    have hz : z.state = .waitCommit := hstate
    refine ⟨(hcommit hz).1, fun w hw t hw' => ?_⟩
    rcases List.mem_cons.1 hw with rfl | hw
    · have htwo := (hsent hw').1
      rw [hz] at htwo
      exact absurd htwo (by decide)
    · exact (hcommit hz).2 w hw t hw'
  · intro b hb t₀ hb' w hw t htime' hadvances
    rcases List.mem_cons.1 hw with rfl | hold
    · rcases hbegan with ⟨t₁, -, hunique, heq⟩
      rw [Option.some.inj (htime'.symm.trans htime), hunique b hb t₀ hb', ← heq]
      exact UInt64.lt_iff_toNat_lt.1 hdeadline
    · rcases List.mem_cons.1 hb with rfl | hbold
      · exact Bool.noConfusion ((hfresh t₀ hb' w hold).symm.trans hadvances)
      · exact hp.inTime b hbold t₀ hb' w hold t htime' hadvances
  · refine List.pairwise_cons.2 ⟨fun w hw message t₁ t₂ hw' hy' => ?_, hp.apart⟩
    rcases hsent hy' with ⟨rfl, rfl⟩
    exact hold w hw t₁ hw'

/-- While the exchange is under way, no call begins it again. -/
theorem Paced.began_cons (hp : Paced x₀ h x) (hx : UnderWay x) (hy : ¬ ∃ t, Began t y)
    (hdeadline : x'.deadlineMs = x.deadlineMs) :
    ∃ t₀ : UInt64, (∃ w ∈ y :: h, Began t₀ w) ∧ (∀ w ∈ y :: h, ∀ t, Began t w → t = t₀) ∧
      x'.deadlineMs.toNat = t₀.toNat + x₀.timeoutMs.toNat := by
  rcases hp.began hx with ⟨t₀, ⟨b, hb, hbegan⟩, hunique, heq⟩
  refine ⟨t₀, ⟨b, List.mem_cons_of_mem y hb, hbegan⟩, fun w hw t hw' => ?_, hdeadline ▸ heq⟩
  rcases List.mem_cons.1 hw with rfl | hw
  · exact absurd ⟨t, hw'⟩ hy
  · exact hunique w hw t hw'

variable {log : Trace}

theorem Paced.started {r : Output} (hp : Paced x₀ h x) (hpositive : 0 < x₀.timeoutMs.toNat)
    (hstate : x.state = .ready) (hroom : now.toNat + x.timeoutMs.toNat < 2 ^ 64) :
    Paced x₀ (⟨x, .start now true, log, .exchanged .send (some (fillBody x.h2e false r)), x.started now r⟩ :: h)
      (x.started now r) := by
  have hsum : (now + x.timeoutMs.toUInt64).toNat = now.toNat + x₀.timeoutMs.toNat := by
    rw [UInt64.toNat_add, UInt32.toNat_toUInt64, Nat.mod_eq_of_lt hroom, hp.settings.timeoutMs]
  have hquiet : ∀ w ∈ h, w.result.advances = false := fun w hw => (hp.ready hstate w hw).2
  have hnever : ∀ w ∈ h, ∀ message t, ¬ Sent message t w := fun w hw message t hsent =>
    Bool.noConfusion ((not_sends (hquiet w hw)).symm.trans hsent.sends)
  have hnone : x.retriesUsed.toNat = 0 ∧ sends h = 0 := by
    have hbound := hp.bound
    unfold SendBound at hbound
    rw [hstate] at hbound
    exact hbound
  refine hp.send (fillBody x.h2e false r) ?_ rfl ?_ (Or.inl rfl) rfl rfl rfl rfl ?_ ?_ ?_ ?_ ?_ ?_
  · exact hp.settings.trans ⟨rfl, rfl, rfl, rfl⟩
  · rw [UInt64.lt_iff_toNat_lt, hsum]
    omega
  · show x.retriesUsed.toNat ≤ x.retries.toNat ∧ sends h + 1 ≤ 1 + x.retriesUsed.toNat
    omega
  · rintro w hw t ⟨-, hclocked | hsends⟩
    · exact Bool.noConfusion ((hp.ready hstate w hw).1.symm.trans hclocked)
    · exact Bool.noConfusion ((not_sends (hquiet w hw)).symm.trans hsends)
  · refine ⟨now, ⟨_, List.mem_cons_self, rfl, rfl⟩, fun w hw t hw' => ?_, hsum⟩
    rcases List.mem_cons.1 hw with rfl | hold
    · cases hw'.1
      rfl
    · exact Bool.noConfusion ((not_sends (hquiet w hold)).symm.trans hw'.2)
  · exact fun _ _ => hquiet
  · exact fun w hw t hsent => absurd hsent (hnever w hw _ t)
  · exact fun _ => ⟨rfl, fun w hw t => hnever w hw 2 t⟩

theorem Paced.committed {body : List UInt8} {r : Output} (hp : Paced x₀ h x) (hstate : x.state = .waitCommit)
    (htimely : Timely x now) {source destination : Option Address} :
    Paced x₀ (⟨x, .receive source destination (some body) now true, log,
      .exchanged .send (some (fillBody x.h2e true r)), x.committed now r⟩ :: h) (x.committed now r) := by
  have hwaiting : Waiting x := Or.inl hstate
  have hbound := hp.bound
  unfold SendBound at hbound
  rw [hstate] at hbound
  refine hp.send (fillBody x.h2e true r) ?_ rfl (htimely.deadline hwaiting) (Or.inr rfl) rfl rfl rfl rfl
    ?_ ?_ ?_ ?_ ?_ nofun
  · exact hp.settings.trans ⟨rfl, rfl, rfl, rfl⟩
  · show 0 ≤ x.retries.toNat ∧ sends h + 1 ≤ 2 + x.retries.toNat + 0
    omega
  · exact fun w hw t hseen => UInt64.le_trans (hp.last (Or.inl hwaiting) w hw t hseen) htimely.last
  · refine hp.began_cons (Or.inl hwaiting) ?_ rfl
    rintro ⟨t, hop, -⟩
    cases hop
  · rintro t ⟨hop, -⟩
    cases hop
  · exact fun w hw t hsent => absurd hsent ((hp.commit hstate).2 w hw t)

theorem Paced.resent {z : Exchange} {out : AuthBody} (hp : Paced x₀ h x) (hwaiting : Waiting x)
    (htimely : Timely x now) (hdue : x.retryAtMs ≤ now) (hleft : x.retriesUsed ≠ x.retries) (hsettings : Settings x z)
    (hstate : z.state = x.state) (hlast : z.lastMs = now) (hused : z.retriesUsed = x.retriesUsed + 1)
    (hdeadline : z.deadlineMs = x.deadlineMs) (hmessage : out.transaction = z.state.message)
    (hcommit : z.commit = x.commit) :
    Paced x₀ (⟨x, .poll now true, log, .exchanged .send (some out), nextRetry now z⟩ :: h) (nextRetry now z) := by
  have hless : x.retriesUsed.toNat ≤ x.retries.toNat → (x.retriesUsed + 1).toNat = x.retriesUsed.toNat + 1 ∧
      x.retriesUsed.toNat + 1 ≤ x.retries.toNat := by
    intro hle
    have hne : x.retriesUsed.toNat ≠ x.retries.toNat := fun heq => hleft (UInt32.toNat_inj.1 heq)
    have hretries := x.retries.toNat_lt
    refine ⟨?_, by omega⟩
    rw [UInt32.toNat_add, Nat.mod_eq_of_lt]
    · rfl
    · show x.retriesUsed.toNat + 1 < 2 ^ 32
      omega
  refine hp.send out (hp.settings.trans hsettings) hlast ?_ ?_ rfl rfl hmessage rfl ?_ ?_ ?_ ?_ ?_ ?_
  · rw [hdeadline]
    exact htimely.deadline hwaiting
  · unfold Waiting
    rw [hstate]
    exact hwaiting
  · have hbound := hp.bound
    unfold SendBound at hbound ⊢
    rw [hstate, hused, hsettings.retries]
    rcases hwaiting with hx | hx
    · rw [hx] at hbound ⊢
      rcases hless hbound.1 with ⟨heq, hle⟩
      refine ⟨heq ▸ hle, ?_⟩
      rw [heq]
      omega
    · rw [hx] at hbound ⊢
      rcases hless hbound.1 with ⟨heq, hle⟩
      refine ⟨heq ▸ hle, ?_⟩
      rw [heq]
      omega
  · exact fun w hw t hseen => UInt64.le_trans (hp.last (Or.inl hwaiting) w hw t hseen) htimely.last
  · refine hp.began_cons (Or.inl hwaiting) ?_ hdeadline
    rintro ⟨t, hop, -⟩
    cases hop
  · rintro t ⟨hop, -⟩
    cases hop
  · rw [hstate]
    intro w hw t hsent
    exact (hp.due hwaiting w hw t hsent).trans (UInt64.le_iff_toNat_le.1 hdue)
  · rw [hstate, hcommit]
    exact hp.commit

theorem Paced.accepted {source destination : Option Address} {body : List UInt8} (hp : Paced x₀ h x)
    (hstate : x.state = .waitConfirm) (htimely : Timely x now) {out : Option AuthBody} :
    Paced x₀ (⟨x, .receive source destination (some body) now true, log, .exchanged .accepted out,
        { x with lastMs := now, state := .accepted, commit := {}, confirm := {} }⟩ :: h)
      { x with lastMs := now, state := .accepted, commit := {}, confirm := {} } := by
  have hwaiting : Waiting x := Or.inr hstate
  have hnot : ∀ {x' : Exchange}, x'.state = .accepted → ¬ Waiting x' := by
    rintro x' haccepted (hx' | hx')
    · exact ExchangeState.noConfusion (haccepted.symm.trans hx')
    · exact ExchangeState.noConfusion (haccepted.symm.trans hx')
  refine ⟨hp.settings.trans ⟨rfl, rfl, rfl, rfl⟩, ?_, nofun, ?_, ?_, ?_, ?_, nofun, ?_, ?_⟩
  · exact hp.bound.le
  · intro _ w hw t hw'
    rcases List.mem_cons.1 hw with rfl | hold
    · rw [← Option.some.inj hw'.1]
      exact UInt64.le_refl now
    · exact UInt64.le_trans (hp.last (Or.inl hwaiting) w hold t hw') htimely.last
  · intro _
    refine hp.began_cons (Or.inl hwaiting) ?_ rfl
    rintro ⟨t, hop, -⟩
    cases hop
  · exact fun hx' => absurd hx' (hnot rfl)
  · exact fun hx' => absurd hx' (hnot rfl)
  · intro b hb t₀ hb' w hw t htime hadvances
    rcases List.mem_cons.1 hb with rfl | hbold
    · cases hb'.1
    · rcases List.mem_cons.1 hw with rfl | hold
      · rcases hp.began (Or.inl hwaiting) with ⟨t₁, -, hunique, heq⟩
        rw [← Option.some.inj htime, hunique b hbold t₀ hb', ← heq]
        exact UInt64.lt_iff_toNat_lt.1 (htimely.deadline hwaiting)
      · exact hp.inTime b hbold t₀ hb' w hold t htime hadvances
  · refine List.pairwise_cons.2 ⟨fun w hw message t₁ t₂ hw' hy' => ?_, hp.apart⟩
    rcases hy' with ⟨-, out', hresult, -⟩
    cases hresult

theorem not_underWay (hover : Over x) : ¬ UnderWay x := by
  rintro ((hx | hx) | hx) <;> rcases hover with hover | hover <;>
    exact ExchangeState.noConfusion (hx.symm.trans hover)

/-- A call whose time the exchange does not look at, and that changes nothing. -/
theorem Paced.unchanged (hp : Paced x₀ h x) (hy : y.result.advances = false) (hop : y.op.clocked = false) :
    Paced x₀ (y :: h) x := by
  refine hp.quiet hy (Settings.refl x) (Timing.refl x) rfl rfl (fun _ => ⟨UInt64.le_refl _, ?_⟩)
    (fun hwaiting => (hp.waiting hwaiting).1) fun _ => hop
  rintro now ⟨-, hclocked | hsends⟩
  · exact Bool.noConfusion (hop.symm.trans hclocked)
  · exact Bool.noConfusion ((not_sends hy).symm.trans hsends)

theorem Went.paced {op : Op} {answer : Answer} (hwent : Went x op log answer x') (hpositive : 0 < x₀.timeoutMs.toNat)
    (hp : Paced x₀ h x) :
    Paced x₀ (⟨x, op, log, answer, x'⟩ :: h) x' := by
  cases hwent with
  | failed _ hstate _ hsettings _ _ => exact hp.finish rfl hsettings (Or.inl hstate)
  | cancelled hstate _ hsettings _ => exact hp.finish rfl hsettings (Or.inr hstate)
  | gone hover _ => exact hp.finish rfl (Settings.refl x) hover
  | repeated _ => exact hp.unchanged rfl rfl
  | withheld => exact hp.unchanged rfl rfl
  | exported _ => exact hp.unchanged rfl rfl
  | ignored _ htime _ htimely =>
      refine hp.quiet rfl ⟨rfl, rfl, rfl, rfl⟩ ⟨rfl, rfl, rfl⟩ rfl rfl (fun _ => ⟨htimely.last, ?_⟩) htimely.deadline ?_
      · rintro now ⟨htime', -⟩
        rw [Option.some.inj (htime'.symm.trans htime)]
        exact UInt64.le_refl _
      · intro hready
        rcases htimely.live with (hx | hx) | hx <;> exact ExchangeState.noConfusion (hx.symm.trans hready)
  | started hstate hroom _ _ => exact hp.started hpositive hstate hroom
  | committed hstate htimely _ _ _ => exact hp.committed hstate htimely
  | @resentCommit now hstate htimely hdue hleft =>
      refine hp.resent (z := { x with lastMs := now, retriesUsed := x.retriesUsed + 1 }) (Or.inl hstate) htimely hdue hleft
        ⟨rfl, rfl, rfl, rfl⟩ rfl rfl rfl rfl ?_ rfl
      show x.commit.transaction = x.state.message
      rw [hstate]
      exact (hp.commit hstate).1
  | @resentConfirm now r hstate htimely hdue hleft _ _ =>
      refine hp.resent
        (z := { x with lastMs := now, retriesUsed := x.retriesUsed + 1, confirm := fillBody x.h2e true r })
        (Or.inr hstate) htimely hdue hleft ⟨rfl, rfl, rfl, rfl⟩ rfl rfl rfl rfl ?_ rfl
      show (fillBody x.h2e true _).transaction = x.state.message
      rw [hstate]
      rfl
  | accepted hstate htimely _ => exact hp.accepted hstate htimely

/-- A call that sends leaves the time of the next retry, and no sum of it wraps. -/
theorem Went.exact {op : Op} {answer : Answer} (hwent : Went x op log answer x') (hpositive : 0 < x.timeoutMs.toNat)
    (htime : op.time = some now) (hsends : answer.sends = true) :
    now < x'.deadlineMs ∧ x'.retryAtMs.toNat = retryTime x' now := by
  have hretry : ∀ {z : Exchange} {t : UInt64}, some t = some now → t < z.deadlineMs →
      now < (nextRetry t z).deadlineMs ∧ (nextRetry t z).retryAtMs.toNat = retryTime (nextRetry t z) now := by
    rintro z t ⟨⟩ hlt
    exact ⟨hlt, nextRetry_retryAtMs hlt⟩
  cases hwent with
  | failed | gone | repeated | ignored | accepted | cancelled | exported | withheld => exact Bool.noConfusion hsends
  | @started t r _ hroom _ _ =>
      refine hretry htime ?_
      show t < t + x.timeoutMs.toUInt64
      rw [UInt64.lt_iff_toNat_lt, UInt64.toNat_add, UInt32.toNat_toUInt64, Nat.mod_eq_of_lt hroom]
      omega
  | committed hstate htimely _ _ _ => exact hretry htime (htimely.deadline (Or.inl hstate))
  | resentCommit hstate htimely _ _ => exact hretry htime (htimely.deadline (Or.inl hstate))
  | resentConfirm hstate htimely _ _ _ _ => exact hretry htime (htimely.deadline (Or.inr hstate))

/-- While the Confirm of the peer is awaited, no frame changes the schedule. -/
theorem Went.timing {op : Op} {answer : Answer} (hwent : Went x op log answer x') (hop : op.receives = true)
    (hstate : x.state = .waitConfirm) : Timing x x' := by
  cases hwent with
  | failed _ _ _ _ htiming _ => exact htiming hop
  | gone _ _ => exact Timing.refl x
  | ignored _ _ _ _ => exact ⟨rfl, rfl, rfl⟩
  | accepted _ _ _ => exact ⟨rfl, rfl, rfl⟩
  | committed hother _ _ _ _ => exact ExchangeState.noConfusion (hother.symm.trans hstate)
  | repeated | started | resentCommit | resentConfirm | cancelled | exported | withheld => exact Bool.noConfusion hop

theorem Went.backwards {op : Op} {answer : Answer} (hwent : Went x op log answer x') (hop : op.clocked = true)
    (htime : op.time = some now) (hx : UnderWay x) (hlast : now < x.lastMs) :
    x'.state = .failed ∧ answer.sends = false := by
  have hlate : ∀ {t : UInt64}, some t = some now → ¬ Timely x t := by
    rintro t ⟨⟩ htimely
    exact UInt64.not_lt.2 htimely.last hlast
  cases hwent with
  | failed _ hstate _ _ _ _ => exact ⟨hstate, rfl⟩
  | gone hover _ => exact absurd hx (not_underWay hover)
  | ignored _ htime' _ htimely => exact absurd htimely (hlate (htime'.symm.trans htime))
  | committed _ htimely _ _ _ => exact absurd htimely (hlate htime)
  | resentCommit _ htimely _ _ => exact absurd htimely (hlate htime)
  | resentConfirm _ htimely _ _ _ _ => exact absurd htimely (hlate htime)
  | accepted _ htimely _ => exact absurd htimely (hlate htime)
  | repeated | started | cancelled | exported | withheld => exact Bool.noConfusion hop

end Steps

/-! ## Runs -/

section Runs

variable {own peer : Address} {h2e : Bool} {retryMs timeoutMs retries : UInt32} {x₀ x : Exchange}
  {h : List Record}

theorem create_timeout (hcreate : create own peer h2e retryMs timeoutMs retries = some x₀) :
    0 < x₀.timeoutMs.toNat := by
  rw [create_eq hcreate]
  rw [create] at hcreate
  split at hcreate
  case isTrue => cases hcreate
  case isFalse hgood =>
    simp only [not_or, UInt32.not_lt] at hgood
    rcases hgood with ⟨hzero, -, hle, -⟩
    have hle := UInt32.le_iff_toNat_le.1 hle
    have hne : retryMs.toNat ≠ 0 := fun heq => hzero (UInt32.toNat_inj.1 heq)
    show 0 < timeoutMs.toNat
    omega

theorem paced_new (hstate : x₀.state = .ready) (hused : x₀.retriesUsed = 0) : Paced x₀ [] x₀ := by
  have hwaiting : ¬ Waiting x₀ := by
    rintro (hx | hx) <;> exact ExchangeState.noConfusion (hx.symm.trans hstate)
  have hunderWay : ¬ UnderWay x₀ := by
    rintro (hx | hx)
    · exact hwaiting hx
    · exact ExchangeState.noConfusion (hx.symm.trans hstate)
  refine ⟨Settings.refl x₀, ?_, fun _ y hy => absurd hy List.not_mem_nil, fun hx => absurd hx hunderWay,
    fun hx => absurd hx hunderWay, fun hx => absurd hx hwaiting, fun hx => absurd hx hwaiting, fun hx => ?_,
    fun b hb => absurd hb List.not_mem_nil, List.Pairwise.nil⟩
  · unfold SendBound
    rw [hstate, hused]
    exact ⟨rfl, rfl⟩
  · exact ExchangeState.noConfusion (hx.symm.trans hstate)

theorem run_paced (hcreate : create own peer h2e retryMs timeoutMs retries = some x₀)
    (hrun : Run exec x₀ h x) : Paced x₀ h x := by
  have hpositive := create_timeout hcreate
  refine hrun.invariant (P := Paced x₀) ?_ ?_
  · rw [create_eq hcreate]
    exact paced_new rfl rfl
  · intro h x x' op log r _ hp hout
    exact (wp_outcome (exec_went x op) hout).paced hpositive hp

/-- What is promised of the retries and the deadline of an exchange that was created as `x₀`. -/
structure Scheduled (x₀ : Exchange) (h : List Record) (x : Exchange) : Prop where
  sends : sends h ≤ 2 + 2 * x₀.retries.toNat
  inTime : ∀ b ∈ h, ∀ t₀, Began t₀ b → ∀ y ∈ h, ∀ now, y.op.time = some now → y.result.advances = true →
    now.toNat < t₀.toNat + x₀.timeoutMs.toNat
  waiting : Waiting x → x.lastMs < x.deadlineMs ∧ x.retryAtMs ≤ x.deadlineMs ∧
    ∃ t₀ : UInt64, (∃ y ∈ h, Began t₀ y) ∧ x.deadlineMs.toNat = t₀.toNat + x₀.timeoutMs.toNat
  exact : ∀ y ∈ h, ∀ now, y.op.time = some now → y.result.sends = true →
    now < y.after.deadlineMs ∧ y.after.retryAtMs.toNat = retryTime y.after now
  apart : h.Pairwise Apart
  duplicate : ∀ y ∈ h, y.op.receives = true → y.before.state = .waitConfirm → Timing y.before y.after
  backwards : ∀ later y₂ earlier, h = later ++ y₂ :: earlier → ∀ y₁ ∈ earlier, ∀ t₁ t₂, Seen t₁ y₁ →
    y₂.op.clocked = true → y₂.op.time = some t₂ → t₂ < t₁ → UnderWay y₂.before →
    y₂.after.state = .failed ∧ y₂.result.sends = false

theorem exchange_scheduled (hcreate : create own peer h2e retryMs timeoutMs retries = some x₀)
    (hrun : Run exec x₀ h x) : Scheduled x₀ h x where
  sends := by
    have hp := run_paced hcreate hrun
    rw [← hp.settings.retries]
    exact hp.bound.le
  inTime := (run_paced hcreate hrun).inTime
  waiting := by
    intro hwaiting
    have hp := run_paced hcreate hrun
    rcases hp.began (Or.inl hwaiting) with ⟨t₀, hbegan, -, heq⟩
    exact ⟨(hp.waiting hwaiting).1, (hp.waiting hwaiting).2, t₀, hbegan, heq⟩
  exact := by
    intro y hy now htime hsends
    rcases List.append_of_mem hy with ⟨later, earlier, rfl⟩
    have hbefore := run_paced hcreate (Run.drop hrun).tail.1
    refine (run_went hrun hy).exact ?_ htime hsends
    rw [hbefore.settings.timeoutMs]
    exact create_timeout hcreate
  apart := (run_paced hcreate hrun).apart
  duplicate := by
    intro y hy hop hstate
    exact (run_went hrun hy).timing hop hstate
  backwards := by
    rintro later y₂ earlier rfl y₁ hy₁ t₁ t₂ hseen hop htime hlt hx
    have hbefore := run_paced hcreate (Run.drop hrun).tail.1
    have hlast := hbefore.last hx y₁ hy₁ t₁ hseen
    refine (run_went hrun (List.mem_append_right later List.mem_cons_self)).backwards hop htime hx ?_
    exact UInt64.lt_of_lt_of_le hlt hlast

/-- A handshake with a retry of each message. -/
def slowHandshake : List Op := [.start 10 true, .poll 110 true, peerCommit 120, .poll 220 true, peerConfirm 230]

theorem exchange_scheduled_slowHandshake :
    sends (replay exec agreeable slowHandshake newExchange ()).1 = 4 ∧
    (replay exec agreeable slowHandshake newExchange ()).2.1.state = .accepted ∧
    Scheduled newExchange (replay exec agreeable slowHandshake newExchange ()).1
      (replay exec agreeable slowHandshake newExchange ()).2.1 :=
  ⟨by decide +kernel, by decide +kernel, exchange_scheduled newExchange_created
    (replay_run exec agreeable slowHandshake newExchange ())⟩

/-- A start that is repeated is refused whatever its time, and the time is forgotten: a retry at an earlier
time is not taken for a clock that runs backwards. -/
theorem repeated_start_unseen :
    ∃ y₂ y₁ earlier x, Run exec newExchange (y₂ :: y₁ :: earlier) x ∧ y₁.op.time = some 200 ∧
      y₂.op.time = some 150 ∧ UnderWay y₂.before ∧ y₂.after.state = .waitCommit ∧ y₂.result.sends = true := by
  have hstart := Run.nil.call (Prog.run_outcome agreeable (exec (.start 10 true) newExchange) ())
  have hagain := hstart.call (Prog.run_outcome agreeable (exec (.start 200 true) _) ())
  have hpoll := hagain.call (Prog.run_outcome agreeable (exec (.poll 150 true) _) ())
  exact ⟨_, _, _, _, hpoll, rfl, rfl, Or.inl (Or.inl (by decide +kernel)), by decide +kernel, by decide +kernel⟩

end Runs

end Sae
end Rtl8852be
