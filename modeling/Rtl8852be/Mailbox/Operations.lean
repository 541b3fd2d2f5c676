import Rtl8852be.Mailbox.FirmwareMailbox

/-!
# Operations — what one operation of the mailbox does

An operation makes many accesses, most of which only look.  This file provides:

* `effects` — the accesses that matter: all writes, the reads of the counter byte, and the reads of the
  scheduler mask;
* `Does stale E m` — where nothing has failed yet, `m` either succeeds with the effects `E`, or leaves a
  fault, or (if `stale`) finds an old reply before it has written anything;
* `Completes` — the effects of a successful operation;
* `exec_went` — the ways in which an operation can go.
-/

namespace Rtl8852be
namespace Mail

open Interaction

/-! ## Effects -/

def isWrite : TraceEvent → Bool
  | .call (.write8 _ _) _ => true
  | .call (.write32 _ _) _ => true
  | _ => false

def relevant : TraceEvent → Bool
  | .call (.write8 _ _) _ => true
  | .call (.write32 _ _) _ => true
  | .call (.read8 a) _ => a == hostCounters
  | .call (.read16 _) _ => true
  | _ => false

def effects (t : Trace) : Trace := t.filter relevant

@[simp] theorem effects_nil : effects [] = [] := rfl

@[simp] theorem effects_append (t t' : Trace) : effects (t ++ t') = effects t ++ effects t' :=
  List.filter_append ..

theorem effects_quiet {e : TraceEvent} (he : relevant e = false) (t : Trace) :
    effects (e :: t) = effects t := by
  simp [effects, he]

theorem effects_cons {e : TraceEvent} (he : relevant e = true) (t : Trace) :
    effects (e :: t) = e :: effects t := by
  simp [effects, he]

theorem relevant_of_isWrite {e : TraceEvent} (he : isWrite e = true) : relevant e = true := by
  rcases e with ⟨c, r⟩ | n
  · cases c <;> simp_all [isWrite, relevant]
  · exact n.elim

def Writeless (t : Trace) : Prop := ∀ e ∈ t, isWrite e = false

theorem writeless_append {t t' : Trace} (h : Writeless t) (h' : Writeless t') : Writeless (t ++ t') := by
  intro e he
  rcases List.mem_append.1 he with he | he
  · exact h e he
  · exact h' e he

theorem writeless_of_effects {t : Trace} (h : Writeless (effects t)) : Writeless t := by
  intro e he
  by_contra hwrite
  rw [Bool.not_eq_false] at hwrite
  have hmem : e ∈ effects t := List.mem_filter.2 ⟨he, relevant_of_isWrite hwrite⟩
  rw [h e hmem] at hwrite
  exact Bool.noConfusion hwrite

/-! ## States -/

/-- Nothing has failed yet in this operation. -/
structure Going (s : Mailbox) : Prop where
  faulted : s.faulted = false
  error : s.result.error = .none

structure Faulted (s : Mailbox) : Prop where
  faulted : s.faulted = true
  error : s.result.error ≠ .staleReply

/-- An old reply was found, and nothing is known to be wrong. -/
structure Stale (s : Mailbox) : Prop where
  faulted : s.faulted = false
  error : s.result.error = .staleReply

/-- What lasts longer than one exchange. -/
structure Same (s s' : Mailbox) : Prop where
  active : s'.active = s.active
  paused : s'.paused = s.paused
  savedTx : s'.savedTx = s.savedTx

theorem Same.refl (s : Mailbox) : Same s s := ⟨rfl, rfl, rfl⟩

variable {s s' s₁ : Mailbox}

theorem Same.trans {s'' : Mailbox} (h : Same s s') (h' : Same s' s'') : Same s s'' :=
  ⟨h'.active.trans h.active, h'.paused.trans h.paused, h'.savedTx.trans h.savedTx⟩

/-! ## What code does -/

/-- The ways in which a part of an operation can end. -/
structure Ends (stale : Bool) (E : Trace → Prop) (s : Mailbox) (t : Trace) (ok : Bool) (s' : Mailbox) :
    Prop where
  same : Same s s'
  succeeded : ok = true → Going s' ∧ E (effects t)
  failed : ok = false → Faulted s' ∨ stale = true ∧ Stale s' ∧ Writeless (effects t)

def Does (stale : Bool) (E : Trace → Prop) (m : Gated Bool) : Prop :=
  ∀ s, Going s → m.wp (Ends stale E s) s

/-- The same for a read, whose value may be of interest. -/
def Reads {α : Type} (E : α → Trace → Prop) (m : Gated (Bool × α)) : Prop :=
  ∀ s, Going s → m.wp (fun t r s' => Ends false (E r.2) s t r.1 s') s

variable {stale stale' : Bool} {E E' : Trace → Prop} {m m' : Gated Bool}

theorem Ends.mono {t : Trace} {ok : Bool} (h : Ends stale E s t ok s') (hE : ∀ t, E t → E' t) :
    Ends stale E' s t ok s' :=
  ⟨h.same, fun hok => ⟨(h.succeeded hok).1, hE _ (h.succeeded hok).2⟩, h.failed⟩

theorem Does.mono (h : Does stale E m) (hE : ∀ t, E t → E' t) : Does stale E' m := by
  intro s hs
  exact wp_mono (h s hs) fun t ok s' hends => hends.mono hE

theorem Ends.after {t t' : Trace} {ok : Bool} (hsame : Same s s₁) (ht : effects t = []) (h : Ends stale E s₁ t' ok s') :
    Ends stale E s (t ++ t') ok s' := by
  refine ⟨hsame.trans h.same, ?_, ?_⟩
  · rw [effects_append, ht]
    exact h.succeeded
  · rw [effects_append, ht]
    exact h.failed

/-- One part after the other.  An old reply may only be found while nothing has been written. -/
theorem Does.both (hm : Does stale E m) (hm' : Does stale' E' m')
    (hE : stale' = true → ∀ t, E t → Writeless t) :
    Does (stale || stale') (fun t => ∃ l l', t = l ++ l' ∧ E l ∧ E' l') (Code.both m m') := by
  intro s hs
  rw [Code.wp_both]
  refine wp_mono (hm s hs) fun t ok s₁ h => ⟨fun hok => ?_, fun hok => ?_⟩
  · have hfirst := h.succeeded hok
    refine wp_mono (hm' s₁ hfirst.1) fun t' ok' s' h' => ?_
    refine ⟨h.same.trans h'.same, fun hok' => ?_, fun hok' => ?_⟩
    · have hsecond := h'.succeeded hok'
      exact ⟨hsecond.1, _, _, effects_append t t', hfirst.2, hsecond.2⟩
    · rcases h'.failed hok' with hfault | ⟨hstale, hs', hw⟩
      · exact Or.inl hfault
      · rw [effects_append]
        exact Or.inr ⟨by simp [hstale], hs', writeless_append (hE hstale _ hfirst.2) hw⟩
  · refine ⟨h.same, nofun, fun _ => ?_⟩
    rcases h.failed hok with hfault | ⟨hstale, hs', hw⟩
    · exact Or.inl hfault
    · exact Or.inr ⟨by simp [hstale], hs', hw⟩

theorem Does.quiet_both (hm : Does false (· = []) m) (hm' : Does stale E m') :
    Does stale E (Code.both m m') := by
  have hparts := hm.both hm' fun _ t ht e he => absurd (ht ▸ he) List.not_mem_nil
  rw [Bool.false_or] at hparts
  refine hparts.mono ?_
  rintro t ⟨l, l', rfl, rfl, hl'⟩
  exact hl'

theorem Does.both_quiet (hm : Does stale E m) (hm' : Does false (· = []) m') :
    Does stale E (Code.both m m') := by
  have hparts := hm.both hm' nofun
  rw [Bool.or_false] at hparts
  refine hparts.mono ?_
  rintro t ⟨l, l', rfl, hl, rfl⟩
  rwa [List.append_nil]

theorem Reads.bind {α : Type} {R : α → Trace → Prop} {E : α → Trace → Prop} {m : Gated (Bool × α)}
    {f : α → Gated Bool} (hm : Reads R m) (hf : ∀ v, Does stale (E v) (f v))
    (hR : stale = true → ∀ v t, R v t → Writeless t) :
    Does stale (fun t => ∃ v l l', t = l ++ l' ∧ R v l ∧ E v l')
      (m >>= fun r => if r.1 then f r.2 else pure false) := by
  intro s hs
  rw [wp_bind]
  refine wp_mono (hm s hs) ?_
  rintro t ⟨ok, v⟩ s₁ h
  cases ok with
  | false =>
      rw [if_neg nofun, wp_pure, List.append_nil]
      refine ⟨h.same, nofun, fun _ => ?_⟩
      rcases h.failed rfl with hfault | ⟨hstale, -⟩
      · exact Or.inl hfault
      · exact Bool.noConfusion hstale
  | true =>
      have hfirst := h.succeeded rfl
      rw [if_pos rfl]
      refine wp_mono (hf v s₁ hfirst.1) fun t' ok' s' h' => ?_
      refine ⟨h.same.trans h'.same, fun hok' => ?_, fun hok' => ?_⟩
      · have hsecond := h'.succeeded hok'
        exact ⟨hsecond.1, v, _, _, effects_append t t', hfirst.2, hsecond.2⟩
      · rcases h'.failed hok' with hfault | ⟨hstale, hs', hw⟩
        · exact Or.inl hfault
        · rw [effects_append]
          exact Or.inr ⟨hstale, hs', writeless_append (hR hstale v _ hfirst.2) hw⟩

/-! ## Checked accesses -/

variable {Q : Trace → Bool → Mailbox → Prop}

theorem wp_fail {e : MailError} {a v : UInt32} (he : e ≠ .staleReply) (hs : s.result.error ≠ .staleReply)
    (h : ∀ s', Same s s' → Faulted s' → Q [] false s') : (fail e a v).wp Q s := by
  rw [fail, wp_modify_bind, wp_pure]
  apply h
  · exact ⟨rfl, rfl, rfl⟩
  · refine ⟨rfl, ?_⟩
    show (if s.result.error = .none then _ else _ : MailResult).error ≠ _
    split
    · exact he
    · exact hs

theorem Going.not_stale (h : Going s) : s.result.error ≠ .staleReply := by
  rw [h.error]
  exact nofun

theorem does_fail {e : MailError} {a v : UInt32} (he : e ≠ .staleReply) : Does false E (fail e a v) := by
  intro s hs
  refine wp_fail he hs.not_stale fun s' hsame hfault => ?_
  exact ⟨hsame, nofun, fun _ => Or.inl hfault⟩

theorem does_true (hE : E []) : Does stale E (pure true) := by
  intro s hs
  exact (wp_pure true).2 ⟨Same.refl s, fun _ => ⟨hs, hE⟩, nofun⟩

theorem does_modify {g : Mailbox → Mailbox} (hm : Does stale E m) (hsame : ∀ s, Same s (g s))
    (hg : ∀ s, Going s → Going (g s)) : Does stale E (modify g >>= fun _ => m) := by
  intro s hs
  rw [wp_modify_bind]
  refine wp_mono (hm (g s) (hg s hs)) fun t ok s' h => ?_
  exact ⟨(hsame s).trans h.same, h.succeeded, h.failed⟩

theorem does_get {f : Mailbox → Gated Bool} (hf : ∀ x, Does stale E (f x)) :
    Does stale E (get >>= f) := by
  intro s hs
  rw [wp_get_bind]
  exact hf s s hs

theorem does_ite {p : Prop} [Decidable p] (hm : p → Does stale E m) (hm' : ¬ p → Does stale E m') :
    Does stale E (if p then m else m') := by
  by_cases hp : p
  · rw [if_pos hp]
    exact hm hp
  · rw [if_neg hp]
    exact hm' hp

theorem does_ask {c : Call} {f : Reply c → Gated Bool} (hc : ∀ r, relevant (.call c r) = false)
    (hf : ∀ r, Does stale E (f r)) : Does stale E (Code.ask c >>= f) := by
  intro s hs
  rw [wp_ask_bind]
  intro r
  refine wp_mono (hf r s hs) fun t ok s' h => ?_
  refine ⟨h.same, ?_, ?_⟩
  · rw [effects_quiet (hc r)]
    exact h.succeeded
  · rw [effects_quiet (hc r)]
    exact h.failed

theorem does_check : Does false (· = []) check := by
  intro s hs
  rw [check, wp_get_bind, if_neg (by simp [hs.faulted, hs.error])]
  revert s
  apply does_ask fun _ => rfl
  intro inGate
  refine does_ite (fun _ => ?_) fun _ => does_fail nofun
  apply does_ask fun _ => rfl
  intro cancelled
  refine does_ite (fun _ => does_fail nofun) fun _ => ?_
  apply does_ask fun _ => rfl
  intro t
  refine does_modify (does_get fun s => ?_) (fun s => ?_) fun s hs => ?_
  · refine does_ite (fun _ => does_fail nofun) fun _ => ?_
    refine does_modify ?_ (fun s => ⟨rfl, rfl, rfl⟩) fun s hs => ⟨hs.faulted, hs.error⟩
    exact does_ite (fun _ => does_fail nofun) fun _ => does_true rfl
  · by_cases hclock : s.clockStarted
    · simp only [hclock, if_true]
      exact Same.refl s
    · simp only [hclock]
      exact ⟨rfl, rfl, rfl⟩
  · by_cases hclock : s.clockStarted
    · simp only [hclock, if_true]
      exact hs
    · simp only [hclock]
      exact ⟨hs.faulted, hs.error⟩

/-- The access itself succeeded, and so did the check after it. -/
theorem does_confirm (ok : Bool) (a v : UInt32) :
    Does false (fun t => ok = true ∧ t = []) (Code.both (if ok then pure true else fail .io a v) check) := by
  cases ok with
  | true => exact Does.quiet_both (does_true rfl) (does_check.mono fun t ht => ⟨rfl, ht⟩)
  | false =>
      have hfail : Does false (fun _ => False) (fail .io a v) := does_fail nofun
      refine (hfail.both_quiet does_check).mono ?_
      intro t ht
      exact ht.elim

theorem same_counted (s : Mailbox) :
    Same s { s with result := { s.result with operations := s.result.operations + 1 } } :=
  ⟨rfl, rfl, rfl⟩

/-- A read has the effect of one event `e`, if any. -/
theorem reads_reading {α : Type} (read : Gated (Bool × α)) (e : Bool × α → TraceEvent)
    (hread : ∀ s Q, (∀ r, Q [e r] r s) → read.wp Q s) (zero : α) (a : UInt32) :
    Reads (fun v t => t = effects [e (true, v)]) (reading zero read a) := by
  intro s hs
  rw [reading, wp_bind]
  refine wp_mono (does_check s hs) fun t ok s₁ h => ?_
  cases ok with
  | false =>
      rw [if_neg nofun, wp_pure, List.append_nil]
      exact ⟨h.same, nofun, h.failed⟩
  | true =>
      rcases h.succeeded rfl with ⟨hgoing, hquiet⟩
      rw [if_pos rfl, counted, wp_modify_bind, wp_bind]
      apply hread
      rintro ⟨ok, v⟩
      rw [wp_bind]
      refine wp_mono (does_confirm ok a 0 _ ⟨hgoing.faulted, hgoing.error⟩) fun t' passed s' h' => ?_
      rw [wp_pure, List.append_nil]
      refine Ends.after h.same hquiet ?_
      refine ⟨(same_counted s₁).trans h'.same, fun hpassed => ?_, fun hpassed => ?_⟩
      · rcases h'.succeeded hpassed with ⟨hgoing', hok, hquiet'⟩
        subst hok
        rw [effects_append, hquiet', List.append_nil]
        exact ⟨hgoing', rfl⟩
      · rcases h'.failed hpassed with hfault | ⟨hstale, -⟩
        · exact Or.inl hfault
        · exact Bool.noConfusion hstale

theorem reads_read8 (a : UInt32) :
    Reads (fun v t => t = effects [.call (.read8 a) (true, v)]) (read8 a) :=
  reads_reading (Code.ask (Call.read8 a)) (fun r => .call (.read8 a) r) (fun _ _ h => (wp_ask _).2 h) 0 a

theorem reads_read16 (a : UInt32) :
    Reads (fun v t => t = [.call (.read16 a) (true, v)]) (read16 a) :=
  reads_reading (Code.ask (Call.read16 a)) (fun r => .call (.read16 a) r) (fun _ _ h => (wp_ask _).2 h) 0 a

theorem reads_read32 (a : UInt32) : Reads (fun _ t => t = []) (read32 a) :=
  reads_reading (Code.ask (Call.read32 a)) (fun r => .call (.read32 a) r) (fun _ _ h => (wp_ask _).2 h) 0 a

theorem does_writing (write : Gated Bool) (e : Bool → TraceEvent)
    (hwrite : ∀ s Q, (∀ r, Q [e r] r s) → write.wp Q s) (he : ∀ r, relevant (e r) = true)
    (a v : UInt32) : Does false (· = [e true]) (writing write a v) := by
  have hrest : Does false (· = [e true]) (do
      counted
      let ok ← write
      Code.both (if ok then pure true else fail .io a v) check) := by
    intro s hs
    rw [counted, wp_modify_bind, wp_bind]
    apply hwrite
    intro ok
    refine wp_mono (does_confirm ok a v _ ⟨hs.faulted, hs.error⟩) fun t passed s' h => ?_
    refine ⟨(same_counted s).trans h.same, fun hpassed => ?_, fun hpassed => ?_⟩
    · rcases h.succeeded hpassed with ⟨hgoing, hok, hquiet⟩
      subst hok
      rw [effects_append, hquiet, effects_cons (he true), effects_nil, List.append_nil]
      exact ⟨hgoing, rfl⟩
    · rcases h.failed hpassed with hfault | ⟨hstale, -⟩
      · exact Or.inl hfault
      · exact Bool.noConfusion hstale
  exact does_check.quiet_both hrest

theorem does_write8 (a : UInt32) (v : UInt8) :
    Does false (· = [.call (.write8 a v) true]) (write8 a v) :=
  does_writing (Code.ask (Call.write8 a v)) (fun r => .call (.write8 a v) r)
    (fun _ _ h => (wp_ask _).2 h) (fun _ => rfl) a v.toUInt32

theorem does_write32 (a v : UInt32) : Does false (· = [.call (.write32 a v) true]) (write32 a v) :=
  does_writing (Code.ask (Call.write32 a v)) (fun r => .call (.write32 a v) r)
    (fun _ _ h => (wp_ask _).2 h) (fun _ => rfl) a v

theorem does_delay (us : ℕ) : Does false (· = []) (delay us) := by
  apply does_check.quiet_both
  apply does_ask (c := .delayUs us) fun _ => rfl
  intro ok
  exact does_ite (fun _ => does_true rfl) fun _ => does_fail nofun

/-! ## Exchanges -/

theorem does_waitFrom {address : UInt32} (haddress : address ≠ hostCounters) (wanted : UInt8)
    (step timeout : ℕ) (start : UInt64) :
    ∀ rounds, Does false (· = []) (waitFrom address wanted step timeout start rounds) := by
  intro rounds
  induction rounds with
  | zero => exact does_fail nofun
  | succ rounds ih =>
      have hround : ∀ v : UInt8, Does false (· = []) (do
          modify fun s => { s with result := { s.result with polls := s.result.polls + 1 } }
          let s ← get
          if 1 < v then
            fail .io address v.toUInt32
          else if s.previous < start then
            fail .clock address 0
          else if UInt64.ofNat timeout < s.previous - start then
            fail .timeout address 0
          else if v = wanted then
            return true
          else if s.previous - start = UInt64.ofNat timeout then
            fail .timeout address 0
          else
            Code.both (delay step) (waitFrom address wanted step timeout start rounds)) := by
        intro v
        refine does_modify (does_get fun s => ?_) (fun s => ⟨rfl, rfl, rfl⟩) fun s hs => ⟨hs.faulted, hs.error⟩
        refine does_ite (fun _ => does_fail nofun) fun _ => ?_
        refine does_ite (fun _ => does_fail nofun) fun _ => ?_
        refine does_ite (fun _ => does_fail nofun) fun _ => ?_
        refine does_ite (fun _ => does_true rfl) fun _ => ?_
        refine does_ite (fun _ => does_fail nofun) fun _ => ?_
        exact (does_delay step).quiet_both ih
      refine ((reads_read8 address).bind hround nofun).mono ?_
      rintro t ⟨v, l, l', rfl, rfl, rfl⟩
      rw [effects_quiet (by simpa [relevant] using haddress)]
      rfl

theorem does_waitControl (address : UInt32) (haddress : address ≠ hostCounters) (wanted : UInt8)
    (step timeout : ℕ) : Does false (· = []) (waitControl address wanted step timeout) :=
  does_ask (fun _ => rfl) fun start => does_waitFrom haddress wanted step timeout start _

/-- The counter byte was read, and one of its nibbles counted up. -/
def Counts (sending : Bool) (t : Trace) : Prop :=
  ∃ v, t = [.call (.read8 hostCounters) (true, v), .call (.write8 hostCounters (bump sending v)) true]

theorem does_incrementCounter (sending : Bool) : Does false (Counts sending) (incrementCounter sending) := by
  refine ((reads_read8 hostCounters).bind (fun v => does_write8 hostCounters (bump sending v)) nofun).mono ?_
  rintro t ⟨v, l, l', rfl, rfl, rfl⟩
  exact ⟨v, rfl⟩

theorem does_note {f : MailResult → MailResult} (hf : ∀ r, (f r).error = r.error) :
    Does false (· = []) (note f) := by
  refine does_modify (does_true rfl) (fun s => ⟨rfl, rfl, rfl⟩) fun s hs => ⟨hs.faulted, ?_⟩
  exact (hf s.result).trans hs.error

theorem does_captureWord (i : Fin 4) : Does false (· = []) (captureWord i) := by
  intro s hs
  rw [captureWord, wp_bind]
  refine wp_mono (reads_read32 (c2hData i) s hs) ?_
  rintro t ⟨ok, w⟩ s₁ h
  rw [wp_modify_bind, wp_pure, List.append_nil]
  refine ⟨h.same.trans ⟨rfl, rfl, rfl⟩, fun hok => ?_, fun hok => ?_⟩
  · rcases h.succeeded hok with ⟨hgoing, hquiet⟩
    exact ⟨⟨hgoing.faulted, hgoing.error⟩, hquiet⟩
  · rcases h.failed hok with hfault | ⟨hstale, -⟩
    · exact Or.inl ⟨hfault.faulted, hfault.error⟩
    · exact Bool.noConfusion hstale

theorem does_parseReply : Does false (· = []) parseReply := by
  refine does_get fun s => ?_
  refine does_modify ?_ (fun s => ⟨rfl, rfl, rfl⟩) fun s hs => ⟨hs.faulted, hs.error⟩
  refine does_ite (fun _ => does_fail nofun) fun _ => ?_
  exact does_modify does_check (fun s => ⟨rfl, rfl, rfl⟩) fun s hs => ⟨hs.faulted, hs.error⟩

/-- A reply was acknowledged, and counted. -/
def Receives (t : Trace) : Prop := ∃ l, t = .call (.write8 c2hControl 0) true :: l ∧ Counts false l

theorem does_receive : Does false Receives receive := by
  apply (does_waitControl c2hControl (by decide) 1 1 1000000).quiet_both
  apply (does_captureWord 0).quiet_both
  apply (does_captureWord 1).quiet_both
  apply (does_captureWord 2).quiet_both
  apply (does_captureWord 3).quiet_both
  apply (does_note (f := fun r => { r with replyCaptured := true }) fun _ => rfl).quiet_both
  have hcount : Does false (Counts false) (Code.both (incrementCounter false) (Code.every [parseReply])) :=
    (does_incrementCounter false).both_quiet (does_parseReply.both_quiet (does_true rfl))
  have hnoted := (does_note (f := fun r => { r with replyAcknowledged := true }) fun _ => rfl).quiet_both hcount
  refine ((does_write8 c2hControl 0).both hnoted nofun).mono ?_
  rintro t ⟨l, l', rfl, rfl, hl'⟩
  exact ⟨l', rfl, hl'⟩

theorem does_rejectStale (v : UInt8) : Does true (· = []) (rejectStale v) := by
  by_cases hv : v ≠ 1
  · rw [rejectStale, if_pos hv]
    intro s hs
    refine wp_fail nofun hs.not_stale fun s' hsame hfault => ?_
    exact ⟨hsame, nofun, fun _ => Or.inl hfault⟩
  · intro s hs
    rw [rejectStale, if_neg hv, wp_modify_bind, wp_pure]
    exact ⟨⟨rfl, rfl, rfl⟩, nofun, fun _ => Or.inr ⟨rfl, ⟨hs.faulted, rfl⟩, nofun⟩⟩

theorem does_checkStale : Does true (· = []) checkStale := by
  have hfound : ∀ v : UInt8, Does true (· = []) (if v ≠ 0 then rejectStale v else pure true) := fun v =>
    does_ite (fun _ => does_rejectStale v) fun _ => does_true rfl
  refine ((reads_read8 c2hControl).bind hfound ?_).mono ?_
  · rintro - v t rfl
    exact nofun
  · rintro t ⟨v, l, l', rfl, rfl, rfl⟩
    rfl

/-- The words of a request were written. -/
def Words (q : Request) : Trace :=
  [.call (.write32 (h2cData 0) (q.word 0)) true, .call (.write32 (h2cData 1) (q.word 1)) true,
    .call (.write32 (h2cData 2) (q.word 2)) true, .call (.write32 (h2cData 3) (q.word 3)) true]

/-- A request was written, counted and triggered, and a reply was received. -/
def Exchanges (q : Request) (t : Trace) : Prop :=
  ∃ l l', t = Words q ++ (l ++ .call (.write8 h2cControl 1) true :: l') ∧ Counts true l ∧ Receives l'

theorem does_checkFunction (expected : UInt8) : Does false (· = []) (checkFunction expected) :=
  does_get fun _ => does_ite (fun _ => does_fail nofun) fun _ => does_true rfl

/-- From the counter on nothing but a fault can end an exchange early. -/
theorem does_trigger (expected : UInt8) :
    Does false (fun t => ∃ l l', t = l ++ .call (.write8 h2cControl 1) true :: l' ∧ Counts true l ∧ Receives l')
      (Code.every [incrementCounter true, check, note fun r => { r with triggerAttempted := true },
        write8 h2cControl 1, receive, checkFunction expected]) := by
  have hreceive := does_receive.both_quiet ((does_checkFunction expected).both_quiet (does_true rfl))
  have hnoted := (does_note (f := fun r => { r with triggerAttempted := true }) fun _ => rfl).quiet_both
    ((does_write8 h2cControl 1).both hreceive nofun)
  refine ((does_incrementCounter true).both (does_check.quiet_both hnoted) nofun).mono ?_
  rintro t ⟨l, -, rfl, hl, -, l', rfl, rfl, hl'⟩
  exact ⟨l, l', rfl, hl, hl'⟩

theorem does_exchangeInner (q : Request) (expected : UInt8) :
    Does true (Exchanges q) (exchangeInner q expected) := by
  have hwords := (does_write32 (h2cData 0) (q.word 0)).both ((does_write32 (h2cData 1) (q.word 1)).both
    ((does_write32 (h2cData 2) (q.word 2)).both ((does_write32 (h2cData 3) (q.word 3)).both
    (does_trigger expected) nofun) nofun) nofun) nofun
  have hsent : Does false (Exchanges q) _ := hwords.mono fun t ht => by
    rcases ht with ⟨-, -, rfl, rfl, -, -, rfl, rfl, -, -, rfl, rfl, -, -, rfl, rfl, l, l', rfl, hl, hl'⟩
    exact ⟨l, l', rfl, hl, hl'⟩
  have hchecked := does_checkStale.both hsent nofun
  have hwait := (does_waitControl h2cControl (by decide) 0 1000 5000).quiet_both hchecked
  refine (does_checkStale.both hwait ?_).mono ?_
  · rintro - t rfl
    exact nofun
  · rintro t ⟨-, -, rfl, rfl, -, l', rfl, rfl, hl'⟩
    exact hl'

/-- A mask was sent and read back: the registers of the request with the mask in the first of them, its number, the
trigger, the reply, and the register of the scheduler. -/
def SetsMask (value : UInt16) (t : Trace) : Prop :=
  ∃ l l', t = [.call (.write32 0x8140 (value.toUInt32 <<< 16 ||| 0x205)) true, .call (.write32 0x8144 0xffff) true,
      .call (.write32 0x8148 0) true, .call (.write32 0x814c 0) true] ++
        (l ++ .call (.write8 0x8160 1) true :: l') ++ [.call (.read16 0xc348) (true, value)] ∧
    Counts true l ∧ Receives l'

section Scheduler

variable {q : Request}

theorem size_six (hq : q.contentBytes = 6) : q.size = 2 := by
  unfold Request.size
  rw [hq]
  decide

theorem word_head (hq : q.contentBytes = 6) :
    q.word 0 = ((q.words 0 &&& 0xffff0000 : UInt32) ||| q.function.toUInt32 ||| 0x200) := by
  unfold Request.word
  rw [size_six hq, hq]
  rfl

theorem word_full (hq : q.contentBytes = 6) : q.word 1 = q.words 1 := by
  unfold Request.word
  rw [size_six hq, hq]
  rfl

theorem word_zero (hq : q.contentBytes = 6) : q.word 2 = 0 ∧ q.word 3 = 0 := by
  unfold Request.word
  rw [size_six hq, hq]
  exact ⟨rfl, rfl⟩

theorem high_half (w : UInt32) : (w <<< 16 &&& 0xffff0000 : UInt32) = w <<< 16 := by
  apply UInt32.toBitVec_inj.1
  apply BitVec.eq_of_getElem_eq
  intro i hi
  simp
  interval_cases i <;> simp

theorem words_scheduler (value : UInt16) : Words (schedulerRequest value) =
    [.call (.write32 0x8140 (value.toUInt32 <<< 16 ||| 0x205)) true, .call (.write32 0x8144 0xffff) true,
      .call (.write32 0x8148 0) true, .call (.write32 0x814c 0) true] := by
  have hhead : (schedulerRequest value).word 0 = value.toUInt32 <<< 16 ||| 0x205 := by
    rw [word_head rfl]
    show (value.toUInt32 <<< 16 &&& 0xffff0000 : UInt32) ||| 5 ||| 0x200 = _
    rw [high_half, UInt32.or_assoc]
    rfl
  rw [Words, hhead, word_full rfl, (word_zero rfl).1, (word_zero rfl).2]
  rfl

theorem setsMask_iff {value : UInt16} {t : Trace} : SetsMask value t ↔
    ∃ l, t = l ++ [.call (.read16 schedulerTx) (true, value)] ∧ Exchanges (schedulerRequest value) l := by
  unfold Exchanges
  rw [words_scheduler]
  constructor
  · rintro ⟨l, l', rfl, hl, hl'⟩
    exact ⟨_, rfl, l, l', rfl, hl, hl'⟩
  · rintro ⟨-, rfl, l, l', rfl, hl, hl'⟩
    exact ⟨l, l', rfl, hl, hl'⟩

end Scheduler

theorem does_setScheduler (value : UInt16) : Does true (SetsMask value) (setScheduler value) := by
  have hcompare : ∀ actual : UInt16, Does false (fun t => actual = value ∧ t = []) (Code.both check
      (if actual = value then pure true else fail .readback schedulerTx actual.toUInt32)) := fun actual =>
    does_check.quiet_both (does_ite (fun h => does_true ⟨h, rfl⟩) fun _ => does_fail nofun)
  have hread := (reads_read16 schedulerTx).bind hcompare nofun
  refine ((does_exchangeInner (schedulerRequest value) schedulerReply).both hread nofun).mono ?_
  rintro t ⟨l, -, rfl, hl, actual, -, -, rfl, rfl, rfl, rfl⟩
  exact setsMask_iff.2 ⟨l, rfl, hl⟩

/-! ## Operations -/

/-- The operation is refused before anything is looked at. -/
def Op.refused (s : Mailbox) : Op → Bool
  | .exchange q expected => badRequest q expected
  | .receivePending => false
  | .setSchedulerMask _ => s.paused
  | .pauseScheduler => s.paused
  | .resumeScheduler => !s.paused

/-- What a successful operation did, and what it leaves. -/
def Op.Completes (s : Mailbox) (t : Trace) (s' : Mailbox) : Op → Prop
  | .exchange q _ => Exchanges q t ∧ s'.paused = s.paused ∧ s'.savedTx = s.savedTx
  | .receivePending => Receives t ∧ s'.paused = s.paused ∧ s'.savedTx = s.savedTx
  | .setSchedulerMask value => SetsMask value t ∧ s'.paused = s.paused ∧ s'.savedTx = s.savedTx
  | .pauseScheduler => ∃ old l, t = .call (.read16 schedulerTx) (true, old) :: l ∧ SetsMask 0 l ∧
      s'.paused = true ∧ s'.savedTx = old
  | .resumeScheduler => ∃ l, t = .call (.read16 schedulerTx) (true, 0) :: l ∧ SetsMask s.savedTx l ∧
      s'.paused = false

/-- The ways in which an operation of a mailbox that nobody else uses can go. -/
inductive Went (s : Mailbox) (op : Op) (t : Trace) : Bool → Mailbox → Prop
  | refused : op.refused s = true ∨ s.faulted = true → t = [] → Went s op t false s
  | succeeded {s' : Mailbox} : op.refused s = false → s.faulted = false → Going s' →
      op.Completes s (effects t) s' → s'.active = false → Went s op t true s'
  | failed {s' : Mailbox} : op.refused s = false → s.faulted = false →
      Faulted s' ∨ Stale s' ∧ Writeless t → s'.active = false → s'.paused = s.paused →
      s'.savedTx = s.savedTx → Went s op t false s'

theorem wp_start (hactive : s.active = false) (hfaulted : s.faulted = false) :
    start.wp (fun t ok s' => s'.paused = s.paused ∧ s'.savedTx = s.savedTx ∧
      (ok = true → Going s' ∧ effects t = []) ∧ (ok = false → Faulted s' ∧ s'.active = false)) s := by
  rw [start, wp_get_bind, if_neg (by simp [hactive]), if_neg (by simp [hfaulted]),
    wp_modify_bind, wp_bind]
  refine wp_mono (does_check _ ⟨hfaulted, rfl⟩) fun t ok s₁ h => ?_
  cases ok with
  | false =>
      rw [if_neg nofun, wp_pure]
      refine ⟨h.same.paused, h.same.savedTx, nofun, fun _ => ?_⟩
      rcases h.failed rfl with hfault | ⟨hstale, -⟩
      · exact ⟨hfault, h.same.active.trans hactive⟩
      · exact Bool.noConfusion hstale
  | true =>
      rcases h.succeeded rfl with ⟨hgoing, hquiet⟩
      rw [if_pos rfl, wp_modify_bind, wp_bind]
      refine wp_mono (reads_read32 firmwareControl _ ⟨hgoing.faulted, hgoing.error⟩) ?_
      rintro t' ⟨ok, fw⟩ s₂ h'
      rw [wp_ite]
      refine ⟨fun hbad => ?_, fun hgood => ?_⟩
      · -- The read failed, or firmware is not there: a fault in both cases.
        have hnot : s₂.result.error ≠ .staleReply := by
          cases ok with
          | true => exact (h'.succeeded rfl).1.not_stale
          | false =>
              rcases h'.failed rfl with hfault | ⟨hstale, -⟩
              · exact hfault.error
              · exact Bool.noConfusion hstale
        rw [wp_bind]
        refine wp_fail nofun hnot fun s' hsame hfault => ?_
        rw [release, wp_modify_bind, wp_pure]
        refine ⟨?_, ?_, nofun, fun _ => ⟨⟨hfault.faulted, hfault.error⟩, rfl⟩⟩
        · exact (hsame.paused.trans h'.same.paused).trans h.same.paused
        · exact (hsame.savedTx.trans h'.same.savedTx).trans h.same.savedTx
      · rw [wp_pure]
        refine ⟨h'.same.paused.trans h.same.paused, h'.same.savedTx.trans h.same.savedTx, fun _ => ?_, nofun⟩
        cases ok with
        | false => exact absurd rfl hgood
        | true =>
            rcases h'.succeeded rfl with ⟨hgoing', hquiet'⟩
            refine ⟨hgoing', ?_⟩
            rw [effects_append, effects_append, hquiet, hquiet']
            rfl

/-- An operation that is not refused: it fails to start, or goes on from a state where nothing has failed. -/
theorem wp_guarded (hactive : s.active = false) (hfaulted : s.faulted = false)
    (hstart : ∀ t s', Faulted s' → s'.active = false → s'.paused = s.paused → s'.savedTx = s.savedTx → Q t false s')
    (hm : ∀ t s₁, effects t = [] → Going s₁ → s₁.paused = s.paused → s₁.savedTx = s.savedTx →
      m.wp (fun t' ok s' => Q (t ++ t') ok { s' with active := false }) s₁) :
    (guarded m).wp Q s := by
  rw [guarded, wp_bind]
  refine wp_mono (wp_start hactive hfaulted) ?_
  rintro t ok s₁ ⟨hpaused, hsaved, hsucceeded, hfailed⟩
  cases ok with
  | false =>
      rw [if_neg nofun, wp_pure, List.append_nil]
      exact hstart t s₁ (hfailed rfl).1 (hfailed rfl).2 hpaused hsaved
  | true =>
      rw [if_pos rfl, wp_bind]
      refine wp_mono (hm t s₁ (hsucceeded rfl).2 (hsucceeded rfl).1 hpaused hsaved) ?_
      intro t' ok' s' hQ
      rw [release, wp_modify_bind, wp_pure, List.append_nil]
      exact hQ

theorem wp_guarded_faulted (hactive : s.active = false) (hfaulted : s.faulted = true) (h : Q [] false s) :
    (guarded m).wp Q s := by
  rw [guarded, wp_bind, start, wp_get_bind, if_neg (by simp [hactive]), if_pos hfaulted,
    wp_pure, if_neg nofun, wp_pure]
  exact h

/-- How the guarded part of an operation can end. -/
structure Inner (s : Mailbox) (op : Op) (t : Trace) (ok : Bool) (s' : Mailbox) : Prop where
  succeeded : ok = true → Going s' ∧ op.Completes s (effects t) { s' with active := false }
  failed : ok = false → (Faulted s' ∨ Stale s' ∧ Writeless (effects t)) ∧
    s'.paused = s.paused ∧ s'.savedTx = s.savedTx

theorem went_guarded {op : Op} (hactive : s.active = false) (hrefused : op.refused s = false)
    (hm : ∀ s₁, Going s₁ → s₁.paused = s.paused → s₁.savedTx = s.savedTx → m.wp (Inner s op) s₁) :
    (guarded m).wp (Went s op) s := by
  cases hfaulted : s.faulted with
  | true => exact wp_guarded_faulted hactive hfaulted (.refused (Or.inr hfaulted) rfl)
  | false =>
      refine wp_guarded hactive hfaulted (fun t s' hfault ha hp hs => ?_) fun t s₁ ht hgoing hp hs => ?_
      · exact .failed hrefused hfaulted (Or.inl hfault) ha hp hs
      · refine wp_mono (hm s₁ hgoing hp hs) fun t' ok s' h => ?_
        cases ok with
        | true =>
            rcases h.succeeded rfl with ⟨hgoing', hcompletes⟩
            refine .succeeded hrefused hfaulted ⟨hgoing'.faulted, hgoing'.error⟩ ?_ rfl
            rw [effects_append, ht]
            exact hcompletes
        | false =>
            rcases h.failed rfl with ⟨hend, hpaused, hsaved⟩
            refine .failed hrefused hfaulted ?_ rfl hpaused hsaved
            rcases hend with hfault | ⟨hstale, hw⟩
            · exact Or.inl ⟨hfault.faulted, hfault.error⟩
            · refine Or.inr ⟨⟨hstale.faulted, hstale.error⟩, writeless_of_effects ?_⟩
              rw [effects_append, ht]
              exact hw

theorem Does.inner {op : Op} (hm : Does stale E m)
    (hE : ∀ t s', E t → s'.paused = s.paused → s'.savedTx = s.savedTx → op.Completes s t s') :
    ∀ s₁, Going s₁ → s₁.paused = s.paused → s₁.savedTx = s.savedTx → m.wp (Inner s op) s₁ := by
  intro s₁ hgoing hp hs
  refine wp_mono (hm s₁ hgoing) fun t ok s' h => ⟨fun hok => ?_, fun hok => ?_⟩
  · rcases h.succeeded hok with ⟨hgoing', hE'⟩
    exact ⟨hgoing', hE _ _ hE' (h.same.paused.trans hp) (h.same.savedTx.trans hs)⟩
  · refine ⟨?_, h.same.paused.trans hp, h.same.savedTx.trans hs⟩
    rcases h.failed hok with hfault | ⟨-, hstale, hw⟩
    · exact Or.inl hfault
    · exact Or.inr ⟨hstale, hw⟩

/-- An operation that begins with the mask, sets one, and then changes what lasts. -/
theorem inner_setScheduler {op : Op} {value : UInt16} {g : Mailbox → Mailbox} {t : Trace} (hgoing : Going s₁)
    (hp : s₁.paused = s.paused) (hs : s₁.savedTx = s.savedTx) (ht : Writeless (effects t))
    (hg : ∀ s', Going s' → Going (g s'))
    (hdone : ∀ t' s', SetsMask value t' → s'.paused = s.paused → s'.savedTx = s.savedTx →
      op.Completes s (effects t ++ t') { g s' with active := false }) :
    (Code.both (setScheduler value) do
      modify g
      return true).wp (fun t' ok s' => Inner s op (t ++ t') ok s') s₁ := by
  rw [Code.wp_both]
  refine wp_mono (does_setScheduler value s₁ hgoing) fun t' ok s' h => ⟨fun hok => ?_, fun hok => ?_⟩
  · rcases h.succeeded hok with ⟨hgoing', hset⟩
    rw [wp_modify_bind, wp_pure, List.append_nil]
    refine ⟨fun _ => ⟨hg s' hgoing', ?_⟩, nofun⟩
    rw [effects_append]
    exact hdone _ _ hset (h.same.paused.trans hp) (h.same.savedTx.trans hs)
  · refine ⟨nofun, fun _ => ⟨?_, h.same.paused.trans hp, h.same.savedTx.trans hs⟩⟩
    rcases h.failed hok with hfault | ⟨-, hstale, hw⟩
    · exact Or.inl hfault
    · rw [effects_append]
      exact Or.inr ⟨hstale, writeless_append ht hw⟩

theorem inner_readScheduler {op : Op} {accept : UInt16 → Gated Bool} (hgoing : Going s₁) (hp : s₁.paused = s.paused)
    (hs : s₁.savedTx = s.savedTx)
    (haccept : ∀ v t s₂, effects t = [.call (.read16 schedulerTx) (true, v)] → Going s₂ →
      s₂.paused = s.paused → s₂.savedTx = s.savedTx →
      (accept v).wp (fun t' ok s' => Inner s op (t ++ t') ok s') s₂) :
    (readScheduler accept).wp (Inner s op) s₁ := by
  rw [readScheduler, wp_bind]
  refine wp_mono (reads_read16 schedulerTx s₁ hgoing) ?_
  rintro t ⟨ok, v⟩ s₂ h
  have hpaused := h.same.paused.trans hp
  have hsaved := h.same.savedTx.trans hs
  cases ok with
  | true =>
      rcases h.succeeded rfl with ⟨hgoing', ht⟩
      exact haccept v t s₂ ht hgoing' hpaused hsaved
  | false =>
      show (pure false : Gated Bool).wp _ s₂
      rw [wp_pure, List.append_nil]
      refine ⟨nofun, fun _ => ⟨?_, hpaused, hsaved⟩⟩
      rcases h.failed rfl with hfault | ⟨hstale, -⟩
      · exact Or.inl hfault
      · exact Bool.noConfusion hstale

theorem writeless_read16 (v : UInt16) : Writeless [.call (.read16 schedulerTx) (true, v)] := by
  intro e he
  rw [List.mem_singleton.1 he]
  rfl

theorem went_pauseScheduler (hactive : s.active = false) :
    pauseScheduler.wp (Went s .pauseScheduler) s := by
  rw [pauseScheduler, wp_get_bind, wp_ite]
  refine ⟨fun hpaused => ?_, fun hpaused => ?_⟩
  · exact (wp_pure false).2 (.refused (Or.inl hpaused) rfl)
  · refine went_guarded hactive (by simpa [Op.refused] using hpaused) fun s₁ hgoing hp hs => ?_
    refine inner_readScheduler hgoing hp hs fun old t s₂ ht hgoing' hp' hs' => ?_
    refine inner_setScheduler hgoing' hp' hs' (ht ▸ writeless_read16 old)
      (fun s' h => ⟨h.faulted, h.error⟩) fun t' s' hset _ _ => ?_
    rw [ht]
    exact ⟨old, t', rfl, hset, rfl, rfl⟩

theorem went_resumeScheduler (hactive : s.active = false) :
    resumeScheduler.wp (Went s .resumeScheduler) s := by
  rw [resumeScheduler, wp_get_bind, wp_ite]
  refine ⟨fun hpaused => ?_, fun hpaused => ?_⟩
  · exact (wp_pure false).2 (.refused (Or.inl hpaused) rfl)
  · refine went_guarded hactive (by simpa [Op.refused] using hpaused) fun s₁ hgoing hp hs => ?_
    refine inner_readScheduler hgoing hp hs fun current t s₂ ht hgoing' hp' hs' => ?_
    rw [wp_ite]
    refine ⟨fun _ => ?_, fun hzero => ?_⟩
    · refine wp_fail nofun hgoing'.not_stale fun s' hsame hfault => ?_
      exact ⟨nofun, fun _ => ⟨Or.inl hfault, hsame.paused.trans hp', hsame.savedTx.trans hs'⟩⟩
    · rw [wp_get_bind, hs']
      refine inner_setScheduler hgoing' hp' hs' (ht ▸ writeless_read16 current)
        (fun s' h => ⟨h.faulted, h.error⟩) fun t' s' hset _ _ => ?_
      rw [ht, not_ne_iff.1 hzero]
      exact ⟨t', rfl, hset, rfl⟩

/-- What every operation of a mailbox that nobody else uses does. -/
theorem exec_went (hactive : s.active = false) (op : Op) :
    (exec op).wp (Went s op) s := by
  cases op with
  | exchange q expected =>
      rw [exec, exchange, wp_ite]
      refine ⟨fun hbad => ?_, fun hgood => ?_⟩
      · exact (wp_pure false).2 (.refused (Or.inl hbad) rfl)
      · refine went_guarded hactive (by simpa [Op.refused] using hgood) ?_
        exact (does_exchangeInner q expected).inner fun t s' ht hp hs => ⟨ht, hp, hs⟩
  | receivePending =>
      refine went_guarded hactive rfl ?_
      exact does_receive.inner fun t s' ht hp hs => ⟨ht, hp, hs⟩
  | setSchedulerMask value =>
      rw [exec, setSchedulerMask, wp_get_bind, wp_ite]
      refine ⟨fun hpaused => ?_, fun hpaused => ?_⟩
      · exact (wp_pure false).2 (.refused (Or.inl hpaused) rfl)
      · refine went_guarded hactive (by simpa [Op.refused] using hpaused) ?_
        exact (does_setScheduler value).inner fun t s' ht hp hs => ⟨ht, hp, hs⟩
  | pauseScheduler => exact went_pauseScheduler hactive
  | resumeScheduler => exact went_resumeScheduler hactive

end Mail
end Rtl8852be
