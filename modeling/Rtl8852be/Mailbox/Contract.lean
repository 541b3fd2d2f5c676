import Rtl8852be.Mailbox.Operations

/-!
# Contract — the mailbox over whole runs

What holds of a mailbox after any sequence of operations, whatever the device answers:

* a pause is matched with the resume that ends it, and the resume restores the mask that the pause read;
* a failed operation leaves a fault, unless an old reply was found before anything was written;
* if the counter byte behaves as memory, its nibbles count the requests and the replies;
* no operation makes more than a fixed number of register accesses.
-/

namespace Rtl8852be
namespace Mail

open Interaction

/-! ## Register accesses -/

/-- A register access weighs one, everything else nothing. -/
def access : TraceEvent → ℕ
  | .call (.read8 _) _ => 1
  | .call (.read16 _) _ => 1
  | .call (.read32 _) _ => 1
  | .call (.write8 _ _) _ => 1
  | .call (.write32 _ _) _ => 1
  | _ => 0

section Costs

open Code

theorem spends_fail (e : MailError) (a v : UInt32) : Spends access 0 (fail e a v) :=
  Spends.modify_bind (Spends.pure false)

theorem spends_check : Spends access 0 check := by
  refine Spends.get_bind fun s => Spends.ite (Spends.pure false) ?_
  refine Spends.ask_free (fun _ => rfl) fun inGate => Spends.ite ?_ (spends_fail _ _ _)
  refine Spends.ask_free (fun _ => rfl) fun _ => Spends.ite (spends_fail _ _ _) ?_
  refine Spends.ask_free (fun _ => rfl) fun _ => Spends.modify_bind (Spends.get_bind fun _ => ?_)
  refine Spends.ite (spends_fail _ _ _) (Spends.modify_bind ?_)
  exact Spends.ite (spends_fail _ _ _) (Spends.pure true)

theorem spends_confirm (ok : Bool) (a v : UInt32) :
    Spends access 0 (both (if ok then pure true else fail .io a v) check) :=
  Spends.both (Spends.ite (Spends.pure true) (spends_fail _ _ _)) spends_check

theorem spends_reading {α : Type} {zero : α} {read : Gated (Bool × α)} (hread : Spends access 1 read)
    (a : UInt32) : Spends access 1 (reading zero read a) := by
  have hconfirmed : Spends access (1 + (0 + 0)) (read >>= fun r => both (if r.1 then pure true else fail .io a 0)
      check >>= fun passed => pure (passed, r.2)) :=
    Spends.bind hread fun r => Spends.bind (spends_confirm r.1 a 0) fun _ => Spends.pure _
  have hrest : Spends access (0 + 1) (counted >>= fun _ => _) :=
    Spends.bind (Spends.modify _) fun _ => hconfirmed
  exact Spends.bind spends_check fun _ => Spends.ite hrest (Spends.pure _)

theorem spends_ask {c : Call} (hc : ∀ r, access (.call c r) ≤ 1) :
    Spends access 1 (Code.ask c : Gated (Reply c)) := by
  intro s
  rw [wp_ask]
  intro r
  simpa using hc r

theorem spends_read8 (a : UInt32) : Spends access 1 (read8 a) :=
  spends_reading (spends_ask fun _ => le_rfl) a

theorem spends_read16 (a : UInt32) : Spends access 1 (read16 a) :=
  spends_reading (spends_ask fun _ => le_rfl) a

theorem spends_read32 (a : UInt32) : Spends access 1 (read32 a) :=
  spends_reading (spends_ask fun _ => le_rfl) a

theorem spends_writing {write : Gated Bool} (hwrite : Spends access 1 write) (a v : UInt32) :
    Spends access 1 (writing write a v) := by
  have hconfirmed : Spends access (1 + 0) (write >>= fun ok => both (if ok then pure true else fail .io a v) check) :=
    Spends.bind hwrite fun ok => spends_confirm ok a v
  have hrest : Spends access (0 + 1) (counted >>= fun _ => _) :=
    Spends.bind (Spends.modify _) fun _ => hconfirmed
  exact Spends.both spends_check hrest

theorem spends_write8 (a : UInt32) (v : UInt8) : Spends access 1 (write8 a v) :=
  spends_writing (spends_ask fun _ => le_rfl) a _

theorem spends_write32 (a v : UInt32) : Spends access 1 (write32 a v) :=
  spends_writing (spends_ask fun _ => le_rfl) a v

theorem spends_delay (us : ℕ) : Spends access 0 (delay us) :=
  Spends.both spends_check <| Spends.ask_free (fun _ => rfl) fun _ =>
    Spends.ite (Spends.pure true) (spends_fail _ _ _)

theorem spends_waitFrom (address : UInt32) (wanted : UInt8) (step timeout : ℕ) (start : UInt64) :
    ∀ rounds, Spends access rounds (waitFrom address wanted step timeout start rounds) := by
  intro rounds
  induction rounds with
  | zero => exact spends_fail _ _ _
  | succ rounds ih =>
      have hnext : Spends access rounds (both (delay step) (waitFrom address wanted step timeout start rounds)) := by
        have h := (spends_delay step).both ih
        rwa [Nat.zero_add] at h
      have hfail : ∀ e v, Spends access rounds (fail e address v) := fun e v =>
        (spends_fail e address v).mono (Nat.zero_le rounds)
      refine (Spends.bind (spends_read8 address) ?_).mono (Nat.add_comm 1 rounds).le
      rintro ⟨ok, v⟩
      refine Spends.ite (Spends.modify_bind (Spends.get_bind fun s => ?_)) (Spends.pure false)
      exact Spends.ite (hfail _ _) (Spends.ite (hfail _ _) (Spends.ite (hfail _ _)
        (Spends.ite (Spends.pure true) (Spends.ite (hfail _ _) hnext))))

theorem spends_waitControl (address : UInt32) (wanted : UInt8) (step timeout : ℕ) :
    Spends access (timeout / step + 1) (waitControl address wanted step timeout) :=
  Spends.ask_free (fun _ => rfl) fun start => spends_waitFrom address wanted step timeout start _

theorem spends_incrementCounter (sending : Bool) : Spends access (1 + 1) (incrementCounter sending) :=
  Spends.bind (spends_read8 _) fun _ => Spends.ite (spends_write8 _ _) (Spends.pure false)

theorem spends_captureWord (i : Fin 4) : Spends access (1 + 0) (captureWord i) :=
  Spends.bind (spends_read32 _) fun _ => Spends.modify_bind (Spends.pure _)

theorem spends_note (f : MailResult → MailResult) : Spends access 0 (note f) :=
  Spends.modify_bind (Spends.pure true)

theorem spends_parseReply : Spends access 0 parseReply :=
  Spends.get_bind fun _ => Spends.modify_bind <| Spends.ite (spends_fail _ _ _) (Spends.modify_bind spends_check)

theorem spends_receive : Spends access 1000008 receive :=
  Spends.mono (Spends.both (spends_waitControl _ _ _ _) (Spends.both (spends_captureWord 0)
    (Spends.both (spends_captureWord 1) (Spends.both (spends_captureWord 2)
    (Spends.both (spends_captureWord 3) (Spends.both (spends_note _) (Spends.both (spends_write8 _ _)
    (Spends.both (spends_note _) (Spends.both (spends_incrementCounter false)
    (Spends.both spends_parseReply (Spends.pure true (n := 0)))))))))))) (by norm_num)

theorem spends_checkStale : Spends access (1 + 0) checkStale :=
  Spends.bind (spends_read8 _) fun _ => Spends.ite (Spends.ite
    (Spends.ite (spends_fail _ _ _) (Spends.modify_bind (Spends.pure false))) (Spends.pure true)) (Spends.pure false)

theorem spends_checkFunction (expected : UInt8) : Spends access 0 (checkFunction expected) :=
  Spends.get_bind fun _ => Spends.ite (spends_fail _ _ _) (Spends.pure true)

theorem spends_exchangeInner (q : Request) (expected : UInt8) :
    Spends access 1000023 (exchangeInner q expected) :=
  Spends.mono (Spends.both spends_checkStale (Spends.both (spends_waitControl _ _ _ _)
    (Spends.both spends_checkStale (Spends.both (spends_write32 _ _) (Spends.both (spends_write32 _ _)
    (Spends.both (spends_write32 _ _) (Spends.both (spends_write32 _ _)
    (Spends.both (spends_incrementCounter true) (Spends.both spends_check (Spends.both (spends_note _)
    (Spends.both (spends_write8 _ _) (Spends.both spends_receive (Spends.both (spends_checkFunction expected)
    (Spends.pure true (n := 0))))))))))))))) (by norm_num)

theorem spends_readScheduler {n : ℕ} {accept : UInt16 → Gated Bool} (h : ∀ v, Spends access n (accept v)) :
    Spends access (1 + n) (readScheduler accept) :=
  Spends.bind (spends_read16 _) fun _ => Spends.ite (h _) (Spends.pure false)

theorem spends_setScheduler (value : UInt16) : Spends access 1000024 (setScheduler value) :=
  Spends.mono (Spends.both (spends_exchangeInner _ _) (spends_readScheduler fun _ =>
    Spends.both spends_check (Spends.ite (Spends.pure true) (spends_fail _ _ _)))) (by norm_num)

theorem spends_start : Spends access (0 + (1 + (0 + 0))) start := by
  refine Spends.get_bind fun s => Spends.ite ((spends_fail _ _ _).mono (Nat.zero_le _)) ?_
  refine Spends.ite (Spends.pure false) (Spends.modify_bind (Spends.bind spends_check fun _ => ?_))
  refine Spends.ite (Spends.modify_bind (Spends.bind (spends_read32 _) fun _ => ?_)) (Spends.pure false)
  exact Spends.ite (Spends.bind (spends_fail _ _ _) fun _ => Spends.modify_bind (Spends.pure false)) (Spends.pure true)

theorem spends_guarded {n : ℕ} {m : Gated Bool} (hm : Spends access n m) :
    Spends access (1 + n) (guarded m) := by
  have hrest : Spends access (n + 0) (m >>= fun ok => release >>= fun _ => pure ok) :=
    Spends.bind hm fun ok => Spends.modify_bind (Spends.pure ok)
  exact Spends.bind spends_start fun _ => Spends.ite hrest (Spends.pure false)

theorem spends_commit (value : UInt16) (g : Mailbox → Mailbox) :
    Spends access (1000024 + 0) (both (setScheduler value) do
      modify g
      return true) :=
  Spends.both (spends_setScheduler value) (Spends.modify_bind (Spends.pure true))

/-- The most that an operation can cost: a pause, or its end. -/
theorem spends_exec (op : Op) : Spends access 1000026 (exec op) := by
  cases op with
  | exchange q expected =>
      refine Spends.ite (Spends.pure false) ?_
      exact (spends_guarded (spends_exchangeInner q expected)).mono (by norm_num)
  | receivePending => exact (spends_guarded spends_receive).mono (by norm_num)
  | setSchedulerMask value =>
      refine Spends.get_bind fun _ => Spends.ite (Spends.pure false) ?_
      exact (spends_guarded (spends_setScheduler value)).mono (by norm_num)
  | pauseScheduler =>
      refine Spends.get_bind fun _ => Spends.ite (Spends.pure false) ?_
      exact spends_guarded (spends_readScheduler fun _ => spends_commit 0 _)
  | resumeScheduler =>
      refine Spends.get_bind fun _ => Spends.ite (Spends.pure false) ?_
      exact spends_guarded (spends_readScheduler fun _ =>
        Spends.ite ((spends_fail _ _ _).mono (Nat.zero_le _)) (Spends.get_bind fun _ => spends_commit _ _))

end Costs

/-! ## The counter byte -/

def lowNibble (v : UInt8) : ℕ := v.toNat % 16

def highNibble (v : UInt8) : ℕ := v.toNat / 16

/-- The byte at `hostCounters` behaves as memory that nobody else writes: `v` before `t`, `v'` after it.
Nothing is asked of accesses that fail. -/
def Remembers : UInt8 → Trace → UInt8 → Prop
  | v, [], v' => v' = v
  | v, .call (.read8 a) r :: t, v' => (a = hostCounters → r.1 = true → r.2 = v) ∧ Remembers v t v'
  | v, .call (.write8 a x) ok :: t, v' =>
      if a = hostCounters then ∃ y, (ok = true → y = x) ∧ Remembers y t v' else Remembers v t v'
  | v, _ :: t, v' => Remembers v t v'

def isTrigger : TraceEvent → Bool
  | .call (.write8 a v) ok => a == h2cControl && v == 1 && ok
  | _ => false

def isAcknowledgement : TraceEvent → Bool
  | .call (.write8 a v) ok => a == c2hControl && v == 0 && ok
  | _ => false

/-- The nibbles have counted what happened. -/
structure Advances (v : UInt8) (t : Trace) (v' : UInt8) : Prop where
  low : lowNibble v' = (lowNibble v + t.countP isTrigger) % 16
  high : highNibble v' = (highNibble v + t.countP isAcknowledgement) % 16

theorem bump_nibbles : ∀ i : Fin 256,
    (lowNibble (bump true (UInt8.ofFin i)) = (lowNibble (UInt8.ofFin i) + 1) % 16 ∧
      highNibble (bump true (UInt8.ofFin i)) = highNibble (UInt8.ofFin i)) ∧
    (highNibble (bump false (UInt8.ofFin i)) = (highNibble (UInt8.ofFin i) + 1) % 16 ∧
      lowNibble (bump false (UInt8.ofFin i)) = lowNibble (UInt8.ofFin i)) := by
  decide +kernel

theorem highNibble_lt (v : UInt8) : highNibble v < 16 := by
  have h := v.toNat_lt
  unfold highNibble
  omega

variable {v v' : UInt8} {t : Trace}

theorem remembers_append {t' : Trace} :
    Remembers v (t ++ t') v' → ∃ u, Remembers v t u ∧ Remembers u t' v' := by
  induction t generalizing v with
  | nil =>
      intro h
      exact ⟨v, rfl, h⟩
  | cons e t ih =>
      rcases e with ⟨c, r⟩ | n
      · cases c with
        | read8 a =>
            rintro ⟨hr, h⟩
            rcases ih h with ⟨u, hu, hu'⟩
            exact ⟨u, ⟨hr, hu⟩, hu'⟩
        | write8 a x =>
            intro h
            rw [List.cons_append, Remembers] at h
            by_cases ha : a = hostCounters
            · rw [if_pos ha] at h
              rcases h with ⟨y, hy, h⟩
              rcases ih h with ⟨u, hu, hu'⟩
              refine ⟨u, ?_, hu'⟩
              rw [Remembers, if_pos ha]
              exact ⟨y, hy, hu⟩
            · rw [if_neg ha] at h
              rcases ih h with ⟨u, hu, hu'⟩
              refine ⟨u, ?_, hu'⟩
              rw [Remembers, if_neg ha]
              exact hu
        | inGate | cancelled | nowUs | read16 | read32 | write32 | delayUs => exact ih
      · exact n.elim

theorem remembers_effects : Remembers v t v' → Remembers v (effects t) v' := by
  induction t generalizing v with
  | nil => exact id
  | cons e t ih =>
      rcases e with ⟨c, r⟩ | n
      · cases c with
        | read8 a =>
            rintro ⟨hr, h⟩
            by_cases ha : a = hostCounters
            · rw [effects_cons (by simp [relevant, ha])]
              exact ⟨hr, ih h⟩
            · rw [effects_quiet (by simp [relevant, ha])]
              exact ih h
        | write8 a x =>
            rw [effects_cons rfl, Remembers, Remembers]
            by_cases ha : a = hostCounters
            · rw [if_pos ha, if_pos ha]
              rintro ⟨y, hy, h⟩
              exact ⟨y, hy, ih h⟩
            · rw [if_neg ha, if_neg ha]
              exact ih
        | inGate | cancelled | nowUs | read32 | delayUs => exact ih
        | read16 | write32 => exact ih
      · exact n.elim

theorem not_counted {e : TraceEvent} (he : isWrite e = false) : isTrigger e = false ∧ isAcknowledgement e = false := by
  rcases e with ⟨c, r⟩ | n
  · cases c with
    | write8 => exact Bool.noConfusion he
    | inGate | cancelled | nowUs | read8 | read16 | read32 | write32 | delayUs => exact ⟨rfl, rfl⟩
  · exact n.elim

theorem countP_effects {p : TraceEvent → Bool} (hp : ∀ e, p e = true → relevant e = true) (t : Trace) :
    (effects t).countP p = t.countP p := by
  rw [effects, List.countP_filter]
  refine List.countP_congr fun e _ => ?_
  rw [Bool.and_eq_true]
  exact ⟨And.left, fun h => ⟨h, hp e h⟩⟩

theorem Advances.append {u : UInt8} {t' : Trace} (h : Advances v t u) (h' : Advances u t' v') :
    Advances v (t ++ t') v' where
  low := by
    rw [h'.low, h.low, List.countP_append, Nat.mod_add_mod, Nat.add_assoc]
  high := by
    rw [h'.high, h.high, List.countP_append, Nat.mod_add_mod, Nat.add_assoc]

theorem Advances.of_effects (h : Advances v (effects t) v') : Advances v t v' where
  low := by
    rw [h.low, countP_effects fun e he => ?_]
    by_contra hquiet
    have hwrite : isWrite e = false := by
      by_contra hwrite
      exact hquiet (relevant_of_isWrite (Bool.not_eq_false _ ▸ hwrite))
    exact Bool.noConfusion ((not_counted hwrite).1 ▸ he)
  high := by
    rw [h.high, countP_effects fun e he => ?_]
    by_contra hquiet
    have hwrite : isWrite e = false := by
      by_contra hwrite
      exact hquiet (relevant_of_isWrite (Bool.not_eq_false _ ▸ hwrite))
    exact Bool.noConfusion ((not_counted hwrite).2 ▸ he)

theorem advances_uncounted (htrigger : t.countP isTrigger = 0) (hacknowledgement : t.countP isAcknowledgement = 0) :
    Advances v t v where
  low := by
    rw [htrigger]
    exact (Nat.mod_mod _ _).symm
  high := by
    rw [hacknowledgement]
    exact (Nat.mod_eq_of_lt (highNibble_lt v)).symm

theorem remembers_writeless (hw : Writeless t) : Remembers v t v' → v' = v := by
  induction t generalizing v with
  | nil => exact id
  | cons e t ih =>
      have hrest : Remembers v t v' → v' = v := ih fun e' he' => hw e' (List.mem_cons_of_mem e he')
      have hwrite := hw e List.mem_cons_self
      rcases e with ⟨c, r⟩ | n
      · cases c with
        | write8 => exact Bool.noConfusion hwrite
        | read8 =>
            rintro ⟨-, h⟩
            exact hrest h
        | inGate | cancelled | nowUs | read16 | read32 | write32 | delayUs => exact hrest
      · exact n.elim

theorem advances_writeless (hw : Writeless t) (h : Remembers v t v') :
    Advances v t v' := by
  rw [remembers_writeless hw h]
  apply advances_uncounted
  · exact List.countP_eq_zero.2 fun e he => by simp [(not_counted (hw e he)).1]
  · exact List.countP_eq_zero.2 fun e he => by simp [(not_counted (hw e he)).2]

theorem remembers_counts {sending : Bool} (ht : Counts sending t) (h : Remembers v t v') : v' = bump sending v := by
  rcases ht with ⟨x, rfl⟩
  rcases h with ⟨hread, hwrite⟩
  rw [Remembers, if_pos rfl] at hwrite
  rcases hwrite with ⟨y, hy, hend⟩
  have hx : x = v := hread rfl rfl
  rw [hend, hy rfl, hx]

theorem advances_receives (ht : Receives t) (h : Remembers v t v') :
    Advances v t v' := by
  rcases ht with ⟨l, rfl, hl⟩
  have hv' : v' = bump false v := remembers_counts hl h
  rcases hl with ⟨x, rfl⟩
  have hnibbles := (bump_nibbles v.toFin).2
  refine ⟨?_, ?_⟩
  · rw [hv']
    refine hnibbles.2.trans ?_
    exact (Nat.mod_mod _ _).symm
  · rw [hv']
    exact hnibbles.1

theorem advances_exchanges {q : Request} (ht : Exchanges q t) (h : Remembers v t v') : Advances v t v' := by
  rcases ht with ⟨l, l', rfl, hl, hl'⟩
  -- The words of the request leave the byte alone, and what follows is counted nibble by nibble.
  rcases remembers_append h with ⟨u, hwords, hrest⟩
  have hu : u = v := hwords
  subst hu
  rcases remembers_append hrest with ⟨w, hw, htail⟩
  have hsent : Advances u (l ++ [.call (.write8 h2cControl 1) true]) w := by
    rw [remembers_counts hl hw]
    rcases hl with ⟨x, rfl⟩
    have hnibbles := (bump_nibbles u.toFin).1
    refine ⟨hnibbles.1, ?_⟩
    refine hnibbles.2.trans ?_
    exact (Nat.mod_eq_of_lt (highNibble_lt u)).symm
  have hreceived : Advances w l' v' := advances_receives hl' htail
  have hboth := (advances_uncounted (v := u) (t := Words q) rfl rfl).append (hsent.append hreceived)
  rwa [List.append_assoc] at hboth

theorem advances_setsMask {value : UInt16} (ht : SetsMask value t) (h : Remembers v t v') : Advances v t v' := by
  rcases setsMask_iff.1 ht with ⟨l, rfl, hl⟩
  rcases remembers_append h with ⟨u, hu, h⟩
  have hread : v' = u := h
  subst hread
  exact (advances_exchanges hl hu).append (advances_uncounted rfl rfl)

variable {op : Op} {s s' : Mailbox}

theorem advances_completes (ht : op.Completes s t s') (h : Remembers v t v') : Advances v t v' := by
  cases op with
  | exchange q expected => exact advances_exchanges ht.1 h
  | receivePending => exact advances_receives ht.1 h
  | setSchedulerMask value => exact advances_setsMask ht.1 h
  | pauseScheduler =>
      rcases ht with ⟨old, l, rfl, hset, -⟩
      have hread := advances_uncounted (v := v) (t := [.call (.read16 schedulerTx) (true, old)]) rfl rfl
      exact hread.append (advances_setsMask hset h)
  | resumeScheduler =>
      rcases ht with ⟨l, rfl, hset, -⟩
      have hread := advances_uncounted (v := v) (t := [.call (.read16 schedulerTx) (true, 0)]) rfl rfl
      exact hread.append (advances_setsMask hset h)

/-- An operation that leaves no fault has counted what it did. -/
theorem Went.advances {ok : Bool} (hwent : Went s op t ok s') (hfaulted : s'.faulted = false) (h : Remembers v t v') :
    Advances v t v' := by
  cases hwent with
  | refused _ ht =>
      subst ht
      exact advances_writeless nofun h
  | succeeded _ _ _ hcompletes _ => exact (advances_completes hcompletes (remembers_effects h)).of_effects
  | failed _ _ hend _ _ _ =>
      rcases hend with hfault | ⟨-, hw⟩
      · exact Bool.noConfusion (hfaulted.symm.trans hfault.faulted)
      · exact advances_writeless hw h

/-! ## Runs -/

def Paused (x : Record) : Prop := x.op = .pauseScheduler ∧ x.result = true

def Resumed (x : Record) : Prop := x.op = .resumeScheduler ∧ x.result = true

variable {h : List Record}

/-- Between operations nobody uses the mailbox, and no fault is mistaken for an old reply. -/
theorem run_idle (hrun : Run h s) :
    s.active = false ∧ (s.faulted = true → s.result.error ≠ .staleReply) := by
  refine hrun.invariant (P := fun _ s => s.active = false ∧
    (s.faulted = true → s.result.error ≠ .staleReply)) ⟨rfl, fun h => Bool.noConfusion h⟩ ?_
  rintro h s s' op log r - ⟨hactive, herror⟩ hout
  have hwent := wp_outcome (exec_went hactive op) hout
  cases hwent with
  | refused => exact ⟨hactive, herror⟩
  | succeeded _ _ hgoing _ hactive' => exact ⟨hactive', fun _ => hgoing.not_stale⟩
  | failed _ _ hend hactive' _ _ =>
      refine ⟨hactive', fun hfaulted => ?_⟩
      rcases hend with hfault | ⟨hstale, -⟩
      · exact hfault.error
      · exact Bool.noConfusion (hstale.faulted.symm.trans hfaulted)

theorem run_went (hrun : Run h s) {x : Record} (hx : x ∈ h) :
    Went x.before x.op x.log x.result x.after := by
  rcases List.append_of_mem hx with ⟨later, earlier, rfl⟩
  rcases (Run.drop hrun).tail with ⟨hbefore, -, hout⟩
  exact wp_outcome (exec_went (run_idle hbefore).1 x.op) hout

/-- What an operation other than a pause or its end leaves of the pause. -/
theorem Went.same_pause {ok : Bool} (hwent : Went s op t ok s') (hpause : ¬ (op = .pauseScheduler ∧ ok = true))
    (hresume : ¬ (op = .resumeScheduler ∧ ok = true)) :
    s'.paused = s.paused ∧ s'.savedTx = s.savedTx := by
  cases hwent with
  | refused => exact ⟨rfl, rfl⟩
  | failed _ _ _ _ hp hs => exact ⟨hp, hs⟩
  | succeeded _ _ _ hcompletes _ =>
      cases op with
      | exchange q expected => exact hcompletes.2
      | receivePending => exact hcompletes.2
      | setSchedulerMask value => exact hcompletes.2
      | pauseScheduler => exact absurd ⟨rfl, rfl⟩ hpause
      | resumeScheduler => exact absurd ⟨rfl, rfl⟩ hresume

/-- A pause that succeeded, with the mask that it read before it cleared the mask. -/
def PausedFrom (old : UInt16) (x : Record) : Prop :=
  Paused x ∧ ∃ l, effects x.log = .call (.read16 schedulerTx) (true, old) :: l ∧ SetsMask 0 l

/-- While the scheduler is paused the pause is known, with its mask. -/
theorem run_pause (hrun : Run h s) (hpaused : s.paused = true) :
    Since (fun y => ¬ Resumed y ∧ ¬ Paused y) (fun x _ => PausedFrom s.savedTx x) h := by
  revert hpaused
  refine hrun.invariant (P := fun h s => s.paused = true →
    Since (fun y => ¬ Resumed y ∧ ¬ Paused y) (fun x _ => PausedFrom s.savedTx x) h)
    (fun h => Bool.noConfusion h) ?_
  intro h s s' op log r hrun ih hout hpaused
  have hwent := wp_outcome (exec_went (run_idle hrun).1 op) hout
  by_cases hpause : op = .pauseScheduler ∧ r = true
  · rcases hpause with ⟨rfl, rfl⟩
    cases hwent with
    | succeeded _ _ _ hcompletes _ =>
        rcases hcompletes with ⟨old, l, heffects, hset, -, rfl⟩
        exact Since.here ⟨⟨rfl, rfl⟩, l, heffects, hset⟩
  · by_cases hresume : op = .resumeScheduler ∧ r = true
    · rcases hresume with ⟨rfl, rfl⟩
      cases hwent with
      | succeeded _ _ _ hcompletes _ =>
          rcases hcompletes with ⟨l, -, -, hfalse⟩
          exact Bool.noConfusion (hfalse.symm.trans hpaused)
    · rcases hwent.same_pause hpause hresume with ⟨hsame, hsaved⟩
      rw [hsaved]
      exact Since.cons ⟨hresume, hpause⟩ (ih (hsame.symm.trans hpaused))

theorem run_paused (hrun : Run h s) (hsince : Since (fun y => ¬ Resumed y) (fun x _ => Paused x) h) :
    s.paused = true := by
  revert hsince
  refine hrun.invariant (P := fun h s => Since (fun y => ¬ Resumed y) (fun x _ => Paused x) h →
    s.paused = true) ?_ ?_
  · rintro ⟨later, x, earlier, heq, -⟩
    exact absurd heq (by simp)
  · intro h s s' op log r hrun ih hout hsince
    have hwent := wp_outcome (exec_went (run_idle hrun).1 op) hout
    by_cases hpause : op = .pauseScheduler ∧ r = true
    · rcases hpause with ⟨rfl, rfl⟩
      cases hwent with
      | succeeded _ _ _ hcompletes _ =>
          rcases hcompletes with ⟨old, l, -, -, htrue, -⟩
          exact htrue
    · rcases since_cons.1 hsince with hhere | ⟨hresume, hearlier⟩
      · exact absurd hhere hpause
      · exact (hwent.same_pause hpause hresume).1.trans (ih hearlier)

theorem Went.of_faulted {ok : Bool} (hwent : Went s op t ok s') (hfaulted : s.faulted = true) : t = [] ∧ s' = s := by
  cases hwent with
  | refused _ ht => exact ⟨ht, rfl⟩
  | succeeded _ hnot _ _ _ => exact Bool.noConfusion (hnot.symm.trans hfaulted)
  | failed _ hnot _ _ _ _ => exact Bool.noConfusion (hnot.symm.trans hfaulted)

theorem Went.of_refused {ok : Bool} (hwent : Went s op t ok s') (hrefused : op.refused s = true) :
    t = [] ∧ ok = false ∧ s' = s := by
  cases hwent with
  | refused _ ht => exact ⟨ht, rfl, rfl⟩
  | succeeded hnot _ _ _ _ => exact Bool.noConfusion (hnot.symm.trans hrefused)
  | failed hnot _ _ _ _ _ => exact Bool.noConfusion (hnot.symm.trans hrefused)

theorem Went.of_succeeded (hwent : Went s op t true s') :
    op.refused s = false ∧ op.Completes s (effects t) s' := by
  cases hwent with
  | succeeded hrefused _ _ hcompletes _ => exact ⟨hrefused, hcompletes⟩

theorem Went.of_failed (hwent : Went s op t false s') (hrefused : op.refused s = false)
    (herror : s'.result.error ≠ .staleReply) : s'.faulted = true := by
  cases hwent with
  | refused hwhy _ =>
      rcases hwhy with hwhy | hfaulted
      · exact Bool.noConfusion (hrefused.symm.trans hwhy)
      · exact hfaulted
  | failed _ _ hend _ _ _ =>
      rcases hend with hfault | ⟨hstale, -⟩
      · exact hfault.faulted
      · exact absurd hstale.error herror

/-- An old reply is found before anything is written, and is no fault. -/
theorem Went.of_stale {ok : Bool} (hwent : Went s op t ok s')
    (hidle : s.active = false ∧ (s.faulted = true → s.result.error ≠ .staleReply))
    (herror : s'.result.error = .staleReply) :
    Writeless t ∧ s'.faulted = false ∧ s'.active = false := by
  cases hwent with
  | refused _ ht =>
      subst ht
      refine ⟨nofun, ?_, hidle.1⟩
      by_contra hfaulted
      exact hidle.2 (Bool.not_eq_false _ ▸ hfaulted) herror
  | succeeded _ _ hgoing _ _ => exact absurd herror hgoing.not_stale
  | failed _ _ hend hactive _ _ =>
      rcases hend with hfault | ⟨hstale, hw⟩
      · exact absurd herror hfault.error
      · exact ⟨hw, hstale.faulted, hactive⟩

theorem run_latched {x : Record} {earlier : List Record} (hx : x.after.faulted = true) (later : List Record) :
    ∀ {s : Mailbox}, Run (later ++ x :: earlier) s → s.faulted = true ∧ ∀ y ∈ later, y.log = [] := by
  induction later with
  | nil =>
      intro s hrun
      rcases hrun.tail with ⟨-, rfl, -⟩
      exact ⟨hx, fun y hy => absurd hy List.not_mem_nil⟩
  | cons y later ih =>
      intro s hrun
      rcases hrun.tail with ⟨hbefore, rfl, -⟩
      rcases ih hbefore with ⟨hfaulted, hquiet⟩
      rcases (run_went hrun List.mem_cons_self).of_faulted hfaulted with ⟨hlog, hsame⟩
      refine ⟨?_, fun z hz => ?_⟩
      · rw [hsame]
        exact hfaulted
      · rcases List.mem_cons.1 hz with rfl | hz
        · exact hlog
        · exact hquiet z hz

theorem run_counters (hrun : Run h s) (hmemory : Remembers v (eventsOf h) v') (hfaulted : s.faulted = false) :
    Advances v (eventsOf h) v' := by
  revert v'
  revert hfaulted
  refine hrun.invariant (P := fun h s => s.faulted = false → ∀ {v'}, Remembers v (eventsOf h) v' →
    Advances v (eventsOf h) v') ?_ ?_
  · intro _ v' hmemory
    exact advances_writeless nofun hmemory
  · intro h s s' op log r hrun ih hout hfaulted v' hmemory
    have hwent := wp_outcome (exec_went (run_idle hrun).1 op) hout
    have hbefore : s.faulted = false := by
      by_contra hfault
      rw [Bool.not_eq_false] at hfault
      rw [(hwent.of_faulted hfault).2, hfault] at hfaulted
      exact Bool.noConfusion hfaulted
    rcases remembers_append hmemory with ⟨u, hu, hu'⟩
    exact (ih hbefore hu).append (hwent.advances hfaulted hu')

/-- What the mailbox promises of the operations `h`, which left it in the state `s`. -/
structure Promises (h : List Record) (s : Mailbox) : Prop where
  paused : s.paused = true ↔ Since (fun y => ¬ Resumed y) (fun x _ => Paused x) h
  untouched : ∀ x ∈ h, x.before.paused = true →
    x.op = .pauseScheduler ∨ (∃ value, x.op = .setSchedulerMask value) → x.log = []
  restored : ∀ later x earlier, h = later ++ x :: earlier → Resumed x →
    ∃ old, Since (fun y => ¬ Resumed y ∧ ¬ Paused y) (fun y _ => PausedFrom old y) earlier ∧
      ∃ l, effects x.log = .call (.read16 schedulerTx) (true, 0) :: l ∧ SetsMask old l
  stale : ∀ x ∈ h, x.after.result.error = .staleReply →
    Writeless x.log ∧ x.after.faulted = false ∧ x.after.active = false
  refused : ∀ x ∈ h, x.op.refused x.before = true → x.log = [] ∧ x.result = false ∧ x.after = x.before
  failed : ∀ x ∈ h, x.result = false → x.op.refused x.before = false →
    x.after.result.error ≠ .staleReply → x.after.faulted = true
  latched : ∀ later x earlier, h = later ++ x :: earlier → x.after.faulted = true →
    s.faulted = true ∧ ∀ y ∈ later, y.log = []
  counters : ∀ v v', Remembers v (eventsOf h) v' → s.faulted = false → Advances v (eventsOf h) v'
  bounded : ∀ x ∈ h, (x.log.map access).sum ≤ 1000026

/-- Every sequence of operations, whatever the device answers. -/
theorem mailbox_promises {h : List Record} {s : Mailbox} (hrun : Run h s) : Promises h s where
  paused := by
    constructor
    · intro hpaused
      exact (run_pause hrun hpaused).mono (fun y hy => hy.1) fun x l hx => hx.1
    · exact run_paused hrun
  untouched := by
    intro x hx hpaused hop
    have hrefused : x.op.refused x.before = true := by
      rcases hop with hop | ⟨value, hop⟩
      · rw [hop]
        exact hpaused
      · rw [hop]
        exact hpaused
    exact ((run_went hrun hx).of_refused hrefused).1
  restored := by
    rintro later x earlier rfl ⟨hop, hok⟩
    rcases (Run.drop hrun).tail with ⟨hbefore, -, -⟩
    have hwent := run_went hrun (List.mem_append_right later List.mem_cons_self)
    rw [hop, hok] at hwent
    rcases hwent.of_succeeded with ⟨hrefused, hcompletes⟩
    have hpaused : x.before.paused = true := by simpa [Op.refused] using hrefused
    rcases hcompletes with ⟨l, heffects, hset, -⟩
    exact ⟨x.before.savedTx, run_pause hbefore hpaused, l, heffects, hset⟩
  stale := by
    intro x hx herror
    rcases List.append_of_mem hx with ⟨later, earlier, rfl⟩
    exact (run_went hrun hx).of_stale (run_idle (Run.drop hrun).tail.1) herror
  refused := by
    intro x hx hrefused
    exact (run_went hrun hx).of_refused hrefused
  failed := by
    intro x hx hresult hrefused herror
    have hwent := run_went hrun hx
    rw [hresult] at hwent
    exact hwent.of_failed hrefused herror
  latched := by
    rintro later x earlier rfl hx
    exact run_latched hx later hrun
  counters := by
    intro v v' hmemory hfaulted
    exact run_counters hrun hmemory hfaulted
  bounded := by
    intro x hx
    exact wp_outcome (spends_exec x.op x.before) (hrun.outcome hx)

/-- A device that answers every request with the reply of the scheduler, at once. -/
structure Device where
  counter : UInt8 := 0
  request : UInt32 := 0
  mask : UInt16 := 0x3ff
  replied : Bool := false

def Device.answer : (c : Call) → Device → Reply c × Device
  | .inGate, d => (true, d)
  | .cancelled, d => (false, d)
  | .nowUs, d => (0, d)
  | .read8 a, d => ((true, if a = hostCounters then d.counter else if a = c2hControl ∧ d.replied then 1 else 0), d)
  | .read16 _, d => ((true, d.mask), d)
  | .read32 a, d => ((true, if a = firmwareControl then 0xe0 else if a = c2hData 0 then 0x104 else 0), d)
  | .write8 a v, d => (true,
      if a = hostCounters then { d with counter := v }
      else if a = h2cControl then { d with replied := true, mask := (d.request >>> 16).toUInt16 }
      else { d with replied := false })
  | .write32 a v, d => (true, if a = h2cData 0 then { d with request := v } else d)
  | .delayUs _, d => (true, d)

/-- A pause, an attempt to set a mask that the pause forbids, and the end of the pause. -/
def pauseAndSet : List Op := [.pauseScheduler, .setSchedulerMask 7, .resumeScheduler]

theorem mailbox_promises_pauseAndSet :
    (replay exec Device.answer pauseAndSet {} {}).1.map (·.result) = [true, false, true] ∧
    (replay exec Device.answer pauseAndSet {} {}).1.map (·.after.paused) = [false, true, true] ∧
    (replay exec Device.answer pauseAndSet {} {}).2.1.savedTx = 0x3ff ∧
    (replay exec Device.answer pauseAndSet {} {}).2.2.mask = 0x3ff ∧
    Promises (replay exec Device.answer pauseAndSet {} {}).1 (replay exec Device.answer pauseAndSet {} {}).2.1 :=
  ⟨by decide +kernel, by decide +kernel, by decide +kernel, by decide +kernel,
    mailbox_promises (replay_run exec Device.answer pauseAndSet {} {})⟩

end Mail
end Rtl8852be
