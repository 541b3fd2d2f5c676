import Rtl8852be.NativeScan.NativeScanCache

/-!
# Snapshots — isolation of published scans

A consumer sees a completed scan through `completed`, `completedEntry` and `completedChannel`.  All but
one kind of call leave what it sees alone: `Effect` says which parts of the store a call can touch.
-/

namespace Rtl8852be
namespace NativeScan

open Interaction Sequence

variable {s s' : Store} {h : List Record} {op : Op} {result : Result}

/-! ## What a consumer sees -/

structure View where
  completed : Option Summary
  completedEntry : ℕ → Option Entry
  completedChannel : ℕ → Option Channel

def Store.view (s : Store) : View := ⟨s.completed, s.completedEntry, s.completedChannel⟩

theorem Store.view_congr (hhas : s'.hasPublished = s.hasPublished)
    (hbank : s'.banks s'.published = s.banks s.published) : s'.view = s.view := by
  have hentry : s'.completedEntry = s.completedEntry := by
    funext i
    simp only [Store.completedEntry, hhas, hbank]
  have hchannel : s'.completedChannel = s.completedChannel := by
    funext i
    simp only [Store.completedChannel, hhas, hbank]
  simp only [Store.view, Store.completed, hhas, hbank, hentry, hchannel]

/-- The token of the scan a call is meant for. -/
def Op.token : Op → Option Token
  | .begin _ _ => none
  | .plan token _ => some token
  | .add token _ => some token
  | .channelFinished token _ => some token
  | .finish token _ _ => some token
  | .cancel token => some token

/-! ## What a call can touch -/

/-- The published bank, and what tells scans apart, are as before. -/
structure Quiet (s s' : Store) : Prop where
  hasPublished : s'.hasPublished = s.hasPublished
  published : s'.published = s.published
  working : s'.working = s.working
  bank : s'.banks s.published = s.banks s.published
  token : s'.status.token = s.status.token
  active : s'.status.active = true → s.status.active = true

theorem Quiet.refl (s : Store) : Quiet s s := ⟨rfl, rfl, rfl, rfl, rfl, id⟩

theorem Quiet.view (hq : Quiet s s') : s'.view = s.view := by
  apply Store.view_congr hq.hasPublished
  rw [hq.published, hq.bank]

theorem Store.setBank_published (s : Store) {b : Bank} (hapart : s.working ≠ s.published) :
    (s.setBank b).banks s.published = s.banks s.published := by
  have hne : s.published ≠ s.working := hapart.symm
  simp [Store.setBank, Function.update_of_ne hne]

/-- A change of the working bank and of the counters of the active scan. -/
theorem quiet_setBank {status : Status} {mask : ℕ} {b : Bank} (hapart : s.working ≠ s.published)
    (htoken : status.token = s.status.token)
    (hactive : status.active = true → s.status.active = true) :
    Quiet s { s.setBank b with status := status, completedMask := mask } where
  hasPublished := rfl
  published := rfl
  working := rfl
  bank := s.setBank_published hapart
  token := htoken
  active := hactive

inductive Effect (s : Store) : Op → Result → Store → Prop
  | quiet {op : Op} {result : Result} {s' : Store} (hresult : result ≠ .finish .published)
      (hq : Quiet s s') : Effect s op result s'
  | begun {generation epoch : UInt64} (hidle : s.status.active = false)
      (hlater : s.status.token.Before ⟨generation, epoch⟩) :
      Effect s (.begin generation epoch) (.flag true) (s.begun ⟨generation, epoch⟩)
  | published {token : Token} {scope : Completion} {completedAtUs : UInt64}
      (hactive : s.status.active = true) (htoken : token = s.status.token)
      (hlater : s.hasPublished = true →
        (s.banks s.published).summary.completedAtUs ≤ completedAtUs) :
      Effect s (.finish token scope completedAtUs) (.finish .published)
        (s.publish token completedAtUs)

theorem apply_effect (hapart : s.working ≠ s.published) (hout : apply op s = (result, s')) :
    Effect s op result s' := by
  cases op with
  | begin generation epoch =>
      rcases hb : s.begin generation epoch with ⟨ok, t⟩
      simp only [apply, hb, Prod.map, Prod.mk.injEq, id] at hout
      rcases hout with ⟨rfl, rfl⟩
      cases Store.begin_cases hb with
      | refused => exact .quiet nofun (Quiet.refl s)
      | accepted hidle hlater => exact .begun hidle hlater
  | plan token channels =>
      rcases hp : s.plan token channels with ⟨ok, t⟩
      simp only [apply, hp, Prod.map, Prod.mk.injEq, id] at hout
      rcases hout with ⟨rfl, rfl⟩
      refine .quiet nofun ?_
      cases Store.plan_cases hp with
      | refused => exact Quiet.refl s
      | accepted _ _ _ _ _ _ => exact quiet_setBank hapart rfl id
  | add token input =>
      rcases ha : s.add token input with ⟨r, t⟩
      simp only [apply, ha, Prod.map, Prod.mk.injEq, id] at hout
      rcases hout with ⟨rfl, rfl⟩
      refine .quiet nofun ?_
      cases Store.add_cases ha with
      | stale _ => exact Quiet.refl s
      | unplanned _ _ => exact Quiet.refl s
      | lost _ _ _ => exact ⟨rfl, rfl, rfl, rfl, rfl, id⟩
      | invalid _ _ => exact ⟨rfl, rfl, rfl, rfl, rfl, id⟩
      | unchanged _ _ _ _ _ _ => exact Quiet.refl s
      | replaced _ _ _ _ _ _ => exact quiet_setBank hapart rfl id
      | added _ _ _ _ _ _ => exact quiet_setBank hapart rfl id
  | channelFinished token channel =>
      rcases hf : s.channelFinished token channel with ⟨ok, t⟩
      simp only [apply, hf, Prod.map, Prod.mk.injEq, id] at hout
      rcases hout with ⟨rfl, rfl⟩
      refine .quiet nofun ?_
      cases Store.channelFinished_cases hf with
      | refused => exact Quiet.refl s
      | again _ _ _ _ => exact Quiet.refl s
      | first _ _ _ _ => exact ⟨rfl, rfl, rfl, rfl, rfl, id⟩
  | finish token scope completedAtUs =>
      rcases hf : s.finish token scope completedAtUs with ⟨r, t⟩
      simp only [apply, hf, Prod.map, Prod.mk.injEq, id] at hout
      rcases hout with ⟨rfl, rfl⟩
      cases Store.finish_cases hf with
      | refused hr => exact .quiet (fun heq => hr (Result.finish.inj heq)) (Quiet.refl s)
      | loss _ => exact .quiet nofun ⟨rfl, rfl, rfl, rfl, rfl, nofun⟩
      | published hcurrent _ _ _ _ hlater _ =>
          rcases Store.current_iff.1 hcurrent with ⟨hactive, htoken⟩
          exact .published hactive htoken hlater
  | cancel token =>
      rcases hc : s.cancel token with ⟨ok, t⟩
      simp only [apply, hc, Prod.map, Prod.mk.injEq, id] at hout
      rcases hout with ⟨rfl, rfl⟩
      refine .quiet nofun ?_
      cases Store.cancel_cases hc with
      | refused _ => exact Quiet.refl s
      | accepted _ => exact quiet_setBank hapart rfl nofun

/-- A call for another scan than the active one does nothing at all. -/
theorem apply_stale {token : Token} (hop : op.token = some token)
    (hstale : ¬ (s.status.active = true ∧ s.status.token = token)) : (apply op s).2 = s := by
  have hcurrent : s.current token = false := by
    by_contra hc
    rw [Bool.not_eq_false, Store.current_iff] at hc
    exact hstale ⟨hc.1, hc.2.symm⟩
  cases op with
  | begin generation epoch => cases hop
  | plan t channels =>
      cases hop
      cases channels with
      | none => rfl
      | some cs => simp [apply, Store.plan, hcurrent]
  | add t input =>
      cases hop
      simp [apply, Store.add, hcurrent]
  | channelFinished t channel =>
      cases hop
      simp [apply, Store.channelFinished, hcurrent]
  | finish t scope completedAtUs =>
      cases hop
      simp [apply, Store.finish, hcurrent]
  | cancel t =>
      cases hop
      simp [apply, Store.cancel, hcurrent]

/-! ## Runs -/

theorem exec_outcome {log : List (Event Empty NoCall Empty)}
    (hout : (exec op s).Outcome log (result, s')) : apply op s = (result, s') :=
  wp_outcome (Q := fun _ result s' => apply op s = (result, s')) ((Code.wp_direct _).2 rfl) hout

/-- The scans published so far, newest first: their tokens and their times. -/
def publications (h : List Record) : List (Token × UInt64) :=
  h.filterMap fun x =>
    match x.op, x.result with
    | .finish token _ completedAtUs, .finish .published => some (token, completedAtUs)
    | _, _ => none

/-- Publications are in order, and the store knows the last one. -/
structure Dated (h : List Record) (s : Store) : Prop where
  apart : s.working ≠ s.published
  ordered : (publications h).Pairwise fun later earlier =>
    earlier.1.Before later.1 ∧ earlier.2 ≤ later.2
  past : ∀ p ∈ publications h, p.1 = s.status.token ∨ p.1.Before s.status.token
  behind : s.status.active = true → ∀ p ∈ publications h, p.1.Before s.status.token
  last : ∀ p ∈ publications h,
    s.hasPublished = true ∧ p.2 ≤ (s.banks s.published).summary.completedAtUs

theorem dated_nil : Dated [] {} where
  apart := by decide
  ordered := List.Pairwise.nil
  past := by simp [publications]
  behind := nofun
  last := by simp [publications]

theorem publications_cons_of_ne {x : Record} (hx : x.result ≠ .finish .published) :
    publications (x :: h) = publications h := by
  apply List.filterMap_cons_none
  split
  · next hr => exact absurd hr hx
  · rfl

theorem Dated.step {log : List (Event Empty NoCall Empty)} (hd : Dated h s)
    (hout : (exec op s).Outcome log (result, s')) : Dated (⟨s, op, log, result, s'⟩ :: h) s' := by
  cases apply_effect hd.apart (exec_outcome hout) with
  | quiet hresult hq =>
      have hpub := publications_cons_of_ne (h := h) (x := ⟨s, op, log, result, s'⟩) hresult
      constructor
      · rw [hq.working, hq.published]
        exact hd.apart
      · rw [hpub]
        exact hd.ordered
      · rw [hpub, hq.token]
        exact hd.past
      · rw [hpub, hq.token]
        exact fun hactive => hd.behind (hq.active hactive)
      · rw [hpub, hq.hasPublished, hq.published, hq.bank]
        exact hd.last
  | begun hidle hlater =>
      have hbefore : ∀ p ∈ publications h, p.1.Before _ := fun p hp =>
        (hd.past p hp).elim (fun heq => heq ▸ hlater) fun hb => hb.trans hlater
      constructor
      · exact hd.apart
      · exact hd.ordered
      · exact fun p hp => Or.inr (hbefore p hp)
      · exact fun _ => hbefore
      · intro p hp
        refine ⟨(hd.last p hp).1, ?_⟩
        show p.2 ≤ ((s.setBank {}).banks s.published).summary.completedAtUs
        rw [s.setBank_published hd.apart]
        exact (hd.last p hp).2
  | @published token scope completedAtUs hactive htoken hlater =>
      constructor
      · show s.working ^^^ 1 ≠ s.working
        have hxor : ∀ w : Fin 2, w ^^^ 1 ≠ w := by decide
        exact hxor s.working
      · refine List.Pairwise.cons ?_ hd.ordered
        intro p hp
        refine ⟨htoken ▸ hd.behind hactive p hp, ?_⟩
        rcases hd.last p hp with ⟨hhas, hle⟩
        exact UInt64.le_trans hle (hlater hhas)
      · intro p hp
        rcases List.mem_cons.1 hp with rfl | hp
        · exact Or.inl htoken
        · exact hd.past p hp
      · exact nofun
      · intro p hp
        refine ⟨rfl, ?_⟩
        have hbank : (s.publish token completedAtUs).banks s.working =
            s.finished token completedAtUs := Function.update_self _ _ _
        show p.2 ≤ ((s.publish token completedAtUs).banks s.working).summary.completedAtUs
        rw [hbank]
        rcases List.mem_cons.1 hp with rfl | hp
        · exact UInt64.le_refl completedAtUs
        · rcases hd.last p hp with ⟨hhas, hle⟩
          exact UInt64.le_trans hle (hlater hhas)

theorem run_dated (hrun : Run h s) : Dated h s :=
  Interaction.Run.invariant dated_nil (fun _ hd hout => hd.step hout) hrun

theorem run_effect (hrun : Run h s) {x : Record} (hx : x ∈ h) :
    Effect x.before x.op x.result x.after := by
  rcases List.append_of_mem hx with ⟨later, earlier, rfl⟩
  rcases (Interaction.Run.drop hrun).tail with ⟨hbefore, -, hout⟩
  exact apply_effect (run_dated hbefore).apart (exec_outcome hout)

theorem Effect.view (he : Effect s op result s') (hresult : result ≠ .finish .published)
    (hapart : s.working ≠ s.published) : s'.view = s.view := by
  cases he with
  | quiet _ hq => exact hq.view
  | begun hidle hlater =>
      exact Store.view_congr rfl (s.setBank_published hapart)
  | published hactive htoken hlater => exact absurd rfl hresult

theorem Effect.finish (he : Effect s op result s') (hresult : result = .finish .published) :
    ∃ token scope completedAtUs, op = .finish token scope completedAtUs := by
  cases he with
  | quiet hne _ => exact absurd hresult hne
  | begun _ _ => cases hresult
  | published _ _ _ => exact ⟨_, _, _, rfl⟩

theorem Run.view_of_mem (hrun : Run h s) {x : Record} (hx : x ∈ h)
    (hresult : x.result ≠ .finish .published) : x.after.view = x.before.view := by
  rcases List.append_of_mem hx with ⟨later, earlier, rfl⟩
  have hbefore := (Interaction.Run.drop hrun).tail.1
  exact (run_effect hrun hx).view hresult (run_dated hbefore).apart

/-- Calls that publish nothing leave the view as the first of them found it. -/
theorem Run.view_since {later earlier : List Record} {x : Record}
    (hquiet : ∀ y ∈ x :: later, y.result ≠ .finish .published) :
    ∀ {s : Store}, Run (later ++ x :: earlier) s → s.view = x.before.view := by
  induction later with
  | nil =>
      intro s hrun
      rcases Interaction.Run.tail hrun with ⟨-, rfl, -⟩
      exact Run.view_of_mem hrun List.mem_cons_self (hquiet x List.mem_cons_self)
  | cons y later ih =>
      intro s hrun
      have hy : y.result ≠ .finish .published := hquiet y (by simp)
      rcases Interaction.Run.tail hrun with ⟨hbefore, rfl, -⟩
      rw [Run.view_of_mem hrun List.mem_cons_self hy]
      apply ih _ hbefore
      intro z hz
      apply hquiet z
      rcases List.mem_cons.1 hz with rfl | hz
      · exact List.mem_cons_self
      · exact List.mem_cons_of_mem _ (List.mem_cons_of_mem _ hz)

/-- Snapshots are isolated: the view changes only when `finish` publishes, calls for other scans than the
active one do nothing, the two banks never coincide, publications go forward in token and time, and
scans that publish nothing leave the view alone from their first call to their last. -/
theorem snapshot_isolation (hrun : Run h s) :
    (∀ x ∈ h, x.after.view ≠ x.before.view →
      x.result = .finish .published ∧ ∃ token scope completedAtUs,
        x.op = .finish token scope completedAtUs) ∧
    (∀ x ∈ h, ∀ token, x.op.token = some token →
      ¬ (x.before.status.active = true ∧ x.before.status.token = token) → x.after = x.before) ∧
    s.working ≠ s.published ∧
    ((publications h).Pairwise fun later earlier =>
      earlier.1.Before later.1 ∧ earlier.2 ≤ later.2) ∧
    ∀ later x earlier, h = later ++ x :: earlier →
      (∀ y ∈ x :: later, y.result ≠ .finish .published) → s.view = x.before.view := by
  refine ⟨?_, ?_, (run_dated hrun).apart, (run_dated hrun).ordered, ?_⟩
  · intro x hx hchange
    have hresult : x.result = .finish .published := by
      by_contra hne
      exact hchange (Run.view_of_mem hrun hx hne)
    exact ⟨hresult, (run_effect hrun hx).finish hresult⟩
  · intro x hx token hop hstale
    have hafter := exec_outcome (Interaction.Run.outcome hrun hx)
    rw [← apply_stale hop hstale, hafter]
  · rintro later x earlier rfl hquiet
    exact Run.view_since hquiet hrun

/-- A beacon without elements on channel 6. -/
def beacon (bssid : UInt8) (observedAtUs : UInt64) : Input :=
  { bssid := some fun _ => bssid, channel := ⟨.ghz2, 6⟩, observedAtUs := observedAtUs }

/-- A scan of channel 6 that sees two networks, one of them twice. -/
def firstScan : List Op :=
  [.begin 1 1, .plan ⟨1, 1⟩ (some [⟨.ghz2, 6⟩]), .add ⟨1, 1⟩ (beacon 4 5), .add ⟨1, 1⟩ (beacon 2 5),
    .add ⟨1, 1⟩ (beacon 4 7), .channelFinished ⟨1, 1⟩ ⟨.ghz2, 6⟩, .finish ⟨1, 1⟩ .fullScan 10]

def trial (ops : List Op) : List Record × Store :=
  ((replay exec (fun c (_ : Unit) => c.elim) ops {} ()).1,
    (replay exec (fun c (_ : Unit) => c.elim) ops {} ()).2.1)

theorem trial_run (ops : List Op) : Run (trial ops).1 (trial ops).2 :=
  replay_run exec (fun c (_ : Unit) => c.elim) ops {} ()

theorem snapshot_isolation_cancelled :
    ∃ h s, Run h s ∧ publications h = [(⟨1, 1⟩, 10)] ∧ s.status.cancelled = true ∧
      s.working ≠ s.published := by
  have hrun := trial_run (firstScan ++ [.begin 2 1, .cancel ⟨2, 1⟩])
  exact ⟨_, _, hrun, by decide +kernel, by decide +kernel, (snapshot_isolation hrun).2.2.1⟩

end NativeScan
end Rtl8852be
