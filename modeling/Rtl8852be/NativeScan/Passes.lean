import Rtl8852be.Bits.Word
import Rtl8852be.NativeScan.NativeScanObservation

/-!
# Passes — what a successful pass of the observer has done

The observer's flags and masks repeat, in its own terms, what the store knows about the scan.  `Agrees`
says how the two fit together, and `Pass` reads the pass that is open off the history: every dwell was
accepted and finished before the next one was accepted.
-/

namespace Rtl8852be
namespace NativeScan

open Interaction Sequence

/-! ## Calls on the store -/

theorem Run.apply {hs : List Record} {s s' : Store} (op : Op) {result : Result} (hrun : Run hs s)
    (hout : NativeScan.apply op s = (result, s')) : Run (⟨s, op, [], result, s'⟩ :: hs) s' := by
  refine hrun.call ?_
  rw [← hout]
  exact .done _

theorem validPlan_nodup {cs : List Channel} (hcs : Store.validPlan cs = true) : cs.Nodup := by
  induction cs with
  | nil => exact List.nodup_nil
  | cons c cs ih =>
      simp only [Store.validPlan, Bool.and_eq_true, Bool.not_eq_eq_eq_not, Bool.not_true] at hcs
      rcases hcs with ⟨⟨-, hrest⟩, hnew⟩
      exact List.nodup_cons.2 ⟨by simpa using hnew, ih hrest⟩

theorem Store.add_frame {s s' : Store} {token : Token} {input : Input} {r : AddResult}
    (hout : s.add token input = (r, s')) :
    s'.status.active = s.status.active ∧ s'.status.token = s.status.token ∧
      s'.status.planned = s.status.planned ∧ s'.channels = s.channels ∧
      s'.completedMask = s.completedMask ∧ s'.status.plannedChannels = s.status.plannedChannels := by
  have hwrite : ∀ i e, (s.write i e).channels = s.channels := by
    intro i e
    simp [Store.channels, Store.write, Store.setBank, Store.bank]
  cases Store.add_cases hout with
  | stale _ => exact ⟨rfl, rfl, rfl, rfl, rfl, rfl⟩
  | unplanned _ _ => exact ⟨rfl, rfl, rfl, rfl, rfl, rfl⟩
  | lost _ _ _ => exact ⟨rfl, rfl, rfl, rfl, rfl, rfl⟩
  | invalid _ _ => exact ⟨rfl, rfl, rfl, rfl, rfl, rfl⟩
  | unchanged _ _ _ _ _ _ => exact ⟨rfl, rfl, rfl, rfl, rfl, rfl⟩
  | replaced _ _ _ _ _ _ => exact ⟨rfl, rfl, rfl, hwrite _ _, rfl, rfl⟩
  | added _ _ _ _ _ _ => exact ⟨rfl, rfl, rfl, hwrite _ _, rfl, rfl⟩

theorem note_adds {j : Journal} {token : Token} {input x : Input} {r : AddResult}
    (hx : x ∈ (j.note (.add token input) (.add r)).adds) : x ∈ j.adds ∨ x = input := by
  rw [Journal.note] at hx
  split at hx
  · simp only at hx
    split at hx
    · simpa using hx
    · exact Or.inl hx
  · exact Or.inl hx

namespace Observer

variable {o o' : Observer} {h later : List Record} {x : Record} {op : Op} {ok : Bool}

/-! ## Observer and store -/

/-- The tokens of the store are not ahead of the observer's counters. -/
def Behind (o : Observer) : Prop :=
  o.store.status.token.epoch < o.epoch ∨
    (o.store.status.token.epoch = o.epoch ∧ o.store.status.token.generation ≤ o.generation)

/-- Enough to close the pass: the active scan of the store, if there is one, is the observer's. -/
structure Owns (o : Observer) : Prop where
  token : o.store.status.active = true → o.store.status.token = o.pass
  behind : o.Behind

/-- What the observer and the store agree on while a pass is open. -/
structure Agrees (o : Observer) (plan : List Channel) : Prop where
  active : o.store.status.active = true
  token : o.store.status.token = o.pass
  planned : o.store.status.planned = true
  channels : o.store.channels = plan
  listed : cells o.plan o.planCount = plan
  mask : o.completedMask = o.store.completedMask
  nodup : plan.Nodup

variable {plan : List Channel}

theorem Agrees.planCount (ha : Agrees o plan) : o.planCount = plan.length := by
  rw [← ha.listed, length_cells]

theorem Agrees.plannedChannels (ha : Agrees o plan) :
    o.store.status.plannedChannels = plan.length := by
  rw [← ha.channels, Store.channels, length_cells]

theorem Agrees.plan_eq (ha : Agrees o plan) {i : ℕ} (hi : i < o.planCount) :
    o.plan i = o.store.bank.channels i := by
  have hstore : i < o.store.status.plannedChannels := by
    rw [ha.plannedChannels, ← ha.planCount]
    exact hi
  have hlists : (cells o.plan o.planCount)[i]? = (o.store.channels)[i]? := by
    rw [ha.listed, ha.channels]
  rw [getElem?_cells hi, Store.channels, getElem?_cells hstore] at hlists
  exact Option.some.inj hlists

theorem Agrees.index_eq (ha : Agrees o plan) (channel : Channel) :
    o.index channel = o.store.channelIndex channel := by
  rw [index, Store.channelIndex, ha.planCount, ha.plannedChannels]
  apply List.find?_congr
  intro i hi
  rw [List.mem_range, ← ha.planCount] at hi
  rw [ha.plan_eq hi]

theorem index_eq_some {channel : Channel} {i : ℕ} (hi : o.index channel = some i) :
    i < o.planCount ∧ o.plan i = channel := by
  refine ⟨?_, ?_⟩
  · simpa using List.mem_of_find?_eq_some hi
  · simpa [eq_comm] using List.find?_some hi

/-- A dropped scan is not active any more, and nothing else changes. -/
theorem drop_store (hown : o.Owns) :
    o.drop.store.status.active = false ∧ o.drop.store.status.token = o.store.status.token := by
  unfold drop
  split
  · next hactive =>
    have hcurrent : o.store.current o.pass = true :=
      Store.current_iff.2 ⟨hactive, (hown.token hactive).symm⟩
    simp [Store.cancel, hcurrent, Store.cancelled]
  · next hidle => exact ⟨by simpa using hidle, rfl⟩

theorem drop_run {hs : List NativeScan.Record} (hrun : NativeScan.Run hs o.store) :
    ∃ hs', NativeScan.Run hs' o.drop.store := by
  unfold drop
  split
  · exact ⟨_, hrun.apply (.cancel o.pass) rfl⟩
  · exact ⟨hs, hrun⟩

theorem drop_eq (o : Observer) : o.drop = { o with store := o.drop.store } := by
  unfold drop
  split
  · rfl
  · rfl

/-! ## The open pass -/

/-- What calls say about dwells. -/
inductive Step
  | accepted (channel : Channel) (operation : DwellToken)
  | finished (operation : DwellToken)
  deriving DecidableEq

def stepOf (x : Record) : Option Step :=
  match x.op, x.result with
  | .channelAccepted _ _ _ channel operation, true => some (.accepted channel operation)
  | .channelFinished operation false, true => some (.finished operation)
  | _, _ => none

/-- The steps of some calls, oldest first. -/
def steps (later : List Record) : List Step := (later.filterMap stepOf).reverse

theorem steps_cons_of_none (hx : stepOf x = none) : steps (x :: later) = steps later := by
  rw [steps, List.filterMap_cons_none hx, steps]

theorem steps_cons_of_some (step : Step) (hx : stepOf x = some step) :
    steps (x :: later) = steps later ++ [step] := by
  rw [steps, List.filterMap_cons_some hx, List.reverse_cons, steps]

abbrev Dwell := Channel × DwellToken

/-- One dwell after the other, each accepted and then finished with its own token. -/
def script (dwells : List Dwell) : List Step :=
  dwells.flatMap fun d => [.accepted d.1 d.2, .finished d.2]

/-- The observation was made, from a frame, while the dwell of its own channel was pending: accepted
last, and not finished. -/
def Watched (later : List Record) (input : Input) : Prop :=
  ∃ after y before operation frame bytes signal nowUs dwells, later = after ++ y :: before ∧
    y.op = .observe operation frame bytes input.channel signal nowUs ∧
    advertisement frame bytes input.channel signal nowUs = some input ∧
    steps before = script dwells ++ [.accepted input.channel operation]

theorem Watched.cons {input : Input} (hw : Watched later input) : Watched (x :: later) input := by
  rcases hw with ⟨after, y, before, operation, frame, bytes, signal, nowUs, dwells, rfl, hrest⟩
  exact ⟨x :: after, y, before, operation, frame, bytes, signal, nowUs, dwells, rfl, hrest⟩

/-- The pass since its `begin`: the dwells that are over, and the one that is pending. -/
structure Pass (later : List Record) (o : Observer) (j : Journal) (plan : List Channel)
    (dwells : List Dwell) (current : Option Dwell) : Prop where
  clean : ∀ y ∈ later, y.after.isOpen = true ∧ y.after.blocked = false
  steps : steps later = script dwells ++ (current.map fun d => Step.accepted d.1 d.2).toList
  pending : o.pending = current.isSome
  dwell : ∀ d ∈ current, o.dwell = d.2 ∧ o.dwellChannel = d.1
  once : ((dwells ++ current.toList).map Prod.fst).Nodup
  planned : ∀ d ∈ dwells ++ current.toList, d.1 ∈ plan
  mask : ∀ i < o.planCount, o.completedMask.testBit i = true ↔ o.plan i ∈ dwells.map Prod.fst
  ordered : (dwells ++ current.toList).Pairwise fun a b => a.2.operation < b.2.operation
  last : ∀ d ∈ dwells ++ current.toList, d.2.operation ≤ o.lastOperation
  epoch : ∀ d ∈ dwells ++ current.toList, d.2.epoch = o.pass.epoch
  watched : ∀ input ∈ j.adds, Watched later input

variable {j j' : Journal} {plan : List Channel} {dwells : List Dwell} {current : Option Dwell}

/-- A call that leaves the observer's own record alone. -/
theorem Pass.quiet (store : Store) (hp : Pass later o j plan dwells current)
    (hx : stepOf x = none) (hafter : x.after.isOpen = true ∧ x.after.blocked = false)
    (hadds : ∀ input ∈ j'.adds, input ∈ j.adds ∨ Watched (x :: later) input) :
    Pass (x :: later) { o with store := store } j' plan dwells current where
  clean := by
    intro y hy
    rcases List.mem_cons.1 hy with rfl | hy
    · exact hafter
    · exact hp.clean y hy
  steps := by
    rw [steps_cons_of_none hx]
    exact hp.steps
  pending := hp.pending
  dwell := hp.dwell
  once := hp.once
  planned := hp.planned
  mask := hp.mask
  ordered := hp.ordered
  last := hp.last
  epoch := hp.epoch
  watched := by
    intro input hin
    rcases hadds input hin with hold | hnew
    · exact (hp.watched input hold).cons
    · exact hnew

/-- The history `h` led to `o`: its store is one that calls can lead to, and an open pass began with an
accepted `begin`. -/
structure Follows (h : List Record) (o : Observer) : Prop where
  owns : o.Owns
  idle : o.isOpen = false ∨ o.blocked = true → o.store.status.active = false
  store : ∃ hs, NativeScan.Run hs o.store ∧ (o.isOpen = true → o.blocked = false →
    ∃ later b earlier plan dwells current, h = later ++ b :: earlier ∧
      b.op = .begin o.pass.epoch o.mode o.activeMode (some plan) ∧ b.result = true ∧
      Agrees o plan ∧ Pass later o (journal hs) plan dwells current)

/-- Neither a blocked nor a closed observer has anything to show. -/
theorem follows_of_idle (hown : o.Owns) (hidle : o.store.status.active = false)
    (hstore : ∃ hs, NativeScan.Run hs o.store) (hclosed : o.isOpen = false ∨ o.blocked = true) :
    Follows h o where
  owns := hown
  idle := fun _ => hidle
  store := by
    rcases hstore with ⟨hs, hrun⟩
    refine ⟨hs, hrun, fun hopen hblocked => ?_⟩
    rcases hclosed with hc | hb
    · exact absurd (hopen.symm.trans hc) nofun
    · exact absurd (hb.symm.trans hblocked) nofun

theorem Owns.drop (hown : o.Owns) : o.drop.Owns := by
  rcases drop_store hown with ⟨hidle, htoken⟩
  rw [drop_eq]
  constructor
  · intro hactive
    exact absurd (hidle.symm.trans hactive) nofun
  · show o.drop.store.status.token.epoch < o.epoch ∨
      (o.drop.store.status.token.epoch = o.epoch ∧
        o.drop.store.status.token.generation ≤ o.generation)
    rw [htoken]
    exact hown.behind

theorem follows_block (hown : o.Owns) (hstore : ∃ hs, NativeScan.Run hs o.store) :
    Follows h o.block := by
  rcases hstore with ⟨hs, hrun⟩
  have hdrop := hown.drop
  refine follows_of_idle ⟨?_, hdrop.behind⟩ (drop_store hown).1 (drop_run hrun) (Or.inr rfl)
  exact hdrop.token

theorem follows_cancel (hown : o.Owns) (hstore : ∃ hs, NativeScan.Run hs o.store) :
    Follows h o.cancel := by
  rcases hstore with ⟨hs, hrun⟩
  have hdrop := hown.drop
  refine follows_of_idle ⟨?_, hdrop.behind⟩ (drop_store hown).1 (drop_run hrun) (Or.inl rfl)
  exact hdrop.token

variable {log : List (Event Empty NoCall Empty)}

theorem Follows.same (hf : Follows h o) (hx : stepOf ⟨o, op, log, ok, o⟩ = none) :
    Follows (⟨o, op, log, ok, o⟩ :: h) o where
  owns := hf.owns
  idle := hf.idle
  store := by
    rcases hf.store with ⟨hs, hrun, hpass⟩
    refine ⟨hs, hrun, fun hopen hblocked => ?_⟩
    rcases hpass hopen hblocked with
      ⟨later, b, earlier, plan, dwells, current, rfl, hb, hres, hagrees, hp⟩
    exact ⟨_ :: later, b, earlier, plan, dwells, current, rfl, hb, hres, hagrees,
      hp.quiet o.store hx ⟨hopen, hblocked⟩ fun input hin => Or.inl hin⟩

/-! ## One call -/

variable {epoch nowUs : UInt64}

theorem advertisement_channel {frame : Option (ℕ → UInt8)} {bytes : ℕ} {channel : Channel} {signal : Signal}
    {input : Input} (hin : advertisement frame bytes channel signal nowUs = some input) :
    input.channel = channel := by
  unfold advertisement at hin
  split at hin
  · cases hin
  split at hin
  · cases hin
  split at hin
  · cases hin
  split at hin
  · cases hin
  split at hin
  · cases hin
  · cases hin
    rfl

theorem Agrees.mem_plan (ha : Agrees o plan) {i : ℕ} (hi : i < o.planCount) : o.plan i ∈ plan := by
  rw [← ha.listed]
  exact mem_cells.2 ⟨i, hi, rfl⟩

theorem Agrees.plan_inj (ha : Agrees o plan) {i k : ℕ} (hi : i < o.planCount) (hk : k < o.planCount)
    (heq : o.plan i = o.plan k) : i = k := by
  have hnodup := ha.nodup
  rw [← ha.listed] at hnodup
  refine (List.getElem?_inj (by simpa using hi) hnodup).1 ?_
  rw [getElem?_cells hi, getElem?_cells hk, heq]

theorem Follows.pass (hf : Follows h o) (hopen : o.isOpen = true) (hblocked : o.blocked = false) :
    ∃ hs, NativeScan.Run hs o.store ∧
      ∃ later b earlier plan dwells current, h = later ++ b :: earlier ∧
        b.op = .begin o.pass.epoch o.mode o.activeMode (some plan) ∧ b.result = true ∧
        Agrees o plan ∧ Pass later o (journal hs) plan dwells current := by
  rcases hf.store with ⟨hs, hrun, hpass⟩
  exact ⟨hs, hrun, hpass hopen hblocked⟩

theorem Follows.reachable (hf : Follows h o) : ∃ hs, NativeScan.Run hs o.store := by
  rcases hf.store with ⟨hs, hrun, -⟩
  exact ⟨hs, hrun⟩

variable {active : Bool} {operation : DwellToken}

theorem Follows.accept {mode : Int32} {channel : Channel} (hf : Follows h o)
    (hout : o.channelAccepted epoch mode active channel operation = (ok, o')) :
    Follows (⟨o, .channelAccepted epoch mode active channel operation, log, ok, o'⟩ :: h) o' := by
  unfold channelAccepted at hout
  split at hout
  · rcases Prod.ext_iff.1 hout with ⟨rfl, rfl⟩
    exact hf.same rfl
  next hopen =>
  simp only [Bool.or_eq_true, not_or, Bool.not_eq_eq_eq_not, Bool.not_true, Bool.not_eq_false,
    Bool.not_eq_true] at hopen
  split at hout
  · rcases Prod.ext_iff.1 hout with ⟨rfl, rfl⟩
    exact follows_block hf.owns hf.reachable
  next i hindex =>
  split at hout
  · rcases Prod.ext_iff.1 hout with ⟨rfl, rfl⟩
    exact follows_block hf.owns hf.reachable
  next hfits =>
  rcases Prod.ext_iff.1 hout with ⟨rfl, rfl⟩
  simp only [not_or, not_not, UInt64.not_le, Bool.not_eq_true] at hfits
  rcases hfits with ⟨hpending, hepoch, hmode, hactive, hown, hlater, hbit⟩
  rcases index_eq_some hindex with ⟨hi, hchannel⟩
  rcases hf.pass hopen.1 hopen.2 with
    ⟨hs, hrun, later, b, earlier, plan, dwells, current, rfl, hb, hres, hagrees, hp⟩
  have hnone : current = none := by
    have hsome := hp.pending
    rw [hpending] at hsome
    simpa using hsome.symm
  subst hnone
  refine ⟨⟨hf.owns.token, hf.owns.behind⟩, hf.idle, hs, hrun, fun _ _ => ?_⟩
  refine ⟨_ :: later, b, earlier, plan, dwells, some (channel, operation), rfl, hb, hres,
    ⟨hagrees.active, hagrees.token, hagrees.planned, hagrees.channels, hagrees.listed, hagrees.mask,
      hagrees.nodup⟩, ?_⟩
  have hold : ∀ d ∈ dwells, d ∈ dwells ++ (none : Option Dwell).toList := by simp
  have hfresh : channel ∉ dwells.map Prod.fst := by
    rw [← hchannel, ← hp.mask i hi, hbit]
    exact Bool.false_ne_true
  constructor
  · intro y hy
    rcases List.mem_cons.1 hy with rfl | hy
    · exact hopen
    · exact hp.clean y hy
  · rw [steps_cons_of_some (.accepted channel operation) rfl, hp.steps]
    simp
  · rfl
  · intro d hd
    rcases Option.some.inj hd with rfl
    exact ⟨rfl, rfl⟩
  · have hnodup := hp.once
    simp only [Option.toList_none, List.append_nil] at hnodup
    rw [List.map_append, List.nodup_append]
    refine ⟨hnodup, by simp, ?_⟩
    intro c hc c' hc'
    rcases List.mem_singleton.1 hc' with rfl
    rintro rfl
    exact hfresh hc
  · intro d hd
    rcases List.mem_append.1 hd with hd | hd
    · exact hp.planned d (hold d hd)
    · rcases List.mem_singleton.1 hd with rfl
      exact hchannel ▸ hagrees.mem_plan hi
  · exact hp.mask
  · have hord := hp.ordered
    simp only [Option.toList_none, List.append_nil] at hord
    rw [List.pairwise_append]
    refine ⟨hord, List.pairwise_singleton _ _, ?_⟩
    intro d hd d' hd'
    rcases List.mem_singleton.1 hd' with rfl
    exact UInt64.lt_of_le_of_lt (hp.last d (hold d hd)) hlater
  · intro d hd
    rcases List.mem_append.1 hd with hd | hd
    · exact UInt64.le_of_lt (UInt64.lt_of_le_of_lt (hp.last d (hold d hd)) hlater)
    · rcases List.mem_singleton.1 hd with rfl
      exact UInt64.le_refl _
  · intro d hd
    rcases List.mem_append.1 hd with hd | hd
    · exact hp.epoch d (hold d hd)
    · rcases List.mem_singleton.1 hd with rfl
      exact hown
  · intro input hin
    exact (hp.watched input hin).cons

theorem Follows.look {frame : Option (ℕ → UInt8)} {bytes : ℕ} {channel : Channel} {signal : Signal} (hf : Follows h o)
    (hout : o.observe operation frame bytes channel signal nowUs = (ok, o')) :
    Follows (⟨o, .observe operation frame bytes channel signal nowUs, log, ok, o'⟩ :: h) o' := by
  unfold observe at hout
  split at hout
  · rcases Prod.ext_iff.1 hout with ⟨rfl, rfl⟩
    exact hf.same rfl
  next hobserving =>
  simp only [observing, Bool.not_eq_eq_eq_not, Bool.not_true, Bool.not_eq_false, Bool.and_eq_true,
    decide_eq_true_eq] at hobserving
  rcases hobserving with ⟨⟨⟨⟨hopen, hblocked⟩, hpending⟩, hdwell⟩, hchannel⟩
  split at hout
  · rcases Prod.ext_iff.1 hout with ⟨rfl, rfl⟩
    exact hf.same rfl
  next input hin =>
  rcases hadd : o.store.add o.pass input with ⟨r, store⟩
  rw [hadd] at hout
  rcases Prod.ext_iff.1 hout with ⟨rfl, rfl⟩
  rcases Store.add_frame hadd with ⟨hactive, htoken, hplanned, hchannels, hmask, hcount⟩
  rcases hf.pass hopen hblocked with
    ⟨hs, hrun, later, b, earlier, plan, dwells, current, rfl, hb, hres, hagrees, hp⟩
  have happly : NativeScan.apply (.add o.pass input) o.store = (.add r, store) := by
    rw [NativeScan.apply, hadd]
    rfl
  refine ⟨⟨?_, ?_⟩, ?_, _, hrun.apply _ happly, fun _ _ => ?_⟩
  · intro hact
    show store.status.token = o.pass
    rw [htoken, hagrees.token]
  · show store.status.token.epoch < o.epoch ∨
      (store.status.token.epoch = o.epoch ∧ store.status.token.generation ≤ o.generation)
    rw [htoken]
    exact hf.owns.behind
  · rintro (hc | hc)
    · exact absurd (hopen.symm.trans hc) (by rintro ⟨⟩)
    · exact absurd (hblocked.symm.trans hc) (by rintro ⟨⟩)
  refine ⟨_ :: later, b, earlier, plan, dwells, current, rfl, hb, hres, ?_, ?_⟩
  · refine ⟨hactive.trans hagrees.active, htoken.trans hagrees.token,
      hplanned.trans hagrees.planned, hchannels.trans hagrees.channels, hagrees.listed, ?_,
      hagrees.nodup⟩
    exact hagrees.mask.trans hmask.symm
  · refine hp.quiet _ rfl ⟨hopen, by simpa using hblocked⟩ fun x hx => ?_
    rcases note_adds hx with hx | rfl
    · exact Or.inl hx
    · -- The dwell that is pending is the one this frame belongs to.
      have hsome : current.isSome = true := hp.pending.symm.trans hpending
      rcases Option.isSome_iff_exists.1 hsome with ⟨d, rfl⟩
      rcases hp.dwell d rfl with ⟨hd, hc⟩
      have hin' := advertisement_channel hin
      refine Or.inr ⟨[], _, later, operation, frame, bytes, signal, nowUs, dwells, rfl, ?_, ?_, ?_⟩
      · rw [hin']
      · rw [hin']
        exact hin
      · rw [hp.steps, hin', ← hdwell, ← hchannel, hd, hc]
        rfl

theorem Follows.close {cancelled : Bool} (hf : Follows h o) (hout : o.channelFinished operation cancelled = (ok, o')) :
    Follows (⟨o, .channelFinished operation cancelled, log, ok, o'⟩ :: h) o' := by
  unfold channelFinished at hout
  split at hout
  · rcases Prod.ext_iff.1 hout with ⟨rfl, rfl⟩
    exact hf.same (by cases cancelled <;> rfl)
  next hopen =>
  simp only [Bool.or_eq_true, not_or, Bool.not_eq_eq_eq_not, Bool.not_true, Bool.not_eq_false,
    Bool.not_eq_true, decide_eq_true_eq, not_not] at hopen
  rcases hopen with ⟨⟨⟨hopen, hblocked⟩, hpending⟩, hdwell⟩
  split at hout
  · rcases Prod.ext_iff.1 hout with ⟨rfl, rfl⟩
    exact follows_cancel hf.owns hf.reachable
  next hcancelled =>
  have hcancelled : cancelled = false := by simpa using hcancelled
  subst hcancelled
  split at hout
  · rcases Prod.ext_iff.1 hout with ⟨rfl, rfl⟩
    exact follows_block hf.owns hf.reachable
  next i hindex =>
  rcases hf.pass hopen hblocked with
    ⟨hs, hrun, later, b, earlier, plan, dwells, current, rfl, hb, hres, hagrees, hp⟩
  split at hout
  · next store hmark =>
    rcases Prod.ext_iff.1 hout with ⟨rfl, rfl⟩
    cases Store.channelFinished_cases hmark
    exact follows_block hf.owns hf.reachable
  next store hmark =>
  rcases Prod.ext_iff.1 hout with ⟨rfl, rfl⟩
  rcases index_eq_some hindex with ⟨hi, hchannel⟩
  have happly : NativeScan.apply (.channelFinished o.pass o.dwellChannel) o.store =
      (.flag true, store) := by
    rw [NativeScan.apply, hmark]
    rfl
  have hsome : current.isSome = true := hp.pending.symm.trans hpending
  rcases Option.isSome_iff_exists.1 hsome with ⟨d, rfl⟩
  rcases hp.dwell d rfl with ⟨hd, hc⟩
  -- The store sets the same bit.
  have hstore : store.status.active = true ∧ store.status.token = o.pass ∧
      store.status.planned = true ∧ store.channels = plan ∧
      o.completedMask ||| 1 <<< i = store.completedMask := by
    cases Store.channelFinished_cases hmark with
    | again hcurrent hplan hindex' hbit =>
        rw [hagrees.index_eq, hindex'] at hindex
        rcases Option.some.inj hindex with rfl
        refine ⟨hagrees.active, hagrees.token, hplan, hagrees.channels, ?_⟩
        rw [hagrees.mask]
        exact marked_of_testBit hbit
    | first hcurrent hplan hindex' hbit =>
        rw [hagrees.index_eq, hindex'] at hindex
        rcases Option.some.inj hindex with rfl
        refine ⟨hagrees.active, hagrees.token, hplan, hagrees.channels, ?_⟩
        rw [hagrees.mask]
        rfl
  rcases hstore with ⟨hactive, htoken, hplanned, hchannels, hmask⟩
  refine ⟨⟨fun _ => htoken, ?_⟩, ?_, _, hrun.apply _ happly, fun _ _ => ?_⟩
  · show store.status.token.epoch < o.epoch ∨
      (store.status.token.epoch = o.epoch ∧ store.status.token.generation ≤ o.generation)
    rw [htoken, ← hagrees.token]
    exact hf.owns.behind
  · rintro (hno | hno)
    · exact absurd (hopen.symm.trans hno) (by rintro ⟨⟩)
    · exact absurd (hblocked.symm.trans hno) (by rintro ⟨⟩)
  refine ⟨_ :: later, b, earlier, plan, dwells ++ [d], none, rfl, hb, hres,
    ⟨hactive, htoken, hplanned, hchannels, hagrees.listed, hmask, hagrees.nodup⟩, ?_⟩
  have hlist : dwells ++ [d] ++ (none : Option Dwell).toList = dwells ++ (some d).toList := by simp
  constructor
  · intro y hy
    rcases List.mem_cons.1 hy with rfl | hy
    · exact ⟨hopen, hblocked⟩
    · exact hp.clean y hy
  · rw [steps_cons_of_some (.finished operation) rfl, hp.steps, ← hdwell, hd]
    simp [script]
  · rfl
  · exact (by simp)
  · rw [hlist]
    exact hp.once
  · rw [hlist]
    exact hp.planned
  · intro k hk
    show (o.completedMask ||| 1 <<< i).testBit k = true ↔ _
    rw [testBit_marked, hp.mask k hk, List.map_append, List.mem_append]
    refine or_congr_right ?_
    rw [List.map_singleton, List.mem_singleton, ← hc, ← hchannel]
    exact ⟨fun heq => by rw [heq], hagrees.plan_inj hk hi⟩
  · rw [hlist]
    exact hp.ordered
  · rw [hlist]
    exact hp.last
  · rw [hlist]
    exact hp.epoch
  · intro input hin
    exact (hp.watched input hin).cons

/-- A scan that has ended leaves the store idle or as it was. -/
theorem Follows.ended {result : FinishResult} {store : Store} (hf : Follows h o)
    (hfinish : o.store.finish o.pass .fullScan nowUs = (result, store)) :
    Owns { o with store := store } ∧ ∃ hs, NativeScan.Run hs store := by
  rcases hf.reachable with ⟨hs, hrun⟩
  have happly : NativeScan.apply (.finish o.pass .fullScan nowUs) o.store =
      (.finish result, store) := by
    rw [NativeScan.apply, hfinish]
    rfl
  refine ⟨?_, _, hrun.apply _ happly⟩
  cases Store.finish_cases hfinish with
  | refused hr => exact ⟨hf.owns.token, hf.owns.behind⟩
  | loss hcurrent => exact ⟨fun hactive => absurd hactive Bool.false_ne_true, hf.owns.behind⟩
  | published _ _ _ _ _ _ _ =>
      exact ⟨fun hactive => absurd hactive Bool.false_ne_true, hf.owns.behind⟩

theorem Follows.publish {mode : Int32} (hf : Follows h o) (hout : o.finish epoch mode active nowUs = (ok, o')) :
    Follows (⟨o, .finish epoch mode active nowUs, log, ok, o'⟩ :: h) o' := by
  unfold finish at hout
  split at hout
  · rcases Prod.ext_iff.1 hout with ⟨rfl, rfl⟩
    exact hf.same rfl
  split at hout
  · rcases hfinish : o.store.finish o.pass .fullScan nowUs with ⟨result, store⟩
    rw [hfinish] at hout
    rcases Prod.ext_iff.1 hout with ⟨rfl, rfl⟩
    rcases hf.ended hfinish with ⟨hown, hstore⟩
    exact follows_cancel hown hstore
  · rcases Prod.ext_iff.1 hout with ⟨rfl, rfl⟩
    exact follows_cancel hf.owns hf.reachable

theorem Behind.enterEpoch (hb : o.Behind) (hepoch : o.epoch ≤ epoch) :
    (o.reopened.enterEpoch epoch).Behind ∧ (o.reopened.enterEpoch epoch).epoch = epoch ∧
      (o.reopened.enterEpoch epoch).store = o.store ∧
      (o.reopened.enterEpoch epoch).completedMask = 0 ∧
      (o.reopened.enterEpoch epoch).isOpen = true ∧
      (o.reopened.enterEpoch epoch).blocked = false ∧
      (o.reopened.enterEpoch epoch).pending = false := by
  unfold Observer.enterEpoch
  split
  · next hne =>
    refine ⟨Or.inl ?_, rfl, rfl, rfl, rfl, rfl, rfl⟩
    have hlt : o.epoch < epoch := UInt64.lt_of_le_of_ne hepoch fun heq => hne heq.symm
    rcases hb with hb | ⟨hb, -⟩
    · exact UInt64.lt_trans hb hlt
    · exact hb ▸ hlt
  · next heq => exact ⟨hb, (not_not.1 heq).symm, rfl, rfl, rfl, rfl, rfl⟩

/-- The scan a `begin` opens in the store. -/
theorem Follows.start {mode : Int32} {channels : Option (List Channel)} (hf : Follows h o)
    (hout : o.begin epoch mode active channels = (ok, o')) :
    Follows (⟨o, .begin epoch mode active channels, log, ok, o'⟩ :: h) o' := by
  unfold begin at hout
  split at hout
  · rcases Prod.ext_iff.1 hout with ⟨rfl, rfl⟩
    exact hf.same rfl
  next hclosed =>
  have hidle : o.store.status.active = false := hf.idle (Or.inl (by simpa using hclosed))
  have hnotoken : ∀ {t : Token}, o.store.status.active = true → o.store.status.token = t := by
    intro t hactive
    exact absurd (hidle.symm.trans hactive) (by rintro ⟨⟩)
  split at hout
  · rcases Prod.ext_iff.1 hout with ⟨rfl, rfl⟩
    exact follows_block ⟨hnotoken, hf.owns.behind⟩ hf.reachable
  next hepoch =>
  simp only [not_or, UInt64.not_lt] at hepoch
  have hbehind := hf.owns.behind.enterEpoch hepoch.2
  generalize o.reopened.enterEpoch epoch = e at hout hbehind
  rcases hbehind with ⟨hbehind, hepoch', hstore, hmask, hopen, hblocked, hpending⟩
  split at hout
  · rcases Prod.ext_iff.1 hout with ⟨rfl, rfl⟩
    refine follows_block ⟨?_, hbehind⟩ ?_
    · rw [hstore]
      exact hnotoken
    · rw [hstore]
      exact hf.reachable
  next hmore =>
  have hnext : e.generation ≤ e.generation + 1 := UInt64.le_of_lt (Bits.lt_next hmore)
  dsimp only at hout
  split at hout
  · next store hbegin =>
    rcases Prod.ext_iff.1 hout with ⟨rfl, rfl⟩
    cases Store.begin_cases hbegin
    refine follows_block ⟨?_, ?_⟩ ?_
    · show e.store.status.active = true → e.store.status.token = _
      rw [hstore]
      exact hnotoken
    · rcases hbehind with hb | ⟨hb, hb'⟩
      · exact Or.inl hb
      · exact Or.inr ⟨hb, UInt64.le_trans hb' hnext⟩
    · show ∃ hs, NativeScan.Run hs e.store
      rw [hstore]
      exact hf.reachable
  next store hbegin =>
  rcases hf.reachable with ⟨hs, hrun⟩
  rw [← hstore] at hrun
  have happly : NativeScan.apply (.begin (e.generation + 1) epoch) e.store = (.flag true, store) := by
    rw [NativeScan.apply]
    exact congrArg (Prod.map Result.flag id) hbegin
  cases Store.begin_cases hbegin
  have hrun' := hrun.apply _ happly
  split at hout
  · next store hplan =>
    rcases Prod.ext_iff.1 hout with ⟨rfl, rfl⟩
    cases Store.plan_cases hplan
    exact follows_block ⟨fun _ => rfl, Or.inr ⟨hepoch'.symm, UInt64.le_refl _⟩⟩ ⟨_, hrun'⟩
  next store hplan =>
  rcases Prod.ext_iff.1 hout with ⟨rfl, rfl⟩
  have happly' : NativeScan.apply (.plan ⟨e.generation + 1, epoch⟩ channels)
      (e.store.begun ⟨e.generation + 1, epoch⟩) = (.flag true, store) := by
    rw [NativeScan.apply]
    exact congrArg (Prod.map Result.flag id) hplan
  cases Store.plan_cases hplan with
  | @accepted cs hcs hcurrent hfirst hne hmax hvalid =>
      subst hcs
      refine ⟨⟨fun _ => rfl, Or.inr ⟨hepoch'.symm, UInt64.le_refl _⟩⟩, ?_, _, hrun'.apply _ happly',
        fun _ _ => ?_⟩
      · rintro (hno | hno)
        · exact absurd (hopen.symm.trans hno) (by rintro ⟨⟩)
        · exact absurd (hblocked.symm.trans hno) (by rintro ⟨⟩)
      · refine ⟨[], _, h, cs, [], none, rfl, rfl, rfl, ?_, ?_⟩
        · constructor
          · rfl
          · rfl
          · rfl
          · exact Store.channels_withPlan _ cs
          · exact cells_overwritten cs {} _
          · exact hmask
          · exact validPlan_nodup hvalid
        · constructor
          · exact fun y hy => absurd hy List.not_mem_nil
          · rfl
          · exact hpending
          · exact fun d hd => absurd hd (Option.not_mem_none d)
          · exact List.nodup_nil
          · exact fun d hd => absurd hd List.not_mem_nil
          · intro i _
            show e.completedMask.testBit i = true ↔ _
            rw [hmask]
            simp
          · exact List.Pairwise.nil
          · exact fun d hd => absurd hd List.not_mem_nil
          · exact fun d hd => absurd hd List.not_mem_nil
          · exact fun input hin => absurd hin List.not_mem_nil

theorem Follows.step (hf : Follows h o) (hout : (exec op o).Outcome log (ok, o')) :
    Follows (⟨o, op, log, ok, o'⟩ :: h) o' := by
  have happly := exec_outcome hout
  cases op with
  | begin epoch mode active plan => exact hf.start happly
  | channelAccepted epoch mode active channel operation => exact hf.accept happly
  | observe operation frame bytes channel signal nowUs => exact hf.look happly
  | channelFinished operation cancelled => exact hf.close happly
  | finish epoch mode active nowUs => exact hf.publish happly
  | cancel =>
      rcases Prod.ext_iff.1 happly with ⟨rfl, rfl⟩
      exact follows_cancel hf.owns hf.reachable
  | rejectedChannel =>
      rcases Prod.ext_iff.1 happly with ⟨rfl, rfl⟩
      show Follows _ o.rejectedChannel
      unfold rejectedChannel
      split
      · exact follows_block hf.owns hf.reachable
      · next hclosed =>
        have hidle := hf.idle (Or.inl (by simpa using hclosed))
        exact follows_of_idle hf.owns hidle hf.reachable (Or.inl (by simpa using hclosed))

theorem follows_nil : Follows [] {} where
  owns := ⟨fun hactive => absurd hactive Bool.false_ne_true, Or.inr ⟨rfl, UInt64.le_refl 0⟩⟩
  idle := fun _ => rfl
  store := ⟨[], .nil, fun hopen => absurd hopen Bool.false_ne_true⟩

theorem run_follows (hrun : Run h o) : Follows h o :=
  Interaction.Run.invariant follows_nil (fun _ hf hout => hf.step hout) hrun

/-! ## What a successful pass has done -/

/-- The calls since the accepted `begin` of a pass over `plan`: the observer stayed open and was never
blocked, every planned channel had its dwell, one after the other, with increasing operations of the
pass's epoch, and whatever can be read from the store was observed during the dwell of its channel. -/
structure Completed (later : List Record) (epoch : UInt64) (plan : List Channel) (store : Store) :
    Prop where
  nodup : plan.Nodup
  clean : ∀ y ∈ later, y.after.isOpen = true ∧ y.after.blocked = false
  dwells : ∃ dwells, steps later = script dwells ∧ (dwells.map Prod.fst).Perm plan ∧
    (dwells.Pairwise fun a b => a.2.operation < b.2.operation) ∧ ∀ d ∈ dwells, d.2.epoch = epoch
  watched : ∀ i e, store.completedEntry i = some e →
    ∃ input, input.WellFormed ∧ input.CopiedTo e ∧ Watched later input

/-- Closing the pass leaves a store alone that is not active. -/
theorem cancel_store (hidle : o.store.status.active = false) : o.cancel.store = o.store := by
  show o.drop.store = o.store
  rw [drop, hidle]
  rfl

theorem Follows.completed {mode : Int32} (hf : Follows h o) (hout : o.finish epoch mode active nowUs = (true, o')) :
    ∃ later b earlier plan, h = later ++ b :: earlier ∧
      b.op = .begin epoch mode active (some plan) ∧ b.result = true ∧
      Completed later epoch plan o'.store := by
  unfold finish at hout
  split at hout
  · cases hout
  next hopen =>
  split at hout
  · next hfits =>
    rcases hfits with ⟨hblocked, hpending, rfl, rfl, rfl⟩
    rcases hfinish : o.store.finish o.pass .fullScan nowUs with ⟨result, store⟩
    rw [hfinish] at hout
    rcases Prod.ext_iff.1 hout with ⟨hresult, rfl⟩
    have hpublished : result = .published := by simpa using hresult
    subst hpublished
    rcases hf.pass (by simpa using hopen) (by simpa using hblocked) with
      ⟨hs, hrun, later, b, earlier, plan, dwells, current, rfl, hb, hres, hagrees, hp⟩
    have hnone : current = none := by
      have hsome := hp.pending
      rw [show o.pending = false by simpa using hpending] at hsome
      simpa using hsome.symm
    subst hnone
    have happly : NativeScan.apply (.finish o.pass .fullScan nowUs) o.store =
        (.finish .published, store) := by
      rw [NativeScan.apply, hfinish]
      rfl
    have hall : o.store.status.completedChannels = o.store.status.plannedChannels ∧
        store.status.active = false := by
      cases Store.finish_cases hfinish with
      | refused hr => exact absurd rfl hr
      | published _ _ hall _ _ _ _ => exact ⟨hall, rfl⟩
    have hrecorded := run_recorded hrun hagrees.active
    have hdwells : dwells ++ (none : Option Dwell).toList = dwells := by simp
    have honce := hp.once
    rw [hdwells] at honce
    refine ⟨later, b, earlier, plan, rfl, hb, hres, hagrees.nodup, hp.clean,
      ⟨dwells, ?_, ?_, ?_, ?_⟩, ?_⟩
    · rw [hp.steps]
      simp
    · refine (List.perm_ext_iff_of_nodup honce hagrees.nodup).2 fun c => ⟨?_, ?_⟩
      · intro hc
        rcases List.mem_map.1 hc with ⟨d, hd, rfl⟩
        exact hp.planned d (hdwells.symm ▸ hd)
      · -- Every bit of the mask is set, and each of them stands for a dwell.
        intro hc
        rw [← hagrees.listed] at hc
        rcases mem_cells.1 hc with ⟨i, hi, rfl⟩
        refine (hp.mask i hi).1 ?_
        rw [hagrees.mask]
        apply hrecorded.all_marked hall.1
        rw [hagrees.plannedChannels, ← hagrees.planCount]
        exact hi
    · rw [← hdwells]
      exact hp.ordered
    · intro d hd
      exact hp.epoch d (hdwells.symm ▸ hd)
    · intro i e he
      rw [cancel_store hall.2] at he
      rcases run_snapshot (hrun.apply _ happly) rfl with ⟨_, _, _, entries, _, _, hsnapshot⟩
      rw [hsnapshot.read] at he
      rcases (hsnapshot.contents e).1 (List.mem_of_getElem? he) with ⟨input, hchampion, hcopied⟩
      exact ⟨input, journal_wellFormed _ input hchampion.mem, hcopied,
        hp.watched input hchampion.mem⟩
  · cases hout

def Op.dwell : Op → Option DwellToken
  | .observe operation _ _ _ _ _ => some operation
  | .channelFinished operation _ => some operation
  | _ => none

/-- A call for another dwell than the pending one does nothing. -/
theorem apply_other (hop : op.dwell = some operation) (hother : ¬ (o.pending = true ∧ o.dwell = operation)) :
    (apply op o).2 = o := by
  cases op with
  | observe t frame bytes channel signal nowUs =>
      cases hop
      have hno : o.observing operation channel = false := by
        rw [observing]
        by_contra hyes
        simp only [Bool.not_eq_false, Bool.and_eq_true, decide_eq_true_eq] at hyes
        exact hother ⟨hyes.1.1.2, hyes.1.2⟩
      simp [apply, observe, hno]
  | channelFinished t cancelled =>
      cases hop
      have hno : (!o.isOpen || o.blocked || !o.pending || decide (o.dwell ≠ operation)) = true := by
        by_contra hyes
        simp only [Bool.not_eq_true, Bool.or_eq_false_iff, Bool.not_eq_false', decide_eq_false_iff_not,
          not_not] at hyes
        exact hother ⟨hyes.1.2, hyes.2⟩
      simp only [apply, channelFinished, hno, if_true]
  | _ => cases hop

/-- `finish` and `cancel` close the observer. -/
theorem apply_closed
    (hop : op = .cancel ∨ ∃ epoch mode active nowUs, op = .finish epoch mode active nowUs) :
    (apply op o).2.isOpen = false := by
  rcases hop with rfl | ⟨epoch, mode, active, nowUs, rfl⟩
  · rfl
  · show (o.finish epoch mode active nowUs).2.isOpen = false
    unfold finish
    split
    · next hclosed => simpa using hclosed
    split
    · rfl
    · rfl

theorem begin_store_accepts {s : Store} {generation : UInt64} (hidle : s.status.active = false) (hg : generation ≠ 0)
    (he : epoch ≠ 0) (hlater : s.status.token.Before ⟨generation, epoch⟩) :
    s.begin generation epoch = (true, s.begun ⟨generation, epoch⟩) := by
  rw [Store.begin, if_neg]
  simp only [hidle, Bool.false_or, Bool.or_eq_true, beq_iff_eq, hg, he, false_or,
    decide_eq_true_eq, Bool.and_eq_true, not_or, not_and, UInt64.not_lt, UInt64.not_le]
  rcases hlater with hlt | ⟨heq, hlt⟩
  · refine ⟨UInt64.le_of_lt hlt, fun heq => ?_⟩
    rw [heq] at hlt
    exact absurd hlt (UInt64.lt_irrefl _)
  · have heq' : s.status.token.epoch = epoch := heq
    exact ⟨heq' ▸ UInt64.le_refl _, fun _ => hlt⟩

theorem plan_store_accepts {s : Store} {token : Token} {cs : List Channel} (hne : cs ≠ [])
    (hmax : cs.length ≤ maxChannels) (hvalid : Store.validPlan cs = true) :
    (s.begun token).plan token (some cs) = (true, (s.begun token).withPlan cs) := by
  have hcurrent : (s.begun token).current token = true := Store.current_iff.2 ⟨rfl, rfl⟩
  have hfirst : (s.begun token).status.planned = false := rfl
  rw [Store.plan, if_neg]
  simp [hcurrent, hfirst, hne, hmax, hvalid]

theorem Follows.begins {mode : Int32} {cs : List Channel} (hf : Follows h o) (hclosed : o.isOpen = false)
    (hzero : epoch ≠ 0) (hepoch : o.epoch ≤ epoch) (hne : cs ≠ []) (hmax : cs.length ≤ maxChannels)
    (hvalid : Store.validPlan cs = true) (hmore : epoch = o.epoch → o.generation ≠ 0xffffffffffffffff) :
    (o.begin epoch mode active (some cs)).1 = true := by
  have hidle : o.store.status.active = false := hf.idle (Or.inl hclosed)
  have hfresh : (o.reopened.enterEpoch epoch).generation ≠ 0xffffffffffffffff := by
    unfold enterEpoch
    split
    · show (0 : UInt64) ≠ 0xffffffffffffffff
      decide
    · next heq => exact hmore (not_not.1 heq)
  rcases hf.owns.behind.enterEpoch hepoch with ⟨hbehind, hsame, hstore, -⟩
  rw [begin, if_neg (by simp [hclosed]), if_neg (by simp [hzero, UInt64.not_lt.2 hepoch]),
    if_neg hfresh]
  generalize o.reopened.enterEpoch epoch = e at *
  have hnext := Bits.lt_next hfresh
  have hlater : e.store.status.token.Before ⟨e.generation + 1, epoch⟩ := by
    rcases hbehind with hb | ⟨hb, hb'⟩
    · exact Or.inl (hsame ▸ hb)
    · exact Or.inr ⟨hb.trans hsame, UInt64.lt_of_le_of_lt hb' hnext⟩
  have hpositive : e.generation + 1 ≠ 0 := by
    intro heq
    rw [heq] at hnext
    exact absurd hnext (UInt64.not_lt.2 (UInt64.zero_le))
  have hbegin : (e.nextPass epoch mode active).store.begin (e.nextPass epoch mode active).pass.generation
      (e.nextPass epoch mode active).pass.epoch =
      (true, e.store.begun ⟨e.generation + 1, epoch⟩) := by
    have hquiet : e.store.status.active = false := by
      rw [hstore]
      exact hidle
    exact begin_store_accepts hquiet hpositive hzero hlater
  have hplan : (e.store.begun ⟨e.generation + 1, epoch⟩).plan (e.nextPass epoch mode active).pass
      (some cs) = (true, (e.store.begun ⟨e.generation + 1, epoch⟩).withPlan cs) :=
    plan_store_accepts hne hmax hvalid
  dsimp only
  rw [hbegin]
  dsimp only
  rw [hplan]

/-- A pass publishes only what it has seen through: a successful `finish` matches an accepted `begin`, and
in between every planned channel was accepted once and finished once with its own token, nothing
blocked or cancelled the pass, and every entry it publishes was observed during the dwell of its
channel.  Calls for other dwells do nothing; an active scan belongs to an open, unblocked pass that
has marked the same channels; `finish` and `cancel` close the observer, and a closed observer opens
again for every nonzero epoch that is not below the last one. -/
theorem pass_integrity (hrun : Run h o) :
    (∀ since x before, h = since ++ x :: before → ∀ epoch mode active nowUs,
      x.op = .finish epoch mode active nowUs → x.result = true →
      ∃ later b earlier plan, before = later ++ b :: earlier ∧
        b.op = .begin epoch mode active (some plan) ∧ b.result = true ∧
        Completed later epoch plan x.after.store) ∧
    (∀ x ∈ h, ∀ operation, x.op.dwell = some operation →
      ¬ (x.before.pending = true ∧ x.before.dwell = operation) → x.after = x.before) ∧
    (o.store.status.active = true →
      o.isOpen = true ∧ o.blocked = false ∧ o.completedMask = o.store.completedMask) ∧
    (∀ x ∈ h, (x.op = .cancel ∨ ∃ epoch mode active nowUs, x.op = .finish epoch mode active nowUs) →
      x.after.isOpen = false) ∧
    (o.isOpen = false → ∀ epoch mode active cs, epoch ≠ 0 → o.epoch ≤ epoch → cs ≠ [] →
      cs.length ≤ maxChannels → Store.validPlan cs = true →
      (epoch = o.epoch → o.generation ≠ 0xffffffffffffffff) →
      (o.begin epoch mode active (some cs)).1 = true) := by
  have hf := run_follows hrun
  refine ⟨?_, ?_, ?_, ?_, ?_⟩
  · rintro since x before rfl epoch mode active nowUs hop hresult
    rcases (Interaction.Run.drop hrun).tail with ⟨hbefore, -, hout⟩
    have happly := exec_outcome hout
    rw [hop, hresult] at happly
    exact (run_follows hbefore).completed happly
  · intro x hx operation hop hother
    have hafter := exec_outcome (Interaction.Run.outcome hrun hx)
    rw [← apply_other hop hother, hafter]
  · intro hactive
    have hlive : ¬ (o.isOpen = false ∨ o.blocked = true) := fun hno =>
      absurd ((hf.idle hno).symm.trans hactive) nofun
    simp only [not_or, Bool.not_eq_false, Bool.not_eq_true] at hlive
    rcases hf.pass hlive.1 hlive.2 with ⟨_, _, _, _, _, _, _, _, _, _, _, hagrees, _⟩
    exact ⟨hlive.1, hlive.2, hagrees.mask⟩
  · intro x hx hop
    have hafter := exec_outcome (Interaction.Run.outcome hrun hx)
    rw [← apply_closed (o := x.before) hop, hafter]
  · intro hclosed epoch mode active cs hzero hepoch hne hmax hvalid hmore
    exact hf.begins hclosed hzero hepoch hne hmax hvalid hmore

def trial (ops : List Op) : List Record × Observer :=
  ((replay exec (fun c (_ : Unit) => c.elim) ops {} ()).1,
    (replay exec (fun c (_ : Unit) => c.elim) ops {} ()).2.1)

theorem trial_run (ops : List Op) : Run (trial ops).1 (trial ops).2 :=
  replay_run exec (fun c (_ : Unit) => c.elim) ops {} ()

def beaconFrame : List UInt8 :=
  [0x80, 0, 0, 0, 0xff, 0xff, 0xff, 0xff, 0xff, 0xff, 2, 0, 0, 0, 0, 1, 2, 0, 0, 0, 0, 1, 0, 0,
    0, 0, 0, 0, 0, 0, 0, 0, 100, 0, 1, 0, 0, 2, 0x61, 0x62, 1, 1, 0x82]

/-- A pass over channel 6, where one beacon is heard. -/
def onePass : List Op :=
  [.begin 1 0 false (some [⟨.ghz2, 6⟩]), .channelAccepted 1 0 false ⟨.ghz2, 6⟩ ⟨1, 1⟩,
    .observe ⟨1, 1⟩ (some fun i => beaconFrame.getD i 0) 43 ⟨.ghz2, 6⟩ {} 5,
    .channelFinished ⟨1, 1⟩ false, .finish 1 0 false 10]

theorem pass_integrity_onePass :
    ∃ h o, Run h o ∧ (h.map fun x => x.result) = [true, true, true, true, true] ∧
      ((h.head?.map fun x => x.after.isOpen) = some false) ∧
      ((o.store.completedEntry 0).map fun e => ((List.ofFn e.ssid).take 3, e.beaconInterval)) =
        some ([0x61, 0x62, 0], 100) ∧
      (o.begin 1 0 false (some [⟨.ghz2, 6⟩])).1 = true := by
  have hrun := trial_run onePass
  refine ⟨_, _, hrun, by decide +kernel, by decide +kernel, by decide +kernel, ?_⟩
  exact (pass_integrity hrun).2.2.2.2 (by decide +kernel) 1 0 false [⟨.ghz2, 6⟩] (by decide)
    (by decide +kernel) (by decide) (by decide) (by decide) (by decide +kernel)

/-- Epoch 0 is not below the last one after a refused `begin` with epoch 0, and is refused again; and a
refused `begin` clears the observer's mask but not the store's. -/
theorem pass_integrity_zeroEpoch :
    (∃ h o, Run h o ∧ (h.map fun x => x.op) = [.cancel, .begin 0 0 false (some [⟨.ghz2, 6⟩])] ∧
      o.isOpen = false ∧ o.epoch ≤ 0 ∧ Store.validPlan [⟨.ghz2, 6⟩] = true ∧
      o.generation ≠ 0xffffffffffffffff ∧
      (o.begin 0 0 false (some [⟨.ghz2, 6⟩])).1 = false) ∧
    ∃ h o, Run h o ∧ o.completedMask ≠ o.store.completedMask := by
  refine ⟨?_, ?_⟩
  · have hrun := trial_run [.begin 0 0 false (some [⟨.ghz2, 6⟩]), .cancel]
    exact ⟨_, _, hrun, rfl, by decide +kernel, by decide +kernel, by decide +kernel,
      by decide +kernel, by decide +kernel⟩
  · have hrun := trial_run (onePass ++ [.begin 0 0 false none])
    exact ⟨_, _, hrun, by decide +kernel⟩

end Observer

end NativeScan
end Rtl8852be
