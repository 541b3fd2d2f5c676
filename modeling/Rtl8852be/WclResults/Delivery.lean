import Rtl8852be.Bits.Word
import Rtl8852be.WclResults.NativeWclScanResults

/-!
# Delivery — the frames of a request

For every request that was armed, the committed frames are its results in order and then, when all of them
are committed, the frame that ends it.

* `Effect` — what one call can do;
* `Serves` — how far the bridge is with the request it was armed for;
* `Over` — nothing comes of a request any more.
-/

namespace Rtl8852be
namespace WclResults

open Interaction NativeScan WclBeacon

/-! ## Requests -/

def Before (a b : ForegroundScan.Token) : Prop :=
  a.epoch < b.epoch ∨ a.epoch = b.epoch ∧ a.request < b.request

theorem Before.trans {a b c : ForegroundScan.Token} (hab : Before a b) (hbc : Before b c) : Before a c := by
  rcases hab with hab | ⟨hab, hab'⟩
  · rcases hbc with hbc | ⟨hbc, -⟩
    · exact Or.inl (UInt64.lt_trans hab hbc)
    · exact Or.inl (hbc ▸ hab)
  · rcases hbc with hbc | ⟨hbc, hbc'⟩
    · exact Or.inl (hab ▸ hbc)
    · exact Or.inr ⟨hab.trans hbc, UInt64.lt_trans hab' hbc'⟩

theorem Before.irrefl (a : ForegroundScan.Token) : ¬ Before a a := by
  rintro (h | ⟨-, h⟩)
  · exact UInt64.lt_irrefl _ h
  · exact UInt64.lt_irrefl _ h

/-- A request as it was armed: the status of its scan and the store that holds its snapshot. -/
structure Armed where
  scan : ForegroundScan.Status
  store : Store
  type : WclScan.BssType

/-- The entries the request wants, by their index in the snapshot. -/
def Armed.selected (a : Armed) : List ℕ :=
  (List.range (a.store.completed.elim 0 Summary.count)).filter fun i =>
    (a.store.completedEntry i).any (eligible · a.type)

/-- The scan and the snapshot are still the armed ones. -/
def Armed.Still (a : Armed) (scan : ForegroundScan.Status) (store : Store) : Prop :=
  scan.token = a.scan.token ∧ scan.phase = .complete ∧ scan.drained = true ∧
    scan.snapshot = a.scan.snapshot ∧
    ∃ summary, store.completed = some summary ∧ summary.token = a.scan.snapshot ∧
      some summary.completedAtUs = a.store.completed.map Summary.completedAtUs ∧ summary.count ≤ maxNetworks

/-! ## The loop of `begin` -/

section Select

variable {profile : TargetProfile} {type : WclScan.BssType} {store : Store} {memory : Memory}
  {scratch : Buffer} {n i selected selected' : ℕ} {indices indices' : ℕ → UInt8}

/-- The entries that are wanted among the `n` from index `i` on. -/
def wanted (type : WclScan.BssType) (store : Store) (i n : ℕ) : List ℕ :=
  (List.range' i n).filter fun k => (store.completedEntry k).any (eligible · type)

theorem wanted_succ (type : WclScan.BssType) (n : ℕ) {entry : Entry} (hentry : store.completedEntry i = some entry) :
    wanted type store i (n + 1) =
      if eligible entry type then i :: wanted type store (i + 1) n else wanted type store (i + 1) n := by
  rw [wanted, List.range'_succ, List.filter_cons, hentry]
  rfl

theorem select_spec (h : Bridge.select profile type store memory scratch n i selected indices =
    (none, selected', indices')) :
    selected' = selected + (wanted type store i n).length ∧ (∀ k < selected, indices' k = indices k) ∧
      ∀ k (hk : k < (wanted type store i n).length),
        indices' (selected + k) = UInt8.ofNat (wanted type store i n)[k] := by
  induction n generalizing i selected indices with
  | zero =>
      cases h
      exact ⟨rfl, fun k _ => rfl, fun k hk => absurd hk (Nat.not_lt_zero k)⟩
  | succ n ih =>
      rw [Bridge.select] at h
      cases hentry : store.completedEntry i with
      | none =>
          rw [hentry] at h
          cases h
      | some entry =>
          rw [hentry] at h
          simp only at h
          have hwanted := wanted_succ type n hentry
          by_cases helig : eligible entry type = false
          · rw [if_pos helig] at h
            rw [helig] at hwanted
            rw [hwanted]
            exact ih h
          rw [if_neg helig] at h
          rw [if_pos (Bool.eq_true_of_not_eq_false helig)] at hwanted
          split at h
          · cases h
          rcases ih h with ⟨hcount, hkept, hnew⟩
          rw [hwanted]
          refine ⟨?_, ?_, ?_⟩
          · rw [hcount, List.length_cons]
            omega
          · intro k hk
            rw [hkept k (by omega), Function.update_of_ne (by omega)]
          · -- the index that was written, then those of the rest of the loop
            intro k hk
            cases k with
            | zero =>
                rw [Nat.add_zero, hkept selected (by omega), Function.update_self]
                rfl
            | succ k =>
                have hk' : k < (wanted type store (i + 1) n).length := by simpa using hk
                have hnext := hnew k hk'
                rw [show selected + (k + 1) = selected + 1 + k by omega, hnext]
                rfl

theorem select_ne_ready :
    (Bridge.select profile type store memory scratch n i selected indices).1 ≠ some .ready := by
  induction n generalizing i selected indices with
  | zero => exact nofun
  | succ n ih =>
      rw [Bridge.select]
      split
      · exact nofun
      · split
        · exact ih
        · simp only
          split
          · exact nofun
          · exact ih

end Select

/-! ## What a call can do -/

def Bridge.reservation (b : Bridge) : Option Frame :=
  if b.phase = .reserved ∧ b.pendingDelivery ≠ 0 then
    some
      { request := b.request
        snapshot := b.snapshot
        delivery := b.pendingDelivery
        event := b.pendingEvent
        bytes := b.pendingBytes
        ordinal := b.cursor }
  else
    none

inductive Effect (b : Bridge) : Op → Result → Bridge → Prop
  | armed {profile : TargetProfile} {verified : Bool} {request : WclScan.Request}
      {scan : ForegroundScan.Status} {store : Store} {memory : Memory} {scratch : Buffer}
      {written : Option (List UInt8)} {summary : Summary} {selected : ℕ} {indices : ℕ → UInt8}
      (hidle : b.phase = .idle) (hlater : Before b.lastArmed scan.token)
      (hsummary : store.completed = some summary) (hcount : summary.count ≤ maxNetworks)
      (hselect : Bridge.select profile request.bssType store memory scratch summary.count 0 0 b.indices =
        (none, selected, indices)) :
      Effect b (.begin profile verified request scan store memory scratch) (.begun .ready written)
        (b.armed scan summary.completedAtUs selected indices)
  | refused {profile : TargetProfile} {verified : Bool} {request : WclScan.Request}
      {scan : ForegroundScan.Status} {store : Store} {memory : Memory} {scratch : Buffer} {status : Status}
      {written : Option (List UInt8)} {indices : ℕ → UInt8}
      (hidle : b.phase = .idle ∨ indices = b.indices) (hstatus : status ≠ .ready) :
      Effect b (.begin profile verified request scan store memory scratch) (.begun status written)
        { b with indices := indices }
  | result {scan : ForegroundScan.Status} {store : Store} {memory : Memory} {buffer : Buffer} {out : Frame}
      {entry : Entry} {written : List UInt8} (hready : b.phase = .ready)
      (hcurrent : b.current scan store = true) (hroom : b.delivery ≠ 0xffffffffffffffff)
      (hmore : b.cursor < b.count) (hentry : store.completedEntry (b.indices b.cursor).toNat = some entry)
      (hwritten : payload entry <+: written) :
      Effect b (.reserve scan store memory buffer out)
        (.reserved .frameReady (b.draft resultEvent (payload entry).length) (some written))
        (b.produced resultEvent (payload entry).length)
  | done {scan : ForegroundScan.Status} {store : Store} {memory : Memory} {buffer : Buffer} {out : Frame}
      {written : Option (List UInt8)} (hready : b.phase = .ready) (hcurrent : b.current scan store = true)
      (hroom : b.delivery ≠ 0xffffffffffffffff) (hend : b.count ≤ b.cursor) :
      Effect b (.reserve scan store memory buffer out)
        (.reserved .frameReady (b.draft doneEvent doneBytes) written) (b.produced doneEvent doneBytes)
  | notReserved {scan : ForegroundScan.Status} {store : Store} {memory : Memory} {buffer : Buffer}
      {out left : Frame} {status : Status} {written : Option (List UInt8)} (hframe : status ≠ .frameReady)
      (hstale : status ≠ .stale) :
      Effect b (.reserve scan store memory buffer out) (.reserved status left written) b
  | gaveUp {scan : ForegroundScan.Status} {store : Store} {memory : Memory} {buffer : Buffer}
      {out left : Frame} {status : Status} {written : Option (List UInt8)} (hready : b.phase = .ready)
      (hframe : status ≠ .frameReady) :
      Effect b (.reserve scan store memory buffer out) (.reserved status left written) b.abort
  | mismatched {frame : Frame} {accepted : Bool} {scan : ForegroundScan.Status} {store : Store}
      (hno : b.reservation ≠ some frame) : Effect b (.commit frame accepted scan store) (.flag false) b
  | rejected {frame : Frame} {accepted : Bool} {scan : ForegroundScan.Status} {store : Store}
      (hframe : b.reservation = some frame) (hno : accepted = false ∨ b.current scan store = false) :
      Effect b (.commit frame accepted scan store) (.flag false) b.abort
  | delivered {frame : Frame} {accepted : Bool} {scan : ForegroundScan.Status} {store : Store}
      (hframe : b.reservation = some frame) (haccepted : accepted = true)
      (hcurrent : b.current scan store = true) (hevent : frame.event ≠ doneEvent) :
      Effect b (.commit frame accepted scan store) (.flag true)
        { b.settled with cursor := b.cursor + 1, phase := .ready }
  | completed {frame : Frame} {accepted : Bool} {scan : ForegroundScan.Status} {store : Store}
      (hframe : b.reservation = some frame) (haccepted : accepted = true)
      (hcurrent : b.current scan store = true) (hevent : frame.event = doneEvent) :
      Effect b (.commit frame accepted scan store) (.flag true) { b.settled with phase := .completed }
  | abort : Effect b .abort .nothing b.abort
  | retired (hphase : b.phase = .completed ∨ b.phase = .aborted) : Effect b .retire (.flag true) b.retire.2
  | kept : Effect b .retire (.flag false) b

variable {b b' : Bridge} {op : Op} {result : Result} {scan : ForegroundScan.Status} {store : Store}

theorem begin_effect {profile : TargetProfile} {verified : Bool} {request : WclScan.Request} {memory : Memory}
    {scratch : Buffer} {status : Status} {written : Option (List UInt8)}
    (h : b.begin profile verified request scan store memory scratch = (status, written, b')) :
    Effect b (.begin profile verified request scan store memory scratch) (.begun status written) b' := by
  have hkept : ∀ {s : Status} {w : Option (List UInt8)}, s ≠ .ready → (s, w, b) = (status, written, b') →
      Effect b (.begin profile verified request scan store memory scratch) (.begun status written) b' := by
    intro s w hs heq
    cases heq
    have hsame : { b with indices := b.indices } = b := rfl
    rw [← hsame]
    exact Effect.refused (Or.inr rfl) hs
  unfold Bridge.begin at h
  by_cases hidle : b.phase ≠ .idle
  · rw [if_pos hidle] at h
    exact hkept Status.noConfusion h
  rw [if_neg hidle] at h
  split at h
  · exact hkept Status.noConfusion h
  split at h
  · exact hkept Status.noConfusion h
  split at h
  · exact hkept Status.noConfusion h
  cases hsummary : store.completed with
  | none =>
      rw [hsummary] at h
      exact hkept Status.noConfusion h
  | some summary =>
      rw [hsummary] at h
      simp only at h
      split at h
      · exact hkept Status.noConfusion h
      rename_i hsnapshot
      split at h
      · exact hkept Status.noConfusion h
      split at h
      · exact hkept Status.noConfusion h
      rename_i hlast
      have hlater : Before b.lastArmed scan.token := by
        simp only [not_or, not_and, UInt64.not_le, UInt64.not_lt] at hlast
        by_cases hepoch : b.lastArmed.epoch = scan.token.epoch
        · exact Or.inr ⟨hepoch, hlast.2 hepoch⟩
        · exact Or.inl (UInt64.lt_of_le_of_ne hlast.1 hepoch)
      simp only [not_or, Nat.not_lt] at hsnapshot
      split at h
      · -- the loop may have written indices before it stopped
        rename_i refused count indices hselect
        cases h
        refine Effect.refused (Or.inl (not_not.1 hidle)) ?_
        rintro rfl
        exact select_ne_ready (by rw [hselect])
      · rename_i selected indices hselect
        cases h
        exact Effect.armed (not_not.1 hidle) hlater hsummary hsnapshot.2.2.1 hselect

theorem reserve_effect {memory : Memory} {buffer : Buffer} {out left : Frame} {status : Status}
    {written : Option (List UInt8)} (h : b.reserve scan store memory buffer out = ((status, left, written), b')) :
    Effect b (.reserve scan store memory buffer out) (.reserved status left written) b' := by
  have hkept : ∀ {s : Status} {f : Frame} {w : Option (List UInt8)}, s ≠ .frameReady → s ≠ .stale →
      ((s, f, w), b) = ((status, left, written), b') →
      Effect b (.reserve scan store memory buffer out) (.reserved status left written) b' := by
    intro s f w hframe hstale heq
    cases heq
    exact Effect.notReserved hframe hstale
  unfold Bridge.reserve at h
  rcases ite_eq_iff.1 h with ⟨-, h⟩ | ⟨-, h⟩
  · exact hkept Status.noConfusion Status.noConfusion h
  rcases ite_eq_iff.1 h with ⟨-, h⟩ | ⟨-, h⟩
  · exact hkept Status.noConfusion Status.noConfusion h
  rcases ite_eq_iff.1 h with ⟨-, h⟩ | ⟨-, h⟩
  · exact hkept Status.noConfusion Status.noConfusion h
  rcases ite_eq_iff.1 h with ⟨-, h⟩ | ⟨-, h⟩
  · exact hkept Status.noConfusion Status.noConfusion h
  rcases ite_eq_iff.1 h with ⟨-, h⟩ | ⟨-, h⟩
  · exact hkept Status.noConfusion Status.noConfusion h
  rcases ite_eq_iff.1 h with ⟨-, h⟩ | ⟨hphase, h⟩
  · exact hkept Status.noConfusion Status.noConfusion h
  have hready := not_not.1 hphase
  have hgave : ∀ {s : Status} {f : Frame} {w : Option (List UInt8)}, s ≠ .frameReady →
      ((s, f, w), b.abort) = ((status, left, written), b') →
      Effect b (.reserve scan store memory buffer out) (.reserved status left written) b' := by
    intro s f w hframe heq
    cases heq
    exact Effect.gaveUp hready hframe
  rcases ite_eq_iff.1 h with ⟨-, h⟩ | ⟨hcurrent, h⟩
  · exact hgave Status.noConfusion h
  have hcurrent := Bool.eq_true_of_not_eq_false hcurrent
  rcases ite_eq_iff.1 h with ⟨-, h⟩ | ⟨hroom, h⟩
  · exact hgave Status.noConfusion h
  rcases ite_eq_iff.1 h with ⟨hmore, h⟩ | ⟨hmore, h⟩
  · cases hentry : store.completedEntry (b.indices b.cursor).toNat with
    | none =>
        rw [hentry] at h
        exact hgave Status.noConfusion h
    | some entry =>
        rcases hencode : encode .darwin24_4_0_d8b50fc2 entry (memory.entry (b.indices b.cursor).toNat) buffer
          with ⟨encoded, bytes⟩
        simp only [hentry, hencode] at h
        rcases ite_eq_iff.1 h with ⟨-, h⟩ | ⟨hencoded, h⟩
        · rcases ite_eq_iff.1 h with ⟨-, h⟩ | ⟨-, h⟩
          · exact hkept Status.noConfusion Status.noConfusion h
          · exact hgave Status.noConfusion h
        · have hstatus : (encode .darwin24_4_0_d8b50fc2 entry (memory.entry (b.indices b.cursor).toNat)
              buffer).1.status = .knownPartial := by
            rw [hencode]
            exact not_not.1 fun hne => hencoded (Or.inl hne)
          rcases encode_known hstatus with ⟨-, hbytes, hprefix⟩
          rw [hencode] at hbytes hprefix
          rw [show encoded.payloadBytes = (payload entry).length from hbytes] at h
          cases h
          exact Effect.result hready hcurrent hroom hmore hentry hprefix
  · rcases ite_eq_iff.1 h with ⟨-, h⟩ | ⟨-, h⟩
    · exact hkept Status.noConfusion Status.noConfusion h
    · cases h
      exact Effect.done hready hcurrent hroom (Nat.not_lt.1 hmore)

/-- The comparison of `commit` is with the reserved frame as a whole. -/
theorem reservation_eq_some {frame : Frame} :
    b.reservation = some frame ↔
      ¬ (b.phase ≠ .reserved ∨ b.pendingDelivery = 0 ∨ frame.delivery ≠ b.pendingDelivery ∨
        frame.event ≠ b.pendingEvent ∨ frame.bytes ≠ b.pendingBytes ∨ frame.emissionReady = true ∨
        frame.ordinal ≠ b.cursor ∨ frame.request ≠ b.request ∨ frame.snapshot ≠ b.snapshot) := by
  simp only [not_or, not_not, Bool.not_eq_true]
  unfold Bridge.reservation
  constructor
  · intro h
    by_cases hreserved : b.phase = .reserved ∧ b.pendingDelivery ≠ 0
    · rw [if_pos hreserved] at h
      cases h
      exact ⟨hreserved.1, hreserved.2, rfl, rfl, rfl, rfl, rfl, rfl, rfl⟩
    · rw [if_neg hreserved] at h
      cases h
  · rintro ⟨hphase, hpending, hdelivery, hevent, hbytes, hemission, hordinal, hrequest, hsnapshot⟩
    rw [if_pos ⟨hphase, hpending⟩, ← hdelivery, ← hevent, ← hbytes, ← hordinal, ← hrequest, ← hsnapshot,
      ← hemission]

theorem commit_effect {frame : Frame} {accepted ok : Bool} (h : b.commit frame accepted scan store = (ok, b')) :
    Effect b (.commit frame accepted scan store) (.flag ok) b' := by
  unfold Bridge.commit at h
  by_cases hframe : b.reservation = some frame
  · rw [if_neg (reservation_eq_some.1 hframe)] at h
    by_cases hno : accepted = false ∨ b.current scan store = false
    · rw [if_pos hno] at h
      cases h
      exact Effect.rejected hframe hno
    rw [if_neg hno] at h
    rcases not_or.1 hno with ⟨haccepted, hcurrent⟩
    have haccepted := Bool.eq_true_of_not_eq_false haccepted
    have hcurrent := Bool.eq_true_of_not_eq_false hcurrent
    by_cases hevent : frame.event = doneEvent
    · rw [if_pos hevent] at h
      cases h
      exact Effect.completed hframe haccepted hcurrent hevent
    · rw [if_neg hevent] at h
      cases h
      exact Effect.delivered hframe haccepted hcurrent hevent
  · rw [if_pos (not_not.1 fun hno => hframe (reservation_eq_some.2 hno))] at h
    cases h
    exact Effect.mismatched hframe

theorem apply_effect (h : apply op b = (result, b')) : Effect b op result b' := by
  cases op with
  | begin profile verified request scan store memory scratch =>
      rcases hbegin : b.begin profile verified request scan store memory scratch with ⟨status, written, after⟩
      simp only [apply, hbegin] at h
      cases h
      exact begin_effect hbegin
  | reserve scan store memory buffer out =>
      rcases hreserve : b.reserve scan store memory buffer out with ⟨⟨status, left, written⟩, after⟩
      simp only [apply, hreserve] at h
      cases h
      exact reserve_effect hreserve
  | commit frame accepted scan store =>
      rcases hcommit : b.commit frame accepted scan store with ⟨ok, after⟩
      simp only [apply, hcommit] at h
      cases h
      exact commit_effect hcommit
  | abort =>
      cases h
      exact Effect.abort
  | retire =>
      by_cases hphase : b.phase ≠ .completed ∧ b.phase ≠ .aborted
      · have hretire : b.retire = (false, b) := if_pos hphase
        simp only [apply, hretire] at h
        cases h
        exact Effect.kept
      · have hok : b.retire.1 = true := by
          unfold Bridge.retire
          rw [if_neg hphase]
        have heq : apply .retire b = (.flag b.retire.1, b.retire.2) := rfl
        rw [heq, hok] at h
        cases h
        rw [not_and_or, not_not, not_not] at hphase
        exact Effect.retired hphase

/-! ## Transcripts -/

def armedBy (x : Record) : Option Armed :=
  match x.op, x.result with
  | .begin _ _ request scan store _ _, .begun .ready _ => some ⟨scan, store, request.bssType⟩
  | _, _ => none

def producedBy (x : Record) : Option Frame :=
  match x.result with
  | .reserved .frameReady frame _ => some frame
  | _ => none

def committedBy (x : Record) : Option Frame :=
  match x.op, x.result with
  | .commit frame _ _ _, .flag true => some frame
  | _, _ => none

/-- The requests that were armed, newest first. -/
def arms (h : List Record) : List Armed := h.filterMap armedBy

def produced (h : List Record) : List Frame := h.filterMap producedBy

/-- The committed frames of a request, newest first. -/
def committed (token : ForegroundScan.Token) (h : List Record) : List Frame :=
  (h.filterMap committedBy).filter fun f => f.request = token

/-- The frames that are reserved.  A commit settles the frame it names, whatever it says about it, and
`abort` gives up on all of them. -/
def outstanding : List Record → List Frame
  | [] => []
  | x :: h =>
      match x.op, x.result with
      | .abort, _ => []
      | .commit frame _ _ _, _ => (outstanding h).filter fun f => f ≠ frame
      | _, .reserved .frameReady frame _ => frame :: outstanding h
      | _, _ => outstanding h

variable {h h' : List Record} {log : List (Event Empty NoCall Empty)} {a : Armed} {x : Record}
  {token : ForegroundScan.Token}

theorem arms_cons_of_none (hx : armedBy x = none) : arms (x :: h) = arms h := List.filterMap_cons_none hx

theorem produced_cons_of_none (hx : producedBy x = none) : produced (x :: h) = produced h :=
  List.filterMap_cons_none hx

theorem committed_cons_of_none (hx : committedBy x = none) : committed token (x :: h) = committed token h := by
  rw [committed, List.filterMap_cons_none hx, committed]

/-! ## The request that is served -/

/-- The bridge works for this request. -/
structure Serves (b : Bridge) (a : Armed) : Prop where
  request : b.request = a.scan.token
  snapshot : b.snapshot = a.scan.snapshot
  time : a.store.completed.map Summary.completedAtUs = some b.completedAtUs
  count : b.count = a.selected.length
  indices : ∀ k (hk : k < a.selected.length), (b.indices k).toNat = a.selected[k]

theorem serves_armed {profile : TargetProfile} {request : WclScan.Request} {memory : Memory} {scratch : Buffer}
    {summary : Summary} {selected : ℕ} {indices : ℕ → UInt8} (hsummary : store.completed = some summary)
    (hcount : summary.count ≤ maxNetworks)
    (hselect : Bridge.select profile request.bssType store memory scratch summary.count 0 0 b.indices =
        (none, selected, indices)) :
    Serves (b.armed scan summary.completedAtUs selected indices) ⟨scan, store, request.bssType⟩ := by
  have hwanted : (Armed.mk scan store request.bssType).selected =
      wanted request.bssType store 0 summary.count := by
    rw [Armed.selected, hsummary, wanted, ← List.range_eq_range']
    rfl
  rcases select_spec hselect with ⟨hselected, -, hindices⟩
  refine ⟨rfl, rfl, ?_, ?_, ?_⟩
  · show store.completed.map _ = _
    rw [hsummary]
    rfl
  · show selected = _
    rw [hwanted, hselected, Nat.zero_add]
  · intro k hk
    have hk' : k < (wanted request.bssType store 0 summary.count).length := by rw [← hwanted]; exact hk
    have hindex := hindices k hk'
    rw [Nat.zero_add] at hindex
    show (indices k).toNat = _
    have hsmall : (wanted request.bssType store 0 summary.count)[k] < summary.count := by
      have hmem := List.mem_range'_1.1 (List.mem_filter.1 (List.getElem_mem hk')).1
      omega
    have hbyte : (wanted request.bssType store 0 summary.count)[k] < 256 := by
      have h64 : maxNetworks = 64 := rfl
      omega
    rw [hindex, UInt8.toNat_ofNat_of_lt' hbyte]
    exact List.getElem_of_eq hwanted.symm hk'

theorem Serves.current_iff (hs : Serves b a) (hphase : b.phase ≠ .idle) :
    b.current scan store = true ↔ a.Still scan store := by
  have hbusy : (b.phase != .idle) = true := bne_iff_ne.2 hphase
  unfold Bridge.current Armed.Still
  rw [hs.time]
  cases hsummary : store.completed with
  | none => simp
  | some summary =>
      simp only [hbusy, hs.request, hs.snapshot, Bool.true_and, Bool.and_eq_true, beq_iff_eq, decide_eq_true_eq,
        Option.some.injEq, exists_eq_left']
      constructor
      · rintro ⟨⟨⟨⟨⟨⟨hrequest, hcomplete⟩, hdrained⟩, hscan⟩, htoken⟩, htime⟩, hcount⟩
        exact ⟨hrequest.symm, hcomplete, hdrained, hscan.symm, htoken.symm, htime, hcount⟩
      · rintro ⟨hrequest, hcomplete, hdrained, hscan, htoken, htime, hcount⟩
        exact ⟨⟨⟨⟨⟨⟨hrequest.symm, hcomplete⟩, hdrained⟩, hscan.symm⟩, htoken.symm⟩, htime⟩, hcount⟩

/-- A result frame: the `k`th entry that the request wants, as it was found in the armed snapshot when the
frame was reserved. -/
structure IsResult (h : List Record) (a : Armed) (k : ℕ) (f : Frame) : Prop where
  request : f.request = a.scan.token
  snapshot : f.snapshot = a.scan.snapshot
  event : f.event = resultEvent
  ordinal : f.ordinal = k
  source : ∃ i, a.selected[k]? = some i ∧ ∃ x ∈ h, ∃ scan store memory buffer out entry written,
    x.op = .reserve scan store memory buffer out ∧ x.result = .reserved .frameReady f (some written) ∧
      a.Still scan store ∧ store.completedEntry i = some entry ∧ f.bytes = (payload entry).length ∧
      payload entry <+: written

structure IsDone (a : Armed) (f : Frame) : Prop where
  request : f.request = a.scan.token
  snapshot : f.snapshot = a.scan.snapshot
  event : f.event = doneEvent
  ordinal : f.ordinal = a.selected.length
  bytes : f.bytes = doneBytes

/-- Result frames with the ordinals 0, 1, 2, ..., the last one first. -/
inductive Results (h : List Record) (a : Armed) : List Frame → Prop
  | nil : Results h a []
  | cons {f : Frame} {l : List Frame} (hl : Results h a l) (hf : IsResult h a l.length f) : Results h a (f :: l)

/-- Results, and a frame that ends them only when there is one for each entry. -/
def Delivered (h : List Record) (a : Armed) (l : List Frame) : Prop :=
  Results h a l ∨ ∃ f l', l = f :: l' ∧ IsDone a f ∧ l'.length = a.selected.length ∧ Results h a l'

theorem IsResult.cons {k : ℕ} {f : Frame} (hf : IsResult h a k f) : IsResult (x :: h) a k f := by
  rcases hf.source with ⟨i, hi, y, hy, hrest⟩
  exact ⟨hf.request, hf.snapshot, hf.event, hf.ordinal, i, hi, y, List.mem_cons_of_mem x hy, hrest⟩

theorem Results.cons_history {l : List Frame} (hl : Results h a l) : Results (x :: h) a l := by
  induction hl with
  | nil => exact Results.nil
  | cons hl hf ih => exact Results.cons ih hf.cons

theorem Delivered.cons_history {l : List Frame} (hl : Delivered h a l) : Delivered (x :: h) a l := by
  rcases hl with hl | ⟨f, l', rfl, hf, hlength, hl'⟩
  · exact Or.inl hl.cons_history
  · exact Or.inr ⟨f, l', rfl, hf, hlength, hl'.cons_history⟩

/-! ## The order of requests -/

/-- A call arms a later request, or leaves the last armed one as it is. -/
theorem Effect.arms_cases (he : Effect b op result b') (log : List (Event Empty NoCall Empty)) :
    (∃ a, armedBy ⟨b, op, log, result, b'⟩ = some a ∧ Before b.lastArmed a.scan.token ∧ Serves b' a ∧
        b'.lastArmed = a.scan.token ∧ b'.phase = .ready ∧ b'.cursor = 0 ∧ b'.delivery = b.delivery ∧
        producedBy ⟨b, op, log, result, b'⟩ = none ∧ committedBy ⟨b, op, log, result, b'⟩ = none) ∨
      armedBy ⟨b, op, log, result, b'⟩ = none ∧ b'.lastArmed = b.lastArmed := by
  cases he with
  | armed hidle hlater hsummary hcount hselect =>
      exact Or.inl ⟨_, rfl, hlater, serves_armed hsummary hcount hselect, rfl, rfl, rfl, rfl, rfl, rfl⟩
  | refused hidle hstatus =>
      refine Or.inr ⟨?_, rfl⟩
      rename_i status written indices
      cases status with
      | ready => exact absurd rfl hstatus
      | _ => rfl
  | result | done | notReserved | mismatched | delivered | completed | kept => exact Or.inr ⟨rfl, rfl⟩
  | gaveUp | rejected | abort =>
      refine Or.inr ⟨rfl, ?_⟩
      unfold Bridge.abort
      split
      · rfl
      · rfl
  | retired hphase =>
      refine Or.inr ⟨rfl, ?_⟩
      unfold Bridge.retire
      split
      · rfl
      · rfl

structure Ordered (h : List Record) (b : Bridge) : Prop where
  last : ∀ a ∈ arms h, a.scan.token = b.lastArmed ∨ Before a.scan.token b.lastArmed
  newest : ∀ a, (arms h).head? = some a → a.scan.token = b.lastArmed
  ordered : (arms h).Pairwise fun newer older => Before older.scan.token newer.scan.token

theorem Ordered.step (ho : Ordered h b) (he : Effect b op result b') :
    Ordered (⟨b, op, log, result, b'⟩ :: h) b' := by
  rcases he.arms_cases log with ⟨a, ha, hlater, -, hlast, -⟩ | ⟨hnone, hlast⟩
  · have harms : arms (⟨b, op, log, result, b'⟩ :: h) = a :: arms h := List.filterMap_cons_some ha
    have hbefore : ∀ a' ∈ arms h, Before a'.scan.token a.scan.token := by
      intro a' ha'
      rcases ho.last a' ha' with heq | hbefore
      · rw [heq]
        exact hlater
      · exact hbefore.trans hlater
    refine ⟨?_, ?_, ?_⟩
    · rw [harms, hlast]
      intro a' ha'
      rcases List.mem_cons.1 ha' with rfl | ha'
      · exact Or.inl rfl
      · exact Or.inr (hbefore a' ha')
    · rw [harms, hlast]
      rintro _ ⟨⟩
      rfl
    · rw [harms]
      exact List.pairwise_cons.2 ⟨hbefore, ho.ordered⟩
  · have harms : arms (⟨b, op, log, result, b'⟩ :: h) = arms h := arms_cons_of_none hnone
    refine ⟨?_, ?_, ?_⟩
    · rw [harms, hlast]
      exact ho.last
    · rw [harms, hlast]
      exact ho.newest
    · rw [harms]
      exact ho.ordered

theorem run_ordered (hrun : Run h b) : Ordered h b :=
  hrun.invariant ⟨by simp [arms], by simp [arms], by simp [arms]⟩
    fun _ ho hout => ho.step (apply_effect (exec_outcome hout))

/-! ## Delivery numbers -/

theorem produced_reservation {event : UInt32} {bytes : ℕ} (hroom : b.delivery ≠ 0xffffffffffffffff) :
    (b.produced event bytes).reservation = some (b.draft event bytes) := by
  unfold Bridge.reservation
  rw [if_pos ⟨rfl, Bits.next_ne_zero hroom⟩]
  rfl

/-- A call produces a frame with the next number, or leaves the numbers as they are. -/
theorem Effect.produced_cases (he : Effect b op result b') (log : List (Event Empty NoCall Empty)) :
    (∃ f, producedBy ⟨b, op, log, result, b'⟩ = some f ∧ b.phase = .ready ∧
        b.delivery ≠ 0xffffffffffffffff ∧ f.delivery = b.delivery + 1 ∧ f.request = b.request ∧
        b'.delivery = b.delivery + 1 ∧ b'.reservation = some f) ∨
      producedBy ⟨b, op, log, result, b'⟩ = none ∧ b'.delivery = b.delivery := by
  cases he with
  | result hready hcurrent hroom hmore hentry hwritten =>
      exact Or.inl ⟨_, rfl, hready, hroom, rfl, rfl, rfl, produced_reservation hroom⟩
  | done hready hcurrent hroom hend => exact Or.inl ⟨_, rfl, hready, hroom, rfl, rfl, rfl, produced_reservation hroom⟩
  | notReserved hframe hstale =>
      refine Or.inr ⟨?_, rfl⟩
      rename_i status written
      cases status with
      | frameReady => exact absurd rfl hframe
      | _ => rfl
  | gaveUp hready hframe =>
      refine Or.inr ⟨?_, ?_⟩
      · rename_i status written
        cases status with
        | frameReady => exact absurd rfl hframe
        | _ => rfl
      · unfold Bridge.abort
        rw [if_pos (Or.inl hready)]
  | rejected | abort =>
      refine Or.inr ⟨rfl, ?_⟩
      unfold Bridge.abort
      split
      · rfl
      · rfl
  | retired hphase =>
      refine Or.inr ⟨rfl, ?_⟩
      unfold Bridge.retire
      split
      · rfl
      · rfl
  | armed | refused | mismatched | delivered | completed | kept => exact Or.inr ⟨rfl, rfl⟩

structure Numbered (h : List Record) (b : Bridge) : Prop where
  below : ∀ f ∈ produced h, f.delivery ≤ b.delivery
  increasing : (produced h).Pairwise fun newer older => older.delivery < newer.delivery

theorem Numbered.step (hn : Numbered h b) (he : Effect b op result b') :
    Numbered (⟨b, op, log, result, b'⟩ :: h) b' := by
  rcases he.produced_cases log with ⟨f, hf, -, hroom, hnumber, -, hdelivery, -⟩ | ⟨hnone, hdelivery⟩
  · have hproduced : produced (⟨b, op, log, result, b'⟩ :: h) = f :: produced h :=
      List.filterMap_cons_some hf
    have hlater : ∀ f' ∈ produced h, f'.delivery < f.delivery := by
      intro f' hf'
      rw [hnumber]
      exact UInt64.lt_of_le_of_lt (hn.below f' hf') (Bits.lt_next hroom)
    refine ⟨?_, ?_⟩
    · rw [hproduced, hdelivery, ← hnumber]
      intro f' hf'
      rcases List.mem_cons.1 hf' with rfl | hf'
      · exact UInt64.le_refl _
      · exact UInt64.le_of_lt (hlater f' hf')
    · rw [hproduced]
      exact List.pairwise_cons.2 ⟨hlater, hn.increasing⟩
  · refine ⟨?_, ?_⟩
    · rw [produced_cons_of_none hnone, hdelivery]
      exact hn.below
    · rw [produced_cons_of_none hnone]
      exact hn.increasing

theorem run_numbered (hrun : Run h b) : Numbered h b :=
  hrun.invariant ⟨by simp [produced], by simp [produced]⟩
    fun _ hn hout => hn.step (apply_effect (exec_outcome hout))

/-! ## The reservation -/

theorem reservation_of_phase (hphase : b.phase ≠ .reserved) : b.reservation = none :=
  if_neg fun h => hphase h.1

theorem phase_of_reservation {f : Frame} (hf : b.reservation = some f) : b.phase = .reserved := by
  by_contra hphase
  rw [reservation_of_phase hphase] at hf
  cases hf

theorem abort_reservation : b.abort.reservation = none := by
  apply reservation_of_phase
  unfold Bridge.abort
  split
  · exact Phase.noConfusion
  · next hphase => exact fun hreserved => hphase (Or.inr hreserved)

theorem retire_phase (h : b.phase = .completed ∨ b.phase = .aborted) : b.retire.2.phase = .idle := by
  unfold Bridge.retire
  rw [if_neg]
  rintro ⟨hcompleted, haborted⟩
  exact h.elim hcompleted haborted

theorem filter_settled {f : Frame} : ([f].filter fun f' => f' ≠ f) = [] := by simp

/-- The frames that are reserved by the transcript are the one that the bridge holds. -/
theorem outstanding_step (ho : outstanding h = b.reservation.toList) (he : Effect b op result b') :
    outstanding (⟨b, op, log, result, b'⟩ :: h) = b'.reservation.toList := by
  have hframe := he.produced_cases log
  cases he with
  | armed hidle hlater hsummary hcount hselect =>
      have hnone : b.reservation = none := reservation_of_phase (by rw [hidle]; exact Phase.noConfusion)
      rw [hnone] at ho
      rw [reservation_of_phase (show (b.armed _ _ _ _).phase ≠ .reserved from Phase.noConfusion)]
      exact ho
  | refused hidle hstatus => exact ho
  | result hready hcurrent hroom hmore hentry hwritten =>
      rcases hframe with ⟨f, hf, -, -, -, -, -, hreserved⟩ | ⟨hnone, -⟩
      · cases hf
        rw [hreserved]
        have hnone : b.reservation = none := reservation_of_phase (by rw [hready]; exact Phase.noConfusion)
        rw [hnone] at ho
        show _ :: outstanding h = _
        rw [ho]
        rfl
      · cases hnone
  | done hready hcurrent hroom hend =>
      rcases hframe with ⟨f, hf, -, -, -, -, -, hreserved⟩ | ⟨hnone, -⟩
      · cases hf
        rw [hreserved]
        have hnone : b.reservation = none := reservation_of_phase (by rw [hready]; exact Phase.noConfusion)
        rw [hnone] at ho
        show _ :: outstanding h = _
        rw [ho]
        rfl
      · cases hnone
  | notReserved hno hstale =>
      rename_i status written
      cases status with
      | frameReady => exact absurd rfl hno
      | _ => exact ho
  | gaveUp hready hno =>
      have hnone : b.reservation = none := reservation_of_phase (by rw [hready]; exact Phase.noConfusion)
      rw [hnone] at ho
      rw [abort_reservation]
      rename_i status written
      cases status with
      | frameReady => exact absurd rfl hno
      | _ => exact ho
  | mismatched hno =>
      show (outstanding h).filter _ = _
      rw [ho, List.filter_eq_self]
      intro f hf
      rw [Option.mem_toList] at hf
      rw [decide_eq_true_eq]
      rintro rfl
      exact hno hf
  | rejected hmatch hno =>
      show (outstanding h).filter _ = _
      rw [ho, hmatch, abort_reservation]
      exact filter_settled
  | delivered hmatch haccepted hcurrent hevent =>
      show (outstanding h).filter _ = _
      rw [ho, hmatch, reservation_of_phase (show Phase.ready ≠ .reserved from Phase.noConfusion)]
      exact filter_settled
  | completed hmatch haccepted hcurrent hevent =>
      show (outstanding h).filter _ = _
      rw [ho, hmatch, reservation_of_phase (show Phase.completed ≠ .reserved from Phase.noConfusion)]
      exact filter_settled
  | abort =>
      rw [abort_reservation]
      rfl
  | retired hphase =>
      have hnone : b.reservation = none := by
        apply reservation_of_phase
        rcases hphase with hphase | hphase
        · rw [hphase]
          exact Phase.noConfusion
        · rw [hphase]
          exact Phase.noConfusion
      rw [reservation_of_phase (by rw [retire_phase hphase]; exact Phase.noConfusion), ← hnone]
      exact ho
  | kept => exact ho

theorem run_outstanding (hrun : Run h b) : outstanding h = b.reservation.toList :=
  hrun.invariant (P := fun h b => outstanding h = b.reservation.toList) rfl fun _ ho hout =>
    outstanding_step ho (apply_effect (exec_outcome hout))

/-! ## How far a request is -/

def Bridge.underWay (b : Bridge) : Prop := b.phase = .ready ∨ b.phase = .reserved

structure Serving (h : List Record) (b : Bridge) : Prop where
  known : ∀ f ∈ h.filterMap committedBy, ∃ a ∈ arms h, f.request = a.scan.token
  delivered : ∀ a ∈ arms h, Delivered h a (committed a.scan.token h)
  serves : b.phase ≠ .idle → ∃ a, (arms h).head? = some a ∧ Serves b a
  under : b.underWay → ∀ a, (arms h).head? = some a → Results h a (committed a.scan.token h) ∧
    (committed a.scan.token h).length = b.cursor ∧ b.cursor ≤ b.count
  pending : ∀ f, b.reservation = some f → ∀ a, (arms h).head? = some a →
    b.cursor < b.count ∧ IsResult h a b.cursor f ∨ b.cursor = b.count ∧ IsDone a f

theorem Serving.quiet (hs : Serving h b) (harmed : armedBy x = none) (hcommitted : committedBy x = none)
    (hserves : b'.phase ≠ .idle → b.phase ≠ .idle ∧ ∀ a, Serves b a → Serves b' a)
    (hunder : b'.underWay → b.underWay ∧ b'.cursor = b.cursor ∧ b'.count = b.count)
    (hpending : ∀ f, b'.reservation = some f → ∀ a, (arms h).head? = some a →
      b'.cursor < b'.count ∧ IsResult (x :: h) a b'.cursor f ∨ b'.cursor = b'.count ∧ IsDone a f) :
    Serving (x :: h) b' := by
  have hcommit : ∀ token, committed token (x :: h) = committed token h := fun _ =>
    committed_cons_of_none hcommitted
  refine ⟨?_, ?_, ?_, ?_, ?_⟩
  · rw [arms_cons_of_none harmed, List.filterMap_cons_none hcommitted]
    exact hs.known
  · intro a ha
    rw [arms_cons_of_none harmed] at ha
    rw [hcommit]
    exact (hs.delivered a ha).cons_history
  · intro hphase
    rcases hserves hphase with ⟨hbusy, hmove⟩
    rcases hs.serves hbusy with ⟨a, ha, hserve⟩
    rw [arms_cons_of_none harmed]
    exact ⟨a, ha, hmove a hserve⟩
  · intro hway a ha
    rcases hunder hway with ⟨hway, hcursor, hcount⟩
    rw [arms_cons_of_none harmed] at ha
    rcases hs.under hway a ha with ⟨hresults, hlength, hle⟩
    rw [hcommit, hcursor, hcount]
    exact ⟨hresults.cons_history, hlength, hle⟩
  · rw [arms_cons_of_none harmed]
    exact hpending

theorem Serving.same (hs : Serving h b) (harmed : armedBy x = none) (hcommitted : committedBy x = none) :
    Serving (x :: h) b := by
  refine hs.quiet harmed hcommitted (fun hphase => ⟨hphase, fun _ => id⟩) (fun hway => ⟨hway, rfl, rfl⟩) ?_
  intro f hf a ha
  rcases hs.pending f hf a ha with ⟨hlt, hresult⟩ | hdone
  · exact Or.inl ⟨hlt, hresult.cons⟩
  · exact Or.inr hdone

theorem abort_not_underWay : ¬ b.abort.underWay := by
  unfold Bridge.abort Bridge.underWay
  split
  · rintro (hphase | hphase)
    · cases hphase
    · cases hphase
  · next hphase => exact hphase

theorem Serves.abort (hs : Serves b a) : Serves b.abort a := by
  unfold Bridge.abort
  split
  · exact ⟨hs.request, hs.snapshot, hs.time, hs.count, hs.indices⟩
  · exact hs

theorem abort_phase (h : b.abort.phase ≠ .idle) : b.phase ≠ .idle := by
  unfold Bridge.abort at h
  split at h
  · next hphase =>
    intro hidle
    rw [hidle] at hphase
    rcases hphase with hphase | hphase
    · cases hphase
    · cases hphase
  · exact h

theorem Serving.abort (hs : Serving h b) (harmed : armedBy x = none) (hcommitted : committedBy x = none) :
    Serving (x :: h) b.abort := by
  refine hs.quiet harmed hcommitted (fun hphase => ⟨abort_phase hphase, fun _ => Serves.abort⟩)
    (fun hway => absurd hway abort_not_underWay) ?_
  intro f hf
  rw [abort_reservation] at hf
  cases hf

/-- A call that arms a request: nothing was committed for it yet. -/
theorem Serving.arm (hs : Serving h b) (ho : Ordered h b) (harmed : armedBy x = some a)
    (hlater : Before b.lastArmed a.scan.token) (hserves : Serves b' a) (hphase : b'.phase = .ready)
    (hcursor : b'.cursor = 0) (hcommitted : committedBy x = none) : Serving (x :: h) b' := by
  have harms : arms (x :: h) = a :: arms h := List.filterMap_cons_some harmed
  have hcommit : ∀ token, committed token (x :: h) = committed token h := fun _ =>
    committed_cons_of_none hcommitted
  have hnew : committed a.scan.token h = [] := by
    rw [committed, List.filter_eq_nil_iff]
    intro f hf
    rw [decide_eq_true_eq]
    intro hrequest
    rcases hs.known f hf with ⟨a', ha', htoken⟩
    -- the requests before this one have smaller tokens
    have hbefore : Before a'.scan.token a.scan.token := by
      rcases ho.last a' ha' with heq | hbefore
      · rw [heq]
        exact hlater
      · exact hbefore.trans hlater
    rw [← htoken, hrequest] at hbefore
    exact Before.irrefl _ hbefore
  refine ⟨?_, ?_, ?_, ?_, ?_⟩
  · rw [harms, List.filterMap_cons_none hcommitted]
    intro f hf
    rcases hs.known f hf with ⟨a', ha', htoken⟩
    exact ⟨a', List.mem_cons_of_mem a ha', htoken⟩
  · rw [harms]
    intro a' ha'
    rw [hcommit]
    rcases List.mem_cons.1 ha' with rfl | ha'
    · rw [hnew]
      exact Or.inl Results.nil
    · exact (hs.delivered a' ha').cons_history
  · intro _
    rw [harms]
    exact ⟨a, rfl, hserves⟩
  · rw [harms]
    rintro - _ ⟨⟩
    rw [hcommit, hnew, hcursor]
    exact ⟨Results.nil, rfl, Nat.zero_le _⟩
  · intro f hf
    rw [reservation_of_phase (by rw [hphase]; exact Phase.noConfusion)] at hf
    cases hf

theorem Serving.produce {event : UInt32} {bytes : ℕ} (hs : Serving h b) (harmed : armedBy x = none)
    (hcommitted : committedBy x = none) (hready : b.phase = .ready)
    (hframe : (b.produced event bytes).reservation = some (b.draft event bytes))
    (hpending : ∀ a, (arms h).head? = some a → b.cursor < b.count ∧
        IsResult (x :: h) a b.cursor (b.draft event bytes) ∨
      b.cursor = b.count ∧ IsDone a (b.draft event bytes)) :
    Serving (x :: h) (b.produced event bytes) := by
  refine hs.quiet harmed hcommitted ?_ ?_ ?_
  · intro _
    refine ⟨by rw [hready]; exact Phase.noConfusion, fun a ha => ?_⟩
    exact ⟨ha.request, ha.snapshot, ha.time, ha.count, ha.indices⟩
  · exact fun _ => ⟨Or.inl hready, rfl, rfl⟩
  · intro f hf a ha
    rw [hframe] at hf
    cases hf
    exact hpending a ha

theorem Serving.produceResult {memory : Memory} {buffer : Buffer} {out : Frame} {entry : Entry} {written : List UInt8}
    (hs : Serving h b) (hready : b.phase = .ready) (hcurrent : b.current scan store = true)
    (hroom : b.delivery ≠ 0xffffffffffffffff) (hmore : b.cursor < b.count)
    (hentry : store.completedEntry (b.indices b.cursor).toNat = some entry) (hwritten : payload entry <+: written) :
    Serving (⟨b, .reserve scan store memory buffer out, log,
      .reserved .frameReady (b.draft resultEvent (payload entry).length) (some written),
      b.produced resultEvent (payload entry).length⟩ :: h) (b.produced resultEvent (payload entry).length) := by
  refine hs.produce rfl rfl hready (produced_reservation hroom) ?_
  intro a ha
  have hbusy : b.phase ≠ .idle := by
    rw [hready]
    exact Phase.noConfusion
  rcases hs.serves hbusy with ⟨a', ha', hserves⟩
  rw [ha] at ha'
  cases ha'
  have hk : b.cursor < a.selected.length := by
    rw [← hserves.count]
    exact hmore
  rw [hserves.indices b.cursor hk] at hentry
  exact Or.inl ⟨hmore, hserves.request, hserves.snapshot, rfl, rfl, a.selected[b.cursor],
    List.getElem?_eq_getElem hk, _, List.mem_cons_self, scan, store, memory, buffer, out, entry, written, rfl,
    rfl, (hserves.current_iff hbusy).1 hcurrent, hentry, rfl, hwritten⟩

theorem Serving.produceDone (hs : Serving h b) (harmed : armedBy x = none) (hcommitted : committedBy x = none)
    (hready : b.phase = .ready) (hroom : b.delivery ≠ 0xffffffffffffffff) (hend : b.count ≤ b.cursor) :
    Serving (x :: h) (b.produced doneEvent doneBytes) := by
  refine hs.produce harmed hcommitted hready (produced_reservation hroom) ?_
  intro a ha
  have hcursor : b.cursor = b.count := le_antisymm (hs.under (Or.inl hready) a ha).2.2 hend
  rcases hs.serves (by rw [hready]; exact Phase.noConfusion) with ⟨a', ha', hserves⟩
  rw [ha] at ha'
  cases ha'
  exact Or.inr ⟨hcursor, hserves.request, hserves.snapshot, rfl, hcursor.trans hserves.count, rfl⟩

/-- A call that commits a frame: the list of its request grows by that frame. -/
theorem Serving.commit {f : Frame} (hs : Serving h b) (ho : Ordered h b) (harmed : armedBy x = none)
    (hcommitted : committedBy x = some f) (hframe : b.reservation = some f)
    (hserves : ∀ a, Serves b a → Serves b' a) (hreserved : b'.reservation = none)
    (hunder : ∀ a, (arms h).head? = some a → b'.underWay → IsResult h a b.cursor f ∧ b.cursor < b.count ∧
      b'.cursor = b.cursor + 1 ∧ b'.count = b.count) :
    Serving (x :: h) b' := by
  have hphase : b.phase = .reserved := phase_of_reservation hframe
  rcases hs.serves (by rw [hphase]; exact Phase.noConfusion) with ⟨a, ha, hserve⟩
  rcases hs.under (Or.inr hphase) a ha with ⟨hresults, hlength, -⟩
  have hpending := hs.pending f hframe a ha
  have hrequest : f.request = a.scan.token := by
    rcases hpending with ⟨-, hresult⟩ | ⟨-, hdone⟩
    · exact hresult.request
    · exact hdone.request
  have hgrown : committed a.scan.token (x :: h) = f :: committed a.scan.token h := by
    rw [committed, List.filterMap_cons_some hcommitted, List.filter_cons_of_pos (by simpa using hrequest)]
    rfl
  have hmem : a ∈ arms h := List.mem_of_mem_head? (Option.mem_def.2 ha)
  refine ⟨?_, ?_, ?_, ?_, ?_⟩
  · rw [arms_cons_of_none harmed, List.filterMap_cons_some hcommitted]
    intro f' hf'
    rcases List.mem_cons.1 hf' with rfl | hf'
    · exact ⟨a, hmem, hrequest⟩
    · exact hs.known f' hf'
  · rw [arms_cons_of_none harmed]
    intro a' ha'
    by_cases htoken : a'.scan.token = a.scan.token
    · -- tokens are armed once, so this is the request that is served
      have heq : a' = a := by
        by_contra hne
        rcases List.eq_cons_of_mem_head? (Option.mem_def.2 ha) with hcons
        have hpairs := ho.ordered
        rw [hcons] at hpairs ha'
        have hbefore := (List.pairwise_cons.1 hpairs).1 a' ((List.mem_cons.1 ha').resolve_left hne)
        rw [htoken] at hbefore
        exact Before.irrefl _ hbefore
      rw [heq, hgrown]
      rcases hpending with ⟨-, hresult⟩ | ⟨hcursor, hdone⟩
      · exact Or.inl (Results.cons hresults.cons_history (hlength ▸ hresult.cons))
      · refine Or.inr ⟨f, _, rfl, hdone, ?_, hresults.cons_history⟩
        rw [hlength, hcursor, hserve.count]
    · have hsame : committed a'.scan.token (x :: h) = committed a'.scan.token h := by
        rw [committed, List.filterMap_cons_some hcommitted, List.filter_cons_of_neg]
        · rfl
        · rw [decide_eq_true_eq, hrequest]
          exact fun heq => htoken heq.symm
      rw [hsame]
      exact (hs.delivered a' ha').cons_history
  · intro _
    rw [arms_cons_of_none harmed]
    exact ⟨a, ha, hserves a hserve⟩
  · rw [arms_cons_of_none harmed]
    intro hway a' ha'
    rw [ha] at ha'
    cases ha'
    rcases hunder a ha hway with ⟨hresult, hlt, hcursor, hcount⟩
    rw [hgrown, hcursor, hcount]
    exact ⟨Results.cons hresults.cons_history (hlength ▸ hresult.cons), congrArg (· + 1) hlength, hlt⟩
  · intro f' hf'
    rw [hreserved] at hf'
    cases hf'

theorem Serving.step (hs : Serving h b) (ho : Ordered h b) (he : Effect b op result b') :
    Serving (⟨b, op, log, result, b'⟩ :: h) b' := by
  have harms := he.arms_cases log
  cases he with
  | armed hidle hlater hsummary hcount hselect =>
      exact hs.arm ho rfl hlater (serves_armed hsummary hcount hselect) rfl rfl rfl
  | refused hidle hstatus =>
      rcases harms with ⟨a, ha, -⟩ | ⟨hnone, -⟩
      · rename_i status written indices
        cases status with
        | ready => exact absurd rfl hstatus
        | _ => cases ha
      · rcases hidle with hidle | hsame
        · -- an idle bridge serves nobody, whatever its indices are
          refine hs.quiet hnone rfl (fun hphase => absurd hidle hphase) ?_ ?_
          · rintro (hphase | hphase)
            · exact Phase.noConfusion (hidle.symm.trans hphase)
            · exact Phase.noConfusion (hidle.symm.trans hphase)
          · intro f hf
            exact Phase.noConfusion (hidle.symm.trans (phase_of_reservation hf))
        · subst hsame
          exact hs.same hnone rfl
  | result hready hcurrent hroom hmore hentry hwritten =>
      exact hs.produceResult hready hcurrent hroom hmore hentry hwritten
  | done hready hcurrent hroom hend => exact hs.produceDone rfl rfl hready hroom hend
  | notReserved hframe hstale => exact hs.same rfl rfl
  | mismatched hno => exact hs.same rfl rfl
  | kept => exact hs.same rfl rfl
  | gaveUp hready hframe => exact hs.abort rfl rfl
  | rejected hframe hno => exact hs.abort rfl rfl
  | abort => exact hs.abort rfl rfl
  | delivered hframe haccepted hcurrent hevent =>
      refine hs.commit ho rfl rfl hframe ?_ (reservation_of_phase Phase.noConfusion) ?_
      · exact fun a ha => ⟨ha.request, ha.snapshot, ha.time, ha.count, ha.indices⟩
      · intro a ha _
        rcases hs.pending _ hframe a ha with ⟨hlt, hresult⟩ | ⟨-, hdone⟩
        · exact ⟨hresult, hlt, rfl, rfl⟩
        · exact absurd hdone.event hevent
  | completed hframe haccepted hcurrent hevent =>
      refine hs.commit ho rfl rfl hframe ?_ (reservation_of_phase Phase.noConfusion) ?_
      · exact fun a ha => ⟨ha.request, ha.snapshot, ha.time, ha.count, ha.indices⟩
      · rintro a ha (hphase | hphase)
        · cases hphase
        · cases hphase
  | retired hphase =>
      have hidle := retire_phase hphase
      refine hs.quiet rfl rfl (fun hbusy => absurd hidle hbusy) ?_ ?_
      · rintro (hphase' | hphase')
        · exact Phase.noConfusion (hidle.symm.trans hphase')
        · exact Phase.noConfusion (hidle.symm.trans hphase')
      · intro f hf
        exact Phase.noConfusion (hidle.symm.trans (phase_of_reservation hf))

theorem run_serving (hrun : Run h b) : Ordered h b ∧ Serving h b := by
  refine hrun.invariant (P := fun h b => Ordered h b ∧ Serving h b) ?_ ?_
  · refine ⟨run_ordered Run.nil, ?_, ?_, ?_, ?_, ?_⟩
    · simp
    · simp [arms]
    · exact fun hphase => absurd rfl hphase
    · rintro (hphase | hphase)
      · cases hphase
      · cases hphase
    · intro f hf
      cases hf
  · rintro h s s' op log r - ⟨ho, hs⟩ hout
    have he := apply_effect (exec_outcome hout)
    exact ⟨ho.step he, hs.step ho he⟩

/-! ## The end of a request -/

/-- What ends a request early: a post that was rejected, a commit or a reservation after the scan or its
snapshot was replaced. -/
inductive Ends (earlier : List Record) (x : Record) : ForegroundScan.Token → Prop
  | rejected {frame : Frame} {scan : ForegroundScan.Status} {store : Store}
      (hop : x.op = .commit frame false scan store) (hframe : frame ∈ outstanding earlier) :
      Ends earlier x frame.request
  | replaced {frame : Frame} {accepted : Bool} {scan : ForegroundScan.Status} {store : Store} {a : Armed}
      (hop : x.op = .commit frame accepted scan store) (hframe : frame ∈ outstanding earlier)
      (ha : (arms earlier).head? = some a) (hno : ¬ a.Still scan store) : Ends earlier x frame.request
  | stale {left : Frame} {written : Option (List UInt8)} {a : Armed}
      (hresult : x.result = .reserved .stale left written) (ha : (arms earlier).head? = some a) :
      Ends earlier x a.scan.token

/-- Nothing comes of this request any more. -/
def Over (token : ForegroundScan.Token) (b : Bridge) : Prop :=
  ¬ Before b.lastArmed token ∧ ¬ (b.request = token ∧ b.underWay)

theorem Over.abort (hlast : ¬ Before b.lastArmed token) : Over token b.abort := by
  refine ⟨?_, fun hway => abort_not_underWay hway.2⟩
  have hkept : b.abort.lastArmed = b.lastArmed := by
    unfold Bridge.abort
    split
    · rfl
    · rfl
  rw [hkept]
  exact hlast

theorem Over.step (hover : Over token b) (he : Effect b op result b') : Over token b' := by
  rcases hover with ⟨hlast, hway⟩
  cases he with
  | armed hidle hlater hsummary hcount hselect =>
      -- a later token is armed, so it is not this one
      refine ⟨fun hbefore => hlast (hlater.trans hbefore), ?_⟩
      rintro ⟨htoken, -⟩
      have htoken : _ = token := htoken
      rw [← htoken] at hlast
      exact hlast hlater
  | refused hidle hstatus => exact ⟨hlast, hway⟩
  | result hready | done hready => exact ⟨hlast, fun hnow => hway ⟨hnow.1, Or.inl hready⟩⟩
  | notReserved | mismatched | kept => exact ⟨hlast, hway⟩
  | gaveUp | rejected | abort => exact Over.abort hlast
  | delivered hframe =>
      exact ⟨hlast, fun hnow => hway ⟨hnow.1, Or.inr (phase_of_reservation hframe)⟩⟩
  | completed hframe =>
      refine ⟨hlast, ?_⟩
      rintro ⟨-, hphase | hphase⟩
      · cases hphase
      · cases hphase
  | retired hphase =>
      have hkept : b.retire.2.lastArmed = b.lastArmed := by
        unfold Bridge.retire
        split
        · rfl
        · rfl
      refine ⟨by rw [hkept]; exact hlast, ?_⟩
      have hidle := retire_phase hphase
      rintro ⟨-, hphase' | hphase'⟩
      · exact Phase.noConfusion (hidle.symm.trans hphase')
      · exact Phase.noConfusion (hidle.symm.trans hphase')

theorem reservation_request {f : Frame} (hf : b.reservation = some f) : f.request = b.request := by
  have hmatch := reservation_eq_some.1 hf
  simp only [not_or, not_not] at hmatch
  exact hmatch.2.2.2.2.2.2.2.1

theorem Over.silent (hover : Over token b) (he : Effect b op result b') :
    (∀ f, producedBy ⟨b, op, log, result, b'⟩ = some f → f.request ≠ token) ∧
      ∀ f, committedBy ⟨b, op, log, result, b'⟩ = some f → f.request ≠ token := by
  constructor
  · intro f hf htoken
    rcases he.produced_cases log with ⟨f', hf', hready, -, -, hrequest, -⟩ | ⟨hnone, -⟩
    · rw [hf] at hf'
      cases hf'
      exact hover.2 ⟨hrequest.symm.trans htoken, Or.inl hready⟩
    · rw [hf] at hnone
      cases hnone
  · intro f hf htoken
    cases he with
    | delivered hframe haccepted hcurrent hevent =>
        cases hf
        exact hover.2 ⟨(reservation_request hframe).symm.trans htoken, Or.inr (phase_of_reservation hframe)⟩
    | completed hframe haccepted hcurrent hevent =>
        cases hf
        exact hover.2 ⟨(reservation_request hframe).symm.trans htoken, Or.inr (phase_of_reservation hframe)⟩
    | _ => cases hf

theorem ends_over (hrun : Run h b) (he : Effect b op result b')
    (hends : Ends h ⟨b, op, log, result, b'⟩ token) : Over token b' := by
  rcases run_serving hrun with ⟨ho, hs⟩
  have hout := run_outstanding hrun
  have hserved : ∀ {a : Armed}, (arms h).head? = some a → ¬ Before b.lastArmed a.scan.token := by
    intro a ha
    rw [← ho.newest a ha]
    exact Before.irrefl _
  -- the frame that a commit settles is one of the request that is served
  have hframe : ∀ {f : Frame}, f ∈ outstanding h → b.reservation = some f ∧
      ¬ Before b.lastArmed f.request ∧ ∃ a, (arms h).head? = some a ∧ Serves b a := by
    intro f hf
    rw [hout, Option.mem_toList] at hf
    have hbusy : b.phase ≠ .idle := by
      rw [phase_of_reservation hf]
      exact Phase.noConfusion
    rcases hs.serves hbusy with ⟨a, ha, hserves⟩
    refine ⟨hf, ?_, a, ha, hserves⟩
    rw [reservation_request hf, hserves.request]
    exact hserved ha
  cases hends with
  | rejected hop hmem =>
      cases hop
      rcases hframe hmem with ⟨hreserved, hlast, -⟩
      cases he with
      | mismatched hno => exact absurd hreserved hno
      | rejected => exact Over.abort hlast
      | delivered _ haccepted => cases haccepted
      | completed _ haccepted => cases haccepted
  | replaced hop hmem ha hno =>
      cases hop
      rcases hframe hmem with ⟨hreserved, hlast, a', ha', hserves⟩
      rw [ha] at ha'
      cases ha'
      have hbusy : b.phase ≠ .idle := by
        rw [phase_of_reservation hreserved]
        exact Phase.noConfusion
      cases he with
      | mismatched hno => exact absurd hreserved hno
      | rejected => exact Over.abort hlast
      | delivered _ _ hcurrent => exact absurd ((hserves.current_iff hbusy).1 hcurrent) hno
      | completed _ _ hcurrent => exact absurd ((hserves.current_iff hbusy).1 hcurrent) hno
  | stale hresult ha =>
      cases hresult
      cases he with
      | notReserved _ hstale => exact absurd rfl hstale
      | gaveUp => exact Over.abort (hserved ha)

/-! ## The contract -/

structure Delivery (h : List Record) : Prop where
  /-- The committed frames of each request, in order. -/
  delivered : ∀ a ∈ arms h, Delivered h a (committed a.scan.token h)
  counted : ∀ x ∈ h, ∀ a, armedBy x = some a → x.after.count = a.selected.length
  ended : ∀ later x earlier, h = later ++ x :: earlier → ∀ token, Ends earlier x token → ∀ y ∈ later,
    (∀ f, producedBy y = some f → f.request ≠ token) ∧ ∀ f, committedBy y = some f → f.request ≠ token
  increasing : (produced h).Pairwise fun newer older => older.delivery < newer.delivery
  single : (outstanding h).length ≤ 1
  ordered : (arms h).Pairwise fun newer older => Before older.scan.token newer.scan.token
  mismatched : ∀ later x earlier, h = later ++ x :: earlier → ∀ frame accepted scan store,
    x.op = .commit frame accepted scan store → frame ∉ outstanding earlier →
      x.result = .flag false ∧ x.after = x.before

theorem scan_result_delivery (hrun : Run h b) : Delivery h := by
  rcases run_serving hrun with ⟨ho, hs⟩
  have heffect : ∀ x ∈ h, Effect x.before x.op x.result x.after := fun x hx =>
    apply_effect (exec_outcome (Interaction.Run.outcome hrun hx))
  refine ⟨hs.delivered, ?_, ?_, (run_numbered hrun).increasing, ?_, ho.ordered, ?_⟩
  · intro x hx a ha
    rcases (heffect x hx).arms_cases x.log with ⟨a', ha', -, hserves, -⟩ | ⟨hnone, -⟩
    · have heq := ha.symm.trans ha'
      cases heq
      exact hserves.count
    · have heq := ha.symm.trans hnone
      cases heq
  · rintro later x earlier rfl token hends
    have hx := Interaction.Run.drop hrun
    have hover : Over token x.after :=
      ends_over hx.tail.1 (heffect x (List.mem_append_right _ List.mem_cons_self)) hends
    have hall := (Interaction.Run.stable (P := Over token)
      (fun hbefore hout => hbefore.step (apply_effect (exec_outcome hout))) later hover hrun).2
    intro y hy
    exact (hall y hy).silent (heffect y (List.mem_append_left _ hy))
  · rw [run_outstanding hrun]
    cases b.reservation with
    | none => exact Nat.zero_le _
    | some f => exact le_refl _
  · rintro later x earlier rfl frame accepted scan store hop hframe
    have hx := Interaction.Run.drop hrun
    have hno : x.before.reservation ≠ some frame := by
      intro hreserved
      rw [run_outstanding hx.tail.1, hreserved] at hframe
      exact hframe (by simp)
    have he := heffect x (List.mem_append_right _ List.mem_cons_self)
    rw [hop] at he
    generalize x.result = result at he
    generalize x.after = after at he
    cases he with
    | mismatched => exact ⟨rfl, rfl⟩
    | rejected hmatch | delivered hmatch | completed hmatch => exact absurd hmatch hno

/-- One network on channel 6, in a finished passive scan of that channel. -/
def network : Entry :=
  { capability := 1, ieLength := 2, channel := ⟨.ghz2, 6⟩, bssid := fun _ => 2 }

def oneNetwork : Store :=
  { banks := fun _ =>
      { summary := { token := ⟨1, 1⟩, completedAtUs := 20, count := 1, channelCount := 1 }
        channels := fun _ => ⟨.ghz2, 6⟩
        entries := fun _ => network }
    hasPublished := true }

def finishedScan : ForegroundScan.Status :=
  { token := ⟨1, 1⟩, snapshot := ⟨1, 1⟩, startedAtUs := 10, finishedAtUs := 20, plannedChannels := 1,
    completedChannels := 1, dwellMs := 100, phase := .complete, drained := true }

def passiveRequest : WclScan.Request :=
  { passiveDwellMs := 100, mode := .passive, bssType := .any, channelCount := 1, channels := fun _ => 6 }

def apart : Memory where
  store := ⟨0, 100⟩
  bridge := ⟨100, 100⟩
  request := ⟨200, 100⟩
  scan := ⟨300, 100⟩
  out := ⟨400, 100⟩
  entry := fun _ => ⟨0, 100⟩
  inside := fun _ => ⟨le_refl _, le_refl _⟩

def buffer : Buffer := ⟨some 1000, maxPayloadBytes⟩

/-- Both frames of the request are reserved and committed. -/
def bothFrames : List Op :=
  [.begin .darwin24_4_0_d8b50fc2 true passiveRequest finishedScan oneNetwork apart buffer,
    .reserve finishedScan oneNetwork apart buffer {},
    .commit ⟨⟨1, 1⟩, ⟨1, 1⟩, 1, resultEvent, 66, 0, false⟩ true finishedScan oneNetwork,
    .reserve finishedScan oneNetwork apart buffer {},
    .commit ⟨⟨1, 1⟩, ⟨1, 1⟩, 2, doneEvent, 4, 1, false⟩ true finishedScan oneNetwork]

theorem scan_result_delivery_bothFrames :
    ∃ h b, Run h b ∧ Delivery h ∧ (committed ⟨1, 1⟩ h).map Frame.event = [doneEvent, resultEvent] ∧
      (committed ⟨1, 1⟩ h).map Frame.ordinal = [1, 0] ∧ b.phase = .completed := by
  have hrun := replay_run exec (fun call _ => call.elim) bothFrames {} ()
  exact ⟨_, _, hrun, scan_result_delivery hrun, by decide +kernel, by decide +kernel, by decide +kernel⟩

end WclResults
end Rtl8852be
