import Rtl8852be.Queue.FirmwareDmaQueue
import Rtl8852be.Ring.Cells

/-!
# Retention — how long the ring of firmware commands keeps a packet

The ledger of the firmware ring is followed by an account that never wraps: the cookies in the order they
were committed, how many descriptors the hardware has passed, and what was given back.  The two circular
structures of the ledger are then the same numbers modulo the ring size.

* `Kept` — the ledger is what the account says;
* `step_kept`, `run_kept` — every call keeps it;
* `firmware_retention` — order, amounts and slots of the packets that are kept, and the queue above the
  ledger never writes one of them.
-/

namespace Rtl8852be
namespace Queue

open Network

namespace FirmwareDmaOwnership

variable {κ : Type} {n : CommandRing}

/-! ## The account -/

inductive Op (κ : Type)
  | commit (slot : UInt16) (cookie : Option κ)
  | consumeTo (index : ℕ)
  | reclaim

/-- What happened since construction or the last reclaim. -/
structure Account (κ : Type) where
  committed : List κ := []
  passed : ℕ := 0
  released : List (Option κ) := []

/-- How many descriptors lie between those that were passed and the next one with this index. -/
def Account.ahead (n : CommandRing) (index : ℕ) (a : Account κ) : ℕ :=
  (index + n.count - a.passed % n.count) % n.count

/-- One call of the ledger, with the account kept alongside. -/
def step (n : CommandRing) : Op κ → FirmwareDmaOwnership κ × Account κ →
    FirmwareDmaOwnership κ × Account κ
  | .commit slot cookie, (s, a) =>
      let (ok, s') := s.commit n slot cookie
      (s', if ok then { a with committed := a.committed ++ cookie.toList } else a)
  | .consumeTo index, (s, a) =>
      let (ok, released, s') := s.consumeTo n index
      (s', if ok then { a with
        passed := a.passed + a.ahead n index
        released := a.released ++ released } else a)
  | .reclaim, (s, _) => ((s.reclaimAfterDmaStopped n).2, {})

/-- Any calls, first call first, on a fresh ledger. -/
def run (n : CommandRing) (ops : List (Op κ)) : FirmwareDmaOwnership κ × Account κ :=
  ops.foldl (fun x op => step n op x) ({}, {})

/-- The ledger is the account modulo the ring size. -/
structure Kept (n : CommandRing) (s : FirmwareDmaOwnership κ) (a : Account κ) : Prop where
  passed_le : a.passed ≤ a.committed.length
  room : a.committed.length - a.passed ≤ n.count - 1
  producer : s.producer = a.committed.length % n.count
  consumer : s.consumer = a.passed % n.count
  pending : s.pending = a.committed.length - a.passed
  held : s.held = min 8 a.passed
  holdHead : s.holdHead = (a.passed - 8) % n.count
  holdTail : s.holdTail = a.passed % n.count
  retained : ∀ k, a.passed - 8 ≤ k → k < a.passed →
    (s.retained (k % n.count)).toNat = k % n.count
  cookies : Ring.Stores n.count s.cookies (a.passed - 8) a.committed
  released : a.released = (a.committed.take (a.passed - 8)).map some

variable {s : FirmwareDmaOwnership κ} {a : Account κ}

theorem kept_empty (hproducer : s.producer = 0) (hconsumer : s.consumer = 0) (hpending : s.pending = 0)
    (hhead : s.holdHead = 0) (htail : s.holdTail = 0) (hheld : s.held = 0)
    (hcookies : ∀ i < n.count, s.cookies i = none) : Kept n s {} where
  passed_le := le_refl 0
  room := Nat.zero_le _
  producer := hproducer.trans (Nat.zero_mod _).symm
  consumer := hconsumer.trans (Nat.zero_mod _).symm
  pending := hpending
  held := hheld
  holdHead := hhead.trans (Nat.zero_mod _).symm
  holdTail := htail.trans (Nat.zero_mod _).symm
  retained := by
    intro k _ hk
    exact absurd hk (Nat.not_lt_zero k)
  cookies := Ring.Stores.empty hcookies
  released := rfl

theorem kept_reclaimed (n : CommandRing) (s : FirmwareDmaOwnership κ) :
    Kept n (s.reclaimAfterDmaStopped n).2 {} := by
  apply kept_empty <;> try rfl
  intro i hi
  exact if_pos hi

theorem Kept.advance_eq (h : Kept n s a) (index : ℕ) : s.advance n index = a.ahead n index := by
  rw [advance, h.consumer, Account.ahead]

theorem toNat_slot {i : ℕ} (hi : i < n.count) : (UInt16.ofNat i).toNat = i :=
  UInt16.toNat_ofNat_of_lt' (lt_of_lt_of_le hi (n.le_max.trans (by decide)))

/-- `full` in terms of the account. -/
theorem Kept.full_iff (h : Kept n s a) :
    s.full n = true ↔ a.committed.length - a.passed = n.count - 1 ∨
      a.committed.length - (a.passed - 8) = n.count := by
  rw [full, Bool.or_eq_true, beq_iff_eq, h.pending, h.producer, h.cookies.next_isSome_iff n.pos]

/-! ## Every call keeps the account -/

/-- What an accepted `commit` leaves. -/
theorem commit_cases (n : CommandRing) (s : FirmwareDmaOwnership κ) (slot : UInt16)
    (cookie : Option κ) :
    s.commit n slot cookie = (false, s) ∨
    ∃ c, cookie = some c ∧ s.full n = false ∧ slot.toNat = s.producer ∧
      s.commit n slot cookie = (true, { s with
        cookies := Function.update s.cookies s.producer (some c)
        producer := (s.producer + 1) % n.count
        pending := s.pending + 1 }) := by
  cases cookie with
  | none =>
      left
      simp [commit]
  | some c =>
      by_cases hbad : s.full n = true ∨ slot.toNat ≠ s.producer
      · left
        rw [commit, if_pos (Or.inr hbad)]
      · right
        rw [not_or, not_not] at hbad
        have hfull : s.full n = false := by simpa using hbad.1
        refine ⟨c, rfl, hfull, hbad.2, ?_⟩
        simp [commit, hfull, hbad.2]

theorem Kept.committed (h : Kept n s a) (hfull : s.full n = false) (c : κ) :
    Kept n { s with
        cookies := Function.update s.cookies s.producer (some c)
        producer := (s.producer + 1) % n.count
        pending := s.pending + 1 }
      { a with committed := a.committed ++ [c] } := by
  have hnot : ¬ (a.committed.length - a.passed = n.count - 1 ∨
      a.committed.length - (a.passed - 8) = n.count) := by
    rw [← h.full_iff, hfull]
    exact nofun
  have hle := h.passed_le
  have hroom := h.room
  have hfits := h.cookies.fits
  have htake : a.passed - 8 ≤ a.committed.length := h.cookies.le
  refine ⟨?_, ?_, ?_, h.consumer, ?_, h.held, h.holdHead, h.holdTail, h.retained, ?_, ?_⟩
  · simp
    omega
  · simp
    omega
  · simp [h.producer]
  · simp [h.pending]
    omega
  · rw [h.producer]
    exact h.cookies.push (by omega) c
  · rw [h.released, List.take_append_of_le_length htake]

/-- One round of the loop: the oldest of more than eight retained packets is given back. -/
theorem Kept.round (h : Kept n s a) (hpending : a.passed < a.committed.length) :
    Kept n (expel n (retain n s)).2
      { a with
        passed := a.passed + 1
        released := a.released ++ (expel n (retain n s)).1 } := by
  have hnine := n.gt_nine
  have hpos := n.pos
  have hroom := h.room
  have hheld := h.held
  -- The new entry of the retained slots.
  have hnew : ∀ k, a.passed + 1 - 8 ≤ k → k < a.passed + 1 →
      ((retain n s).retained (k % n.count)).toNat = k % n.count := by
    intro k hlo hk
    show (Function.update s.retained s.holdTail (UInt16.ofNat s.consumer) (k % n.count)).toNat = _
    rw [h.holdTail, h.consumer]
    by_cases hlast : k = a.passed
    · rw [hlast, Function.update_self, toNat_slot (Nat.mod_lt _ hpos)]
    · have hne : k % n.count ≠ a.passed % n.count := by
        intro hmod
        exact hlast (Ring.position_injective (a.passed - 8) (by omega) (by omega) (by omega)
          (by omega) hmod)
      rw [Function.update_of_ne hne]
      exact h.retained k (by omega) (by omega)
  have hroom' : a.committed.length - (a.passed + 1) ≤ n.count - 1 := by omega
  have hconsumer : (s.consumer + 1) % n.count = (a.passed + 1) % n.count := by
    rw [h.consumer, Nat.mod_add_mod]
  have hpending' : s.pending - 1 = a.committed.length - (a.passed + 1) := by
    rw [h.pending]
    omega
  have htail : (s.holdTail + 1) % n.count = (a.passed + 1) % n.count := by
    rw [h.holdTail, Nat.mod_add_mod]
  by_cases height : a.passed < 8
  · -- Fewer than nine: nothing is given back.
    have hfew : ¬ 8 < (retain n s).held := by
      show ¬ 8 < s.held + 1
      omega
    have hlo : a.passed + 1 - 8 = a.passed - 8 := by omega
    rw [expel, if_neg hfew]
    refine ⟨hpending, hroom', h.producer, hconsumer, hpending', ?_, ?_, htail, hnew, ?_, ?_⟩
    · show s.held + 1 = min 8 (a.passed + 1)
      omega
    · show s.holdHead = (a.passed + 1 - 8) % n.count
      rw [h.holdHead, hlo]
    · show Ring.Stores n.count s.cookies (a.passed + 1 - 8) a.committed
      rw [hlo]
      exact h.cookies
    · show a.released ++ [] = (a.committed.take (a.passed + 1 - 8)).map some
      rw [List.append_nil, h.released, hlo]
  · have hmany : 8 < (retain n s).held := by
      show 8 < s.held + 1
      omega
    have hlo : a.passed + 1 - 8 = a.passed - 8 + 1 := by omega
    have hlive : a.passed - 8 < a.committed.length := by omega
    -- The head of the retained slots is the oldest position that is still kept.
    have hslot : ((retain n s).retained (retain n s).holdHead).toNat = (a.passed - 8) % n.count := by
      show (Function.update s.retained s.holdTail (UInt16.ofNat s.consumer) s.holdHead).toNat = _
      have hne : s.holdHead ≠ s.holdTail := by
        rw [h.holdHead, h.holdTail]
        intro hmod
        have hsame := Ring.position_injective (a.passed - 8) (le_refl _) (by omega) (by omega)
          (by omega) hmod
        omega
      rw [Function.update_of_ne hne, h.holdHead]
      exact h.retained _ (le_refl _) (by omega)
    have hcookie : s.cookies ((a.passed - 8) % n.count) = some a.committed[a.passed - 8] := by
      rw [h.cookies.live _ (le_refl _) hlive, List.getElem?_eq_getElem hlive]
    rw [expel, if_pos hmany]
    simp only [hslot]
    refine ⟨hpending, hroom', h.producer, hconsumer, hpending', ?_, ?_, htail, hnew, ?_, ?_⟩
    · show s.held + 1 - 1 = min 8 (a.passed + 1)
      omega
    · show (s.holdHead + 1) % n.count = (a.passed + 1 - 8) % n.count
      rw [h.holdHead, hlo, Nat.mod_add_mod]
    · show Ring.Stores n.count (Function.update s.cookies ((a.passed - 8) % n.count) none)
        (a.passed + 1 - 8) a.committed
      rw [hlo]
      exact h.cookies.pop hlive
    · show a.released ++ [s.cookies ((a.passed - 8) % n.count)] =
        (a.committed.take (a.passed + 1 - 8)).map some
      rw [h.released, hcookie, hlo, List.take_add_one, List.getElem?_eq_getElem hlive]
      simp only [List.map_append, Option.toList_some, List.map_cons, List.map_nil]

theorem Kept.consume {k : ℕ} (h : Kept n s a) (hk : a.passed + k ≤ a.committed.length) :
    Kept n (consume n k s).2
      { a with
        passed := a.passed + k
        released := a.released ++ (consume n k s).1 } := by
  induction k generalizing s a with
  | zero =>
      show Kept n s { a with passed := a.passed + 0, released := a.released ++ [] }
      rw [List.append_nil]
      exact h
  | succ k ih =>
      have hround := h.round (by omega)
      have hrest := ih hround (by show a.passed + 1 + k ≤ a.committed.length; omega)
      have hsum : a.passed + (k + 1) = a.passed + 1 + k := by omega
      rw [hsum]
      simpa only [FirmwareDmaOwnership.consume, List.append_assoc] using hrest

/-- What `consumeTo` does when it does anything. -/
theorem Kept.consumeTo_cases (h : Kept n s a) (index : ℕ) :
    s.consumeTo n index = (false, [], s) ∨
    (index < n.count ∧ a.passed + a.ahead n index ≤ a.committed.length ∧
      s.consumeTo n index = (true, FirmwareDmaOwnership.consume n (a.ahead n index) s)) := by
  have hle := h.passed_le
  rw [← h.advance_eq]
  by_cases hindex : n.count ≤ index
  · left
    rw [consumeTo, if_pos hindex]
  · by_cases hfar : s.pending < s.advance n index
    · left
      rw [consumeTo, if_neg hindex, if_pos hfar]
    · right
      refine ⟨by omega, ?_, ?_⟩
      · have hpending := h.pending
        omega
      · rw [consumeTo, if_neg hindex, if_neg hfar]

theorem step_kept (op : Op κ) (h : Kept n s a) :
    Kept n (step n op (s, a)).1 (step n op (s, a)).2 := by
  cases op with
  | commit slot cookie =>
      rcases commit_cases n s slot cookie with hno | ⟨c, rfl, hfull, -, hok⟩
      · simp only [step, hno]
        exact h
      · simp only [step, hok]
        exact h.committed hfull c
  | consumeTo index =>
      rcases h.consumeTo_cases index with hno | ⟨-, hk, hok⟩
      · simp only [step, hno]
        exact h
      · simp only [step, hok]
        exact h.consume hk
  | reclaim =>
      exact kept_reclaimed n s

theorem run_kept (n : CommandRing) (ops : List (Op κ)) : Kept n (run n ops).1 (run n ops).2 := by
  -- Over the calls from the last one backwards.
  induction ops using List.reverseRecOn with
  | nil => exact kept_empty rfl rfl rfl rfl rfl rfl fun _ _ => rfl
  | append_singleton ops op ih =>
      rw [run, List.foldl_append]
      exact step_kept op ih

/-! ## Slots that must not be written -/

/-- A slot whose descriptor the hardware has not passed. -/
def Account.Pending (n : CommandRing) (a : Account κ) (i : ℕ) : Prop :=
  ∃ k, a.passed ≤ k ∧ k < a.committed.length ∧ k % n.count = i

/-- A slot among the last eight that the hardware has passed. -/
def Account.Recent (n : CommandRing) (a : Account κ) (i : ℕ) : Prop :=
  ∃ k, a.passed - 8 ≤ k ∧ k < a.passed ∧ k % n.count = i

theorem Kept.isSome_iff (h : Kept n s a) {i : ℕ} (hi : i < n.count) :
    (s.cookies i).isSome = true ↔ a.Pending n i ∨ a.Recent n i := by
  have hle := h.passed_le
  rw [h.cookies.isSome_iff hi]
  constructor
  · rintro ⟨k, hlo, hk, hmod⟩
    by_cases hpassed : k < a.passed
    · exact Or.inr ⟨k, hlo, hpassed, hmod⟩
    · exact Or.inl ⟨k, by omega, hk, hmod⟩
  · rintro (⟨k, hlo, hk, hmod⟩ | ⟨k, hlo, hk, hmod⟩)
    · exact ⟨k, by omega, hk, hmod⟩
    · exact ⟨k, hlo, by omega, hmod⟩

theorem Kept.producer_lt (h : Kept n s a) : s.producer < n.count := by
  rw [h.producer]
  exact Nat.mod_lt _ n.pos

theorem Kept.not_full_iff (h : Kept n s a) :
    s.full n = false ↔
      s.pending < n.count - 1 ∧ ¬ (a.Pending n s.producer ∨ a.Recent n s.producer) := by
  have hroom := h.room
  have hpending := h.pending
  rw [← h.isSome_iff h.producer_lt, full, Bool.or_eq_false_iff, beq_eq_false_iff_ne,
    Bool.not_eq_true]
  constructor
  · rintro ⟨hne, hfree⟩
    exact ⟨by omega, hfree⟩
  · rintro ⟨hlt, hfree⟩
    exact ⟨by omega, hfree⟩

end FirmwareDmaOwnership

/-! ## The queue above the ledger -/

namespace Net80211FirmwareQueue

open FirmwareDmaOwnership

inductive Call
  | initializeQueue (ring : DataMapping) (packets : ℕ → PacketBuffer)
  | stage (command : List UInt8) (source : ℕ)
  | consumeTo (hardwareConsumer : ℕ)
  | reclaim

def exec : Call → Net80211FirmwareQueue → Net80211FirmwareQueue
  | .initializeQueue ring packets, q => (q.initializeQueue ring packets).2
  | .stage command source, q => (q.stage command source).2
  | .consumeTo hardwareConsumer, q => (q.consumeTo hardwareConsumer).2
  | .reclaim, q => q.reclaimAfterDmaStopped

/-- The calls a call makes to the ledger, those that are refused left out. -/
def ledgerCalls : Call → Net80211FirmwareQueue → List (FirmwareDmaOwnership.Op ℕ)
  | .initializeQueue ring packets, q =>
      if (q.initializeQueue ring packets).1 = none then [.reclaim] else []
  | .stage command source, q =>
      match (q.stage command source).1 with
      | .ok _ => [.commit (UInt16.ofNat q.ownership.producer) (some q.ownership.producer)]
      | .error _ => []
  | .consumeTo hardwareConsumer, q =>
      if (q.consumeTo hardwareConsumer).1 = none then [.consumeTo hardwareConsumer] else []
  | .reclaim, _ => [.reclaim]

/-- Any calls, first call first, on a fresh queue, with the calls that reached its ledger. -/
def run (calls : List Call) : Net80211FirmwareQueue × List (FirmwareDmaOwnership.Op ℕ) :=
  calls.foldl (fun x call => (exec call x.1, x.2 ++ ledgerCalls call x.1)) ({}, [])

/-- What `stage` does. -/
theorem stage_cases (command : List UInt8) (source : ℕ) (q : Net80211FirmwareQueue) :
    (∃ e, q.stage command source = (.error e, q)) ∨
    q.ownership.full commandRing = false ∧ ∃ bytes,
      (∃ e, q.stage command source = (.error e, q.placed q.ownership.producer bytes)) ∨
      ∃ bd next, q.stage command source = (.ok next,
        { q.placed q.ownership.producer bytes with
          ownership := (q.ownership.commit commandRing (UInt16.ofNat q.ownership.producer)
            (some q.ownership.producer)).2
          ring := Function.update q.ring q.ownership.producer bd }) := by
  by_cases hattached : q.attached = true
  · cases hfull : q.ownership.full commandRing with
    | true =>
        left
        simp [stage, hattached, hfull]
    | false =>
        cases htarget : (q.packets q.ownership.producer).mapping.bytes with
        | none =>
            left
            simp [stage, hattached, hfull, htarget]
        | some target =>
            cases hencode : encodeCommandDma command source target
                (q.packets q.ownership.producer).mapping.physical
                (q.packets q.ownership.producer).mapping.capacity with
            | none =>
                left
                simp [stage, hattached, hfull, htarget, hencode]
            | some wire =>
                right
                refine ⟨rfl, wire.1, ?_⟩
                cases hcommit : q.ownership.commit commandRing (UInt16.ofNat q.ownership.producer)
                    (some q.ownership.producer) with
                | mk ok ownership =>
                    cases ok with
                    | false =>
                        left
                        simp [stage, hattached, hfull, htarget, hencode, hcommit]
                    | true =>
                        right
                        refine ⟨wire.2, UInt16.ofNat ownership.producer, ?_⟩
                        simp [stage, hattached, hfull, htarget, hencode, hcommit]
  · left
    simp [stage, hattached]

/-- The queue changes its ledger by the calls it makes to it. -/
theorem exec_ownership (call : Call) (q : Net80211FirmwareQueue) (a : Account ℕ) :
    (exec call q).ownership =
      ((ledgerCalls call q).foldl (fun x op => step commandRing op x) (q.ownership, a)).1 := by
  cases call with
  | initializeQueue ring packets =>
      by_cases hbusy : q.ownership.pending ≠ 0 ∨ q.ownership.held ≠ 0
      · simp [exec, ledgerCalls, initializeQueue, hbusy]
      · by_cases hfit : mappingsFit ring packets = true
        · simp [exec, ledgerCalls, initializeQueue, hbusy, hfit, step]
        · simp [exec, ledgerCalls, initializeQueue, hbusy, hfit]
  | stage command source =>
      rcases stage_cases command source q with ⟨e, hq⟩ | ⟨-, bytes, ⟨e, hq⟩ | ⟨bd, next, hq⟩⟩
      · simp [exec, ledgerCalls, hq]
      · simp [exec, ledgerCalls, hq, placed]
      · simp [exec, ledgerCalls, hq, step]
  | consumeTo hardwareConsumer =>
      by_cases hattached : q.attached = true
      · cases hled : q.ownership.consumeTo commandRing hardwareConsumer with
        | mk ok rest =>
            cases ok <;> simp [exec, ledgerCalls, consumeTo, hattached, hled, step]
      · simp [exec, ledgerCalls, consumeTo, hattached]
  | reclaim => rfl

theorem run_ownership (calls : List Call) :
    (run calls).1.ownership = (FirmwareDmaOwnership.run commandRing (run calls).2).1 := by
  induction calls using List.reverseRecOn with
  | nil => rfl
  | append_singleton calls call ih =>
      rw [run, List.foldl_append]
      show (exec call (run calls).1).ownership =
        (FirmwareDmaOwnership.run commandRing ((run calls).2 ++ ledgerCalls call (run calls).1)).1
      rw [FirmwareDmaOwnership.run, List.foldl_append,
        exec_ownership call (run calls).1 (FirmwareDmaOwnership.run commandRing (run calls).2).2, ih]
      rfl

/-- `stage` writes one slot, which is not full of anything the device may still read. -/
theorem stage_preserves {q : Net80211FirmwareQueue} {a : Account ℕ}
    (h : Kept commandRing q.ownership a) (command : List UInt8) (source : ℕ) {i : ℕ}
    (hi : a.Pending commandRing i ∨ a.Recent commandRing i) :
    (q.stage command source).2.packets i = q.packets i ∧
      (q.stage command source).2.ring i = q.ring i := by
  rcases stage_cases command source q with ⟨e, hq⟩ | ⟨hfull, bytes, hq⟩
  · rw [hq]
    exact ⟨rfl, rfl⟩
  · have hne : i ≠ q.ownership.producer := by
      rintro rfl
      exact (h.not_full_iff.1 hfull).2 hi
    rcases hq with ⟨e, hq⟩ | ⟨bd, next, hq⟩
    · rw [hq]
      exact ⟨Function.update_of_ne hne _ _, rfl⟩
    · rw [hq]
      exact ⟨Function.update_of_ne hne _ _, Function.update_of_ne hne _ _⟩

end Net80211FirmwareQueue

/-! ## The theorem -/

open FirmwareDmaOwnership

/-- Retention.  `a` is the account of the calls since construction or the last reclaim. -/
theorem firmware_retention {κ : Type} (n : CommandRing) (ops : List (FirmwareDmaOwnership.Op κ)) :
    let s := (run n ops).1
    let a := (run n ops).2
    -- Cookies come back in order, once each, eight behind the hardware.
    a.released = (a.committed.take (a.passed - 8)).map some ∧
    a.released.length = a.passed - 8 ∧ s.held = min 8 a.passed ∧
    -- What is kept is what is pending or recent.
    (∀ i < n.count, (s.cookies i).isSome = true ↔ a.Pending n i ∨ a.Recent n i) ∧
    (s.full n = false ↔
      s.pending < n.count - 1 ∧ ¬ a.Pending n s.producer ∧ ¬ a.Recent n s.producer) ∧
    -- A refused call changes nothing.
    (∀ slot cookie, (s.commit n slot cookie).1 = false → (s.commit n slot cookie).2 = s) ∧
    (∀ index, (s.consumeTo n index).1 = false → (s.consumeTo n index).2 = ([], s)) ∧
    -- Reclaim gives back exactly what has not been given back.
    ((s.reclaimAfterDmaStopped n).1.Perm (a.committed.drop (a.passed - 8)) ∧
      ∀ i < n.count, (s.reclaimAfterDmaStopped n).2.cookies i = none) ∧
    -- The queue does not write a buffer or a descriptor that is pending or recent.
    (∀ (calls : List Net80211FirmwareQueue.Call) (command : List UInt8) (source i : ℕ),
      let q := (Net80211FirmwareQueue.run calls).1
      let account := (run commandRing (Net80211FirmwareQueue.run calls).2).2
      q.ownership = (run commandRing (Net80211FirmwareQueue.run calls).2).1 ∧
      (account.Pending commandRing i ∨ account.Recent commandRing i →
        (q.stage command source).2.packets i = q.packets i ∧
          (q.stage command source).2.ring i = q.ring i)) := by
  have h := run_kept n ops
  have hle := h.passed_le
  refine ⟨h.released, ?_, h.held, fun i hi => h.isSome_iff hi, ?_, ?_, ?_, ⟨h.cookies.values, ?_⟩, ?_⟩
  · rw [h.released]
    simp
    omega
  · rw [h.not_full_iff, not_or]
  · intro slot cookie hrefused
    rcases commit_cases n (run n ops).1 slot cookie with hno | ⟨c, -, -, -, hok⟩
    · rw [hno]
    · rw [hok] at hrefused
      exact absurd hrefused nofun
  · intro index hrefused
    rcases h.consumeTo_cases index with hno | ⟨-, -, hok⟩
    · rw [hno]
    · rw [hok] at hrefused
      exact absurd hrefused nofun
  · intro i hi
    exact if_pos hi
  · intro calls command source i
    refine ⟨Net80211FirmwareQueue.run_ownership calls, ?_⟩
    apply Net80211FirmwareQueue.stage_preserves _ command source
    rw [Net80211FirmwareQueue.run_ownership]
    exact run_kept commandRing _

/-- Ten packets of which the device has passed nine: the first is given back, and the tenth is pending. -/
theorem firmware_retention_nine :
    let n : CommandRing := ⟨12, by decide, by decide⟩
    let ops := (List.range 10).map (fun i => FirmwareDmaOwnership.Op.commit (UInt16.ofNat i) (some i)) ++ [.consumeTo 9]
    (run n ops).2.released = [some 0] ∧ (run n ops).1.held = 8 ∧
      ((run n ops).1.cookies 9).isSome = true ∧ (run n ops).2.Pending n 9 := by
  intro n ops
  rcases firmware_retention n ops with ⟨hreleased, -, hheld, hkept, -⟩
  have hpassed : (run n ops).2.passed = 9 ∧ (run n ops).2.committed = List.range 10 := by decide +kernel
  have hpending : (run n ops).2.Pending n 9 :=
    ⟨9, hpassed.1.le, by rw [hpassed.2]; decide, rfl⟩
  rw [hpassed.1, hpassed.2] at hreleased
  rw [hpassed.1] at hheld
  exact ⟨hreleased, hheld, (hkept 9 (by decide)).2 (Or.inl hpending), hpending⟩

end Queue
end Rtl8852be
