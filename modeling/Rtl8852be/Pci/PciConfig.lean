import Rtl8852be.Bits.Flags
import Rtl8852be.Checked.Reader
import Rtl8852be.Sequence.Orbit

/-!
# PciConfig — a snapshot of the configuration space

`decode` of `PciConfig.hpp`.  The capabilities are a linked list in the buffer, which may be cyclic, lead out
of the buffer or point into the header.  The walk keeps the offsets it has visited in the bits of a word.

* `walk_stops` — the walk ends where the way over the links ends;
* `decode_walks` — what the snapshot says about the list.
-/

namespace Rtl8852be
namespace PciConfig

open Checked Bits Sequence

inductive CapStatus
  | none
  | valid
  | truncated
  | malformed
  | cycle
  deriving DecidableEq, Repr

structure Snapshot where
  vendorID : UInt16 := 0
  deviceID : UInt16 := 0
  subsystemVendor : UInt16 := 0
  subsystemDevice : UInt16 := 0
  command : UInt16 := 0
  revision : UInt8 := 0
  headerType : UInt8 := 0
  pmOffset : UInt8 := 0
  pmControlStatus : UInt16 := 0
  pmControlReadable : Bool := false
  bars : List UInt32 := [0, 0, 0, 0, 0, 0]
  capabilities : UInt64 := 0
  capabilityCount : ℕ := 0
  capStatus : CapStatus := .none
  deriving DecidableEq

/-! ## The code -/

abbrev Decoding := Reader Empty

def read16 (bytes : List UInt8) (p : ℕ) : Decoding UInt16 := do
  let low ← byteAt bytes p
  let high ← byteAt bytes (p + 1)
  return low.toUInt16 ||| (high.toUInt16 <<< 8)

def read32 (bytes : List UInt8) (p : ℕ) : Decoding UInt32 := do
  let low ← read16 bytes p
  let high ← read16 bytes (p + 2)
  return low.toUInt32 ||| (high.toUInt32 <<< 16)

/-- The branch for the first power management capability. -/
def powerManagement (bytes : List UInt8) (offset id : UInt8) (out : Snapshot) : Decoding Snapshot :=
  if id = 1 ∧ out.pmOffset = 0 then
    if offset.toNat + 6 ≤ bytes.length then do
      let status ← read16 bytes (offset.toNat + 4)
      return { out with pmOffset := offset, pmControlStatus := status, pmControlReadable := true }
    else
      return { out with pmOffset := offset }
  else
    return out

/-- `if (id < 64) ...; ++out.capabilityCount;` -/
def count (id : UInt8) (out : Snapshot) : Snapshot :=
  { out with
    capabilities := if id < 64 then out.capabilities ||| flag id.toUInt64 else out.capabilities
    capabilityCount := out.capabilityCount + 1 }

/-- The loop over the capabilities.  Code that ran out of rounds would be a loop that does not end. -/
def walk (bytes : List UInt8) : ℕ → UInt8 → UInt64 → Snapshot → Decoding Snapshot
  | 0, _, _, _ => .error .wrapped
  | rounds + 1, offset, visited, out =>
      if offset = 0 then
        return out
      else if offset < 0x40 ∨ 0xfc < offset ∨ offset &&& 3 ≠ 0 then
        return { out with capStatus := .malformed }
      else if bytes.length < offset.toNat + 2 then
        return { out with capStatus := .truncated }
      else if visited &&& flag (offset / 4).toUInt64 ≠ 0 then
        return { out with capStatus := .cycle }
      else do
        let id ← byteAt bytes offset.toNat
        let out ← powerManagement bytes offset id out
        let next ← byteAt bytes (offset.toNat + 1)
        walk bytes rounds next (visited ||| flag (offset / 4).toUInt64) (count id out)

/-- The loop over the six base addresses. -/
def readBars (bytes : List UInt8) : ℕ → ℕ → Decoding (List UInt32)
  | 0, _ => return []
  | n + 1, i => do
      let bar ← read32 bytes (0x10 + i * 4)
      let bars ← readBars bytes n (i + 1)
      return bar :: bars

/-- There are 48 offsets that can be visited, so that 49 rounds are enough. -/
def walkRounds : ℕ := 49

/-- `decode`: what it returns, and the snapshot.  There may be no buffer. -/
def decode (bytes : Option (List UInt8)) : Decoding (Bool × Snapshot) :=
  match bytes with
  | none => return (false, {})
  | some bytes =>
      if bytes.length < 0x40 then
        return (false, {})
      else do
        let vendorID ← read16 bytes 0
        let deviceID ← read16 bytes 2
        let command ← read16 bytes 4
        let revision ← byteAt bytes 8
        let header ← byteAt bytes 0x0e
        let out : Snapshot := { vendorID, deviceID, command, revision, headerType := header &&& 0x7f }
        if out.headerType ≠ 0 then
          return (false, out)
        else do
          let subsystemVendor ← read16 bytes 0x2c
          let subsystemDevice ← read16 bytes 0x2e
          let bars ← readBars bytes 6 0
          let out := { out with subsystemVendor, subsystemDevice, bars }
          let status ← read16 bytes 6
          if status &&& 0x10 = 0 then
            return (true, out)
          else do
            let offset ← byteAt bytes 0x34
            let out ← walk bytes walkRounds offset 0 { out with capStatus := .valid }
            return (true, out)

/-! ## The list in the buffer -/

variable {bytes : List UInt8} {n : ℕ} {visited : UInt64} {out : Snapshot}

def next (bytes : List UInt8) (offset : UInt8) : UInt8 := bytes.getD (offset.toNat + 1) 0

def start (bytes : List UInt8) : UInt8 := bytes.getD 0x34 0

/-- The offset after `i` links. -/
def place (bytes : List UInt8) (i : ℕ) : UInt8 := (next bytes)^[i] (start bytes)

/-- The identifier of the capability there. -/
def idAt (bytes : List UInt8) (i : ℕ) : UInt8 := bytes.getD (place bytes i).toNat 0

/-- An offset that a capability can have. -/
def Aligned (offset : UInt8) : Prop := ¬ (offset < 0x40 ∨ 0xfc < offset ∨ offset &&& 3 ≠ 0)

def InBuffer (bytes : List UInt8) (offset : UInt8) : Prop := offset.toNat + 2 ≤ bytes.length

def Good (bytes : List UInt8) (offset : UInt8) : Prop := Aligned offset ∧ InBuffer bytes offset

/-- Two bytes of the buffer as one word. -/
def wordAt (bytes : List UInt8) (p : ℕ) : UInt16 :=
  (bytes.getD p 0).toUInt16 ||| ((bytes.getD (p + 1) 0).toUInt16 <<< 8)

/-- The buffer says that there is a list. -/
def Listed (bytes : List UInt8) : Prop :=
  0x40 ≤ bytes.length ∧ bytes.getD 0x0e 0 &&& 0x7f = 0 ∧ wordAt bytes 6 &&& 0x10 ≠ 0

theorem place_succ (bytes : List UInt8) (i : ℕ) : place bytes (i + 1) = next bytes (place bytes i) :=
  Function.iterate_succ_apply' (next bytes) i (start bytes)

/-- The index of an offset in the word of the visited ones. -/
def slot (offset : UInt8) : ℕ := offset.toNat / 4

theorem slot_eq (offset : UInt8) : (offset / 4).toUInt64.toNat = slot offset := by
  simp [slot]

theorem Aligned.bounds {offset : UInt8} (h : Aligned offset) :
    16 ≤ slot offset ∧ slot offset < 64 ∧ offset.toNat = 4 * slot offset := by
  simp only [Aligned, not_or, not_not, UInt8.not_lt, UInt8.le_iff_toNat_le] at h
  rcases h with ⟨hlow, hhigh, hmask⟩
  have hmod : offset.toNat % 4 = 0 := by
    have hand := congrArg UInt8.toNat hmask
    rw [UInt8.toNat_and] at hand
    have hthree : (3 : UInt8).toNat = 2 ^ 2 - 1 := rfl
    rw [hthree, Nat.and_two_pow_sub_one_eq_mod] at hand
    exact hand
  have hlow' : 64 ≤ offset.toNat := hlow
  have hhigh' : offset.toNat ≤ 252 := hhigh
  unfold slot
  omega

theorem slot_inj {a b : UInt8} (ha : Aligned a) (hb : Aligned b) (h : slot a = slot b) : a = b := by
  apply UInt8.toNat_inj.1
  rw [ha.bounds.2.2, hb.bounds.2.2, h]

/-! ## The walk -/

/-- What the code knows after `n` capabilities. -/
structure Walked (bytes : List UInt8) (n : ℕ) (visited : UInt64) (out : Snapshot) : Prop where
  visits : Visits (next bytes) (start bytes) (Good bytes) n
  slots : ∀ k < 64, visited.toNat.testBit k = true ↔ ∃ i < n, slot (place bytes i) = k
  ids : ∀ k < 64, out.capabilities.toNat.testBit k = true ↔ ∃ i < n, (idAt bytes i).toNat = k
  count : out.capabilityCount = n
  pm : out.pmOffset = (((List.range n).find? fun i => idAt bytes i == 1).map (place bytes)).getD 0

theorem Walked.le (h : Walked bytes n visited out) : n ≤ 48 := by
  refine h.visits.le_card (fun offset => slot offset - 16) (fun a ha => ?_) fun a b ha hb heq => ?_
  · have hbounds := ha.1.bounds
    omega
  · have hbounds := ha.1.bounds
    have hbounds' := hb.1.bounds
    exact slot_inj ha.1 hb.1 (by omega)

def Ends (bytes : List UInt8) (n : ℕ) : CapStatus → Prop
  | .none => False
  | .valid => place bytes n = 0
  | .malformed => place bytes n ≠ 0 ∧ ¬ Aligned (place bytes n)
  | .truncated => Aligned (place bytes n) ∧ ¬ InBuffer bytes (place bytes n)
  | .cycle => ∃ i < n, place bytes n = place bytes i

theorem not_aligned_zero : ¬ Aligned 0 := by
  unfold Aligned
  decide

theorem place_ne_zero {i : ℕ} (h : Good bytes (place bytes i)) : place bytes i ≠ 0 :=
  fun h0 => not_aligned_zero (h0 ▸ h.1)

theorem read16_eq {p : ℕ} (h : p + 2 ≤ bytes.length) :
    read16 bytes p = pure (wordAt bytes p) := by
  unfold read16
  rw [byteAt_eq (by omega), byteAt_eq (by omega)]
  rfl

/-- The branch for power management keeps to its fields. -/
theorem powerManagement_safe (offset id : UInt8) (out : Snapshot) :
    Safe (fun _ => False)
      (fun s => s.capabilities = out.capabilities ∧ s.capabilityCount = out.capabilityCount ∧
        s.capStatus = out.capStatus ∧
        s.pmOffset = if id = 1 ∧ out.pmOffset = 0 then offset else out.pmOffset)
      (powerManagement bytes offset id out) := by
  unfold powerManagement
  refine Safe.ite (fun hfirst => ?_) fun hother => ?_
  · rw [if_pos hfirst]
    refine Safe.ite (fun hlong => ?_) fun _ => Safe.pure ⟨rfl, rfl, rfl, rfl⟩
    rw [read16_eq (by omega)]
    exact Safe.pure ⟨rfl, rfl, rfl, rfl⟩
  · rw [if_neg hother]
    exact Safe.pure ⟨rfl, rfl, rfl, rfl⟩

theorem Walked.step (h : Walked bytes n visited out) (hgood : Good bytes (place bytes n))
    (hnew : ∀ i < n, place bytes n ≠ place bytes i) {s : Snapshot}
    (hcapabilities : s.capabilities = out.capabilities) (hcount : s.capabilityCount = out.capabilityCount)
    (hpm : s.pmOffset = if idAt bytes n = 1 ∧ out.pmOffset = 0 then place bytes n else out.pmOffset) :
    Walked bytes (n + 1) (visited ||| flag (place bytes n / 4).toUInt64) (PciConfig.count (idAt bytes n) s) where
  visits := h.visits.succ hgood hnew
  slots := by
    intro k hk
    have hslot := hgood.1.bounds.2.1
    rw [testBit_or_flag (by rw [slot_eq]; exact hslot) hk, slot_eq, Bool.or_eq_true, h.slots k hk,
      decide_eq_true_iff, Nat.exists_lt_succ_right, eq_comm (a := k)]
  ids := by
    intro k hk
    have hcount : (PciConfig.count (idAt bytes n) s).capabilities =
        if idAt bytes n < 64 then s.capabilities ||| flag (idAt bytes n).toUInt64 else s.capabilities := rfl
    rw [hcount, hcapabilities, Nat.exists_lt_succ_right, ← h.ids k hk]
    by_cases hsmall : idAt bytes n < 64
    · have hid : (idAt bytes n).toUInt64.toNat < 64 := by
        rw [UInt8.toNat_toUInt64]
        exact hsmall
      rw [if_pos hsmall, testBit_or_flag hid hk, Bool.or_eq_true, decide_eq_true_iff, UInt8.toNat_toUInt64,
        eq_comm (a := k)]
    · have hlarge : ¬ (idAt bytes n).toNat = k := by
        intro heq
        exact hsmall (UInt8.lt_iff_toNat_lt.2 (heq ▸ hk))
      rw [if_neg hsmall, or_iff_left hlarge]
  count := by
    rw [PciConfig.count, hcount, h.count]
  pm := by
    show s.pmOffset = _
    rw [hpm, List.range_succ, List.find?_append, h.pm]
    cases hfind : (List.range n).find? fun i => idAt bytes i == 1 with
    | none =>
        simp only [Option.map_none, Option.getD_none, and_true, Option.none_or]
        by_cases hid : idAt bytes n = 1
        · simp [hid]
        · simp [hid]
    | some i =>
        have hi : i < n := List.mem_range.1 (List.mem_of_find?_eq_some hfind)
        have hne : place bytes i ≠ 0 := place_ne_zero (h.visits.good i hi)
        simp [hne]

/-- The walk comes to the end of the way, and the status says how. -/
theorem walk_stops {rounds : ℕ} (hrounds : 48 < n + rounds) (h : Walked bytes n visited out)
    (hstatus : out.capStatus = .valid) :
    Safe (fun _ => False)
      (fun s => ∃ m visited, Stops (next bytes) (start bytes) (Good bytes) m ∧ Walked bytes m visited s ∧
        Ends bytes m s.capStatus)
      (walk bytes rounds (place bytes n) visited out) := by
  induction rounds generalizing n visited out with
  | zero =>
      have hle := h.le
      omega
  | succ rounds ih =>
      unfold walk
      refine Safe.ite (fun hzero => Safe.pure ?_) fun hzero => ?_
      · have hno : ¬ Good bytes (place bytes n) := fun hgood => place_ne_zero hgood hzero
        exact ⟨n, visited, ⟨h.visits, .inl hno⟩, h, by rw [hstatus]; exact hzero⟩
      refine Safe.ite (fun hrange => Safe.pure ?_) fun hrange => ?_
      · have hno : ¬ Good bytes (place bytes n) := fun hgood => hgood.1 hrange
        exact ⟨n, visited, ⟨h.visits, .inl hno⟩, ⟨h.visits, h.slots, h.ids, h.count, h.pm⟩, hzero,
          fun haligned => haligned hrange⟩
      have haligned : Aligned (place bytes n) := hrange
      refine Safe.ite (fun hshort => Safe.pure ?_) fun hlong => ?_
      · have hout : ¬ InBuffer bytes (place bytes n) := Nat.not_le.2 hshort
        have hno : ¬ Good bytes (place bytes n) := fun hgood => hout hgood.2
        exact ⟨n, visited, ⟨h.visits, .inl hno⟩, ⟨h.visits, h.slots, h.ids, h.count, h.pm⟩, haligned, hout⟩
      have hin : InBuffer bytes (place bytes n) := Nat.not_lt.1 hlong
      have hslot := haligned.bounds.2.1
      -- The bit of an offset is set if the offset has been visited.
      have hseen : visited &&& flag (place bytes n / 4).toUInt64 ≠ 0 ↔ ∃ i < n, place bytes n = place bytes i := by
        rw [and_flag_ne_zero (by rw [slot_eq]; exact hslot), slot_eq, h.slots _ hslot]
        refine exists_congr fun i => and_congr_right fun hi => ⟨fun heq => ?_, fun heq => by rw [heq]⟩
        exact slot_inj haligned (h.visits.good i hi).1 heq.symm
      refine Safe.ite (fun hcycle => Safe.pure ?_) fun hfresh => ?_
      · have hrepeated := hseen.1 hcycle
        exact ⟨n, visited, ⟨h.visits, .inr hrepeated⟩, ⟨h.visits, h.slots, h.ids, h.count, h.pm⟩, hrepeated⟩
      have hnew : ∀ i < n, place bytes n ≠ place bytes i := fun i hi heq => hfresh (hseen.2 ⟨i, hi, heq⟩)
      have hbytes : (place bytes n).toNat + 2 ≤ bytes.length := hin
      refine Safe.bind (Safe.byteAt (by omega)) fun id hid => ?_
      have hid' : id = idAt bytes n := hid
      rw [hid']
      refine Safe.bind (powerManagement_safe _ _ _) fun s hs => ?_
      rcases hs with ⟨hcapabilities, hcount, hstatus', hpm⟩
      refine Safe.bind (Safe.byteAt (by omega)) fun link hlink => ?_
      have hlink' : link = place bytes (n + 1) := by
        rw [place_succ]
        exact hlink
      rw [hlink']
      exact ih (by omega) (h.step ⟨haligned, hin⟩ hnew hcapabilities hcount hpm) (hstatus'.trans hstatus)

/-! ## The snapshot -/

theorem walked_start (out : Snapshot) (hcapabilities : out.capabilities = 0) (hcount : out.capabilityCount = 0)
    (hpm : out.pmOffset = 0) : Walked bytes 0 0 out where
  visits := visits_zero
  slots := by simp
  ids := by simp [hcapabilities]
  count := hcount
  pm := hpm

theorem readBars_safe {n i : ℕ} (h : 0x10 + (i + n) * 4 ≤ bytes.length) :
    Safe (fun _ => False) (fun _ => True) (readBars bytes n i) := by
  induction n generalizing i with
  | zero => exact Safe.pure trivial
  | succ n ih =>
      unfold readBars read32
      rw [read16_eq (by omega), read16_eq (by omega)]
      refine Safe.bind (P := fun _ => True) (Safe.pure trivial) fun bar _ => ?_
      refine Safe.bind (ih (by omega)) fun bars _ => ?_
      exact Safe.pure trivial

theorem Ends.unique {a b : CapStatus} (h : Stops (next bytes) (start bytes) (Good bytes) n) (ha : Ends bytes n a)
    (hb : Ends bytes n b) : a = b := by
  have hzero : place bytes n = 0 → ¬ Aligned (place bytes n) := fun h0 => h0 ▸ not_aligned_zero
  have hgood : Ends bytes n .cycle → Good bytes (place bytes n) := by
    rintro ⟨i, hi, heq⟩
    rw [heq]
    exact h.good i hi
  -- In the other ways the last place is not good.
  have hbad : ∀ c, c ≠ .cycle → Ends bytes n c → ¬ Good bytes (place bytes n) := by
    intro c hc hends hgood
    cases c with
    | none => exact hends
    | valid => exact hzero hends hgood.1
    | malformed => exact hends.2 hgood.1
    | truncated => exact hends.2 hgood.2
    | cycle => exact hc rfl
  by_cases hca : a = .cycle
  · by_contra hne
    exact hbad b (fun hcb => hne (hca.trans hcb.symm)) hb (hgood (hca ▸ ha))
  by_cases hcb : b = .cycle
  · exact absurd (hgood (hcb ▸ hb)) (hbad a hca ha)
  cases a <;> cases b <;> simp only [Ends] at ha hb <;> tauto

theorem status_iff {s : Snapshot} (h : Stops (next bytes) (start bytes) (Good bytes) n)
    (hends : Ends bytes n s.capStatus) (status : CapStatus) : s.capStatus = status ↔ Ends bytes n status := by
  constructor
  · rintro rfl
    exact hends
  · exact fun hstatus => hends.unique h hstatus

/-- A buffer is decoded with reads inside of it only.  Where it has a list of capabilities, the snapshot counts
the offsets on the way over the links up to where it ends, says how it ends, and has the identifiers that were
met. -/
theorem decode_walks (bytes : List UInt8) :
    ∃ ok out, decode (some bytes) = .ok (ok, out) ∧
      (¬ Listed bytes → out.capStatus = .none ∧ out.capabilityCount = 0) ∧
      (Listed bytes → ok = true ∧ out.capabilityCount ≤ 48 ∧
        Stops (next bytes) (start bytes) (Good bytes) out.capabilityCount ∧
        (out.capStatus = .valid ↔ ∃ k, (∀ i < k, Good bytes (place bytes i)) ∧ place bytes k = 0) ∧
        (out.capStatus = .malformed ↔ ∃ k, (∀ i < k, Good bytes (place bytes i)) ∧
          (place bytes k ≠ 0 ∧ ¬ Aligned (place bytes k))) ∧
        (out.capStatus = .truncated ↔ ∃ k, (∀ i < k, Good bytes (place bytes i)) ∧
          (Aligned (place bytes k) ∧ ¬ InBuffer bytes (place bytes k))) ∧
        (out.capStatus = .cycle ↔ ∃ k, (∀ i < k, Good bytes (place bytes i)) ∧
          ∃ j < k, place bytes k = place bytes j) ∧
        (∀ id < 64, out.capabilities.toNat.testBit id = true ↔
          ∃ i < out.capabilityCount, (idAt bytes i).toNat = id) ∧
        out.pmOffset =
          (((List.range out.capabilityCount).find? fun i => idAt bytes i == 1).map (place bytes)).getD 0) := by
  by_cases hlength : bytes.length < 0x40
  · have hcode : decode (some bytes) = .ok (false, {}) := if_pos hlength
    refine ⟨false, {}, hcode, fun _ => ⟨rfl, rfl⟩, fun hlisted => ?_⟩
    exact absurd hlength (Nat.not_lt.2 hlisted.1)
  have hsafe : Safe (fun _ => False)
      (fun r => (¬ Listed bytes → r.2.capStatus = .none ∧ r.2.capabilityCount = 0) ∧
        (Listed bytes → r.1 = true ∧ ∃ m visited, Stops (next bytes) (start bytes) (Good bytes) m ∧
          Walked bytes m visited r.2 ∧ Ends bytes m r.2.capStatus)) (decode (some bytes)) := by
    unfold decode
    dsimp only
    rw [if_neg hlength, read16_eq (by omega), read16_eq (by omega), read16_eq (by omega), read16_eq (by omega),
      read16_eq (by omega), read16_eq (by omega)]
    simp only [pure_bind]
    refine Safe.bind (Safe.byteAt (by omega)) fun revision _ => ?_
    refine Safe.bind (Safe.byteAt (by omega)) fun header hheader => ?_
    refine Safe.ite (fun hbridge => ?_) fun hendpoint => ?_
    · refine Safe.pure ⟨fun _ => ⟨rfl, rfl⟩, fun hlisted => ?_⟩
      rw [hheader] at hbridge
      exact absurd hlisted.2.1 hbridge
    refine Safe.bind (readBars_safe (by omega)) fun bars _ => ?_
    refine Safe.ite (fun hnone => ?_) fun hlist => ?_
    · refine Safe.pure ⟨fun _ => ⟨rfl, rfl⟩, fun hlisted => ?_⟩
      exact absurd hnone hlisted.2.2
    have hlisted : Listed bytes := by
      refine ⟨Nat.not_lt.1 hlength, ?_, hlist⟩
      rw [← hheader]
      exact not_not.1 hendpoint
    refine Safe.bind (Safe.byteAt (by omega)) fun offset hoffset => ?_
    have hfirst : offset = place bytes 0 := hoffset
    rw [hfirst]
    refine Safe.bind (walk_stops (n := 0) (by decide) (walked_start _ rfl rfl rfl) rfl) fun out hout => ?_
    exact Safe.pure ⟨fun hno => absurd hlisted hno, fun _ => ⟨rfl, hout⟩⟩
  rcases hsafe.ends with ⟨_, hno, -⟩ | ⟨⟨ok, out⟩, hout, hcode⟩
  · exact hno.elim
  refine ⟨ok, out, hcode, hout.1, fun hlisted => ?_⟩
  rcases hout.2 hlisted with ⟨hok, m, visited, hstops, hwalked, hends⟩
  have hcount : out.capabilityCount = m := hwalked.count
  have hbad : ∀ a, ¬ Aligned a → ¬ Good bytes a := fun a ha hgood => ha hgood.1
  rw [hcount]
  refine ⟨hok, hwalked.le, hstops, ?_, ?_, ?_, ?_, hwalked.ids, hwalked.pm⟩
  · refine (status_iff hstops hends .valid).trans ?_
    exact (@Stops.bad_iff _ _ _ _ _ hstops (fun a => a = 0) fun a ha => hbad a (ha ▸ not_aligned_zero)).symm
  · refine (status_iff hstops hends .malformed).trans ?_
    exact (@Stops.bad_iff _ _ _ _ _ hstops (fun a => a ≠ 0 ∧ ¬ Aligned a) fun a ha => hbad a ha.2).symm
  · refine (status_iff hstops hends .truncated).trans ?_
    exact (@Stops.bad_iff _ _ _ _ _ hstops (fun a => Aligned a ∧ ¬ InBuffer bytes a) fun a ha hgood => ha.2 hgood.2).symm
  · refine (status_iff hstops hends .cycle).trans ?_
    exact hstops.repeated_iff.symm

end PciConfig
end Rtl8852be
