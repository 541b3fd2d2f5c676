import Rtl8852be.Interaction.History
import Rtl8852be.Ring.Window

/-!
# TxOwnership — the ledger of transmit pages

`TxOwnership` of `PciDataPath.hpp`.  A frame owns a page and a buffer descriptor.  Descriptors are
consumed in ring order, pages are released in any order, and a page may be used again only after its
descriptor was consumed and its release report came in.
-/

namespace Rtl8852be
namespace Queue

open Interaction

/-! ## The class -/

/-- The template argument, with its `static_assert`. -/
structure RingSize where
  count : ℕ
  two_le : 2 ≤ count
  le_max : count ≤ 0x8000

theorem RingSize.pos (n : RingSize) : 0 < n.count := lt_of_lt_of_le Nat.zero_lt_two n.two_le

/-- `dataChannel`: the channel of a queue selector, `-1` for an unknown one. -/
def dataChannel (qsel : UInt8) : Int :=
  if qsel = 0 then 0
  else if qsel = 1 then 1
  else if qsel = 2 then 2
  else if qsel = 3 then 3
  else if qsel = 0x12 then 8
  else if qsel = 0x11 then 9
  else -1

structure ReleaseReport where
  page : UInt16 := 0
  qsel : UInt8 := 0
  macid : UInt8 := 0
  status : UInt8 := 0
  polluted : Bool := false
  deriving DecidableEq

inductive QueueStatus
  | ok
  | full
  | invalid
  | duplicate
  | notReady
  deriving DecidableEq, Repr

/-- A cookie is a pointer; `none` is the null pointer. -/
structure Slot (κ : Type) where
  used : Bool := false
  consumed : Bool := false
  reported : Bool := false
  qsel : UInt8 := 0
  macid : UInt8 := 0
  status : UInt8 := 0
  cookie : Option κ := none
  deriving DecidableEq

structure Ticket where
  page : UInt16 := 0
  bd : UInt16 := 0
  nextProducer : UInt16 := 0
  deriving DecidableEq

structure Completion (κ : Type) where
  cookie : Option κ := none
  status : UInt8 := 0
  polluted : Bool := false
  deriving DecidableEq

structure TxOwnership (κ : Type) where
  pages : ℕ → Slot κ := fun _ => {}
  ring : ℕ → UInt16 := fun _ => 0
  producer : ℕ := 0
  consumer : ℕ := 0
  pendingBd : ℕ := 0
  outstanding : ℕ := 0
  nextPage : ℕ := 0
  polluted : ℕ → Bool := fun _ => false

namespace TxOwnership

variable {κ : Type} (n : RingSize)

/-- The loop of `peek`: the first page from `nextPage_` on that is not used. -/
def freePage (s : TxOwnership κ) : Option ℕ :=
  ((List.range n.count).map fun k => (s.nextPage + k) % n.count).find? fun p => !(s.pages p).used

/-- The first test of `peek`. -/
def exhausted (s : TxOwnership κ) : Bool :=
  s.pendingBd == n.count - 1 || s.outstanding == n.count

def peek (s : TxOwnership κ) : QueueStatus × Option Ticket :=
  if s.exhausted n then
    (.full, none)
  else
    match s.freePage n with
    | some p =>
        (.ok, some ⟨UInt16.ofNat p, UInt16.ofNat s.producer,
          UInt16.ofNat ((s.producer + 1) % n.count)⟩)
    | none => (.full, none)

/-- The ledger after an accepted `commit`. -/
def committed (s : TxOwnership κ) (ticket : Ticket) (qsel macid : UInt8)
    (cookie : Option κ) : TxOwnership κ :=
  { s with
    pages := Function.update s.pages ticket.page.toNat
      { used := true, qsel := qsel, macid := macid, cookie := cookie }
    polluted := Function.update s.polluted ticket.page.toNat false
    ring := Function.update s.ring s.producer ticket.page
    producer := ticket.nextProducer.toNat
    pendingBd := s.pendingBd + 1
    outstanding := s.outstanding + 1
    nextPage := (ticket.page.toNat + 1) % n.count }

def commit (ticket : Ticket) (qsel macid : UInt8) (cookie : Option κ) (s : TxOwnership κ) :
    QueueStatus × TxOwnership κ :=
  if cookie.isNone ∨ dataChannel qsel < 0 ∨ s.peek n ≠ (.ok, some ticket) then
    (.invalid, s)
  else
    (.ok, s.committed n ticket qsel macid cookie)

/-- One round of the loop of `consumedTo`. -/
def consumeNext (s : TxOwnership κ) : TxOwnership κ :=
  let page := (s.ring s.consumer).toNat
  { s with
    pages := Function.update s.pages page { s.pages page with consumed := true }
    consumer := (s.consumer + 1) % n.count }

/-- How far `consumedTo` advances. -/
def advance (hardwareConsumer : ℕ) (s : TxOwnership κ) : ℕ :=
  (hardwareConsumer + n.count - s.consumer) % n.count

def consumedTo (hardwareConsumer : ℕ) (s : TxOwnership κ) : QueueStatus × TxOwnership κ :=
  if n.count ≤ hardwareConsumer then
    (.invalid, s)
  else if s.pendingBd < s.advance n hardwareConsumer then
    (.invalid, s)
  else
    let t := (consumeNext n)^[s.advance n hardwareConsumer] s
    (.ok, { t with pendingBd := t.pendingBd - s.advance n hardwareConsumer })

/-- The ledger after an accepted `report`. -/
def reported (s : TxOwnership κ) (r : ReleaseReport) : TxOwnership κ :=
  { s with
    pages := Function.update s.pages r.page.toNat
      { s.pages r.page.toNat with reported := true, status := r.status }
    polluted := Function.update s.polluted r.page.toNat r.polluted }

def report (r : ReleaseReport) (s : TxOwnership κ) : QueueStatus × TxOwnership κ :=
  let p := s.pages r.page.toNat
  if n.count ≤ r.page.toNat ∨ 3 < r.status then
    (.invalid, s)
  else if !p.used ∨ p.qsel ≠ r.qsel ∨ p.macid ≠ r.macid then
    (.invalid, s)
  else if p.reported then
    (.duplicate, s)
  else
    (.ok, s.reported r)

/-- The ledger after an accepted `take`. -/
def taken (s : TxOwnership κ) (page : UInt16) : TxOwnership κ :=
  { s with
    pages := Function.update s.pages page.toNat {}
    polluted := Function.update s.polluted page.toNat false
    outstanding := s.outstanding - 1 }

def take (page : UInt16) (s : TxOwnership κ) : QueueStatus × Completion κ × TxOwnership κ :=
  let p := s.pages page.toNat
  if n.count ≤ page.toNat then
    (.invalid, {}, s)
  else if !p.used ∨ !p.consumed ∨ !p.reported then
    (.notReady, {}, s)
  else
    (.ok, ⟨p.cookie, p.status, s.polluted page.toNat⟩, s.taken page)

/-- `reclaimAfterDmaStopped`: the cookies given to `release`, in order. -/
def reclaimAfterDmaStopped (s : TxOwnership κ) : List (Option κ) × TxOwnership κ :=
  (((List.range n.count).filter fun p => (s.pages p).used).map fun p => (s.pages p).cookie,
    { ring := s.ring })

/-! ## The invariant -/

variable {n}

def usedPages (n : RingSize) (s : TxOwnership κ) : Finset ℕ :=
  (Finset.range n.count).filter fun p => (s.pages p).used = true

/-- The pages whose descriptors the hardware has not consumed, in ring order. -/
def pending (n : RingSize) (s : TxOwnership κ) : List UInt16 :=
  Ring.window n.count s.ring s.consumer s.pendingBd

/-- The two index spaces of the ledger agree. -/
structure Ledger (n : RingSize) (s : TxOwnership κ) : Prop where
  outstanding : s.outstanding = (s.usedPages n).card
  room : s.pendingBd ≤ n.count - 1
  consumer : s.consumer < n.count
  producer : s.producer = (s.consumer + s.pendingBd) % n.count
  nextPage : s.nextPage < n.count
  distinct : (s.pending n).Nodup
  unconsumed : ∀ p : UInt16, p ∈ s.pending n ↔
    p.toNat < n.count ∧ (s.pages p.toNat).used = true ∧ (s.pages p.toNat).consumed = false

variable {s : TxOwnership κ}

theorem Ledger.pendingBd_lt (h : s.Ledger n) : s.pendingBd < n.count :=
  lt_of_le_of_lt h.room (Nat.sub_lt n.pos Nat.one_pos)

theorem Ledger.distance (h : s.Ledger n) :
    (s.producer + n.count - s.consumer) % n.count = s.pendingBd := by
  rw [h.producer]
  exact Ring.distance h.consumer h.pendingBd_lt

theorem ledger_initial : Ledger n ({} : TxOwnership κ) where
  outstanding := by simp [usedPages]
  room := Nat.zero_le _
  consumer := n.pos
  producer := (Nat.zero_mod _).symm
  nextPage := n.pos
  distinct := List.nodup_nil
  unconsumed := fun p => by simp [pending]

/-! ## Free pages -/

theorem mem_usedPages {p : ℕ} : p ∈ s.usedPages n ↔ p < n.count ∧ (s.pages p).used = true := by
  simp [usedPages]

theorem toNat_page {p : ℕ} (hp : p < n.count) : (UInt16.ofNat p).toNat = p :=
  UInt16.toNat_ofNat_of_lt' (lt_of_lt_of_le hp (n.le_max.trans (by decide)))

theorem freePage_spec {p : ℕ} (hp : s.freePage n = some p) :
    p < n.count ∧ (s.pages p).used = false := by
  have hmem := List.mem_of_find?_eq_some hp
  obtain ⟨k, -, rfl⟩ := List.mem_map.1 hmem
  exact ⟨Nat.mod_lt _ n.pos, by simpa using List.find?_some hp⟩

/-- The loop of `peek` finds a page whenever one is free. -/
theorem Ledger.freePage_isSome (h : s.Ledger n) (hout : s.outstanding ≠ n.count) :
    (s.freePage n).isSome = true := by
  have hne : s.usedPages n ≠ Finset.range n.count := fun heq => by
    rw [h.outstanding, heq, Finset.card_range] at hout
    exact hout rfl
  obtain ⟨p, hp, hfree⟩ : ∃ p, p < n.count ∧ (s.pages p).used = false := by
    by_contra hall
    refine hne (Finset.ext fun p => ?_)
    rw [mem_usedPages, Finset.mem_range, and_iff_left_iff_imp]
    intro hp
    by_contra hfree
    exact hall ⟨p, hp, by simpa using hfree⟩
  rw [freePage, List.find?_isSome]
  refine ⟨p, List.mem_map.2 ⟨(p + n.count - s.nextPage) % n.count, ?_, ?_⟩, by simp [hfree]⟩
  · exact List.mem_range.2 (Nat.mod_lt _ n.pos)
  · exact Ring.add_distance h.nextPage hp

theorem peek_ok {ticket : Ticket} (hp : s.peek n = (.ok, some ticket)) :
    s.exhausted n = false ∧ ∃ p, s.freePage n = some p ∧
      ticket = ⟨UInt16.ofNat p, UInt16.ofNat s.producer,
        UInt16.ofNat ((s.producer + 1) % n.count)⟩ := by
  cases hx : s.exhausted n with
  | true => simp [peek, hx] at hp
  | false =>
      refine ⟨rfl, ?_⟩
      cases hf : s.freePage n with
      | none => simp [peek, hx, hf] at hp
      | some p => exact ⟨p, rfl, by simpa [peek, hx, hf] using hp.symm⟩

/-- What a ticket from `peek` is worth. -/
structure Fresh (n : RingSize) (s : TxOwnership κ) (ticket : Ticket) : Prop where
  page : ticket.page.toNat < n.count
  unused : (s.pages ticket.page.toNat).used = false
  bd : ticket.bd.toNat = s.producer
  nextProducer : ticket.nextProducer.toNat = (s.producer + 1) % n.count
  room : s.pendingBd ≠ n.count - 1

theorem Ledger.producer_lt (h : s.Ledger n) : s.producer < n.count := by
  rw [h.producer]
  exact Nat.mod_lt _ n.pos

theorem Ledger.fresh (h : s.Ledger n) {ticket : Ticket} (hp : s.peek n = (.ok, some ticket)) :
    s.Fresh n ticket := by
  obtain ⟨hx, p, hfree, rfl⟩ := peek_ok hp
  obtain ⟨hlt, hunused⟩ := freePage_spec hfree
  have hroom : s.pendingBd ≠ n.count - 1 := fun he => by simp [exhausted, he] at hx
  exact ⟨by rwa [toNat_page hlt], by rwa [toNat_page hlt], toNat_page h.producer_lt,
    toNat_page (Nat.mod_lt _ n.pos), hroom⟩

/-! ## Every operation keeps the ledger -/

variable {ticket : Ticket} {qsel macid : UInt8} {cookie : Option κ}

theorem commit_cases (h : s.Ledger n) (ticket : Ticket) (qsel macid : UInt8) (cookie : Option κ) :
    s.commit n ticket qsel macid cookie = (.invalid, s) ∨
    (s.Fresh n ticket ∧ cookie.isSome = true ∧ 0 ≤ dataChannel qsel ∧
      s.commit n ticket qsel macid cookie = (.ok, s.committed n ticket qsel macid cookie)) := by
  by_cases hc : cookie.isNone ∨ dataChannel qsel < 0 ∨ s.peek n ≠ (.ok, some ticket)
  · exact Or.inl (if_pos hc)
  · obtain ⟨hcookie, hrest⟩ := not_or.1 hc
    obtain ⟨hq, hp⟩ := not_or.1 hrest
    exact Or.inr ⟨h.fresh (not_not.1 hp), by simpa [Option.isSome_iff_ne_none] using hcookie, not_lt.1 hq, if_neg hc⟩

theorem Ledger.pending_committed (h : s.Ledger n) :
    (s.committed n ticket qsel macid cookie).pending n = s.pending n ++ [ticket.page] := by
  rw [pending, TxOwnership.committed, h.producer]
  exact Ring.window_update h.pendingBd_lt

theorem Ledger.committed (h : s.Ledger n) (ht : s.Fresh n ticket) :
    (s.committed n ticket qsel macid cookie).Ledger n where
  outstanding := by
    have hused : (s.committed n ticket qsel macid cookie).usedPages n =
        insert ticket.page.toNat (s.usedPages n) := by
      ext p
      rw [mem_usedPages, Finset.mem_insert, mem_usedPages]
      by_cases hp : p = ticket.page.toNat
      · simp [hp, TxOwnership.committed, ht.page]
      · simp [hp, TxOwnership.committed]
    have hnew : ticket.page.toNat ∉ s.usedPages n := fun hmem => by
      simp [mem_usedPages, ht.unused] at hmem
    rw [hused, Finset.card_insert_of_notMem hnew, ← h.outstanding]
    rfl
  room := by
    have hroom := h.room
    have hne := ht.room
    show s.pendingBd + 1 ≤ n.count - 1
    omega
  consumer := h.consumer
  producer := by
    show ticket.nextProducer.toNat = (s.consumer + (s.pendingBd + 1)) % n.count
    rw [ht.nextProducer, h.producer, Nat.mod_add_mod, Nat.add_assoc]
  nextPage := Nat.mod_lt _ n.pos
  distinct := by
    rw [h.pending_committed]
    refine List.nodup_append.2 ⟨h.distinct, List.nodup_singleton _, fun a ha b hb => ?_⟩
    rintro rfl
    rw [List.mem_singleton.1 hb, h.unconsumed, ht.unused] at ha
    exact absurd ha.2.1 nofun
  unconsumed := fun p => by
    rw [h.pending_committed, List.mem_append, List.mem_singleton, h.unconsumed]
    by_cases hp : p = ticket.page
    · subst hp
      simp [TxOwnership.committed, ht.page]
    · have hne : p.toNat ≠ ticket.page.toNat := fun he => hp (UInt16.toNat_inj.1 he)
      simp [TxOwnership.committed, hp, hne]

/-- The ledger after `k` descriptors were consumed. -/
def consumed (n : RingSize) (s : TxOwnership κ) (k : ℕ) : TxOwnership κ :=
  { s with
    pages := fun p =>
      if p ∈ (Ring.window n.count s.ring s.consumer k).map UInt16.toNat then
        { s.pages p with consumed := true }
      else s.pages p
    consumer := (s.consumer + k) % n.count
    pendingBd := s.pendingBd - k }

theorem consumeNext_iterate (hc : s.consumer < n.count) (k : ℕ) :
    (consumeNext n)^[k] s = { s.consumed n k with pendingBd := s.pendingBd } := by
  induction k with
  | zero => simp [TxOwnership.consumed, Nat.mod_eq_of_lt hc]
  | succ k ih =>
      rw [Function.iterate_succ_apply', ih, consumeNext]
      simp only [TxOwnership.consumed, Nat.mod_add_mod, Ring.window_succ, List.map_append,
        List.map_cons, List.map_nil, List.mem_append, List.mem_singleton, Nat.add_assoc]
      congr 1
      funext p
      by_cases hp : p = (s.ring ((s.consumer + k) % n.count)).toNat
      · subst hp
        by_cases hmem : (s.ring ((s.consumer + k) % n.count)).toNat ∈
            (Ring.window n.count s.ring s.consumer k).map UInt16.toNat <;> simp [hmem]
      · simp [hp]

theorem consumedTo_cases (h : s.Ledger n) (hw : ℕ) :
    s.consumedTo n hw = (.invalid, s) ∨
    (s.advance n hw ≤ s.pendingBd ∧
      s.consumedTo n hw = (.ok, s.consumed n (s.advance n hw))) := by
  unfold consumedTo
  by_cases hlt : n.count ≤ hw
  · exact Or.inl (if_pos hlt)
  · rw [if_neg hlt]
    by_cases hadv : s.pendingBd < s.advance n hw
    · exact Or.inl (if_pos hadv)
    · rw [if_neg hadv, consumeNext_iterate h.consumer]
      exact Or.inr ⟨not_lt.1 hadv, rfl⟩

theorem pending_consumed (k : ℕ) : (s.consumed n k).pending n = (s.pending n).drop k :=
  Ring.window_advance

theorem take_pending {k : ℕ} (hk : k ≤ s.pendingBd) :
    Ring.window n.count s.ring s.consumer k = (s.pending n).take k :=
  (Ring.window_take hk).symm

theorem consumed_pages {k : ℕ} (hk : k ≤ s.pendingBd) (p : UInt16) :
    (s.consumed n k).pages p.toNat =
      if p ∈ (s.pending n).take k then { s.pages p.toNat with consumed := true }
      else s.pages p.toNat := by
  rw [TxOwnership.consumed, take_pending hk]
  simp only [List.mem_map, UInt16.toNat_inj, exists_eq_right]

theorem Ledger.consumed (h : s.Ledger n) {k : ℕ} (hk : k ≤ s.pendingBd) :
    (s.consumed n k).Ledger n where
  outstanding := by
    have hused : (s.consumed n k).usedPages n = s.usedPages n := by
      ext p
      rw [mem_usedPages, mem_usedPages, TxOwnership.consumed]
      dsimp only
      split <;> rfl
    rw [hused]
    exact h.outstanding
  room := (Nat.sub_le _ _).trans h.room
  consumer := Nat.mod_lt _ n.pos
  producer := by
    show s.producer = ((s.consumer + k) % n.count + (s.pendingBd - k)) % n.count
    rw [h.producer, Nat.mod_add_mod, Nat.add_assoc, Nat.add_sub_cancel' hk]
  nextPage := h.nextPage
  distinct := by
    rw [pending_consumed]
    exact h.distinct.sublist (List.drop_sublist _ _)
  unconsumed := fun p => by
    rw [pending_consumed, consumed_pages hk]
    have hsplit := h.distinct
    rw [← List.take_append_drop k (s.pending n), List.nodup_append] at hsplit
    have hmem : p ∈ s.pending n ↔ p ∈ (s.pending n).take k ∨ p ∈ (s.pending n).drop k := by
      rw [← List.mem_append, List.take_append_drop]
    by_cases hp : p ∈ (s.pending n).take k
    · have hnot : p ∉ (s.pending n).drop k := fun hd => hsplit.2.2 p hp p hd rfl
      simp [hp, hnot]
    · rw [if_neg hp, ← h.unconsumed, hmem]
      simp [hp]

/-- The ledger sees of a page only whether it is used and consumed. -/
theorem Ledger.congr {t : TxOwnership κ} (h : s.Ledger n)
    (hpages : ∀ p, (t.pages p).used = (s.pages p).used ∧
      (t.pages p).consumed = (s.pages p).consumed)
    (hring : t.ring = s.ring) (hproducer : t.producer = s.producer)
    (hconsumer : t.consumer = s.consumer) (hpending : t.pendingBd = s.pendingBd)
    (hout : t.outstanding = s.outstanding) (hnext : t.nextPage = s.nextPage) : t.Ledger n := by
  have hlist : t.pending n = s.pending n := by rw [pending, pending, hring, hconsumer, hpending]
  have hused : t.usedPages n = s.usedPages n := by
    ext p
    rw [mem_usedPages, mem_usedPages, (hpages p).1]
  exact ⟨by rw [hout, hused, h.outstanding], by rw [hpending]; exact h.room,
    by rw [hconsumer]; exact h.consumer, by rw [hproducer, hconsumer, hpending, h.producer],
    by rw [hnext]; exact h.nextPage, by rw [hlist]; exact h.distinct,
    fun p => by rw [hlist, h.unconsumed, (hpages _).1, (hpages _).2]⟩

theorem report_cases (r : ReleaseReport) :
    (s.report n r = (.invalid, s) ∨ s.report n r = (.duplicate, s)) ∨
    (r.page.toNat < n.count ∧ (s.pages r.page.toNat).used = true ∧
      (s.pages r.page.toNat).qsel = r.qsel ∧ (s.pages r.page.toNat).macid = r.macid ∧
      (s.pages r.page.toNat).reported = false ∧ s.report n r = (.ok, s.reported r)) := by
  unfold report
  by_cases h1 : n.count ≤ r.page.toNat ∨ 3 < r.status
  · exact Or.inl (Or.inl (if_pos h1))
  · rw [if_neg h1]
    by_cases h2 : (!(s.pages r.page.toNat).used) = true ∨ (s.pages r.page.toNat).qsel ≠ r.qsel ∨
        (s.pages r.page.toNat).macid ≠ r.macid
    · exact Or.inl (Or.inl (if_pos h2))
    · rw [if_neg h2]
      cases h3 : (s.pages r.page.toNat).reported with
      | true => exact Or.inl (Or.inr rfl)
      | false =>
          obtain ⟨hu, hrest⟩ := not_or.1 h2
          obtain ⟨hq, hm⟩ := not_or.1 hrest
          exact Or.inr ⟨not_le.1 (not_or.1 h1).1, by simpa using hu, not_not.1 hq, not_not.1 hm,
            rfl, rfl⟩

theorem Ledger.reported (h : s.Ledger n) (r : ReleaseReport) : (s.reported r).Ledger n := by
  refine h.congr (fun p => ?_) rfl rfl rfl rfl rfl rfl
  by_cases hp : p = r.page.toNat
  · subst hp
    simp [TxOwnership.reported]
  · simp [TxOwnership.reported, hp]

theorem take_cases (page : UInt16) :
    (∃ status ≠ QueueStatus.ok, s.take n page = (status, {}, s)) ∨
    (page.toNat < n.count ∧ (s.pages page.toNat).used = true ∧
      (s.pages page.toNat).consumed = true ∧ (s.pages page.toNat).reported = true ∧
      s.take n page = (.ok, ⟨(s.pages page.toNat).cookie, (s.pages page.toNat).status,
        s.polluted page.toNat⟩, s.taken page)) := by
  unfold take
  by_cases h1 : n.count ≤ page.toNat
  · exact Or.inl ⟨.invalid, nofun, if_pos h1⟩
  · rw [if_neg h1]
    by_cases h2 : (!(s.pages page.toNat).used) = true ∨ (!(s.pages page.toNat).consumed) = true ∨
        (!(s.pages page.toNat).reported) = true
    · exact Or.inl ⟨.notReady, nofun, if_pos h2⟩
    · obtain ⟨hu, hrest⟩ := not_or.1 h2
      obtain ⟨hc, hr⟩ := not_or.1 hrest
      exact Or.inr ⟨not_le.1 h1, by simpa using hu, by simpa using hc, by simpa using hr,
        if_neg h2⟩

theorem Ledger.taken (h : s.Ledger n) {page : UInt16} (hp : page.toNat < n.count)
    (hu : (s.pages page.toNat).used = true) (hc : (s.pages page.toNat).consumed = true) :
    (s.taken page).Ledger n where
  outstanding := by
    have hused : (s.taken page).usedPages n = (s.usedPages n).erase page.toNat := by
      ext p
      rw [mem_usedPages, Finset.mem_erase, mem_usedPages]
      by_cases hne : p = page.toNat
      · simp [hne, TxOwnership.taken]
      · simp [hne, TxOwnership.taken]
    rw [hused, Finset.card_erase_of_mem (mem_usedPages.2 ⟨hp, hu⟩), ← h.outstanding]
    rfl
  room := h.room
  consumer := h.consumer
  producer := h.producer
  nextPage := h.nextPage
  distinct := h.distinct
  unconsumed := fun p => by
    show p ∈ s.pending n ↔ _
    rw [h.unconsumed]
    by_cases hne : p = page
    · subst hne
      simp [TxOwnership.taken, hc]
    · have hne' : p.toNat ≠ page.toNat := fun he => hne (UInt16.toNat_inj.1 he)
      simp [TxOwnership.taken, hne']

end TxOwnership

end Queue
end Rtl8852be
