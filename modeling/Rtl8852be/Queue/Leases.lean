import Rtl8852be.Queue.TxOwnership

/-!
# Leases — a page from its commit to its return

Histories of the transmit ledger.  A lease begins with an accepted `commit` of its page and ends with
an accepted `take`; in between the hardware has to pass the descriptor and report the release, in
either order.  `Lease` is what the ledger knows of a page in use, in terms of the calls that were
made.
-/

namespace Rtl8852be
namespace Queue

open Interaction TxOwnership

variable {κ : Type} {n : RingSize}

/-! ## Calls -/

inductive Op (κ : Type)
  | peek
  | commit (ticket : Ticket) (qsel macid : UInt8) (cookie : Option κ)
  | consumedTo (hardwareConsumer : ℕ)
  | report (r : ReleaseReport)
  | take (page : UInt16)

structure Result (κ : Type) where
  status : QueueStatus
  ticket : Option Ticket := none
  completion : Completion κ := {}

def apply (n : RingSize) : Op κ → TxOwnership κ → Result κ × TxOwnership κ
  | .peek, s => (⟨(s.peek n).1, (s.peek n).2, {}⟩, s)
  | .commit ticket qsel macid cookie, s =>
      (⟨(s.commit n ticket qsel macid cookie).1, none, {}⟩,
        (s.commit n ticket qsel macid cookie).2)
  | .consumedTo hardwareConsumer, s =>
      (⟨(s.consumedTo n hardwareConsumer).1, none, {}⟩, (s.consumedTo n hardwareConsumer).2)
  | .report r, s => (⟨(s.report n r).1, none, {}⟩, (s.report n r).2)
  | .take page, s => (⟨(s.take n page).1, none, (s.take n page).2.1⟩, (s.take n page).2.2)

/-- The ledger asks nothing of its environment. -/
abbrev NoCall (call : Empty) : Type := call.elim

def exec (n : RingSize) (op : Op κ) : Code (TxOwnership κ) Empty NoCall Empty (Result κ) :=
  Code.direct (apply n op)

abbrev Record (κ : Type) := Interaction.Record (TxOwnership κ) Empty NoCall Empty (Op κ) (Result κ)

/-- Any calls, with any arguments, from a fresh ledger. -/
abbrev Run (n : RingSize) : List (Record κ) → TxOwnership κ → Prop :=
  Interaction.Run (exec n) {}

variable {s s' : TxOwnership κ} {h : List (Record κ)} {r : Record κ} {page : UInt16}

theorem exec_outcome {op : Op κ} {log : List (Event Empty NoCall Empty)} {result : Result κ}
    (hout : (exec n op s).Outcome log (result, s')) :
    log = [] ∧ result = (apply n op s).1 ∧ s' = (apply n op s).2 :=
  wp_outcome (Q := fun log result s' =>
    log = [] ∧ result = (apply n op s).1 ∧ s' = (apply n op s).2)
    ((Code.wp_direct _).2 ⟨rfl, rfl, rfl⟩) hout

/-- What one call does to the ledger. -/
inductive Moves (n : RingSize) (s : TxOwnership κ) : Op κ → Result κ → TxOwnership κ → Prop
  | peek : Moves n s .peek ⟨(s.peek n).1, (s.peek n).2, {}⟩ s
  | refused {op : Op κ} {status : QueueStatus} (hno : status ≠ .ok) :
      Moves n s op ⟨status, none, {}⟩ s
  | commit {ticket : Ticket} {qsel macid : UInt8} {cookie : Option κ} (ht : s.Fresh n ticket) :
      Moves n s (.commit ticket qsel macid cookie) ⟨.ok, none, {}⟩
        (s.committed n ticket qsel macid cookie)
  | consumedTo {hw : ℕ} (hk : s.advance n hw ≤ s.pendingBd) :
      Moves n s (.consumedTo hw) ⟨.ok, none, {}⟩ (s.consumed n (s.advance n hw))
  | report {r : ReleaseReport} (hp : r.page.toNat < n.count)
      (hu : (s.pages r.page.toNat).used = true) (hq : (s.pages r.page.toNat).qsel = r.qsel)
      (hm : (s.pages r.page.toNat).macid = r.macid)
      (hr : (s.pages r.page.toNat).reported = false) :
      Moves n s (.report r) ⟨.ok, none, {}⟩ (s.reported r)
  | take {page : UInt16} (hp : page.toNat < n.count) (hu : (s.pages page.toNat).used = true)
      (hc : (s.pages page.toNat).consumed = true) (hr : (s.pages page.toNat).reported = true) :
      Moves n s (.take page)
        ⟨.ok, none, ⟨(s.pages page.toNat).cookie, (s.pages page.toNat).status,
          s.polluted page.toNat⟩⟩ (s.taken page)

theorem apply_moves (hL : s.Ledger n) (op : Op κ) :
    Moves n s op (apply n op s).1 (apply n op s).2 := by
  cases op with
  | peek => exact .peek
  | commit ticket qsel macid cookie =>
      rcases commit_cases hL ticket qsel macid cookie with he | ⟨ht, -, -, he⟩
      · simp only [apply, he]
        exact .refused nofun
      · simp only [apply, he]
        exact .commit ht
  | consumedTo hw =>
      rcases consumedTo_cases hL hw with he | ⟨hk, he⟩
      · simp only [apply, he]
        exact .refused nofun
      · simp only [apply, he]
        exact .consumedTo hk
  | report r =>
      rcases report_cases (s := s) (n := n) r with (he | he) | ⟨hp, hu, hq, hm, hr, he⟩
      · simp only [apply, he]
        exact .refused nofun
      · simp only [apply, he]
        exact .refused nofun
      · simp only [apply, he]
        exact .report hp hu hq hm hr
  | take page =>
      rcases take_cases (s := s) (n := n) page with ⟨status, hno, he⟩ | ⟨hp, hu, hc, hr, he⟩
      · simp only [apply, he]
        exact .refused hno
      · simp only [apply, he]
        exact .take hp hu hc hr

theorem Moves.ledger {op : Op κ} {result : Result κ} (hL : s.Ledger n)
    (hm : Moves n s op result s') : s'.Ledger n := by
  cases hm with
  | peek => exact hL
  | refused hno => exact hL
  | commit ht => exact hL.committed ht
  | consumedTo hk => exact hL.consumed hk
  | report hp hu hq hm hr => exact hL.reported _
  | take hp hu hc hr => exact hL.taken hp hu hc

theorem Run.ledger (hrun : Run n h s) : s.Ledger n := by
  refine Interaction.Run.invariant (P := fun _ s => s.Ledger n) ledger_initial ?_ hrun
  intro h s s' op log result _ hL hout
  obtain ⟨-, rfl, rfl⟩ := exec_outcome hout
  exact (apply_moves hL op).ledger hL

theorem Run.induction {P : List (Record κ) → TxOwnership κ → Prop} (hnil : P [] {})
    (hcall : ∀ {h s s' op log result}, s.Ledger n → P h s → Moves n s op result s' →
      P (⟨s, op, log, result, s'⟩ :: h) s')
    (hrun : Run n h s) : P h s := by
  refine Interaction.Run.invariant hnil ?_ hrun
  intro h s s' op log result hrun hP hout
  obtain ⟨-, rfl, rfl⟩ := exec_outcome hout
  exact hcall (Run.ledger hrun) hP (apply_moves (Run.ledger hrun) op)

theorem Run.moves_of_mem (hrun : Run n h s) (hr : r ∈ h) :
    r.before.Ledger n ∧ Moves n r.before r.op r.result r.after := by
  obtain ⟨later, earlier, rfl⟩ := List.append_of_mem hr
  obtain ⟨hbefore, -, hout⟩ := (Interaction.Run.drop hrun).tail
  obtain ⟨-, hresult, hafter⟩ := exec_outcome hout
  have hL := Run.ledger hbefore
  refine ⟨hL, ?_⟩
  rw [hresult, hafter]
  exact apply_moves hL r.op

/-! ## Leases -/

def Record.commits (page : UInt16) (r : Record κ) : Prop :=
  r.result.status = .ok ∧ ∃ ticket qsel macid cookie,
    r.op = .commit ticket qsel macid cookie ∧ ticket.page = page

def Record.takes (page : UInt16) (r : Record κ) : Prop :=
  r.result.status = .ok ∧ r.op = .take page

/-- The call moved the hardware past this descriptor. -/
def Record.passes (n : RingSize) (bd : UInt16) (r : Record κ) : Prop :=
  r.result.status = .ok ∧ ∃ hw, r.op = .consumedTo hw ∧
    (bd.toNat + n.count - r.before.consumer) % n.count < r.before.advance n hw

def Record.reports (report : ReleaseReport) (r : Record κ) : Prop :=
  r.result.status = .ok ∧ r.op = .report report

/-- `r` is the commit of `page` that the later calls `between` have not undone. -/
structure Opened (page : UInt16) (ticket : Ticket) (qsel macid : UInt8) (cookie : Option κ)
    (r : Record κ) (between : List (Record κ)) : Prop where
  op : r.op = .commit ticket qsel macid cookie
  result : r.result.status = .ok
  target : ticket.page = page
  quiet : ∀ y ∈ between, ¬ Record.commits page y ∧ ¬ Record.takes page y

/-- What the ledger knows of a page in use. -/
structure Lease (n : RingSize) (s : TxOwnership κ) (page : UInt16) (ticket : Ticket)
    (between : List (Record κ)) : Prop where
  waiting : (s.pages page.toNat).consumed = false →
    ∃ i < s.pendingBd, ticket.bd.toNat = (s.consumer + i) % n.count ∧
      s.ring ticket.bd.toNat = page
  consumed : (s.pages page.toNat).consumed = true → ∃ y ∈ between, Record.passes n ticket.bd y
  reported : (s.pages page.toNat).reported = true → ∃ y ∈ between, Record.reports
    ⟨page, (s.pages page.toNat).qsel, (s.pages page.toNat).macid, (s.pages page.toNat).status,
      s.polluted page.toNat⟩ y

def Leased (n : RingSize) (h : List (Record κ)) (s : TxOwnership κ) : Prop :=
  ∀ page : UInt16, page.toNat < n.count → (s.pages page.toNat).used = true →
    ∃ between r earlier ticket, h = between ++ r :: earlier ∧
      Opened page ticket (s.pages page.toNat).qsel (s.pages page.toNat).macid
        (s.pages page.toNat).cookie r between ∧ Lease n s page ticket between

variable {x : Record κ} {ticket : Ticket} {qsel macid : UInt8} {cookie : Option κ}
  {between : List (Record κ)}

theorem Opened.cons (ho : Opened page ticket qsel macid cookie r between)
    (hc : ¬ Record.commits page x) (ht : ¬ Record.takes page x) :
    Opened page ticket qsel macid cookie r (x :: between) := by
  refine ⟨ho.op, ho.result, ho.target, fun y hy => ?_⟩
  rcases List.mem_cons.1 hy with rfl | hy
  · exact ⟨hc, ht⟩
  · exact ho.quiet y hy

/-- A call that leaves the page and its descriptor alone. -/
theorem Lease.keep (hl : Lease n s page ticket between)
    (hpage : s'.pages page.toNat = s.pages page.toNat)
    (hpolluted : s'.polluted page.toNat = s.polluted page.toNat)
    (hwaiting : ∀ i < s.pendingBd, ticket.bd.toNat = (s.consumer + i) % n.count →
      s.ring ticket.bd.toNat = page → ∃ j < s'.pendingBd,
        ticket.bd.toNat = (s'.consumer + j) % n.count ∧ s'.ring ticket.bd.toNat = page) :
    Lease n s' page ticket (x :: between) := by
  refine ⟨fun hc => ?_, fun hc => ?_, fun hr => ?_⟩
  · rw [hpage] at hc
    obtain ⟨i, hi, hbd, hring⟩ := hl.waiting hc
    exact hwaiting i hi hbd hring
  · rw [hpage] at hc
    obtain ⟨y, hy, hpass⟩ := hl.consumed hc
    exact ⟨y, List.mem_cons_of_mem _ hy, hpass⟩
  · rw [hpage] at hr ⊢
    rw [hpolluted]
    obtain ⟨y, hy, hrep⟩ := hl.reported hr
    exact ⟨y, List.mem_cons_of_mem _ hy, hrep⟩

theorem lease_committed (hL : s.Ledger n) (ht : s.Fresh n ticket) :
    Lease n (s.committed n ticket qsel macid cookie) ticket.page ticket [] := by
  refine ⟨fun _ => ⟨s.pendingBd, Nat.lt_succ_self _, ?_, ?_⟩, fun hc => ?_, fun hr => ?_⟩
  · rw [ht.bd, hL.producer]
    rfl
  · rw [ht.bd]
    simp [TxOwnership.committed]
  · simp [TxOwnership.committed] at hc
  · simp [TxOwnership.committed] at hr

/-- A commit of another page writes no pending descriptor. -/
theorem Lease.committed (hL : s.Ledger n) (hl : Lease n s page ticket between) {ticket' : Ticket}
    (hne : page ≠ ticket'.page) :
    Lease n (s.committed n ticket' qsel macid cookie) page ticket (x :: between) := by
  have hne' : page.toNat ≠ ticket'.page.toNat := fun he => hne (UInt16.toNat_inj.1 he)
  refine hl.keep (by simp [TxOwnership.committed, hne']) (by simp [TxOwnership.committed, hne'])
    fun i hi hbd hring => ⟨i, Nat.lt_succ_of_lt hi, hbd, ?_⟩
  have hslot : ticket.bd.toNat ≠ s.producer := fun he => by
    rw [hL.producer, hbd] at he
    exact absurd (Ring.offset_injective (hi.trans hL.pendingBd_lt) hL.pendingBd_lt he) hi.ne
  simp [TxOwnership.committed, hslot, hring]

/-- Consuming descriptors: the page's own is among them exactly if its page is. -/
theorem Lease.consumedTo (hL : s.Ledger n) (hl : Lease n s page ticket between) {hw : ℕ}
    (hk : s.advance n hw ≤ s.pendingBd)
    (hx : x.result.status = .ok ∧ x.op = .consumedTo hw ∧ x.before = s) :
    Lease n (s.consumed n (s.advance n hw)) page ticket (x :: between) := by
  by_cases hmem : page ∈ (s.pending n).take (s.advance n hw)
  · have hpage := consumed_pages (n := n) hk page
    rw [if_pos hmem] at hpage
    refine ⟨fun hc => ?_, fun _ => ?_, fun hr => ?_⟩
    · simp [hpage] at hc
    · have hpending : page ∈ s.pending n := List.mem_of_mem_take hmem
      obtain ⟨i, hi, hbd, hring⟩ := hl.waiting ((hL.unconsumed page).1 hpending).2.2
      refine ⟨x, List.mem_cons_self, hx.1, hw, hx.2.1, ?_⟩
      rw [hx.2.2, hbd, Ring.distance hL.consumer (hi.trans hL.pendingBd_lt)]
      -- The page occurs once among the pending ones, so its place there is `i`.
      obtain ⟨j, hj, hat⟩ := List.getElem_of_mem hmem
      have hj' : j < s.advance n hw ∧ j < s.pendingBd := by
        simpa [pending] using hj
      have hi' : i < (s.pending n).length := by simpa [pending] using hi
      have hji : j = i := by
        have hj'' : j < (s.pending n).length := by simpa [pending] using hj'.2
        have hsame : (s.pending n)[j] = (s.pending n)[i] := by
          rw [List.getElem_take] at hat
          rw [hat, ← hring, hbd]
          exact (Ring.getElem_window hi').symm
        exact (List.Nodup.getElem_inj_iff hL.distinct).1 hsame
      exact hji ▸ hj'.1
    · rw [hpage] at hr ⊢
      obtain ⟨y, hy, hrep⟩ := hl.reported hr
      exact ⟨y, List.mem_cons_of_mem _ hy, hrep⟩
  · have hpage := consumed_pages (n := n) hk page
    rw [if_neg hmem] at hpage
    refine hl.keep hpage rfl fun i hi hbd hring => ?_
    have hle : s.advance n hw ≤ i := by
      by_contra hlt
      refine hmem ?_
      rw [← take_pending hk, Ring.mem_window]
      exact ⟨i, not_le.1 hlt, by rw [← hbd, hring]⟩
    refine ⟨i - s.advance n hw, Nat.sub_lt_sub_right hle hi, ?_, hring⟩
    show _ = ((s.consumer + s.advance n hw) % n.count + (i - s.advance n hw)) % n.count
    rw [hbd, Nat.mod_add_mod, Nat.add_assoc, Nat.add_sub_cancel' hle]

theorem Lease.reported_self (hl : Lease n s page ticket between) {report : ReleaseReport}
    (hpage : report.page = page) (hq : (s.pages page.toNat).qsel = report.qsel)
    (hm : (s.pages page.toNat).macid = report.macid)
    (hx : x.result.status = .ok ∧ x.op = .report report) :
    Lease n (s.reported report) page ticket (x :: between) := by
  subst hpage
  have hslot : (s.reported report).pages report.page.toNat =
      { s.pages report.page.toNat with reported := true, status := report.status } := by
    simp [TxOwnership.reported]
  refine ⟨fun hc => ?_, fun hc => ?_, fun _ => ⟨x, List.mem_cons_self, hx.1, ?_⟩⟩
  · rw [hslot] at hc
    exact hl.waiting hc
  · rw [hslot] at hc
    obtain ⟨y, hy, hpass⟩ := hl.consumed hc
    exact ⟨y, List.mem_cons_of_mem _ hy, hpass⟩
  · rw [hx.2, hslot]
    simp [hq, hm, TxOwnership.reported]

theorem Moves.leased {op : Op κ} {log : List (Event Empty NoCall Empty)} {result : Result κ}
    (hL : s.Ledger n) (hl : Leased n h s) (hm : Moves n s op result s') :
    Leased n (⟨s, op, log, result, s'⟩ :: h) s' := by
  have hkeep : ∀ {op : Op κ} {result : Result κ} {page : UInt16}, page.toNat < n.count →
      (s.pages page.toNat).used = true →
      ¬ Record.commits page ⟨s, op, log, result, s'⟩ → ¬ Record.takes page ⟨s, op, log, result, s'⟩ →
      (s'.pages page.toNat).qsel = (s.pages page.toNat).qsel →
      (s'.pages page.toNat).macid = (s.pages page.toNat).macid →
      (s'.pages page.toNat).cookie = (s.pages page.toNat).cookie →
      (∀ {ticket between}, Lease n s page ticket between →
        Lease n s' page ticket (⟨s, op, log, result, s'⟩ :: between)) →
      ∃ between r earlier ticket, ⟨s, op, log, result, s'⟩ :: h = between ++ r :: earlier ∧
        Opened page ticket (s'.pages page.toNat).qsel (s'.pages page.toNat).macid
          (s'.pages page.toNat).cookie r between ∧ Lease n s' page ticket between := by
    intro op result page hp hu hc ht hq hm hk hlease
    obtain ⟨between, r, earlier, ticket, rfl, ho, hl⟩ := hl page hp hu
    rw [hq, hm, hk]
    exact ⟨_ :: between, r, earlier, ticket, rfl, ho.cons hc ht, hlease hl⟩
  intro page hp hu
  cases hm with
  | peek =>
      exact hkeep hp hu (by rintro ⟨-, _, _, _, _, ⟨⟩, -⟩) (by rintro ⟨-, ⟨⟩⟩) rfl rfl rfl fun hl =>
        hl.keep rfl rfl fun i hi hbd hring => ⟨i, hi, hbd, hring⟩
  | refused hno =>
      exact hkeep hp hu (fun hc => hno hc.1) (fun ht => hno ht.1) rfl rfl rfl fun hl =>
        hl.keep rfl rfl fun i hi hbd hring => ⟨i, hi, hbd, hring⟩
  | @commit ticket qsel macid cookie ht =>
      by_cases hne : page = ticket.page
      · subst hne
        refine ⟨[], _, h, ticket, rfl, ?_, lease_committed hL ht⟩
        have hslot : (s.committed n ticket qsel macid cookie).pages ticket.page.toNat =
            { used := true, qsel := qsel, macid := macid, cookie := cookie } := by
          simp [TxOwnership.committed]
        rw [hslot]
        exact ⟨rfl, rfl, rfl, (by simp)⟩
      · have hslot : (s.committed n ticket qsel macid cookie).pages page.toNat =
            s.pages page.toNat := by
          have hne' : page.toNat ≠ ticket.page.toNat := fun he => hne (UInt16.toNat_inj.1 he)
          simp [TxOwnership.committed, hne']
        rw [hslot] at hu
        refine hkeep hp hu ?_ (by rintro ⟨-, ⟨⟩⟩) (by rw [hslot]) (by rw [hslot]) (by rw [hslot]) fun hl =>
          hl.committed hL hne
        rintro ⟨-, ticket', qsel', macid', cookie', heq, htarget⟩
        cases heq
        exact hne htarget.symm
  | @consumedTo hw hk =>
      have hslot := consumed_pages (n := n) hk page
      have hfields : ((s.consumed n (s.advance n hw)).pages page.toNat).used =
          (s.pages page.toNat).used ∧
          ((s.consumed n (s.advance n hw)).pages page.toNat).qsel = (s.pages page.toNat).qsel ∧
          ((s.consumed n (s.advance n hw)).pages page.toNat).macid = (s.pages page.toNat).macid ∧
          ((s.consumed n (s.advance n hw)).pages page.toNat).cookie =
            (s.pages page.toNat).cookie := by
        rw [hslot]
        split <;> exact ⟨rfl, rfl, rfl, rfl⟩
      rw [hfields.1] at hu
      exact hkeep hp hu (by rintro ⟨-, _, _, _, _, ⟨⟩, -⟩) (by rintro ⟨-, ⟨⟩⟩)
        hfields.2.1 hfields.2.2.1 hfields.2.2.2 fun hl =>
        hl.consumedTo hL hk ⟨rfl, rfl, rfl⟩
  | @report r hp' hu' hq hm hr =>
      by_cases hne : r.page = page
      · subst hne
        refine hkeep hp hu' (by rintro ⟨-, _, _, _, _, ⟨⟩, -⟩) (by rintro ⟨-, ⟨⟩⟩) ?_ ?_ ?_ fun hl =>
          hl.reported_self rfl hq hm ⟨rfl, rfl⟩
        all_goals simp [TxOwnership.reported]
      · have hne' : page.toNat ≠ r.page.toNat := fun he => hne (UInt16.toNat_inj.1 he).symm
        have hslot : (s.reported r).pages page.toNat = s.pages page.toNat := by
          simp [TxOwnership.reported, hne']
        rw [hslot] at hu
        exact hkeep hp hu (by rintro ⟨-, _, _, _, _, ⟨⟩, -⟩) (by rintro ⟨-, ⟨⟩⟩)
          (by rw [hslot]) (by rw [hslot]) (by rw [hslot]) fun hl =>
          hl.keep hslot (by simp [TxOwnership.reported, hne']) fun i hi hbd hring =>
            ⟨i, hi, hbd, hring⟩
  | @take page' hp' hu' hc hr =>
      by_cases hne : page = page'
      · subst hne
        simp [TxOwnership.taken] at hu
      · have hne' : page.toNat ≠ page'.toNat := fun he => hne (UInt16.toNat_inj.1 he)
        have hslot : (s.taken page').pages page.toNat = s.pages page.toNat := by
          simp [TxOwnership.taken, hne']
        rw [hslot] at hu
        refine hkeep hp hu (by rintro ⟨-, _, _, _, _, ⟨⟩, -⟩) ?_
          (by rw [hslot]) (by rw [hslot]) (by rw [hslot]) fun hl =>
          hl.keep hslot (by simp [TxOwnership.taken, hne']) fun i hi hbd hring =>
            ⟨i, hi, hbd, hring⟩
        rintro ⟨-, heq⟩
        cases heq
        exact hne rfl

theorem Run.leased (hrun : Run n h s) : Leased n h s := by
  refine Run.induction (P := Leased n) nofun ?_ hrun
  intro h s s' op log result hL hl hm
  exact hm.leased hL hl

/-! ## The theorem -/

/-- The accepted `take` that `x` is returns what one earlier commit put there, after its descriptor
was passed and with the report that was accepted for it. -/
def Returned (n : RingSize) (page : UInt16) (x : Record κ) (earlier : List (Record κ)) : Prop :=
  ∃ between r earliest ticket qsel macid, earlier = between ++ r :: earliest ∧
    Opened page ticket qsel macid x.result.completion.cookie r between ∧
    (∃ y ∈ between, Record.passes n ticket.bd y) ∧
    ∃ y ∈ between, Record.reports
      ⟨page, qsel, macid, x.result.completion.status, x.result.completion.polluted⟩ y

theorem Run.returned {earlier : List (Record κ)} (hbefore : Run n earlier x.before)
    (hx : Record.takes page x) (hm : Moves n x.before x.op x.result x.after) :
    Returned n page x earlier := by
  obtain ⟨s, op, log, result, s'⟩ := x
  obtain ⟨hok, rfl⟩ := hx
  have hm : Moves n s (.take page) result s' := hm
  cases hm with
  | refused hno => exact absurd hok hno
  | take hp hu hc hr =>
      obtain ⟨between, r, earliest, ticket, rfl, ho, hl⟩ := Run.leased hbefore page hp hu
      exact ⟨between, r, earliest, ticket, _, _, rfl, ho, hl.consumed hc, hl.reported hr⟩

/-- Between two returns of a page there is a commit of it. -/
theorem Returned.commit_between {mid earlier : List (Record κ)} {y : Record κ}
    (hx : Record.takes page x) (hy : Returned n page y (mid ++ x :: earlier)) :
    ∃ r ∈ mid, Record.commits page r := by
  obtain ⟨between, r, earliest, ticket, qsel, macid, heq, ho, -, -⟩ := hy
  have hcommits : Record.commits page r := ⟨ho.result, _, _, _, _, ho.op, ho.target⟩
  have hne : x ≠ r := fun h => by
    have := hx.2
    rw [h, ho.op] at this
    cases this
  rcases List.append_eq_append_iff.1 heq with ⟨rest, hbetween, hrest⟩ | ⟨rest, hmid, hrest⟩
  · cases rest with
    | nil => exact absurd (List.cons.inj hrest).1 hne
    | cons z rest =>
        obtain rfl : x = z := (List.cons.inj hrest).1
        exact absurd hx (ho.quiet x (by simp [hbetween])).2
  · cases rest with
    | nil => exact absurd (List.cons.inj hrest).1.symm hne
    | cons z rest =>
        obtain rfl : r = z := (List.cons.inj hrest).1
        exact ⟨r, by simp [hmid], hcommits⟩

theorem Moves.unchanged {op : Op κ} {result : Result κ} (hm : Moves n s op result s')
    (hno : result.status ≠ .ok) : s' = s := by
  cases hm with
  | peek => rfl
  | refused _ => rfl
  | commit ht => exact absurd rfl hno
  | consumedTo hk => exact absurd rfl hno
  | report hp hu hq hm hr => exact absurd rfl hno
  | take hp hu hc hr => exact absurd rfl hno

/-- Over every sequence of calls: the counters agree with the pages and with the ring; `peek` never
offers a used page, and its loop ends with one unless the first test failed; every page that is
returned was committed, passed and reported, and is returned once for each commit; and a call that
does not succeed changes nothing. -/
theorem tx_page_ledger (hrun : Run n h s) :
    (s.Ledger n ∧ (s.producer + n.count - s.consumer) % n.count = s.pendingBd) ∧
    (∀ ticket, s.peek n = (.ok, some ticket) →
      ticket.page.toNat < n.count ∧ (s.pages ticket.page.toNat).used = false) ∧
    (s.exhausted n = false → (s.freePage n).isSome = true) ∧
    (∀ later x earlier page, h = later ++ x :: earlier → Record.takes page x →
      Returned n page x earlier) ∧
    (∀ later y mid x earlier page, h = later ++ y :: (mid ++ x :: earlier) →
      Record.takes page x → Record.takes page y → ∃ r ∈ mid, Record.commits page r) ∧
    (∀ r ∈ h, r.result.status ≠ .ok → r.after = r.before) := by
  have hL := Run.ledger hrun
  have hreturned : ∀ later x earlier page, h = later ++ x :: earlier → Record.takes page x →
      Returned n page x earlier := by
    rintro later x earlier page rfl hx
    obtain ⟨hbefore, -, -⟩ := (Interaction.Run.drop hrun).tail
    exact Run.returned hbefore hx (Run.moves_of_mem hrun (by simp)).2
  refine ⟨⟨hL, hL.distance⟩, fun ticket hp => ⟨(hL.fresh hp).page, (hL.fresh hp).unused⟩,
    fun hx => ?_, hreturned, ?_, fun r hr => (Run.moves_of_mem hrun hr).2.unchanged⟩
  · refine hL.freePage_isSome fun he => ?_
    simp [exhausted, he] at hx
  · intro later y mid x earlier page heq hx hy
    exact (hreturned later y _ page heq hy).commit_between hx

def fourPages : RingSize := ⟨4, by decide, by decide⟩

/-- Two frames, the first of which is reported before and the second after its descriptor is
consumed. -/
def twoFrames : List (Op ℕ) :=
  [.commit ⟨0, 0, 1⟩ 0 7 (some 100), .commit ⟨1, 1, 2⟩ 0 7 (some 101), .report ⟨0, 0, 7, 0, false⟩,
    .consumedTo 2, .report ⟨1, 0, 7, 1, true⟩, .take 1]

def twoFramesHistory : List (Record ℕ) :=
  (replay (exec fourPages) (fun call => nomatch call) twoFrames {} ()).1

theorem tx_page_ledger_twoFrames :
    ∃ x earlier, twoFramesHistory = x :: earlier ∧ Record.takes 1 x ∧
      x.result.completion = ⟨some 101, 1, true⟩ ∧ Returned fourPages 1 x earlier := by
  have hsplit : twoFramesHistory = [] ++ twoFramesHistory[0] :: twoFramesHistory.tail := rfl
  have htakes : Record.takes 1 twoFramesHistory[0] := ⟨by decide +kernel, rfl⟩
  have hrun : Run fourPages twoFramesHistory _ := replay_run (exec fourPages) _ twoFrames {} ()
  exact ⟨_, _, hsplit, htakes, by decide +kernel,
    (tx_page_ledger hrun).2.2.2.1 _ _ _ _ hsplit htakes⟩

end Queue
end Rtl8852be
