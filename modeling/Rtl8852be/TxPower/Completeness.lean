import Rtl8852be.TxPower.Pages

/-!
# Completeness — a plan has every write, or none

* `Places` — a part of the plan adds a write to each of these registers, whatever the policy says;
* `headRegisters`, `pageRegisters` — the registers of a plan in their order, no two of them equal;
* `build_plans` — what `build` leaves, for every channel, every policy and every reply.
-/

namespace Rtl8852be
namespace TxPower

open Interaction Code

variable {band : UInt8}

/-! ## Adding -/

abbrev Register := Bool × UInt32

def Write.register (w : Write) : Register := (w.baseband, w.address)

theorem Sound.added {t : Trace} {d : Plan} (h : Sound band t d) (w : Write) : Sound band t (d.added w) :=
  ⟨h.inside, h.error, h.asked, h.good, h.known, h.bad, h.once⟩

/-- With room for one more, a write is added unless there is an error. -/
theorem add_plans (w : Write) :
    Plans band 1 (add w.baseband w.address w.mask w.value) fun _ ws _ => ws = [w] := by
  intro t d hd hroom
  unfold add
  rw [wp_get_bind]
  by_cases herror : d.error ≠ .none
  · rw [if_pos herror, wp_pure]
    refine ⟨?_, by omega, fun hno => absurd hno herror⟩
    rw [List.append_nil]
    exact hd
  rw [if_neg herror, if_neg (by omega), wp_modify]
  refine ⟨?_, ?_, fun _ => ⟨not_not.1 herror, [w], rfl, rfl⟩⟩
  · rw [List.append_nil]
    exact hd.added w
  · show (d.writes ++ [w]).length ≤ d.writes.length + 1
    exact List.length_append.le

/-- One write to each of these registers. -/
def Places (band : UInt8) (m : Planning Unit) (rs : List Register) : Prop :=
  Plans band rs.length m fun _ ws _ => ws.map Write.register = rs

theorem add_places (baseband : Bool) (address mask value : UInt32) :
    Places band (add baseband address mask value) [(baseband, address)] :=
  (add_plans ⟨baseband, address, mask, value⟩).mono fun _ ws _ h => by
    rw [h]
    rfl

theorem Looks.places {α : Type} {m : Planning α} {f : α → Planning Unit} {Q : Trace → α → Prop} {rs : List Register}
    (hm : Looks band m Q) (hf : ∀ a, Places band (f a) rs) : Places band (m >>= f) rs := by
  refine (Looks.plans hm hf).mono ?_
  rintro t ws b ⟨t₁, a, -, -, h⟩
  exact h

theorem Places.bind {m m' : Planning Unit} {rs rs' : List Register} (hm : Places band m rs) (hm' : Places band m' rs') :
    Places band (m >>= fun _ => m') (rs ++ rs') := by
  unfold Places
  rw [List.length_append]
  refine (Plans.bind hm fun _ => hm').mono ?_
  rintro t ws b ⟨t₁, a, ws₁, ws₂, -, h, h', rfl⟩
  rw [List.map_append, h, h']

/-- The parts of a plan, in order, with the registers of each. -/
inductive Placed (band : UInt8) : List (Planning Unit) → List Register → Prop
  | nil : Placed band [] []
  | cons {m : Planning Unit} {ms : List (Planning Unit)} {rs rs' : List Register} :
      Places band m rs → Placed band ms rs' → Placed band (m :: ms) (rs ++ rs')

theorem Placed.inOrder {ms : List (Planning Unit)} {rs : List Register} (h : Placed band ms rs) :
    Places band (inOrder ms) rs := by
  induction h with
  | nil => exact Plans.pure fun _ => rfl
  | cons hm _ ih => exact hm.bind ih

theorem Placed.one {m : Planning Unit} {rs : List Register} (h : Places band m rs) : Placed band [m] rs := by
  have hone := Placed.cons h Placed.nil
  rw [List.append_nil] at hone
  exact hone

theorem Placed.append {ms ms' : List (Planning Unit)} {rs rs' : List Register} (h : Placed band ms rs)
    (h' : Placed band ms' rs') : Placed band (ms ++ ms') (rs ++ rs') := by
  induction h with
  | nil => exact h'
  | cons hm _ ih =>
      rw [List.cons_append, List.append_assoc]
      exact Placed.cons hm ih

theorem Placed.map {α : Type} {f : α → Planning Unit} {g : α → Register} :
    ∀ {l : List α}, (∀ a ∈ l, Places band (f a) [g a]) → Placed band (l.map f) (l.map g)
  | [], _ => Placed.nil
  | a :: _, h => Placed.cons (h a List.mem_cons_self) (Placed.map fun b hb => h b (List.mem_cons_of_mem a hb))

/-! ## The head of a plan -/

section Head

variable (T : Tables) {domain : UInt8}

theorem band_toNat (hband : band = 0 ∨ band = 1) : band.toNat ≤ 1 := by
  rcases hband with rfl | rfl
  · decide
  · decide

theorem rate_looks (hband : band = 0 ∨ band = 1) {nss rs index : ℕ} (hnss : nss < 2) (hrs : rs < 5)
    (hindex : index < 12) : Looks band (rate T band nss rs index) fun _ _ => True := by
  have hone := band_toNat hband
  unfold rate
  refine (Looks.bind (look_looks T.byrate ?_) fun v => Looks.pure (Q := fun _ _ => True) fun _ => trivial).mono
    fun _ _ _ => trivial
  by_cases hcck : rs = 0
  · rw [if_pos hcck]
    omega
  · rw [if_neg hcck]
    omega

theorem addRates_places (hband : band = 0 ∨ band = 1) (address : UInt32) {q : ℕ × ℕ × ℕ} (hnss : q.1 < 2)
    (hrs : q.2.1 < 5) (hindex : q.2.2 + 3 < 12) : Places band (addRates T band address q) [(false, address)] :=
  (rate_looks T hband hnss hrs (by omega)).places fun _ =>
    (rate_looks T hband hnss hrs (by omega)).places fun _ =>
      (rate_looks T hband hnss hrs (by omega)).places fun _ =>
        (rate_looks T hband hnss hrs (by omega)).places fun _ => add_places _ _ _ _

theorem addOffsets_places (hband : band = 0 ∨ band = 1) : Places band (addOffsets T band) [(false, 0xd204)] := by
  have hlook : ∀ i < 5, Looks band (rate T band 0 4 i) fun _ _ => True := fun i hi =>
    rate_looks T hband (by omega) (by omega) (by omega)
  exact (hlook 0 (by omega)).places fun _ => (hlook 1 (by omega)).places fun _ => (hlook 2 (by omega)).places fun _ =>
    (hlook 3 (by omega)).places fun _ => (hlook 4 (by omega)).places fun _ => add_places _ _ _ _

theorem lookDfir_looks {shape i : ℕ} (hshape : shape < 3) (hi : i < 8) :
    Looks band (lookDfir T shape i) fun _ _ => True := by
  intro t d hd _
  unfold lookDfir
  rw [wp_tell_bind, wp_tell_bind, wp_pure]
  have hboth := (hd.note hshape).note hi
  rw [List.append_assoc] at hboth
  exact ⟨hboth, le_rfl, fun hno => ⟨hno, [], (List.append_nil _).symm, rfl, trivial⟩⟩

/-- `R_TXFIR0` and on. -/
def filterRegisters : List Register :=
  [(true, 0x2300), (true, 0x2304), (true, 0x2308), (true, 0x230c), (true, 0x2310), (true, 0x2314), (true, 0x2318),
    (true, 0x231c)]

def addShape (shape : ℕ) : Planning Unit :=
  inOrder ((List.range 8).map fun i => do
    let v ← lookDfir T shape i
    add true (0x2300 + UInt32.ofNat i * 4) 0xffffffff v)

theorem addShape_places {shape : ℕ} (hshape : shape < 3) : Places band (addShape T shape) filterRegisters := by
  have hone : ∀ i ∈ List.range 8, Places band (do
      let v ← lookDfir T shape i
      add true (0x2300 + UInt32.ofNat i * 4) 0xffffffff v) [(true, 0x2300 + UInt32.ofNat i * 4)] := fun i hi =>
    (lookDfir_looks T hshape (List.mem_range.1 hi)).places fun _ => add_places _ _ _ _
  exact (Placed.map hone).inOrder

/-- The shape of channel 14 is fixed; that of the others is looked up, and is 0 or 1. -/
theorem addFilter_places (ch : Channel) (hdomain : domain < regdNum) :
    Places band (addFilter T ch domain) filterRegisters := by
  have hd : domain.toNat < 16 := UInt8.lt_iff_toNat_lt.1 hdomain
  unfold addFilter txShape
  by_cases h : ch.center = 14
  · rw [if_pos h]
    exact addShape_places T (show 2 < 3 by decide)
  · rw [if_neg h]
    show Places band (look T.tx_shape_lmt domain.toNat >>= fun v => addShape T (if v ≠ 0 then 1 else 0)) _
    refine (look_looks T.tx_shape_lmt (by omega)).places fun v => ?_
    by_cases hv : v ≠ 0
    · rw [if_pos hv]
      exact addShape_places T (by decide)
    · rw [if_neg hv]
      exact addShape_places T (by decide)

theorem addTriangular_places (hband : band = 0 ∨ band = 1) (hdomain : domain < regdNum) :
    Places band (addTriangular T band domain) [(true, 0x4494)] := by
  have hd : domain.toNat < 16 := UInt8.lt_iff_toNat_lt.1 hdomain
  have hone := band_toNat hband
  exact (look_looks T.tx_shape_lmt (by omega)).places fun _ => add_places _ _ _ _

def referenceRegisters : List Register := [(true, 0x5804), (true, 0x7804), (true, 0x5808), (true, 0x7808)]

/-- `R_AX_PWR_BY_RATE` and on: one for each four rates of CCK, OFDM, MCS and HEDCM, of one stream and of two. -/
def rateRegisters : List Register := (List.range 11).map fun k => (false, 0xd2c0 + UInt32.ofNat (4 * k))

/-- `R_AX_PWR_RATE_CTRL`, the references, the rates, `R_AX_PWR_RATE_OFST_CTRL`, in the 2.4 GHz band the filter, and
`R_DCFO_OPT`. -/
def headRegisters (band : UInt8) : List Register :=
  [(false, 0xd200)] ++ referenceRegisters ++ rateRegisters ++ [(false, 0xd204)] ++
    (if band = 0 then filterRegisters else []) ++ [(true, 0x4494)]

theorem addRates_placed (hband : band = 0 ∨ band = 1) :
    Placed band (rateQuads.mapIdx fun k q => addRates T band (0xd2c0 + UInt32.ofNat (4 * k)) q) rateRegisters := by
  have hquads : ∀ q ∈ rateQuads.zipIdx, q.1.1 < 2 ∧ q.1.2.1 < 5 ∧ q.1.2.2 + 3 < 12 := by decide
  have hregisters : rateRegisters = rateQuads.zipIdx.map fun q => (false, 0xd2c0 + UInt32.ofNat (4 * q.2)) := rfl
  rw [hregisters, List.mapIdx_eq_zipIdx_map]
  exact Placed.map fun q hq => addRates_places T hband _ (hquads q hq).1 (hquads q hq).2.1 (hquads q hq).2.2

theorem addHead_places {ch : Channel} (hband : ch.band = 0 ∨ ch.band = 1) (hdomain : domain < regdNum) :
    Places ch.band (addHead T ch domain) (headRegisters ch.band) := by
  have hfilter : Placed ch.band (if ch.band = 0 then [addFilter T ch domain] else [])
      (if ch.band = 0 then filterRegisters else []) := by
    by_cases h : ch.band = 0
    · rw [if_pos h, if_pos h]
      exact Placed.one (addFilter_places T ch hdomain)
    · rw [if_neg h, if_neg h]
      exact Placed.nil
  have hreferences : Placed ch.band (references.map fun a => add true a refMask refValue) referenceRegisters :=
    Placed.map (g := fun a => (true, a)) fun a _ => add_places _ _ _ _
  exact ((((((Placed.one (add_places _ _ _ _)).append hreferences).append (addRates_placed T hband)).append
    (Placed.one (addOffsets_places T hband))).append hfilter).append
      (Placed.one (addTriangular_places T hband hdomain))).inOrder

end Head

/-! ## The pages of a plan -/

theorem addAll_plans : ∀ ws : List Write, Plans band ws.length (addAll ws) fun _ ws' _ => ws' = ws
  | [] => Plans.pure fun _ => rfl
  | w :: ws => by
      have hone : Plans band 1 (add w.baseband w.address w.mask w.value) fun _ ws _ => ws = [w] := add_plans w
      have hboth := Plans.bind hone fun _ => addAll_plans ws
      rw [Nat.add_comm] at hboth
      refine hboth.mono ?_
      rintro t ws' b ⟨t₁, a, ws₁, ws₂, -, rfl, rfl, rfl⟩
      rfl

theorem pageWrites_length (address : UInt32) (size : ℕ) (page : Page) :
    (pageWrites address size page).length = size / 4 := by
  unfold pageWrites
  rw [List.length_map, List.length_range]

theorem Written.mono {address : UInt32} {size : ℕ} {P P' : Page → Prop} {ws : List Write} (h : Written address size P ws)
    (hP : ∀ page, P page → P' page) : Written address size P' ws := by
  rcases h with ⟨page, hpage, hws⟩
  exact ⟨page, hP page hpage, hws⟩

def pageRegisters (address : UInt32) (size : ℕ) : List Register :=
  (List.range (size / 4)).map fun k => (false, address + UInt32.ofNat (4 * k))

theorem Written.registers {address : UInt32} {size : ℕ} {P : Page → Prop} {ws : List Write}
    (h : Written address size P ws) : ws.map Write.register = pageRegisters address size := by
  rcases h with ⟨page, -, rfl⟩
  unfold pageRegisters
  rw [List.map_map]
  rfl

section Pages

variable (T : Tables) {domain : UInt8} {ch : Channel}

theorem page_plans (address : UInt32) (size : ℕ) {m : Planning Page} {P : Trace → Page → Prop}
    (hlater : ∀ {t t'} page, t <+: t' → P t page → P t' page) (hm : Looks band m P) :
    Plans band (size / 4) (m >>= fun page => addAll (pageWrites address size page)) fun t ws _ =>
      Written address size (P t) ws := by
  have hall : ∀ page, Plans band (size / 4) (addAll (pageWrites address size page)) fun _ ws _ =>
      ws = pageWrites address size page := fun page => by
    rw [← pageWrites_length address size page]
    exact addAll_plans _
  refine (Looks.plans hm hall).mono ?_
  rintro t ws _ ⟨t₁, page, hpre, hpage, rfl⟩
  exact written_pageWrites address size (hlater page hpre hpage)

theorem addLimit_plans (hch : ch.validChannel = true) (hdomain : domain < regdNum) {ntx : ℕ}
    (hntx : UInt8.ofNat ntx ≤ 1) :
    Plans ch.band 10 (addLimit T domain ch ntx) fun t ws _ =>
      Written (limitRegister ntx) 40 (LimitPage T domain ch (UInt8.ofNat ntx) t) ws :=
  page_plans (limitRegister ntx) 40 (fun _ hpre h => h.later T hpre)
    ((limitPage_looks T hch hdomain hntx).mono fun _ _ h => h.limitPage T hch)

theorem addLimitRu_plans (hch : ch.validChannel = true) (hdomain : domain < regdNum) {ntx : ℕ}
    (hntx : UInt8.ofNat ntx ≤ 1) :
    Plans ch.band 6 (addLimitRu T domain ch ntx) fun t ws _ =>
      Written (limitRuRegister ntx) 24 (RuPage T domain ch (UInt8.ofNat ntx) t) ws :=
  page_plans (limitRuRegister ntx) 24 (fun _ hpre h => h.later T hpre)
    ((limitRuPage_looks T hch hdomain hntx).mono fun _ _ h => h.ruPage T hch)

end Pages

/-! ## The plan -/

/-- The registers of a plan, in the order of their writes. -/
def registers (band : UInt8) : List Register :=
  headRegisters band ++ pageRegisters 0xd2ec 40 ++ pageRegisters 0xd314 40 ++
    pageRegisters 0xd33c 24 ++ pageRegisters 0xd354 24

/-- A plan with everything: what the pages hold is capped, for one and for two chains. -/
structure Complete (T : Tables) (domain : UInt8) (ch : Channel) (t : Trace) (ws : List Write) : Prop where
  registers : ws.map Write.register = registers ch.band
  pages : ∃ head limit₀ limit₁ ru₀ ru₁, ws = head ++ limit₀ ++ limit₁ ++ ru₀ ++ ru₁ ∧
    Written 0xd2ec 40 (LimitPage T domain ch 0 t) limit₀ ∧
    Written 0xd314 40 (LimitPage T domain ch 1 t) limit₁ ∧
    Written 0xd33c 24 (RuPage T domain ch 0 t) ru₀ ∧
    Written 0xd354 24 (RuPage T domain ch 1 t) ru₁

theorem registers_nodup (hband : band = 0 ∨ band = 1) : (registers band).Nodup := by
  rcases hband with rfl | rfl
  · decide +kernel
  · decide +kernel

/-- The whole of `build`, but for its checks. -/
def addPlan (T : Tables) (domain : UInt8) (ch : Channel) : Planning Unit :=
  inOrder [addHead T ch domain, addLimit T domain ch 0, addLimit T domain ch 1, addLimitRu T domain ch 0,
    addLimitRu T domain ch 1]

variable (T : Tables)

theorem headRegisters_length : (headRegisters band).length ≤ 32 := by
  unfold headRegisters
  by_cases h : band = 0
  · rw [if_pos h]
    decide
  · rw [if_neg h]
    decide

theorem addPlan_plans {domain : UInt8} {ch : Channel} (hch : ch.validChannel = true) (hdomain : domain < regdNum) :
    Plans ch.band 64 (addPlan T domain ch) fun t ws _ => Complete T domain ch t ws := by
  have hhead := addHead_places T (band_of_valid hch) hdomain
  have hlimit₀ := addLimit_plans T hch hdomain (show UInt8.ofNat 0 ≤ 1 by decide)
  have hlimit₁ := addLimit_plans T hch hdomain (show UInt8.ofNat 1 ≤ 1 by decide)
  have hru₀ := addLimitRu_plans T hch hdomain (show UInt8.ofNat 0 ≤ 1 by decide)
  have hru₁ := addLimitRu_plans T hch hdomain (show UInt8.ofNat 1 ≤ 1 by decide)
  rw [show limitRegister 0 = 0xd2ec from rfl] at hlimit₀
  rw [show limitRegister 1 = 0xd314 from rfl] at hlimit₁
  rw [show limitRuRegister 0 = 0xd33c from rfl] at hru₀
  rw [show limitRuRegister 1 = 0xd354 from rfl] at hru₁
  have hend : Plans ch.band 0 (inOrder []) fun _ ws _ => ws = [] := Plans.pure fun _ => rfl
  have hlength : (headRegisters ch.band).length ≤ 32 := headRegisters_length
  refine (Plans.weaken (Plans.bind hhead fun _ => hlimit₀.bind fun _ => hlimit₁.bind fun _ => hru₀.bind fun _ =>
    hru₁.bind fun _ => hend) (by omega)).mono ?_
  rintro t ws _ ⟨t₁, -, head, _, hpre₁, hhead, ⟨t₂, -, limit₀, _, hpre₂, h₀, ⟨t₃, -, limit₁, _, hpre₃, h₁,
    ⟨t₄, -, ru₀, _, hpre₄, h₂, ⟨t₅, -, ru₁, _, hpre₅, h₃, rfl, rfl⟩, rfl⟩, rfl⟩, rfl⟩, rfl⟩
  have h₀' := h₀.mono fun _ h => LimitPage.later T h hpre₂
  have h₁' := h₁.mono fun _ h => LimitPage.later T h hpre₃
  have h₂' := h₂.mono fun _ h => RuPage.later T h hpre₄
  have h₃' := h₃.mono fun _ h => RuPage.later T h hpre₅
  refine ⟨?_, head, limit₀, limit₁, ru₀, ru₁, by simp only [List.append_nil, List.append_assoc], h₀', h₁', h₂', h₃'⟩
  unfold registers
  simp only [List.map_append, List.append_nil, List.append_assoc]
  rw [hhead, h₀.registers, h₁.registers, h₂.registers, h₃.registers]

/-- What `build` leaves. -/
structure Built (T : Tables) (ch : Channel) (policy : Policy) (t : Trace) (ok : Bool) (d : Plan) : Prop where
  inside : ∀ e ∈ t, Inside e
  asked : ∀ q ∈ queries t, q.1 = ch.band
  once : ((queries t).map fun q => q.2.1).Nodup
  done : ok = true ↔ ch.validChannel = true ∧ policy.usable = true ∧ ∀ q ∈ queries t, granted q.2.2 = true
  error : d.error = if ok then .none else if ch.validChannel then .policy else .channel
  complete : ok = true → Complete T policy.domain ch t d.writes
  empty : ok = false → d.writes = []

theorem built_of_refused {ch : Channel} {policy : Policy} {d : Plan} (hwrites : d.writes = [])
    (herror : d.error = if ch.validChannel then .policy else .channel)
    (h : ¬ (ch.validChannel = true ∧ policy.usable = true)) : Built T ch policy [] false d :=
  ⟨fun _ he => absurd he List.not_mem_nil, fun _ hq => absurd hq List.not_mem_nil, List.nodup_nil,
    ⟨fun hno => absurd hno Bool.false_ne_true, fun hyes => absurd ⟨hyes.1, hyes.2.1⟩ h⟩, herror,
    fun hno => absurd hno Bool.false_ne_true, fun _ => hwrites⟩

/-- A plan is complete and capped, or empty.  For every channel and policy, and whatever the policy replies: it is
asked at most once for each sub-channel, no table is read beyond its end, the plan never runs out of room, no register
is written twice and no limit is above what the policy gave. -/
theorem build_plans (ch : Channel) (policy : Policy) (d : Plan) :
    (build T ch policy).wp (fun t ok d' => Built T ch policy t ok d' ∧ (d'.writes.map Write.register).Nodup) d := by
  unfold build
  rw [wp_set_bind]
  by_cases hch : ch.validChannel = true
  case neg =>
    rw [if_pos (by rw [Bool.eq_false_iff.2 hch]; rfl), wp_modify_bind, wp_pure]
    exact ⟨built_of_refused T rfl (if_neg hch).symm fun h => hch h.1, List.nodup_nil⟩
  rw [if_neg (by rw [hch]; decide)]
  by_cases husable : policy.usable = true
  case neg =>
    rw [if_pos (by rw [Bool.eq_false_iff.2 husable]; rfl), wp_modify_bind, wp_pure]
    exact ⟨built_of_refused T rfl (if_pos hch).symm fun h => husable h.2, List.nodup_nil⟩
  rw [if_neg (by rw [husable]; decide), wp_bind]
  have hdomain : policy.domain < regdNum := by
    unfold Policy.usable at husable
    simp only [Bool.and_eq_true, decide_eq_true_eq] at husable
    exact husable.1.2
  have hsound : Sound ch.band [] Plan.cleared :=
    ⟨fun _ he => absurd he List.not_mem_nil, Or.inl rfl, fun _ hq => absurd hq List.not_mem_nil,
      fun _ _ hq => absurd hq List.not_mem_nil, fun _ _ _ hv => absurd hv (by rintro ⟨⟩), (by rintro ⟨⟩),
      List.nodup_nil⟩
  refine wp_mono (addPlan_plans T hch hdomain [] Plan.cleared hsound le_rfl) fun t _ d' h => ?_
  have hs := h.sound
  rw [List.nil_append] at hs
  rw [wp_get_bind]
  by_cases herror : d'.error ≠ .none
  · rw [if_pos herror, wp_modify_bind, wp_pure, List.append_nil]
    have hpolicy := hs.error.resolve_left herror
    rcases hs.bad hpolicy with ⟨q, hq, hbad⟩
    refine ⟨⟨hs.inside, hs.asked, hs.once, ⟨fun hno => absurd hno Bool.false_ne_true, fun hall => ?_⟩, ?_,
      fun hno => absurd hno Bool.false_ne_true, fun _ => rfl⟩, List.nodup_nil⟩
    · exact absurd ((hall.2.2 q hq).symm.trans hbad) (by decide)
    · rw [if_neg Bool.false_ne_true, if_pos hch]
      exact hpolicy
  · rw [if_neg herror, wp_pure, List.append_nil]
    have hnone := not_not.1 herror
    rcases h.result hnone with ⟨-, ws, hws, hcomplete⟩
    rw [List.nil_append] at hcomplete
    have hwrites : d'.writes = ws := hws
    rw [← hwrites] at hcomplete
    refine ⟨⟨hs.inside, hs.asked, hs.once, ⟨fun _ => ⟨hch, husable, fun q hq => (hs.good hnone q hq).1⟩, fun _ => rfl⟩, ?_,
      fun _ => hcomplete, fun hno => absurd hno.symm Bool.false_ne_true⟩, ?_⟩
    · rw [if_pos rfl]
      exact hnone
    · rw [hcomplete.registers]
      exact registers_nodup (band_of_valid hch)

end TxPower
end Rtl8852be
