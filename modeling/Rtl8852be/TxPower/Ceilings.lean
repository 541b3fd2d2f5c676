import Rtl8852be.TxPower.TxPowerPlan

/-!
# Ceilings — no byte of a plan is above its policy

* `Sound` — what was asked so far, and what is cached of it;
* `Plans` — what a part of the plan may do, and what it adds;
* `Under` — a byte is at most the ceiling of its sub-channel, and at most its entry in the table;
* `Capped`, `Filled`, `LimitFilled`, `RuFilled` — which bytes of a page are under which ceiling.
-/

namespace Rtl8852be
namespace TxPower

open Interaction Code

/-! ## Queries -/

abbrev Query := UInt8 × UInt8 × Bool × Int16

def asked : Event Io Reply (ℕ × ℕ) → Option Query
  | .call (.query band ch) r => some (band, ch, r)
  | .note _ => none

def queries (t : Trace) : List Query := t.filterMap asked

def Inside : Event Io Reply (ℕ × ℕ) → Prop
  | .note x => x.2 < x.1
  | .call _ _ => True

theorem queries_append (t t' : Trace) : queries (t ++ t') = queries t ++ queries t' := List.filterMap_append

/-! ## Channels -/

def indexChannel (band : UInt8) (i : ℕ) : UInt8 :=
  UInt8.ofNat (if band = 0 then i + 1 else if i < 15 then 2 * i + 36 else if i < 38 then 2 * (i - 15) + 100
    else 2 * (i - 38) + 149)

theorem of_forall_lt {P : UInt8 → Prop} (h : ∀ n < 256, P (UInt8.ofNat n)) (ch : UInt8) : P ch := by
  have hch := h ch.toNat ch.toNat_lt
  rw [UInt8.ofNat_toNat] at hch
  exact hch

/-- A sub-channel has an index of its own, within the tables. -/
theorem channelIndex_spec {band : UInt8} (hband : band = 0 ∨ band = 1) (ch : UInt8) :
    ∀ i ∈ channelIndex band ch, i < channels band ∧ indexChannel band i = ch := by
  revert ch
  rcases hband with rfl | rfl
  · exact of_forall_lt (by decide +kernel)
  · exact of_forall_lt (by decide +kernel)

theorem channelIndex_inj {band a b : UInt8} (hband : band = 0 ∨ band = 1) {i : ℕ}
    (ha : channelIndex band a = some i) (hb : channelIndex band b = some i) : a = b :=
  (channelIndex_spec hband a i ha).2.symm.trans (channelIndex_spec hband b i hb).2

/-! ## What was asked -/

/-- Every table was read within its bounds, no channel was asked for twice, and what is cached was granted. -/
structure Sound (band : UInt8) (t : Trace) (d : Plan) : Prop where
  inside : ∀ e ∈ t, Inside e
  error : d.error = .none ∨ d.error = .policy
  asked : ∀ q ∈ queries t, q.1 = band
  good : d.error = .none → ∀ q ∈ queries t, granted q.2.2 = true ∧
    ∃ i, channelIndex band q.2.1 = some i ∧ d.ceilings i = some q.2.2.2.toInt8
  known : d.error = .none → ∀ i v, d.ceilings i = some v → ∃ q ∈ queries t,
    channelIndex band q.2.1 = some i ∧ v = q.2.2.2.toInt8
  bad : d.error = .policy → ∃ q ∈ queries t, granted q.2.2 = false
  once : ((queries t).map fun q => q.2.1).Nodup

variable {band : UInt8} {t t' : Trace}

theorem Sound.note {d : Plan} (h : Sound band t d) {n i : ℕ} (hi : i < n) :
    Sound band (t ++ [.note (n, i)]) d := by
  have hq : queries (t ++ [.note (n, i)]) = queries t := by
    rw [queries_append]
    exact List.append_nil _
  refine ⟨fun e he => ?_, h.error, ?_, ?_, ?_, ?_, ?_⟩
  · rcases List.mem_append.1 he with he | he
    · exact h.inside e he
    · rw [List.mem_singleton.1 he]
      exact hi
  · rw [hq]
    exact h.asked
  · rw [hq]
    exact h.good
  · rw [hq]
    exact h.known
  · rw [hq]
    exact h.bad
  · rw [hq]
    exact h.once

/-- What is asked: the ceiling is granted and cached, or the policy has failed. -/
theorem Sound.query {d : Plan} {ch : UInt8} {i : ℕ} (h : Sound band t d) (hi : channelIndex band ch = some i)
    (herror : d.error = .none) (hnew : d.ceilings i = none) (r : Bool × Int16) :
    (granted r = true → Sound band (t ++ [.call (.query band ch) r]) (d.cached i r.2.toInt8)) ∧
      (granted r = false → Sound band (t ++ [.call (.query band ch) r]) (d.raised .policy)) := by
  have hq : queries (t ++ [.call (.query band ch) r]) = queries t ++ [(band, ch, r)] := queries_append _ _
  have hmem : ∀ q, q ∈ queries (t ++ [.call (.query band ch) r]) ↔ q ∈ queries t ∨ q = (band, ch, r) := by
    intro q
    rw [hq, List.mem_append, List.mem_singleton]
  have hinside : ∀ e ∈ t ++ [.call (.query band ch) r], Inside e := by
    intro e he
    rcases List.mem_append.1 he with he | he
    · exact h.inside e he
    · rw [List.mem_singleton.1 he]
      trivial
  have hasked : ∀ q ∈ queries (t ++ [.call (.query band ch) r]), q.1 = band := by
    intro q hq'
    rcases (hmem q).1 hq' with hq' | rfl
    · exact h.asked q hq'
    · rfl
  have honce : ((queries (t ++ [.call (.query band ch) r])).map fun q => q.2.1).Nodup := by
    rw [hq, List.map_append, List.nodup_append]
    refine ⟨h.once, List.nodup_singleton _, ?_⟩
    rintro _ hold _ hlast rfl
    rcases List.mem_map.1 hold with ⟨q, hqmem, hch⟩
    have hlast' := List.mem_singleton.1 hlast
    rcases h.good herror q hqmem with ⟨-, j, hj, hcached⟩
    have hsame : q.2.1 = ch := hch.trans hlast'
    rw [hsame, hi] at hj
    rw [← Option.some.inj hj, hnew] at hcached
    exact absurd hcached (by rintro ⟨⟩)
  refine ⟨fun hr => ⟨hinside, Or.inl herror, hasked, fun _ q hq' => ?_, fun _ j v hj => ?_, fun hno => ?_, honce⟩,
    fun hr => ⟨hinside, Or.inr rfl, hasked, (by rintro ⟨⟩), (by rintro ⟨⟩), fun _ => ⟨_, (hmem _).2 (Or.inr rfl), hr⟩, honce⟩⟩
  · rcases (hmem q).1 hq' with hq' | rfl
    · rcases h.good herror q hq' with ⟨hgood, j, hj, hcached⟩
      refine ⟨hgood, j, hj, ?_⟩
      have hne : j ≠ i := by
        rintro rfl
        rw [hnew] at hcached
        exact absurd hcached (by rintro ⟨⟩)
      exact (Function.update_of_ne hne _ _).trans hcached
    · exact ⟨hr, i, hi, Function.update_self _ _ _⟩
  · by_cases hji : j = i
    · subst hji
      have hv : Function.update d.ceilings j (some r.2.toInt8) j = some v := hj
      rw [Function.update_self] at hv
      exact ⟨(band, ch, r), (hmem _).2 (Or.inr rfl), hi, (Option.some.inj hv).symm⟩
    · have hold : d.ceilings j = some v := (Function.update_of_ne hji _ _).symm.trans hj
      rcases h.known herror j v hold with ⟨q, hq', hrest⟩
      exact ⟨q, (hmem q).2 (Or.inl hq'), hrest⟩
  · exact absurd (herror.symm.trans hno) (by decide)

/-! ## Parts of a plan -/

section Plans

variable {α β : Type} {n n' : ℕ}

/-- What a part of the plan leaves: at most `n` writes more.  Without an error, `Q` knows what was asked, what was
added and what is returned. -/
structure Planned (band : UInt8) (n : ℕ) (Q : Trace → List Write → α → Prop) (t : Trace) (d : Plan) (log : Trace) (a : α)
    (d' : Plan) : Prop where
  sound : Sound band (t ++ log) d'
  size : d'.writes.length ≤ d.writes.length + n
  result : d'.error = .none → d.error = .none ∧ ∃ ws, d'.writes = d.writes ++ ws ∧ Q (t ++ log) ws a

def Plans (band : UInt8) (n : ℕ) (m : Planning α) (Q : Trace → List Write → α → Prop) : Prop :=
  ∀ t d, Sound band t d → d.writes.length + n ≤ 64 → m.wp (fun log a d' => Planned band n Q t d log a d') d

variable {m : Planning α} {Q : Trace → List Write → α → Prop}

theorem Plans.mono {Q' : Trace → List Write → α → Prop} (h : Plans band n m Q) (hQ : ∀ t ws a, Q t ws a → Q' t ws a) :
    Plans band n m Q' := by
  intro t d hd hn
  refine wp_mono (h t d hd hn) fun log a d' h' => ⟨h'.sound, h'.size, fun hno => ?_⟩
  rcases h'.result hno with ⟨hd', ws, hws, hq⟩
  exact ⟨hd', ws, hws, hQ _ _ _ hq⟩

theorem Plans.weaken (h : Plans band n m Q) (hn : n ≤ n') :
    Plans band n' m Q := by
  intro t d hd hn'
  refine wp_mono (h t d hd (by omega)) fun log a d' h' => ?_
  have hsize := h'.size
  exact ⟨h'.sound, by omega, h'.result⟩

theorem Plans.pure {a : α} (hQ : ∀ t, Q t [] a) :
    Plans band 0 (Pure.pure a) Q := by
  intro t d hd _
  rw [wp_pure]
  refine ⟨?_, le_rfl, fun hno => ⟨hno, [], (List.append_nil _).symm, hQ _⟩⟩
  rw [List.append_nil]
  exact hd

/-- One part after the other; what the first one knows of the trace, it knows of every longer one. -/
theorem Plans.bind {f : α → Planning β} {Q' : α → Trace → List Write → β → Prop} (hm : Plans band n m Q)
    (hf : ∀ a, Plans band n' (f a) (Q' a)) :
    Plans band (n + n') (m >>= f) fun t ws b =>
      ∃ t₁ a ws₁ ws₂, t₁ <+: t ∧ Q t₁ ws₁ a ∧ Q' a t ws₂ b ∧ ws = ws₁ ++ ws₂ := by
  intro t d hd hn
  rw [wp_bind]
  refine wp_mono (hm t d hd (by omega)) fun log a d₁ h => ?_
  have hsize := h.size
  refine wp_mono (hf a (t ++ log) d₁ h.sound (by omega)) fun log' b d₂ h' => ?_
  have hsize' := h'.size
  refine ⟨?_, by omega, fun hno => ?_⟩
  · rw [← List.append_assoc]
    exact h'.sound
  · rcases h'.result hno with ⟨hd₁, ws₂, hws₂, hq'⟩
    rcases h.result hd₁ with ⟨hd₀, ws₁, hws₁, hq⟩
    rw [List.append_assoc] at hq'
    refine ⟨hd₀, ws₁ ++ ws₂, ?_, t ++ log, a, ws₁, ws₂, ⟨log', List.append_assoc _ _ _⟩, hq, hq', rfl⟩
    rw [hws₂, hws₁, List.append_assoc]

def Looks (band : UInt8) (m : Planning α) (Q : Trace → α → Prop) : Prop :=
  Plans band 0 m fun t ws a => ws = [] ∧ Q t a

theorem Looks.mono {Q Q' : Trace → α → Prop} (h : Looks band m Q) (hQ : ∀ t a, Q t a → Q' t a) :
    Looks band m Q' :=
  Plans.mono h fun t _ a hq => ⟨hq.1, hQ t a hq.2⟩

theorem Looks.pure {a : α} {Q : Trace → α → Prop} (hQ : ∀ t, Q t a) : Looks band (Pure.pure a) Q :=
  Plans.pure fun t => ⟨rfl, hQ t⟩

theorem Looks.bind {f : α → Planning β} {Q : Trace → α → Prop} {Q' : α → Trace → β → Prop} (hm : Looks band m Q)
    (hf : ∀ a, Looks band (f a) (Q' a)) :
    Looks band (m >>= f) fun t b => ∃ t₁ a, t₁ <+: t ∧ Q t₁ a ∧ Q' a t b := by
  refine (Plans.bind hm hf).mono ?_
  rintro t ws b ⟨t₁, a, ws₁, ws₂, hpre, ⟨rfl, hq⟩, ⟨rfl, hq'⟩, rfl⟩
  exact ⟨rfl, t₁, a, hpre, hq, hq'⟩

/-- First something is looked up, then something is added. -/
theorem Looks.plans {f : α → Planning β} {Q : Trace → α → Prop} {Q' : α → Trace → List Write → β → Prop}
    (hm : Looks band m Q) (hf : ∀ a, Plans band n (f a) (Q' a)) :
    Plans band n (m >>= f) fun t ws b => ∃ t₁ a, t₁ <+: t ∧ Q t₁ a ∧ Q' a t ws b := by
  have hboth := Plans.bind hm hf
  rw [Nat.zero_add] at hboth
  refine hboth.mono ?_
  rintro t ws b ⟨t₁, a, ws₁, ws₂, hpre, ⟨rfl, hq⟩, hq', rfl⟩
  exact ⟨t₁, a, hpre, hq, hq'⟩

theorem look_looks {n : ℕ} (table : Vector Int8 n) {i : ℕ} (hi : i < n) :
    Looks band (look table i) fun _ v => v = table[i]?.getD 0 := by
  intro t d hd _
  unfold look
  rw [wp_tell_bind, wp_pure]
  exact ⟨hd.note hi, le_rfl, fun hno => ⟨hno, [], (List.append_nil _).symm, rfl, rfl⟩⟩

end Plans

/-! ## Ceilings -/

/-- The policy gave this sub-channel at least `b`. -/
def Permits (t : Trace) (band ch : UInt8) (b : Int8) : Prop :=
  ∃ v : Int16, .call (.query band ch) (true, v) ∈ t ∧ b.toInt ≤ v.toInt

theorem Permits.later {ch : UInt8} {b : Int8} (h : Permits t band ch b) (ht : t <+: t') :
    Permits t' band ch b := by
  rcases h with ⟨v, hv, hb⟩
  exact ⟨v, ht.subset hv, hb⟩

theorem granted_toInt {r : Bool × Int16} (h : granted r = true) : r.1 = true ∧ r.2.toInt8.toInt = r.2.toInt := by
  unfold granted at h
  simp only [Bool.and_eq_true, decide_eq_true_eq] at h
  refine ⟨h.1.1, ?_⟩
  have hlow := Int16.le_iff_toInt_le.1 h.1.2
  have hhigh := Int16.le_iff_toInt_le.1 h.2
  have hlow' : (-64 : ℤ) ≤ r.2.toInt := hlow
  have hhigh' : r.2.toInt ≤ (63 : ℤ) := hhigh
  rw [Int16.toInt_toInt8]
  exact Int.bmod_eq_of_le (by omega) (by omega)

theorem permits_of_query {q : Query} (hq : q ∈ queries t) (hgood : granted q.2.2 = true) :
    Permits t q.1 q.2.1 q.2.2.2.toInt8 := by
  rcases List.mem_filterMap.1 hq with ⟨e, he, hasked⟩
  rcases granted_toInt hgood with ⟨hyes, hint⟩
  cases e with
  | note x => exact absurd hasked (by rintro ⟨⟩)
  | call c r =>
      cases c with
      | query b ch =>
          have hq' : (b, ch, r) = q := Option.some.inj hasked
          subst hq'
          refine ⟨r.2, ?_, hint.le⟩
          have hr : r = (true, r.2) := Prod.ext hyes rfl
          rw [← hr]
          exact he

theorem ceiling_looks {ch : UInt8} {i : ℕ} (hband : band = 0 ∨ band = 1) (hi : channelIndex band ch = some i) :
    Looks band (ceiling band ch) fun t v => Permits t band ch v := by
  intro t d hd _
  unfold ceiling
  rw [hi]
  dsimp only
  rw [wp_get_bind]
  by_cases herror : d.error ≠ .none
  · rw [if_pos herror, wp_pure]
    refine ⟨?_, le_rfl, fun hno => absurd hno herror⟩
    rw [List.append_nil]
    exact hd
  rw [if_neg herror]
  have hnone : d.error = .none := not_not.1 herror
  cases hcached : d.ceilings i with
  | some v =>
      dsimp only
      rw [wp_pure]
      rcases hd.known hnone i v hcached with ⟨q, hq, hindex, rfl⟩
      have hch : q.2.1 = ch := channelIndex_inj hband hindex hi
      have hpermits := permits_of_query hq (hd.good hnone q hq).1
      rw [hd.asked q hq, hch] at hpermits
      refine ⟨?_, le_rfl, fun _ => ⟨hnone, [], (List.append_nil _).symm, rfl, ?_⟩⟩
      · rw [List.append_nil]
        exact hd
      · rw [List.append_nil]
        exact hpermits
  | none =>
      dsimp only
      rw [wp_ask_bind]
      intro r
      have hquery := hd.query hi hnone hcached r
      by_cases hr : granted r = true
      · rw [if_pos hr, wp_modify_bind, wp_pure]
        have hsound := hquery.1 hr
        have hmem : (band, ch, r) ∈ queries (t ++ [.call (.query band ch) r]) :=
          List.mem_filterMap.2 ⟨_, List.mem_append.2 (Or.inr List.mem_cons_self), rfl⟩
        have hpermits := permits_of_query hmem hr
        exact ⟨hsound, le_rfl, fun _ => ⟨hnone, [], (List.append_nil _).symm, rfl, hpermits⟩⟩
      · rw [if_neg hr]
        unfold raise
        rw [wp_modify_bind, wp_pure]
        exact ⟨hquery.2 (Bool.eq_false_iff.2 hr), le_rfl, (by rintro ⟨⟩)⟩

/-! ## Bytes of a page -/

variable (T : Tables) (domain : UInt8)

/-- The entry of the domain, or that of the world. -/
def entry (value : ℕ → Int8) (band : UInt8) (base : ℕ) : Int8 :=
  if value (base + domain.toNat * channels band) = 0 then value base else value (base + domain.toNat * channels band)

/-- A byte for this sub-channel: it is at most its converted entry, and at most the ceiling. -/
structure Under (t : Trace) (band ch : UInt8) (limit b : Int8) : Prop where
  table : b.toInt ≤ limit.toInt
  policy : Permits t band ch b

variable {domain}

theorem minimum_le_left (a b : Int8) : (minimum a b).toInt ≤ a.toInt := by
  unfold minimum
  by_cases h : a < b
  · rw [if_pos h]
  · rw [if_neg h]
    exact Int8.le_iff_toInt_le.1 (Int8.not_lt.1 h)

theorem minimum_le_right (a b : Int8) : (minimum a b).toInt ≤ b.toInt := by
  unfold minimum
  by_cases h : a < b
  · rw [if_pos h]
    exact Int8.le_iff_toInt_le.1 (Int8.le_of_lt h)
  · rw [if_neg h]

theorem Under.later {ch : UInt8} {limit b : Int8} (h : Under t band ch limit b) (ht : t <+: t') :
    Under t' band ch limit b :=
  ⟨h.table, h.policy.later ht⟩

theorem Under.lower {ch : UInt8} {limit b b' : Int8} (h : Under t band ch limit b) (hb : b'.toInt ≤ b.toInt) :
    Under t band ch limit b' := by
  rcases h.policy with ⟨v, hv, hle⟩
  exact ⟨hb.trans h.table, v, hv, hb.trans hle⟩

theorem underCeiling_looks {lookup : ℕ → Planning Int8} {value : ℕ → Int8} {base size i : ℕ} {ch : UInt8}
    (hband : band = 0 ∨ band = 1) (hi : channelIndex band ch = some i)
    (hlookup : ∀ j < size, Looks band (lookup j) fun _ v => v = value j)
    (hsize : base + domain.toNat * channels band < size) :
    Looks band (underCeiling lookup band ch base domain) fun t v =>
      Under t band ch (rfToMac (entry domain value band base)) v := by
  have hown := hlookup _ hsize
  have hworld := hlookup base ((Nat.le_add_right _ _).trans_lt hsize)
  have hv : ∀ own : Int8, Looks band (fallback lookup base own) fun _ v =>
      v = if own = 0 then value base else own := by
    intro own
    unfold fallback
    by_cases hzero : own = 0
    · rw [if_pos hzero, if_pos hzero]
      exact hworld
    · rw [if_neg hzero, if_neg hzero]
      exact Looks.pure fun _ => rfl
  refine (Looks.bind hown fun own => Looks.bind (hv own) fun v => Looks.bind (ceiling_looks hband hi) fun c =>
    Looks.pure (Q := fun _ b => b = minimum (rfToMac v) c) fun _ => rfl).mono ?_
  rintro t b ⟨t₁, own, -, rfl, t₂, v, -, rfl, t₃, c, hpre, ⟨w, hw, hle⟩, rfl⟩
  exact ⟨minimum_le_left _ c, w, hpre.subset hw, (minimum_le_right _ c).trans hle⟩

def Tables.limit (T : Tables) (band : UInt8) (i : ℕ) : Int8 :=
  if band = 0 then T.txpwr_lmt_2g[i]?.getD 0 else T.txpwr_lmt_5g[i]?.getD 0

def Tables.limitRu (T : Tables) (band : UInt8) (i : ℕ) : Int8 :=
  if band = 0 then T.txpwr_lmt_ru_2g[i]?.getD 0 else T.txpwr_lmt_ru_5g[i]?.getD 0

theorem lookLimit_looks (hband : band = 0 ∨ band = 1) {j : ℕ} (hj : j < if band = 0 then 5376 else 40704) :
    Looks band (lookLimit T band j) fun _ v => v = T.limit band j := by
  unfold lookLimit Tables.limit
  rcases hband with rfl | rfl
  · exact look_looks T.txpwr_lmt_2g hj
  · exact look_looks T.txpwr_lmt_5g hj

theorem lookLimitRu_looks (hband : band = 0 ∨ band = 1) {j : ℕ} (hj : j < if band = 0 then 2240 else 8480) :
    Looks band (lookLimitRu T band j) fun _ v => v = T.limitRu band j := by
  unfold lookLimitRu Tables.limitRu
  rcases hband with rfl | rfl
  · exact look_looks T.txpwr_lmt_ru_2g hj
  · exact look_looks T.txpwr_lmt_ru_5g hj

/-- The entry in the table, for byte `bf` of a pair. -/
def Fill.limit (f : Fill) (T : Tables) (domain band ntx bf : UInt8) : Int8 :=
  rfToMac (entry domain (T.limit band) band (limitBase band f.bw ntx f.rs bf ((channelIndex band f.ch).getD 0)))

def RuFill.limit (f : RuFill) (T : Tables) (domain band ntx : UInt8) : Int8 :=
  rfToMac (entry domain (T.limitRu band) band (limitRuBase band f.ru ntx ((channelIndex band f.ch).getD 0)))

/-- The indices of a fill are those of the tables. -/
structure Fill.Valid (band : UInt8) (f : Fill) : Prop where
  channel : (channelIndex band f.ch).isSome
  bandwidth : f.bw ≤ (if band = 0 then 1 else 3 : UInt8)
  section_ : f.rs ≤ 2

variable {ntx : UInt8}

theorem readTxpwrLimit_looks {bf : UInt8} {f : Fill} (hband : band = 0 ∨ band = 1) (hdomain : domain < regdNum)
    (hntx : ntx ≤ 1) (hbf : bf ≤ 1) (hf : f.Valid band) :
    Looks band (readTxpwrLimit T domain band f.bw ntx f.rs bf f.ch) fun t v =>
      Under t band f.ch (f.limit T domain band ntx bf) v := by
  rcases Option.isSome_iff_exists.1 hf.channel with ⟨i, hi⟩
  have hbound := (channelIndex_spec hband f.ch i hi).1
  unfold readTxpwrLimit Fill.limit
  rw [hi]
  dsimp only
  have hok : ¬ (1 < ntx ∨ 2 < f.rs ∨ 1 < bf ∨ (if band = 0 then 1 else 3 : UInt8) < f.bw) := by
    rintro (h | h | h | h)
    · exact UInt8.not_lt.2 hntx h
    · exact UInt8.not_lt.2 hf.section_ h
    · exact UInt8.not_lt.2 hbf h
    · exact UInt8.not_lt.2 hf.bandwidth h
  rw [if_neg hok]
  refine underCeiling_looks hband hi (fun j hj => lookLimit_looks T hband hj) ?_
  have hd : domain.toNat < 16 := UInt8.lt_iff_toNat_lt.1 hdomain
  have hn : ntx.toNat ≤ 1 := UInt8.le_iff_toNat_le.1 hntx
  have hb : bf.toNat ≤ 1 := UInt8.le_iff_toNat_le.1 hbf
  have hs : f.rs.toNat ≤ 2 := UInt8.le_iff_toNat_le.1 hf.section_
  have hw := UInt8.le_iff_toNat_le.1 hf.bandwidth
  unfold limitBase
  rcases hband with rfl | rfl
  · have hchannels : channels 0 = 14 := rfl
    have hw' : f.bw.toNat ≤ 1 := hw
    rw [hchannels] at hbound ⊢
    show _ < 5376
    omega
  · have hchannels : channels 1 = 53 := rfl
    have hw' : f.bw.toNat ≤ 3 := hw
    rw [hchannels] at hbound ⊢
    show _ < 40704
    omega

/-- The indices of a byte of the RU page are those of the table. -/
structure RuFill.Valid (band : UInt8) (f : RuFill) : Prop where
  channel : (channelIndex band f.ch).isSome
  ru : f.ru ≤ 2

theorem readTxpwrLimitRu_looks {f : RuFill} (hband : band = 0 ∨ band = 1) (hdomain : domain < regdNum)
    (hntx : ntx ≤ 1) (hf : f.Valid band) :
    Looks band (readTxpwrLimitRu T domain band f.ru ntx f.ch) fun t v =>
      Under t band f.ch (f.limit T domain band ntx) v := by
  rcases Option.isSome_iff_exists.1 hf.channel with ⟨i, hi⟩
  have hbound := (channelIndex_spec hband f.ch i hi).1
  unfold readTxpwrLimitRu RuFill.limit
  rw [hi]
  dsimp only
  have hok : ¬ (2 < f.ru ∨ 1 < ntx) := by
    rintro (h | h)
    · exact UInt8.not_lt.2 hf.ru h
    · exact UInt8.not_lt.2 hntx h
  rw [if_neg hok]
  refine underCeiling_looks hband hi (fun j hj => lookLimitRu_looks T hband hj) ?_
  have hd : domain.toNat < 16 := UInt8.lt_iff_toNat_lt.1 hdomain
  have hn : ntx.toNat ≤ 1 := UInt8.le_iff_toNat_le.1 hntx
  have hr : f.ru.toNat ≤ 2 := UInt8.le_iff_toNat_le.1 hf.ru
  unfold limitRuBase
  rcases hband with rfl | rfl
  · have hchannels : channels 0 = 14 := rfl
    rw [hchannels] at hbound ⊢
    show _ < 2240
    omega
  · have hchannels : channels 1 = 53 := rfl
    rw [hchannels] at hbound ⊢
    show _ < 8480
    omega

/-! ## Pages -/

def Fill.Capped (T : Tables) (domain band ntx : UInt8) (t : Trace) (f : Fill) (a b : Int8) : Prop :=
  Under t band f.ch (f.limit T domain band ntx 0) a ∧ Under t band f.ch (f.limit T domain band ntx 1) b

theorem Fill.Capped.later {T : Tables} {f : Fill} {a b : Int8} (h : f.Capped T domain band ntx t a b) (ht : t <+: t') :
    f.Capped T domain band ntx t' a b :=
  ⟨h.1.later ht, h.2.later ht⟩

def Fill.Apart (f g : Fill) : Prop := f.offset + 2 ≤ g.offset ∨ g.offset + 2 ≤ f.offset

theorem Page.put_ne {page : Page} {i j : ℕ} {v : Int8} (h : j ≠ i) : page.put i v j = page j :=
  Function.update_of_ne h ..

@[simp] theorem Page.put_self (page : Page) (i : ℕ) (v : Int8) : page.put i v i = v := Function.update_self ..

/-- A page after one pair. -/
structure Paired (T : Tables) (domain band ntx : UInt8) (t : Trace) (f : Fill) (page page' : Page) : Prop where
  capped : f.Capped T domain band ntx t (page' f.offset) (page' (f.offset + 1))
  other : ∀ i, i ≠ f.offset → i ≠ f.offset + 1 → page' i = page i

theorem fillPair_looks {f : Fill} (hband : band = 0 ∨ band = 1) (hdomain : domain < regdNum) (hntx : ntx ≤ 1)
    (hf : f.Valid band) (page : Page) :
    Looks band (fillPair T domain band ntx f page) fun t page' => Paired T domain band ntx t f page page' := by
  refine (Looks.bind (readTxpwrLimit_looks T hband hdomain hntx (show (0 : UInt8) ≤ 1 by decide) hf) fun v =>
    Looks.bind (readTxpwrLimit_looks T hband hdomain hntx (show (1 : UInt8) ≤ 1 by decide) hf) fun w =>
      Looks.pure (Q := fun _ p => p = (page.put f.offset v).put (f.offset + 1) w) fun _ => rfl).mono ?_
  rintro t page' ⟨t₁, v, hpre, hv, t₂, w, hpre', hw, rfl⟩
  refine ⟨⟨?_, ?_⟩, fun i hi hi' => ?_⟩
  · rw [Page.put_ne (by omega), Page.put_self]
    exact hv.later hpre
  · rw [Page.put_self]
    exact hw.later hpre'
  · rw [Page.put_ne hi', Page.put_ne hi]

/-- A page after these pairs, over what it was. -/
structure Filled (T : Tables) (domain band ntx : UInt8) (t : Trace) (fs : List Fill) (page page' : Page) : Prop where
  capped : ∀ f ∈ fs, f.Capped T domain band ntx t (page' f.offset) (page' (f.offset + 1))
  other : ∀ i, (∀ f ∈ fs, i ≠ f.offset ∧ i ≠ f.offset + 1) → page' i = page i

theorem fillPairs_looks (hband : band = 0 ∨ band = 1) (hdomain : domain < regdNum) (hntx : ntx ≤ 1) :
    ∀ {fs : List Fill}, (∀ f ∈ fs, f.Valid band) → fs.Pairwise Fill.Apart → ∀ page : Page,
      Looks band (fillPairs T domain band ntx fs page) fun t page' => Filled T domain band ntx t fs page page'
  | [], _, _, page => Looks.pure fun _ => ⟨fun _ h => absurd h List.not_mem_nil, fun _ _ => rfl⟩
  | f :: fs, hvalid, hapart, page => by
      rw [List.pairwise_cons] at hapart
      refine (Looks.bind (fillPair_looks T hband hdomain hntx (hvalid f List.mem_cons_self) page) fun page₁ =>
        fillPairs_looks hband hdomain hntx (fun g hg => hvalid g (List.mem_cons_of_mem f hg)) hapart.2 page₁).mono ?_
      rintro t page' ⟨t₁, page₁, hpre, hfirst, hrest⟩
      refine ⟨fun g hg => ?_, fun i hi => ?_⟩
      · rcases List.mem_cons.1 hg with rfl | hg
        · -- The later pairs leave the bytes of this one alone.
          have hkeep : ∀ i, i = g.offset ∨ i = g.offset + 1 → page' i = page₁ i := by
            intro i hi
            refine hrest.other i fun k hk => ?_
            have hk' : g.offset + 2 ≤ k.offset ∨ k.offset + 2 ≤ g.offset := hapart.1 k hk
            omega
          rw [hkeep _ (Or.inl rfl), hkeep _ (Or.inr rfl)]
          exact hfirst.capped.later hpre
        · exact hrest.capped g hg
      · have hne := hi f List.mem_cons_self
        rw [hrest.other i fun g hg => hi g (List.mem_cons_of_mem f hg)]
        exact hfirst.other i hne.1 hne.2

/-- Where a pair ends up: the halves of the 80 MHz page share their place. -/
def Fill.place (f : Fill) : ℕ := if f.offset < 40 then f.offset else mcs40m0p5

/-- A limit page as it is filled. -/
structure LimitFilled (T : Tables) (domain : UInt8) (ch : Channel) (ntx : UInt8) (t : Trace) (page : Page) : Prop where
  capped : ∀ f ∈ limitFills ch, f.Capped T domain ch.band ntx t (page f.place) (page (f.place + 1))
  other : ∀ i < 40, (∀ f ∈ limitFills ch, i ≠ f.place ∧ i ≠ f.place + 1) → page i = 0

/-- An RU page as it is filled. -/
structure RuFilled (T : Tables) (domain : UInt8) (ch : Channel) (ntx : UInt8) (t : Trace) (page : Page) : Prop where
  capped : ∀ f ∈ ruFills (subChannels ch), Under t ch.band f.ch (f.limit T domain ch.band ntx) (page f.offset)
  other : ∀ i, (∀ f ∈ ruFills (subChannels ch), i ≠ f.offset) → page i = 0

theorem fillRus_looks (hband : band = 0 ∨ band = 1) (hdomain : domain < regdNum) (hntx : ntx ≤ 1) :
    ∀ {fs : List RuFill}, (∀ f ∈ fs, f.Valid band) → (fs.map RuFill.offset).Nodup → ∀ page : Page,
      Looks band (fillRus T domain band ntx fs page) fun t page' =>
        (∀ f ∈ fs, Under t band f.ch (f.limit T domain band ntx) (page' f.offset)) ∧
          ∀ i, (∀ f ∈ fs, i ≠ f.offset) → page' i = page i
  | [], _, _, page => Looks.pure fun _ => ⟨fun _ h => absurd h List.not_mem_nil, fun _ _ => rfl⟩
  | f :: fs, hvalid, hnodup, page => by
      rw [List.map_cons, List.nodup_cons] at hnodup
      refine (Looks.bind (readTxpwrLimitRu_looks T hband hdomain hntx (hvalid f List.mem_cons_self)) fun v =>
        fillRus_looks hband hdomain hntx (fun g hg => hvalid g (List.mem_cons_of_mem f hg)) hnodup.2
          (page.put f.offset v)).mono ?_
      rintro t page' ⟨t₁, v, hpre, hv, hrest⟩
      refine ⟨fun g hg => ?_, fun i hi => ?_⟩
      · rcases List.mem_cons.1 hg with rfl | hg
        · have hkeep := hrest.2 g.offset fun k hk heq => hnodup.1 (List.mem_map.2 ⟨k, hk, heq.symm⟩)
          rw [hkeep, Page.put_self]
          exact hv.later hpre
        · exact hrest.1 g hg
      · rw [hrest.2 i fun g hg => hi g (List.mem_cons_of_mem f hg), Page.put_ne (hi f List.mem_cons_self)]

/-! ### The sub-channels of a channel -/

/-- The primary channel is at one of five distances. -/
def distances : List UInt8 := [0, 2, -2, 6, -6]

def fillOk (band : UInt8) (f : Fill) : Bool :=
  (channelIndex band f.ch).isSome && decide (f.bw ≤ (if band = 0 then 1 else 3 : UInt8)) && decide (f.rs ≤ 2)

def ruFillOk (band : UInt8) (f : RuFill) : Bool := (channelIndex band f.ch).isSome && decide (f.ru ≤ 2)

def fillsOk (ch : Channel) : Bool :=
  (limitFills ch).all (fillOk ch.band) && (ruFills (subChannels ch)).all (ruFillOk ch.band)

variable {ch : Channel}

theorem center_of_valid (h : ch.validChannel = true) :
    Rfk.validChannel ⟨ch.band, ch.width, ch.center⟩ = true := by
  unfold Channel.validChannel at h
  by_contra hrfk
  rw [Bool.not_eq_true] at hrfk
  rw [hrfk] at h
  exact absurd h Bool.false_ne_true

theorem fillsOk_of_distance : ∀ band ∈ [(0 : UInt8), 1], ∀ width ∈ [(0 : UInt8), 1, 2], ∀ distance ∈ distances,
    ∀ center : UInt8, Channel.validChannel ⟨band, width, center, center + distance⟩ = true →
      fillsOk ⟨band, width, center, center + distance⟩ = true := by
  -- Most bytes are no center, so that this is checked before the distances.
  have hall : ([(0 : UInt8), 1].all fun band => [(0 : UInt8), 1, 2].all fun width => (List.range 256).all fun n =>
      !Rfk.validChannel ⟨band, width, UInt8.ofNat n⟩ || distances.all fun distance =>
        !Channel.validChannel ⟨band, width, UInt8.ofNat n, UInt8.ofNat n + distance⟩ ||
          fillsOk ⟨band, width, UInt8.ofNat n, UInt8.ofNat n + distance⟩) = true := by
    decide +kernel
  intro band hband width hwidth distance hdistance center hvalid
  have hone := List.all_eq_true.1 (List.all_eq_true.1 (List.all_eq_true.1 hall band hband) width hwidth)
    center.toNat (List.mem_range.2 center.toNat_lt)
  rw [UInt8.ofNat_toNat, center_of_valid hvalid, Bool.not_true, Bool.false_or] at hone
  have hfills := List.all_eq_true.1 hone distance hdistance
  rw [hvalid] at hfills
  simpa using hfills

theorem width_of_valid {c : Rfk.Channel} (h : Rfk.validChannel c = true) :
    c.band ∈ [(0 : UInt8), 1] ∧ c.width ∈ [(0 : UInt8), 1, 2] := by
  unfold Rfk.validChannel at h
  by_cases hzero : c.band = 0
  · rw [if_pos hzero] at h
    refine ⟨hzero ▸ List.mem_cons_self, ?_⟩
    by_cases hw : c.width = 0
    · exact hw ▸ List.mem_cons_self
    · rw [if_neg hw] at h
      simp only [Bool.and_eq_true, beq_iff_eq] at h
      rw [h.1.1]
      decide
  rw [if_neg hzero] at h
  by_cases hone : c.band ≠ 1
  · rw [if_pos hone] at h
    exact absurd h Bool.false_ne_true
  rw [if_neg hone] at h
  refine ⟨by rw [not_not.1 hone]; decide, ?_⟩
  by_cases hw : c.width = 0
  · exact hw ▸ List.mem_cons_self
  · rw [if_neg hw] at h
    simp only [Bool.or_eq_true, Bool.and_eq_true, beq_iff_eq] at h
    rcases h with h | h
    · rw [h.1]
      decide
    · rw [h.1]
      decide

/-- A distance between two numbers of channels, as a byte. -/
theorem eq_add_of_distance {a b d : UInt8} {k : ℤ} (h : (a.toNat : ℤ) - b.toNat = k)
    (hd : (d.toNat : ℤ) % 256 = k % 256) : a = b + d := by
  have ha := a.toNat_lt
  have hb := b.toNat_lt
  rw [← UInt8.toNat_inj, UInt8.toNat_add]
  omega

theorem near_primary (h : ch.validChannel = true) :
    ch.band ∈ [(0 : UInt8), 1] ∧ ch.width ∈ [(0 : UInt8), 1, 2] ∧ ∃ distance ∈ distances,
      ch.primary = ch.center + distance := by
  have hcenter := width_of_valid (center_of_valid h)
  unfold Channel.validChannel at h
  by_cases hrfk : (!Rfk.validChannel ⟨ch.band, ch.width, ch.center⟩ || !Rfk.validChannel ⟨ch.band, 0, ch.primary⟩) = true
  · rw [if_pos hrfk] at h
    exact absurd h Bool.false_ne_true
  rw [if_neg hrfk] at h
  refine ⟨hcenter.1, hcenter.2, ?_⟩
  dsimp only at h
  by_cases hw : ch.width = 0
  · rw [if_pos hw, beq_iff_eq] at h
    exact ⟨0, by decide, eq_add_of_distance h rfl⟩
  rw [if_neg hw] at h
  by_cases hjapan : ch.band = 0 ∧ ch.primary = 14
  · rw [if_pos hjapan] at h
    exact absurd h Bool.false_ne_true
  rw [if_neg hjapan] at h
  have hfour : (ch.primary.toNat : ℤ) - ch.center.toNat = 2 ∨ (ch.primary.toNat : ℤ) - ch.center.toNat = -2 ∨
      (ch.primary.toNat : ℤ) - ch.center.toNat = 6 ∨ (ch.primary.toNat : ℤ) - ch.center.toNat = -6 := by
    by_cases hone : ch.width = 1
    · rw [if_pos hone] at h
      simp only [Bool.or_eq_true, beq_iff_eq] at h
      omega
    · rw [if_neg hone] at h
      simp only [Bool.or_eq_true, beq_iff_eq] at h
      omega
  rcases hfour with h | h | h | h
  · exact ⟨2, by decide, eq_add_of_distance h rfl⟩
  · exact ⟨-2, by decide, eq_add_of_distance h rfl⟩
  · exact ⟨6, by decide, eq_add_of_distance h rfl⟩
  · exact ⟨-6, by decide, eq_add_of_distance h rfl⟩

theorem fillsOk_of_valid (h : ch.validChannel = true) : fillsOk ch = true := by
  rcases near_primary h with ⟨hband, hwidth, distance, hdistance, hprimary⟩
  have hch : ch = ⟨ch.band, ch.width, ch.center, ch.center + distance⟩ := by
    rw [← hprimary]
  rw [hch] at h ⊢
  exact fillsOk_of_distance ch.band hband ch.width hwidth distance hdistance ch.center h

theorem fills_valid (h : ch.validChannel = true) :
    (∀ f ∈ limitFills ch, f.Valid ch.band) ∧ ∀ f ∈ ruFills (subChannels ch), f.Valid ch.band := by
  have hok := fillsOk_of_valid h
  unfold fillsOk at hok
  rw [Bool.and_eq_true, List.all_eq_true, List.all_eq_true] at hok
  refine ⟨fun f hf => ?_, fun f hf => ?_⟩
  · have hone := hok.1 f hf
    unfold fillOk at hone
    simp only [Bool.and_eq_true, decide_eq_true_eq] at hone
    exact ⟨hone.1.1, hone.1.2, hone.2⟩
  · have hone := hok.2 f hf
    unfold ruFillOk at hone
    simp only [Bool.and_eq_true, decide_eq_true_eq] at hone
    exact ⟨hone.1, hone.2⟩

theorem limitFills_apart (ch : Channel) : (limitFills ch).Pairwise Fill.Apart := by
  unfold limitFills
  by_cases h : ch.width = 0
  · rw [if_pos h]
    simp [fillTxpwrLimit20m, Fill.Apart, cck20m, cck40m, ofdm, mcs20m]
  rw [if_neg h]
  by_cases h' : ch.width = 1
  · rw [if_pos h']
    simp [fillTxpwrLimit40m, Fill.Apart, cck20m, cck40m, ofdm, mcs20m, mcs40m]
  · rw [if_neg h']
    simp [fillTxpwrLimit80m, Fill.Apart, ofdm, mcs20m, mcs40m, mcs80m, val0p5n, val0p5p]

theorem ruFills_nodup (ch : Channel) : ((ruFills (subChannels ch)).map RuFill.offset).Nodup := by
  unfold subChannels
  by_cases h : ch.width = 0
  · rw [if_pos h]
    simp [ruFills]
  rw [if_neg h]
  by_cases h' : ch.width = 1
  · rw [if_pos h']
    simp [ruFills]
  · rw [if_neg h']
    simp [ruFills]

/-! ### Whole pages -/

theorem Page.half_left (page : Page) : page.half mcs40m0p5 = minimum (page val0p5n) (page val0p5p) := by
  unfold Page.half
  rw [Page.put_ne (by decide), Page.put_self]

theorem Page.half_right (page : Page) :
    page.half (mcs40m0p5 + 1) = minimum (page (val0p5n + 1)) (page (val0p5p + 1)) := by
  unfold Page.half
  rw [Page.put_self]

theorem Page.half_other (page : Page) {i : ℕ} (h : i ≠ mcs40m0p5) (h' : i ≠ mcs40m0p5 + 1) :
    page.half i = page i := by
  unfold Page.half
  rw [Page.put_ne h', Page.put_ne h]

theorem Fill.place_low {f : Fill} (h : f.offset < 40) : f.place = f.offset := if_pos h

theorem Fill.place_high {f : Fill} (h : ¬ f.offset < 40) : f.place = mcs40m0p5 := if_neg h

/-- A pair of the 80 MHz page is beside the halves, or one of them. -/
theorem fill80_place (ch pri : UInt8) : ∀ f ∈ fillTxpwrLimit80m ch pri,
    f.offset + 2 ≤ mcs40m0p5 ∨ f.offset = val0p5n ∨ f.offset = val0p5p := by
  simp [fillTxpwrLimit80m, ofdm, mcs20m, mcs40m, mcs80m, val0p5n, val0p5p, mcs40m0p5]

theorem fill_low (h : ch.width = 0 ∨ ch.width = 1) : ∀ f ∈ limitFills ch, f.offset < 40 := by
  unfold limitFills
  by_cases hw : ch.width = 0
  · rw [if_pos hw]
    simp [fillTxpwrLimit20m, cck20m, cck40m, ofdm, mcs20m]
  · rw [if_neg hw, if_pos (h.resolve_left hw)]
    simp [fillTxpwrLimit40m, cck20m, cck40m, ofdm, mcs20m, mcs40m]

theorem Filled.half {page : Page} (hw : ¬ (ch.width = 0 ∨ ch.width = 1))
    (h : Filled T domain ch.band ntx t (limitFills ch) (fun _ => 0) page) :
    LimitFilled T domain ch ntx t page.half := by
  have hfills : limitFills ch = fillTxpwrLimit80m ch.center ch.primary := by
    unfold limitFills
    rw [if_neg (fun h0 => hw (Or.inl h0)), if_neg (fun h1 => hw (Or.inr h1))]
  refine ⟨fun f hf => ?_, fun i hi hother => ?_⟩
  · have hcapped := h.capped f hf
    rcases fill80_place _ _ f (hfills ▸ hf) with hlow | hoff | hoff
    · have hmcs : mcs40m0p5 = 36 := rfl
      rw [Fill.place_low (by omega), Page.half_other page (by omega) (by omega),
        Page.half_other page (by omega) (by omega)]
      exact hcapped
    · have hplace := Fill.place_high (f := f) (by rw [hoff]; decide)
      rw [hplace, Page.half_left, Page.half_right]
      rw [hoff] at hcapped
      exact ⟨hcapped.1.lower (minimum_le_left _ _), hcapped.2.lower (minimum_le_left _ _)⟩
    · have hplace := Fill.place_high (f := f) (by rw [hoff]; decide)
      rw [hplace, Page.half_left, Page.half_right]
      rw [hoff] at hcapped
      exact ⟨hcapped.1.lower (minimum_le_right _ _), hcapped.2.lower (minimum_le_right _ _)⟩
  · -- The halves are the place of a pair.
    have hhalf : ∃ f ∈ limitFills ch, f.place = mcs40m0p5 := by
      rw [hfills]
      exact ⟨⟨val0p5n, 1, 2, ch.center - 4⟩, by simp [fillTxpwrLimit80m], rfl⟩
    rcases hhalf with ⟨g, hg, hplace⟩
    have hne := hother g hg
    rw [hplace] at hne
    rw [Page.half_other page hne.1 hne.2]
    refine h.other i fun f hf => ?_
    rcases fill80_place _ _ f (hfills ▸ hf) with hlow | hoff | hoff
    · have hmcs : mcs40m0p5 = 36 := rfl
      have hf' := hother f hf
      rw [Fill.place_low (by omega)] at hf'
      exact hf'
    · have hval : val0p5n = 40 := rfl
      omega
    · have hval : val0p5p = 42 := rfl
      omega

theorem Filled.low {page : Page} (hw : ch.width = 0 ∨ ch.width = 1)
    (h : Filled T domain ch.band ntx t (limitFills ch) (fun _ => 0) page) : LimitFilled T domain ch ntx t page := by
  refine ⟨fun f hf => ?_, fun i _ hother => h.other i fun f hf => ?_⟩
  · rw [Fill.place_low (fill_low hw f hf)]
    exact h.capped f hf
  · have hf' := hother f hf
    rw [Fill.place_low (fill_low hw f hf)] at hf'
    exact hf'

theorem LimitFilled.later {page : Page} (h : LimitFilled T domain ch ntx t page) (ht : t <+: t') :
    LimitFilled T domain ch ntx t' page :=
  ⟨fun f hf => (h.capped f hf).later ht, h.other⟩

theorem band_of_valid (h : ch.validChannel = true) : ch.band = 0 ∨ ch.band = 1 := by
  have hband := (near_primary h).1
  simpa using hband

theorem limitPage_looks (hch : ch.validChannel = true) (hdomain : domain < regdNum) (hntx : ntx ≤ 1) :
    Looks ch.band (limitPage T domain ch ntx) fun t page => LimitFilled T domain ch ntx t page := by
  refine (Looks.bind (fillPairs_looks T (band_of_valid hch) hdomain hntx (fills_valid hch).1 (limitFills_apart ch) _)
    fun page => Looks.pure (Q := fun _ p => p = if ch.width = 0 ∨ ch.width = 1 then page else page.half)
      fun _ => rfl).mono ?_
  rintro t page' ⟨t₁, page, hpre, hfilled, rfl⟩
  by_cases hw : ch.width = 0 ∨ ch.width = 1
  · rw [if_pos hw]
    exact (hfilled.low T hw).later T hpre
  · rw [if_neg hw]
    exact (hfilled.half T hw).later T hpre

theorem limitRuPage_looks (hch : ch.validChannel = true) (hdomain : domain < regdNum) (hntx : ntx ≤ 1) :
    Looks ch.band (limitRuPage T domain ch ntx) fun t page => RuFilled T domain ch ntx t page :=
  (fillRus_looks T (band_of_valid hch) hdomain hntx (fills_valid hch).2 (ruFills_nodup ch) _).mono
    fun _ _ h => ⟨h.1, h.2⟩

end TxPower
end Rtl8852be
