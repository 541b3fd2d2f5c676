import Mathlib.Data.List.TakeWhile
import Rtl8852be.Radio.TableGrammar
import Rtl8852be.Sequence.Champion

/-!
# TableRuns — what a sink gets of a table

A table is accepted if its headlines name the target and its other rows are items.  Then every run hands the
rows of the items that are for the target to the sink, in order, until the sink refuses one or cancels.  A
table that is not accepted makes no call at all.
-/

namespace Rtl8852be
namespace Radio

open Interaction Sequence

variable {table : RadioTable} {rfe cut : UInt8} {selected target wanted : UInt32} {hs : List UInt32}

/-! ## The headline -/

def rfeOf (headline : UInt32) : UInt32 := (headline >>> 16) &&& 255

def cutOf (headline : UInt32) : UInt32 := headline &&& 255

/-- The last headline of a board with the greatest cut. -/
def LastGreatest (wanted : UInt32) (hs : List UInt32) (h : UInt32) : Prop :=
  ∃ before after, hs = before ++ h :: after ∧ rfeOf h = wanted ∧
    (∀ x ∈ before, rfeOf x = wanted → cutOf x ≤ cutOf h) ∧
    ∀ x ∈ after, rfeOf x = wanted → cutOf x < cutOf h

/-- The headline that is selected: for this board and cut, for this board and any cut, the best of this board,
the best of any board. -/
inductive Headline (hs : List UInt32) (rfe cut : UInt8) : UInt32 → Prop
  | exact (h : ∃ x ∈ hs, condition x = pack rfe cut) : Headline hs rfe cut (pack rfe cut)
  | anyCut (hexact : ¬ ∃ x ∈ hs, condition x = pack rfe cut)
      (h : ∃ x ∈ hs, condition x = pack rfe 255) : Headline hs rfe cut (pack rfe 255)
  | best (hexact : ¬ ∃ x ∈ hs, condition x = pack rfe cut)
      (hany : ¬ ∃ x ∈ hs, condition x = pack rfe 255) {x : UInt32}
      (h : LastGreatest rfe.toUInt32 hs x) : Headline hs rfe cut (condition x)
  | anyBoard (hexact : ¬ ∃ x ∈ hs, condition x = pack rfe cut)
      (hany : ¬ ∃ x ∈ hs, condition x = pack rfe 255)
      (hbest : ¬ ∃ x ∈ hs, rfeOf x = rfe.toUInt32) {x : UInt32}
      (h : LastGreatest 255 hs x) : Headline hs rfe cut (condition x)

theorem LastGreatest.mem {x : UInt32} (h : LastGreatest wanted hs x) : x ∈ hs ∧ rfeOf x = wanted := by
  rcases h with ⟨before, after, rfl, hx, -, -⟩
  exact ⟨List.mem_append_right before List.mem_cons_self, hx⟩

/-- Read backwards it is the first with the greatest cut. -/
theorem LastGreatest.champion {x : UInt32} (h : LastGreatest wanted hs x) :
    Champion rfeOf (fun y => (cutOf y).toNat) hs.reverse x := by
  rcases h with ⟨before, after, rfl, hx, hbefore, hafter⟩
  refine ⟨after.reverse, before.reverse, by simp, fun y hy hkey => ?_, fun y hy hkey => ?_⟩
  · exact UInt32.lt_iff_toNat_lt.1 (hafter y (List.mem_reverse.1 hy) (hkey.trans hx))
  · exact UInt32.le_iff_toNat_le.1 (hbefore y (List.mem_reverse.1 hy) (hkey.trans hx))

theorem LastGreatest.eq {x y : UInt32} (hx : LastGreatest wanted hs x) (hy : LastGreatest wanted hs y) :
    x = y :=
  hx.champion.eq hy.champion (hx.mem.2.trans hy.mem.2.symm)

/-- What the loop has found after the headlines `hs`. -/
def Search.Over (wanted : UInt32) (hs : List UInt32) (s : Search) : Prop :=
  (s.found = false ∧ s.maximum = 0 ∧ ∀ x ∈ hs, rfeOf x ≠ wanted) ∨
    (s.found = true ∧ ∃ x, LastGreatest wanted hs x ∧ s.maximum = cutOf x ∧ s.target = condition x)

theorem Search.Over.step {s : Search} (h : s.Over wanted hs) (x : UInt32) :
    (s.step wanted x).Over wanted (hs ++ [x]) := by
  have hkeep : rfeOf x ≠ wanted ∨ ¬ s.maximum ≤ cutOf x → s.found = true →
      s.Over wanted (hs ++ [x]) := by
    intro hx hfound
    rcases h with ⟨hnot, -, -⟩ | ⟨-, y, ⟨before, after, rfl, hy, hbefore, hafter⟩, hmaximum, htarget⟩
    · rw [hfound] at hnot
      cases hnot
    · refine Or.inr ⟨hfound, y, ⟨before, after ++ [x], by simp, hy, hbefore, fun z hz hkey => ?_⟩,
        hmaximum, htarget⟩
      rcases List.mem_append.1 hz with hz | hz
      · exact hafter z hz hkey
      · rcases List.mem_singleton.1 hz with rfl
        rcases hx with hne | hlt
        · exact absurd hkey hne
        · rw [hmaximum] at hlt
          exact UInt32.not_le.1 hlt
  by_cases hx : rfeOf x = wanted
  · have hstep : s.step wanted x = if s.maximum ≤ cutOf x then
        { found := true, maximum := cutOf x, target := condition x } else s :=
      if_neg (not_not.2 hx)
    by_cases hle : s.maximum ≤ cutOf x
    · rw [hstep, if_pos hle]
      refine Or.inr ⟨rfl, x, ⟨hs, [], rfl, hx, fun z hz hkey => ?_, nofun⟩, rfl, rfl⟩
      rcases h with ⟨-, -, hnone⟩ | ⟨-, y, hy, hmaximum, -⟩
      · exact absurd hkey (hnone z hz)
      · rw [hmaximum] at hle
        rw [UInt32.le_iff_toNat_le] at hle ⊢
        exact (hy.champion.le (List.mem_reverse.2 hz) (hkey.trans hy.mem.2.symm)).trans hle
    · rw [hstep, if_neg hle]
      refine hkeep (Or.inr hle) ?_
      -- A search that has found nothing has maximum 0, which is below every cut.
      rcases h with ⟨-, hzero, -⟩ | ⟨hfound, -⟩
      · refine absurd ?_ hle
        rw [hzero, UInt32.le_iff_toNat_le]
        exact Nat.zero_le _
      · exact hfound
  · have hstep : s.step wanted x = s := if_pos hx
    rw [hstep]
    cases hfound : s.found with
    | true => exact hkeep (Or.inl hx) hfound
    | false =>
        rcases h with ⟨-, hzero, hnone⟩ | ⟨hyes, -⟩
        · refine Or.inl ⟨hfound, hzero, fun z hz => ?_⟩
          rcases List.mem_append.1 hz with hz | hz
          · exact hnone z hz
          · rw [List.mem_singleton.1 hz]
            exact hx
        · rw [hfound] at hyes
          cases hyes

theorem searchHeadlines_over (hs : List UInt32) : (searchHeadlines hs wanted).Over wanted hs := by
  induction hs using List.reverseRecOn with
  | nil => exact Or.inl ⟨rfl, rfl, nofun⟩
  | append_singleton hs x ih =>
      rw [searchHeadlines, List.foldl_append]
      exact ih.step x

theorem any_iff {t : UInt32} : (hs.any fun a => condition a == t) = true ↔ ∃ x ∈ hs, condition x = t := by
  simp only [List.any_eq_true, beq_iff_eq]

theorem Search.Over.found_iff {s : Search} (h : s.Over wanted hs) :
    s.found = true ↔ ∃ x ∈ hs, rfeOf x = wanted := by
  rcases h with ⟨hfound, -, hnone⟩ | ⟨hfound, x, hx, -⟩
  · rw [hfound]
    constructor
    · exact nofun
    · rintro ⟨x, hx, hkey⟩
      exact absurd hkey (hnone x hx)
  · rw [hfound]
    exact ⟨fun _ => ⟨x, hx.mem.1, hx.mem.2⟩, fun _ => rfl⟩

theorem Search.Over.target_eq {s : Search} {x : UInt32} (h : s.Over wanted hs) (hx : LastGreatest wanted hs x) :
    s.target = condition x := by
  rcases h with ⟨-, -, hnone⟩ | ⟨-, y, hy, -, htarget⟩
  · exact absurd hx.mem.2 (hnone x hx.mem.1)
  · rw [htarget, hx.eq hy]

theorem Search.Over.best {s : Search} (h : s.Over wanted hs) (hfound : s.found = true) :
    ∃ x, LastGreatest wanted hs x ∧ s.target = condition x := by
  rcases h with ⟨hnot, -⟩ | ⟨-, x, hx, -, htarget⟩
  · rw [hfound] at hnot
    cases hnot
  · exact ⟨x, hx, htarget⟩

theorem matchHeadline_iff : matchHeadline hs rfe cut = (.ok, target) ↔ Headline hs rfe cut target := by
  have hboard := @searchHeadlines_over rfe.toUInt32 hs
  have hgeneral := @searchHeadlines_over 255 hs
  rw [matchHeadline]
  by_cases hexact : ∃ x ∈ hs, condition x = pack rfe cut
  · rw [if_pos (any_iff.2 hexact)]
    constructor
    · intro h
      cases h
      exact Headline.exact hexact
    · intro h
      cases h with
      | exact => rfl
      | anyCut hnot => exact absurd hexact hnot
      | best hnot => exact absurd hexact hnot
      | anyBoard hnot => exact absurd hexact hnot
  rw [if_neg (mt any_iff.1 hexact)]
  by_cases hany : ∃ x ∈ hs, condition x = pack rfe 255
  · rw [if_pos (any_iff.2 hany)]
    constructor
    · intro h
      cases h
      exact Headline.anyCut hexact hany
    · intro h
      cases h with
      | exact hyes => exact absurd hyes hexact
      | anyCut => rfl
      | best _ hnot => exact absurd hany hnot
      | anyBoard _ hnot => exact absurd hany hnot
  rw [if_neg (mt any_iff.1 hany)]
  by_cases hbest : (searchHeadlines hs rfe.toUInt32).found = true
  · rw [if_pos hbest]
    constructor
    · intro h
      cases h
      rcases hboard.best hbest with ⟨x, hx, htarget⟩
      rw [htarget]
      exact Headline.best hexact hany hx
    · intro h
      cases h with
      | exact hyes => exact absurd hyes hexact
      | anyCut _ hyes => exact absurd hyes hany
      | best _ _ hx => rw [hboard.target_eq hx]
      | anyBoard _ _ hnot => exact absurd (hboard.found_iff.1 hbest) hnot
  rw [if_neg hbest]
  by_cases hrest : (searchHeadlines hs 255).found = true
  · rw [if_pos hrest]
    constructor
    · intro h
      cases h
      rcases hgeneral.best hrest with ⟨x, hx, htarget⟩
      rw [htarget]
      exact Headline.anyBoard hexact hany (mt hboard.found_iff.2 hbest) hx
    · intro h
      cases h with
      | exact hyes => exact absurd hyes hexact
      | anyCut _ hyes => exact absurd hyes hany
      | best _ _ hx => exact absurd (hboard.found_iff.2 ⟨_, hx.mem.1, hx.mem.2⟩) hbest
      | anyBoard _ _ _ hx => rw [hgeneral.target_eq hx]
  · rw [if_neg hrest]
    constructor
    · exact nofun
    · intro h
      cases h with
      | exact hyes => exact absurd hyes hexact
      | anyCut _ hyes => exact absurd hyes hany
      | best _ _ hx => exact absurd (hboard.found_iff.2 ⟨_, hx.mem.1, hx.mem.2⟩) hbest
      | anyBoard _ _ _ hx => exact absurd (hgeneral.found_iff.2 ⟨_, hx.mem.1, hx.mem.2⟩) hrest

/-! ## Accepted tables -/

/-- The table is for this board and cut: headlines, and behind them items.  Without headlines the target is
written in the first row. -/
structure Layout (table : RadioTable) (rfe cut : UInt8) (headlines : List RadioRegister) (items : List Item)
    (target : UInt32) : Prop where
  registers : table.registers = some (headlines ++ items.flatMap Item.rows)
  size : (headlines ++ items.flatMap Item.rows).length ≤ 65536
  path : table.path ≤ 1
  headline : ∀ h ∈ headlines, op h.address = 15
  some_item : items ≠ []
  formed : ∀ item ∈ items, item.Formed target
  target : if headlines = [] then ∃ first rest, items.flatMap Item.rows = first :: rest ∧
      target = condition first.address
    else Headline (headlines.map RadioRegister.address) rfe cut target

theorem Item.Formed.first {item : Item} (h : item.Formed target) :
    ∃ first rest, item.rows = first :: rest ∧ op first.address ≠ 15 := by
  cases item with
  | row r => exact ⟨r, [], rfl, h.2.2.2.2.2⟩
  | group first more otherwise last =>
      refine ⟨first.opener, _, rfl, ?_⟩
      rw [h.1.opener]
      decide

theorem items_first {items : List Item} (hitems : ∀ item ∈ items, item.Formed target) (hsome : items ≠ []) :
    ∃ first rest, items.flatMap Item.rows = first :: rest ∧ op first.address ≠ 15 := by
  cases items with
  | nil => exact absurd rfl hsome
  | cons item items =>
      rcases (hitems item List.mem_cons_self).first with ⟨first, rest, hrows, hop⟩
      exact ⟨first, rest ++ items.flatMap Item.rows, by rw [List.flatMap_cons, hrows]; rfl, hop⟩

theorem takeWhile_headlines {headlines body rest : List RadioRegister} {first : RadioRegister}
    (hheadline : ∀ h ∈ headlines, op h.address = 15) (hbody : body = first :: rest)
    (hfirst : op first.address ≠ 15) :
    (headlines ++ body).takeWhile (fun r => op r.address == 15) = headlines := by
  rw [List.takeWhile_append_of_pos, hbody, List.takeWhile_cons_of_neg, List.append_nil]
  · simpa using hfirst
  · intro h hh
    exact beq_iff_eq.2 (hheadline h hh)

def Accepted (table : RadioTable) (rfe cut : UInt8) (start : ℕ) (target : UInt32) : Prop :=
  selectRadioTable table rfe cut = (.ok, start, target) ∧
    validateRadioBranches ((table.registers.getD []).drop start) target = .ok

theorem Layout.accepted {headlines : List RadioRegister} {items : List Item}
    (h : Layout table rfe cut headlines items target) :
    Accepted table rfe cut headlines.length target := by
  rcases items_first h.formed h.some_item with ⟨first, rest, hbody, hop⟩
  have hlength : (headlines ++ items.flatMap Item.rows).length = headlines.length + (rest.length + 1) := by
    rw [hbody, List.length_append, List.length_cons]
  have hsize := h.size
  refine ⟨?_, ?_⟩
  · have hpath : ¬ 1 < table.path := UInt8.not_lt.2 h.path
    have htarget := h.target
    rw [selectRadioTable, h.registers]
    simp only [takeWhile_headlines h.headline hbody hop]
    rw [if_neg (by simp only [hpath, or_false]; omega)]
    by_cases hempty : headlines = []
    · subst hempty
      rw [if_pos rfl] at htarget
      rcases htarget with ⟨first', rest', hbody', rfl⟩
      rw [List.nil_append, hbody']
      rfl
    · rw [if_neg hempty] at htarget
      rw [if_neg (fun h => hempty (List.length_eq_zero_iff.1 h)), if_neg (by omega),
        matchHeadline_iff.2 htarget]
  · rw [h.registers, Option.getD_some, List.drop_left]
    exact validateRadioBranches_iff.2 ⟨items, rfl, h.formed⟩

theorem Accepted.layout {start : ℕ} (h : Accepted table rfe cut start target) :
    ∃ headlines items, headlines.length = start ∧ Layout table rfe cut headlines items target := by
  rcases h with ⟨hselect, hvalid⟩
  rw [selectRadioTable] at hselect
  rcases hrows : table.registers with _ | rows
  · rw [hrows] at hselect
    cases hselect
  rw [hrows] at hselect hvalid
  rw [Option.getD_some] at hvalid
  simp only at hselect
  by_cases hbad : rows.length = 0 ∨ 65536 < rows.length ∨ 1 < table.path
  · rw [if_pos hbad] at hselect
    cases hselect
  rw [if_neg hbad] at hselect
  simp only [not_or, not_lt] at hbad
  generalize hheads : rows.takeWhile (fun r => op r.address == 15) = headlines at hselect
  have hsplit : rows = headlines ++ rows.dropWhile (fun r => op r.address == 15) := by
    rw [← hheads, List.takeWhile_append_dropWhile]
  have hheadline : ∀ h ∈ headlines, op h.address = 15 := by
    intro h hh
    rw [← hheads] at hh
    have hop := List.mem_takeWhile_imp hh
    exact beq_iff_eq.1 hop
  have hbody : rows.drop headlines.length = rows.dropWhile (fun r => op r.address == 15) := by
    conv_lhs => rw [hsplit]
    exact List.drop_left
  -- Both ways to a target leave the rows behind the headlines, which are items.
  have hlayout : ∀ {t : UInt32}, validateRadioBranches (rows.drop headlines.length) t = .ok →
      rows.drop headlines.length ≠ [] →
      (∀ items : List Item, rows.drop headlines.length = items.flatMap Item.rows →
        if headlines = [] then ∃ first rest, items.flatMap Item.rows = first :: rest ∧
          t = condition first.address
        else Headline (headlines.map RadioRegister.address) rfe cut t) →
      ∃ items, Layout table rfe cut headlines items t := by
    intro t hvalid hsome htarget
    rcases validateRadioBranches_iff.1 hvalid with ⟨items, hitems, hformed⟩
    have hrows' : rows = headlines ++ items.flatMap Item.rows := by rw [← hitems, hbody, ← hsplit]
    refine ⟨items, ⟨?_, ?_, UInt8.not_lt.1 hbad.2.2, hheadline, ?_, hformed, htarget items hitems⟩⟩
    · rw [hrows, hrows']
    · rw [← hrows']
      exact hbad.2.1
    · rintro rfl
      exact hsome hitems
  by_cases hzero : headlines.length = 0
  · rw [if_pos hzero] at hselect
    cases hselect
    have hempty : headlines = [] := List.length_eq_zero_iff.1 hzero
    have hdrop : rows.drop headlines.length = rows := by rw [hzero, List.drop_zero]
    rcases hcons : rows with _ | ⟨first, rest⟩
    · rw [hcons] at hbad
      exact absurd rfl hbad.1
    rcases hlayout (t := condition (rows.headD ⟨0, 0⟩).address) (by rw [hdrop]; exact hvalid)
      (by rw [hdrop, hcons]; exact List.cons_ne_nil _ _) (fun items hitems => by
        rw [if_pos hempty]
        rw [hdrop, hcons] at hitems
        exact ⟨first, rest, hitems.symm, by rw [hcons]; rfl⟩) with ⟨items, hitems⟩
    rw [← hcons]
    exact ⟨headlines, items, hzero, hitems⟩
  rw [if_neg hzero] at hselect
  by_cases hall : headlines.length = rows.length
  · rw [if_pos hall] at hselect
    cases hselect
  rw [if_neg hall] at hselect
  rcases hmatch : matchHeadline (headlines.map RadioRegister.address) rfe cut with ⟨status, t⟩
  rw [hmatch] at hselect
  cases hselect
  have hlength : rows.length = headlines.length + (rows.drop headlines.length).length := by
    have hle : headlines.length ≤ rows.length := by
      rw [hsplit, List.length_append]
      exact Nat.le_add_right _ _
    rw [List.length_drop]
    omega
  rcases hlayout hvalid (fun hnil => hall (by rw [hlength, hnil]; rfl)) (fun items hitems => by
    rw [if_neg fun hnil => hzero (by rw [hnil]; rfl)]
    exact matchHeadline_iff.1 hmatch) with ⟨items, hitems⟩
  exact ⟨headlines, items, rfl, hitems⟩

/-! ## Runs -/

abbrev Log := List (Event SinkCall (fun _ => Bool) Empty)

/-- A call that is not the question whether to stop. -/
def isDelivery : Event SinkCall (fun _ => Bool) Empty → Option SinkCall
  | .call .cancelled _ => none
  | .call c _ => some c
  | .note n => nomatch n

def delivered (log : Log) : List SinkCall := log.filterMap isDelivery

/-- The reply that lets the table go on. -/
def accepts : SinkCall → Bool
  | .cancelled => false
  | _ => true

def Accepting (log : Log) : Prop := ∀ c reply, .call c reply ∈ log → reply = accepts c

/-- What a run may do when these deliveries are ahead. -/
structure Ran (ahead : List SinkCall) (target : UInt32) (log : Log) (result : RadioTableResult) : Prop where
  started : delivered log <+: ahead
  ended : result.status = .ok → delivered log = ahead
  ok_iff : result.status = .ok ↔ Accepting log
  stopped : result.status = .ok ∨ result.status = .ioError ∨ result.status = .cancelled
  target : result.target = target

theorem delivery_ne_cancelled {r : RadioRegister} {c : SinkCall} (h : delivery table r = some c) :
    accepts c = true ∧ ∀ reply, isDelivery (.call c reply) = some c := by
  unfold delivery at h
  cases c with
  | cancelled => split at h <;> (try split at h) <;> (try split at h) <;> cases h
  | bbWrite address value => exact ⟨rfl, fun _ => rfl⟩
  | rfWrite path address value => exact ⟨rfl, fun _ => rfl⟩
  | gainRecord address value => exact ⟨rfl, fun _ => rfl⟩
  | delayUs us => exact ⟨rfl, fun _ => rfl⟩

theorem Ran.cons_quiet {ahead : List SinkCall} {log : Log} {result : RadioTableResult}
    (h : Ran ahead target log result) : Ran ahead target (.call .cancelled false :: log) result where
  started := h.started
  ended := h.ended
  ok_iff := by
    rw [h.ok_iff]
    constructor
    · intro hlog c reply hmem
      rcases List.mem_cons.1 hmem with heq | hmem
      · cases heq
        rfl
      · exact hlog c reply hmem
    · exact fun hlog c reply hmem => hlog c reply (List.mem_cons_of_mem _ hmem)
  stopped := h.stopped
  target := h.target

theorem Ran.cons_delivery {ahead : List SinkCall} {log : Log} {result : RadioTableResult} {c : SinkCall}
    (h : Ran ahead target log result) (haccepts : accepts c = true)
    (hdelivery : isDelivery (.call c true) = some c) :
    Ran (c :: ahead) target (.call c true :: log) result := by
  have hlog : delivered (.call c true :: log) = c :: delivered log := by
    rw [delivered, List.filterMap_cons, hdelivery]
    rfl
  refine ⟨?_, fun hok => ?_, ?_, h.stopped, h.target⟩
  · rw [hlog]
    exact List.cons_prefix_cons.2 ⟨rfl, h.started⟩
  · rw [hlog, h.ended hok]
  · rw [h.ok_iff]
    constructor
    · intro hall c' reply hmem
      rcases List.mem_cons.1 hmem with heq | hmem
      · cases heq
        exact haccepts.symm
      · exact hall c' reply hmem
    · exact fun hall c' reply hmem => hall c' reply (List.mem_cons_of_mem _ hmem)

/-- One round for each row; the row is delivered if it is picked and hands something over. -/
theorem applyFrom_ran : ∀ (rows : List RadioRegister) (i : ℕ) (p : Position) (result : RadioTableResult),
    (applyFrom table selected i rows p result).wp
      (Ran ((picked selected rows p).filterMap (delivery table)) result.target) := by
  intro rows
  induction rows with
  | nil =>
      intro i p result
      exact ⟨List.prefix_rfl, fun _ => rfl, ⟨fun _ _ _ hc => absurd hc List.not_mem_nil, fun _ => rfl⟩, Or.inl rfl, rfl⟩
  | cons r rows ih =>
      intro i p result
      rw [applyFrom, Prog.wp_call_bind]
      intro stop
      cases stop with
      | true =>
          rw [if_pos rfl, Prog.wp_return]
          refine ⟨List.nil_prefix, (by rintro ⟨⟩), ⟨(by rintro ⟨⟩), fun hall => ?_⟩, Or.inr (Or.inr rfl), rfl⟩
          cases hall .cancelled true List.mem_cons_self
      | false =>
          rw [if_neg Bool.false_ne_true]
          apply Prog.wp_mono _ fun log result' => Ran.cons_quiet
          rcases hcontrol : p.control selected r.address with _ | p'
          · have hskip : ∀ result' : RadioTableResult, result'.target = result.target →
                (applyFrom table selected (i + 1) rows p result').wp
                  (Ran ((picked selected rows p).filterMap (delivery table)) result.target) := by
              intro result' htarget
              rw [← htarget]
              exact ih (i + 1) p result'
            cases hmatched : p.isMatched with
            | false =>
                simp only [picked, hcontrol, hmatched, Bool.not_false, if_true, Bool.false_eq_true, if_false]
                exact hskip _ rfl
            | true =>
                simp only [picked, hcontrol, hmatched, Bool.not_true, Bool.false_eq_true, if_true, if_false,
                  List.filterMap_cons]
                rcases hdelivery : delivery table r with _ | c
                · exact hskip _ rfl
                · rcases delivery_ne_cancelled hdelivery with ⟨haccepts, hmade⟩
                  simp only
                  rw [Prog.wp_call_bind]
                  intro ok
                  cases ok with
                  | true =>
                      rw [if_pos rfl]
                      refine Prog.wp_mono (hskip _ ?_) fun log result' h => h.cons_delivery haccepts (hmade true)
                      cases c <;> rfl
                  | false =>
                      rw [if_neg Bool.false_ne_true, Prog.wp_return]
                      refine ⟨?_, (by rintro ⟨⟩), ⟨(by rintro ⟨⟩), fun hall => ?_⟩, Or.inr (Or.inl rfl), rfl⟩
                      · rw [delivered, List.filterMap_cons, hmade false]
                        exact List.cons_prefix_cons.2 ⟨rfl, List.nil_prefix⟩
                      · have hfalse := hall c false List.mem_cons_self
                        rw [haccepts] at hfalse
                        cases hfalse
          · simp only [picked, hcontrol]
            exact ih (i + 1) p' _

/-! ## What a row stands for -/

/-- The addresses of a baseband table that are delays, in microseconds. -/
def delays : List (UInt32 × ℕ) :=
  [(0xf9, 1), (0xfa, 5), (0xfb, 50), (0xfc, 1000), (0xfd, 5000), (0xfe, 50000)]

def handed (path : UInt8) : RadioTableKind → RadioRegister → List SinkCall
  | .radio, ⟨address, value⟩ => [.rfWrite path address value]
  | .gain, ⟨address, value⟩ => [.gainRecord address value]
  | .baseband, ⟨address, value⟩ =>
      match delays.lookup address with
      | some us => [.delayUs us]
      | none => if value = 0xbabecafe then [] else [.bbWrite address value]

def deliveries (table : RadioTable) (target : UInt32) (items : List Item) : List SinkCall :=
  (items.flatMap (Item.chosen target)).flatMap (handed table.path table.kind)

theorem delays_lookup (address : UInt32) :
    delays.lookup address = if delayOf address ≠ 0 then some (delayOf address) else none := by
  unfold delayOf
  split
  case h_7 h1 h2 h3 h4 h5 h6 =>
    simp only [delays, List.lookup_cons, beq_false_of_ne h1, beq_false_of_ne h2, beq_false_of_ne h3,
      beq_false_of_ne h4, beq_false_of_ne h5, beq_false_of_ne h6, List.lookup_nil]
    rfl
  all_goals rfl

theorem handed_eq (r : RadioRegister) :
    handed table.path table.kind r = (delivery table r).toList := by
  rcases r with ⟨address, value⟩
  rw [delivery]
  cases table.kind with
  | radio => rfl
  | gain => rfl
  | baseband =>
      simp only [handed, delays_lookup]
      by_cases hdelay : delayOf address ≠ 0
      · rw [if_pos hdelay, if_pos hdelay]
        rfl
      · rw [if_neg hdelay, if_neg hdelay]
        by_cases hskip : value = 0xbabecafe
        · rw [if_pos hskip, if_pos hskip]
          rfl
        · rw [if_neg hskip, if_neg hskip]
          rfl

theorem deliveries_eq (items : List Item) :
    deliveries table target items = (items.flatMap (Item.chosen target)).filterMap (delivery table) := by
  rw [deliveries, List.filterMap_eq_flatMap_toList, funext handed_eq]

theorem applyRadioTable_ran {headlines : List RadioRegister} {items : List Item}
    (h : Layout table rfe cut headlines items target) :
    (applyRadioTable table rfe cut).wp (Ran (deliveries table target items) target) := by
  rcases h.accepted with ⟨hselect, hvalid⟩
  have hrun := @applyFrom_ran table target
    ((table.registers.getD []).drop headlines.length) headlines.length {}
    { status := .ok, target := target }
  have hrows : (table.registers.getD []).drop headlines.length = items.flatMap Item.rows := by
    rw [h.registers, Option.getD_some, List.drop_left]
  rw [hrows, picked_items items {} h.formed rfl rfl, ← deliveries_eq] at hrun
  rw [applyRadioTable, hselect]
  simp only [ne_eq, not_true_eq_false, if_false, hvalid]
  rw [hrows]
  exact hrun

/-- The code returns at once, with the status of the check that failed. -/
theorem applyRadioTable_rejected (h : ¬ ∃ headlines items target, Layout table rfe cut headlines items target) :
    ∃ result : RadioTableResult, result.status ≠ .ok ∧ applyRadioTable table rfe cut = pure result := by
  rcases hselect : selectRadioTable table rfe cut with ⟨status, start, target⟩
  rw [applyRadioTable, hselect]
  by_cases hstatus : status = .ok
  · subst hstatus
    have hvalid : validateRadioBranches ((table.registers.getD []).drop start) target ≠ .ok := by
      intro hvalid
      rcases Accepted.layout ⟨hselect, hvalid⟩ with ⟨headlines, items, -, hlayout⟩
      exact h ⟨headlines, items, target, hlayout⟩
    simp only [ne_eq, not_true_eq_false, if_false]
    exact ⟨_, hvalid, if_pos hvalid⟩
  · exact ⟨_, hstatus, if_pos hstatus⟩

/-- A table that is not accepted makes no call.  From an accepted one a sink gets the rows of the items that
are for the target, in order, and all of them if it accepts everything; and sinks that answer alike see the
same calls. -/
theorem radio_table_execution (table : RadioTable) (rfe cut : UInt8) :
    ((¬ ∃ headlines items target, Layout table rfe cut headlines items target) →
      ∃ result : RadioTableResult, result.status ≠ .ok ∧ applyRadioTable table rfe cut = pure result) ∧
    (∀ headlines items target, Layout table rfe cut headlines items target →
      ∀ log result, (applyRadioTable table rfe cut).Outcome log result →
        result.target = target ∧ delivered log <+: deliveries table target items ∧
          (Accepting log → result.status = .ok ∧ delivered log = deliveries table target items)) ∧
    ∀ (β γ : Type) (sink : SinkCall → β → Bool × β) (sink' : SinkCall → γ → Bool × γ) (Related : β → γ → Prop),
      (∀ c b b', Related b b' → (sink c b).1 = (sink' c b').1 ∧ Related (sink c b).2 (sink' c b').2) →
      ∀ b b', Related b b' →
        ((applyRadioTable table rfe cut).run sink b).1 = ((applyRadioTable table rfe cut).run sink' b').1 ∧
        ((applyRadioTable table rfe cut).run sink b).2.1 = ((applyRadioTable table rfe cut).run sink' b').2.1 := by
  refine ⟨applyRadioTable_rejected, fun headlines items target hlayout log result hout => ?_, ?_⟩
  · have hran := (Prog.wp_iff_outcome _ _).1 (applyRadioTable_ran hlayout) log result hout
    refine ⟨hran.target, hran.started, fun haccepting => ?_⟩
    have hok := hran.ok_iff.2 haccepting
    exact ⟨hok, hran.ended hok⟩
  · intro β γ sink sink' Related hstep b b' hb
    have hsame := Prog.run_eq_of_related hstep (applyRadioTable table rfe cut) b b' hb
    exact ⟨hsame.1, hsame.2.1⟩

/-- Two headlines, a group with two branches and an `ELSE`, and a delay behind it. -/
def branchTable : RadioTable where
  registers := some [⟨0xf0010002, 0⟩, ⟨0xf0020003, 0⟩, ⟨0x80020003, 0⟩, ⟨0x40000000, 0⟩, ⟨0x100, 1⟩,
    ⟨0x90010002, 0⟩, ⟨0x40000000, 0⟩, ⟨0x104, 2⟩, ⟨0xa0000000, 0⟩, ⟨0x108, 3⟩, ⟨0xb0000000, 0⟩, ⟨0xfb, 0⟩]
  kind := .baseband
  path := 0

def branchItems : List Item :=
  [.group ⟨⟨0x80020003, 0⟩, ⟨0x40000000, 0⟩, [⟨0x100, 1⟩]⟩ [⟨⟨0x90010002, 0⟩, ⟨0x40000000, 0⟩, [⟨0x104, 2⟩]⟩]
      (some ⟨⟨0xa0000000, 0⟩, [⟨0x108, 3⟩]⟩) ⟨0xb0000000, 0⟩,
    .row ⟨0xfb, 0⟩]

theorem branchTable_layout :
    Layout branchTable 1 2 [⟨0xf0010002, 0⟩, ⟨0xf0020003, 0⟩] branchItems 0x00010002 where
  registers := rfl
  size := by decide
  path := by decide
  headline := by decide
  some_item := List.cons_ne_nil _ _
  formed := by
    have hplain : ∀ r ∈ [RadioRegister.mk 0x100 1, ⟨0x104, 2⟩, ⟨0x108, 3⟩, ⟨0xfb, 0⟩], Plain r := by
      unfold Plain
      decide
    simp only [List.forall_mem_cons] at hplain
    rcases hplain with ⟨h100, h104, h108, hfb, -⟩
    refine List.forall_mem_cons.2 ⟨⟨⟨rfl, rfl, List.forall_mem_singleton.2 h100⟩,
      List.forall_mem_singleton.2 ⟨rfl, rfl, List.forall_mem_singleton.2 h104⟩, fun o ho => ?_, rfl⟩,
      List.forall_mem_singleton.2 hfb⟩
    rcases Option.some.inj ho with rfl
    exact ⟨rfl, List.forall_mem_singleton.2 h108, rfl⟩
  target := Headline.exact ⟨0xf0010002, List.mem_cons_self, rfl⟩

/-- Board 1 gets the rows of the second branch, and the delay behind the group. -/
theorem radio_table_execution_branch :
    ∃ log result, (applyRadioTable branchTable 1 2).Outcome log result ∧ result.status = .ok ∧
      result.target = 0x00010002 ∧ delivered log = [.bbWrite 0x104 2, .delayUs 50] := by
  have hout := Prog.run_outcome (fun c (u : Unit) => (accepts c, u)) (applyRadioTable branchTable 1 2) ()
  have haccepting := Prog.Answered.reply _ () _
    (Prog.run_answered (fun c (u : Unit) => (accepts c, u)) (applyRadioTable branchTable 1 2) ())
  rcases (radio_table_execution branchTable 1 2).2.1 _ _ _ branchTable_layout _ _ hout with
    ⟨htarget, -, hall⟩
  rcases hall haccepting with ⟨hok, hdelivered⟩
  exact ⟨_, _, hout, hok, htarget, hdelivered.trans (by decide)⟩

end Radio
end Rtl8852be
