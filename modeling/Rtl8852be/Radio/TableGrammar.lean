import Rtl8852be.Radio.RadioTables

/-!
# TableGrammar — what a radio table says

The rows behind the headlines are a list of items: single rows, and groups of branches, each with a condition.
`branchesFrom` accepts exactly these, as an automaton with four places, and `picked`, the rows that
`applyFrom` selects, are those of the single rows and of the first branch of each group whose condition is the
target.
-/

namespace Rtl8852be
namespace Radio

open Interaction

variable {selected target : UInt32}

/-! ## Items -/

/-- A row that is neither part of the branching nor a headline. -/
def Plain (r : RadioRegister) : Prop :=
  op r.address ≠ 8 ∧ op r.address ≠ 9 ∧ op r.address ≠ 4 ∧ op r.address ≠ 10 ∧ op r.address ≠ 11 ∧
    op r.address ≠ 15

/-- `IF` or `ELIF`, its `CHECK`, and the rows up to the next branch. -/
structure Branch where
  opener : RadioRegister
  check : RadioRegister
  rows : List RadioRegister

def Branch.all (b : Branch) : List RadioRegister := b.opener :: b.check :: b.rows

/-- The condition of the branch is the target. -/
def Branch.holds (target : UInt32) (b : Branch) : Bool := condition b.opener.address == target

structure Branch.Formed (opening : ℕ) (b : Branch) : Prop where
  opener : op b.opener.address = opening
  check : op b.check.address = 4
  rows : ∀ r ∈ b.rows, Plain r

/-- The `ELSE` of a group with its rows. -/
structure Otherwise where
  opener : RadioRegister
  rows : List RadioRegister

def otherwiseRows : Option Otherwise → List RadioRegister
  | none => []
  | some o => o.opener :: o.rows

inductive Item
  | row (r : RadioRegister)
  | group (first : Branch) (more : List Branch) (otherwise : Option Otherwise) (last : RadioRegister)

def Item.rows : Item → List RadioRegister
  | .row r => [r]
  | .group first more otherwise last =>
      (first :: more).flatMap Branch.all ++ (otherwiseRows otherwise ++ [last])

/-- A group may have an `ELSE` only if one of its conditions is the target. -/
def Item.Formed (target : UInt32) : Item → Prop
  | .row r => Plain r
  | .group first more otherwise last =>
      first.Formed 8 ∧ (∀ b ∈ more, b.Formed 9) ∧
        (∀ o, otherwise = some o → op o.opener.address = 10 ∧ (∀ r ∈ o.rows, Plain r) ∧
          (first :: more).any (Branch.holds target) = true) ∧
        op last.address = 11

/-- The rows of an item that are for the target. -/
def Item.chosen (target : UInt32) : Item → List RadioRegister
  | .row r => [r]
  | .group first more _ _ => (((first :: more).find? (Branch.holds target)).map Branch.rows).getD []

/-! ## The automaton of the branches -/

/-- Outside any group; before the `CHECK` of a condition; in the rows of a branch; in those of an `ELSE`. -/
inductive Place
  | outside
  | checking (found : Bool) (asked : UInt32)
  | inside (found : Bool)
  | behind

/-- The place after a row, if the row may stand there. -/
def Place.next (selected : UInt32) (address : UInt32) : Place → Option Place
  | .outside =>
      match op address with
      | 8 => some (.checking false (condition address))
      | 9 | 4 | 10 | 11 | 15 => none
      | _ => some .outside
  | .checking found asked =>
      match op address with
      | 4 => some (.inside (found || asked == selected))
      | _ => none
  | .inside found =>
      match op address with
      | 9 => some (.checking found (condition address))
      | 10 => if found then some .behind else none
      | 11 => some .outside
      | 8 | 4 | 15 => none
      | _ => some (.inside found)
  | .behind =>
      match op address with
      | 11 => some .outside
      | 8 | 9 | 4 | 10 | 15 => none
      | _ => some .behind

/-- The rows lead from the place to outside. -/
def Place.accepts (selected : UInt32) : Place → List RadioRegister → Prop
  | p, [] => p = .outside
  | p, r :: rows => ∃ p', p.next selected r.address = some p' ∧ p'.accepts selected rows

/-- What the code knows at a place; `previous` is the address of the last row. -/
def Place.Is (previous : UInt32) (s : Branching) : Place → Prop
  | .outside => s.branch = false ∧ s.needsCheck = false
  | .checking found asked =>
      s.branch = true ∧ s.needsCheck = true ∧ s.seenElse = false ∧ s.found = found ∧
        condition previous = asked
  | .inside found => s.branch = true ∧ s.needsCheck = false ∧ s.seenElse = false ∧ s.found = found
  | .behind => s.branch = true ∧ s.needsCheck = false ∧ s.seenElse = true

/-- Two outcomes of one row: both refuse it, or both go on. -/
def Agrees (address : UInt32) : Except RadioTableStatus Branching → Option Place → Prop
  | .ok s, some p => p.Is address s
  | .error status, none => status ≠ .ok
  | _, _ => False

theorem step_agrees {p : Place} {previous address : UInt32} {s : Branching} (h : p.Is previous s) :
    Agrees address (s.step selected previous address) (p.next selected address) := by
  rcases s with ⟨branch, needsCheck, found, seenElse⟩
  cases p with
  | outside =>
      rcases h with ⟨rfl, rfl⟩
      unfold Branching.step Place.next
      split <;> simp_all [Agrees, Place.Is]
  | checking f asked =>
      rcases h with ⟨rfl, rfl, rfl, rfl, rfl⟩
      unfold Branching.step Place.next
      split <;> simp_all [Agrees, Place.Is]
  | inside f =>
      rcases h with ⟨rfl, rfl, rfl, rfl⟩
      unfold Branching.step Place.next
      cases found <;> split <;> simp_all [Agrees, Place.Is]
  | behind =>
      rcases h with ⟨rfl, rfl, rfl⟩
      unfold Branching.step Place.next
      split <;> simp_all [Agrees, Place.Is]

theorem branchesFrom_ok_iff : ∀ (rows : List RadioRegister) (p : Place) (previous : UInt32) (s : Branching),
    p.Is previous s → (branchesFrom selected previous rows s = .ok ↔ p.accepts selected rows) := by
  intro rows
  induction rows with
  | nil =>
      intro p previous s h
      rw [branchesFrom, Place.accepts]
      cases p with
      | outside => simp [h.1]
      | checking found asked => simp [h.1]
      | inside found => simp [h.1]
      | behind => simp [h.1]
  | cons r rows ih =>
      intro p previous s h
      have hagrees := @step_agrees selected _ _ r.address _ h
      rw [branchesFrom, Place.accepts]
      rcases hstep : s.step selected previous r.address with status | s'
      · rcases hnext : p.next selected r.address with _ | p'
        · rw [hstep, hnext] at hagrees
          constructor
          · intro hok
            exact absurd hok hagrees
          · rintro ⟨p', hp', -⟩
            cases hp'
        · rw [hstep, hnext] at hagrees
          exact hagrees.elim
      · rcases hnext : p.next selected r.address with _ | p'
        · rw [hstep, hnext] at hagrees
          exact hagrees.elim
        · rw [hstep, hnext] at hagrees
          rw [ih p' r.address s' hagrees]
          constructor
          · intro haccepts
            exact ⟨p', rfl, haccepts⟩
          · rintro ⟨p'', hp'', haccepts⟩
            cases hp''
            exact haccepts

/-! ## Accepted rows are items -/

variable {r : RadioRegister} {p : Place}

theorem outside_next (h : Place.outside.next selected r.address = some p) :
    (op r.address = 8 ∧ p = .checking false (condition r.address)) ∨ (Plain r ∧ p = .outside) := by
  simp only [Place.next] at h
  split at h <;> simp_all [Plain]

theorem checking_next {found : Bool} {asked : UInt32}
    (h : (Place.checking found asked).next selected r.address = some p) :
    op r.address = 4 ∧ p = .inside (found || asked == selected) := by
  simp only [Place.next] at h
  split at h <;> simp_all

theorem inside_next {found : Bool} (h : (Place.inside found).next selected r.address = some p) :
    (op r.address = 9 ∧ p = .checking found (condition r.address)) ∨
      (op r.address = 10 ∧ found = true ∧ p = .behind) ∨ (op r.address = 11 ∧ p = .outside) ∨
      (Plain r ∧ p = .inside found) := by
  simp only [Place.next] at h
  cases found <;> split at h <;> simp_all [Plain]

theorem behind_next (h : Place.behind.next selected r.address = some p) :
    (op r.address = 11 ∧ p = .outside) ∨ (Plain r ∧ p = .behind) := by
  simp only [Place.next] at h
  split at h <;> simp_all [Plain]

def Itemized (target : UInt32) (rows : List RadioRegister) : Prop :=
  ∃ items : List Item, rows = items.flatMap Item.rows ∧ ∀ item ∈ items, item.Formed target

/-- Rows that finish an `ELSE`. -/
def EndsElse (target : UInt32) (rows : List RadioRegister) : Prop :=
  ∃ inner last rest, rows = inner ++ last :: rest ∧ (∀ r ∈ inner, Plain r) ∧ op last.address = 11 ∧
    Itemized target rest

/-- Rows that finish a branch and its group. -/
def EndsBranch (target : UInt32) (found : Bool) (rows : List RadioRegister) : Prop :=
  ∃ (inner : List RadioRegister) (more : List Branch) (otherwise : Option Otherwise) (last : RadioRegister)
    (rest : List RadioRegister),
    rows = inner ++ (more.flatMap Branch.all ++ (otherwiseRows otherwise ++ last :: rest)) ∧
      (∀ r ∈ inner, Plain r) ∧ (∀ b ∈ more, b.Formed 9) ∧
      (∀ o, otherwise = some o → op o.opener.address = 10 ∧ (∀ r ∈ o.rows, Plain r) ∧
        (found || more.any (Branch.holds target)) = true) ∧
      op last.address = 11 ∧ Itemized target rest

/-- What the rows are, when they are accepted from a place. -/
def Place.Leads (target : UInt32) (rows : List RadioRegister) : Place → Prop
  | .outside => Itemized target rows
  | .checking found asked =>
      ∃ check rest, rows = check :: rest ∧ op check.address = 4 ∧ EndsBranch target (found || asked == target) rest
  | .inside found => EndsBranch target found rows
  | .behind => EndsElse target rows

variable {inner rest rows : List RadioRegister}

theorem Itemized.row (h : Itemized target rows) (hr : Plain r) :
    Itemized target (r :: rows) := by
  rcases h with ⟨items, rfl, hitems⟩
  refine ⟨.row r :: items, rfl, fun item hitem => ?_⟩
  rcases List.mem_cons.1 hitem with rfl | hitem
  · exact hr
  · exact hitems item hitem

/-- A group whose first branch has been opened and checked. -/
theorem EndsBranch.group {check : RadioRegister} (hr : op r.address = 8) (hcheck : op check.address = 4)
    (h : EndsBranch target (condition r.address == target) rows) :
    Itemized target (r :: check :: rows) := by
  rcases h with ⟨inner, more, otherwise, last, rest, rfl, hinner, hmore, helse, hlast, items, rfl, hitems⟩
  refine ⟨.group ⟨r, check, inner⟩ more otherwise last :: items, ?_, fun item hitem => ?_⟩
  · simp only [List.flatMap_cons, Item.rows, Branch.all, List.append_assoc, List.cons_append,
      List.nil_append]
  · rcases List.mem_cons.1 hitem with rfl | hitem
    · exact ⟨⟨hr, hcheck, hinner⟩, hmore, helse, hlast⟩
    · exact hitems item hitem

theorem EndsBranch.branch {found : Bool} {check : RadioRegister} (hr : op r.address = 9)
    (hcheck : op check.address = 4) (h : EndsBranch target (found || condition r.address == target) rows) :
    EndsBranch target found (r :: check :: rows) := by
  rcases h with ⟨inner, more, otherwise, last, rest, rfl, hinner, hmore, helse, hlast, hrest⟩
  refine ⟨[], ⟨r, check, inner⟩ :: more, otherwise, last, rest, ?_, by simp, fun b hb => ?_, ?_, hlast, hrest⟩
  · simp only [List.flatMap_cons, Branch.all, List.append_assoc, List.cons_append, List.nil_append]
  · rcases List.mem_cons.1 hb with rfl | hb
    · exact ⟨hr, hcheck, hinner⟩
    · exact hmore b hb
  · intro o ho
    rcases helse o ho with ⟨hopener, hrows, hfound⟩
    rw [Bool.or_assoc] at hfound
    exact ⟨hopener, hrows, hfound⟩

theorem accepts_leads : ∀ (rows : List RadioRegister) (p : Place), p.accepts selected rows →
    p.Leads selected rows := by
  intro rows
  induction rows with
  | nil =>
      intro p h
      rw [Place.accepts] at h
      subst h
      exact ⟨[], rfl, nofun⟩
  | cons r rows ih =>
      intro p h
      rcases h with ⟨p', hnext, haccepts⟩
      have hrest := ih p' haccepts
      cases p with
      | outside =>
          rcases outside_next hnext with ⟨hr, rfl⟩ | ⟨hr, rfl⟩
          · rcases hrest with ⟨check, rest, rfl, hcheck, hbranch⟩
            rw [Bool.false_or] at hbranch
            exact hbranch.group hr hcheck
          · exact Itemized.row hrest hr
      | checking found asked =>
          rcases checking_next hnext with ⟨hr, rfl⟩
          exact ⟨r, rows, rfl, hr, hrest⟩
      | inside found =>
          rcases inside_next hnext with ⟨hr, rfl⟩ | ⟨hr, hfound, rfl⟩ | ⟨hr, rfl⟩ | ⟨hr, rfl⟩
          · rcases hrest with ⟨check, rest, rfl, hcheck, hbranch⟩
            exact hbranch.branch hr hcheck
          · rcases hrest with ⟨inner, last, rest, rfl, hinner, hlast, hrest⟩
            refine ⟨[], [], some ⟨r, inner⟩, last, rest, rfl, by simp, by simp, fun o ho => ?_, hlast, hrest⟩
            cases ho
            exact ⟨hr, hinner, by rw [hfound, Bool.true_or]⟩
          · exact ⟨[], [], none, r, rows, rfl, by simp, by simp, nofun, hr, hrest⟩
          · rcases hrest with ⟨inner, more, otherwise, last, rest, rfl, hinner, hmore⟩
            refine ⟨r :: inner, more, otherwise, last, rest, rfl, fun x hx => ?_, hmore⟩
            rcases List.mem_cons.1 hx with rfl | hx
            · exact hr
            · exact hinner x hx
      | behind =>
          rcases behind_next hnext with ⟨hr, rfl⟩ | ⟨hr, rfl⟩
          · exact ⟨[], r, rows, rfl, by simp, hr, hrest⟩
          · rcases hrest with ⟨inner, last, rest, rfl, hinner, hlast⟩
            refine ⟨r :: inner, last, rest, rfl, fun x hx => ?_, hlast⟩
            rcases List.mem_cons.1 hx with rfl | hx
            · exact hr
            · exact hinner x hx

/-! ## Items are accepted -/

theorem Plain.next (h : Plain r) :
    Place.outside.next selected r.address = some .outside ∧
      (∀ found, (Place.inside found).next selected r.address = some (.inside found)) ∧
      Place.behind.next selected r.address = some .behind := by
  rcases h with ⟨h8, h9, h4, h10, h11, h15⟩
  refine ⟨?_, fun found => ?_, ?_⟩
  · simp only [Place.next]
  · simp only [Place.next]
  · simp only [Place.next]

theorem accepts_plain (hinner : ∀ r ∈ inner, p.next selected r.address = some p) (hrest : p.accepts selected rest) :
    p.accepts selected (inner ++ rest) := by
  induction inner with
  | nil => exact hrest
  | cons r inner ih =>
      refine ⟨p, hinner r List.mem_cons_self, ih fun x hx => ?_⟩
      exact hinner x (List.mem_cons_of_mem r hx)

/-- The rows of a branch, from its `CHECK` on. -/
theorem accepts_checked {found : Bool} {asked : UInt32} {check : RadioRegister} (hcheck : op check.address = 4)
    (hinner : ∀ r ∈ inner, Plain r) (hrest : (Place.inside (found || asked == selected)).accepts selected rest) :
    (Place.checking found asked).accepts selected (check :: (inner ++ rest)) := by
  refine ⟨.inside (found || asked == selected), ?_, accepts_plain (fun r hr => ?_) hrest⟩
  · simp only [Place.next, hcheck]
  · exact (hinner r hr).next.2.1 _

theorem accepts_more {more : List Branch} : ∀ {found : Bool},
    (∀ b ∈ more, b.Formed 9) →
    (Place.inside (found || more.any (Branch.holds selected))).accepts selected rest →
    (Place.inside found).accepts selected (more.flatMap Branch.all ++ rest) := by
  induction more with
  | nil =>
      intro found _ hrest
      rw [List.any_nil, Bool.or_false] at hrest
      exact hrest
  | cons b more ih =>
      intro found hmore hrest
      have hb := hmore b List.mem_cons_self
      rw [List.any_cons, ← Bool.or_assoc] at hrest
      have htail := ih (fun c hc => hmore c (List.mem_cons_of_mem b hc)) hrest
      rw [List.flatMap_cons, List.append_assoc]
      refine ⟨.checking found (condition b.opener.address), ?_, accepts_checked hb.check hb.rows htail⟩
      simp only [Place.next, hb.opener]

theorem accepts_end {found : Bool} {otherwise : Option Otherwise} {last : RadioRegister}
    (helse : ∀ o, otherwise = some o → op o.opener.address = 10 ∧ (∀ r ∈ o.rows, Plain r) ∧ found = true)
    (hlast : op last.address = 11) (hrest : Place.outside.accepts selected rest) :
    (Place.inside found).accepts selected (otherwiseRows otherwise ++ last :: rest) := by
  cases otherwise with
  | none =>
      refine ⟨.outside, ?_, hrest⟩
      simp only [Place.next, hlast]
  | some o =>
      rcases helse o rfl with ⟨hopener, hrows, rfl⟩
      refine ⟨.behind, ?_, accepts_plain (fun r hr => (hrows r hr).next.2.2) ⟨.outside, ?_, hrest⟩⟩
      · simp only [Place.next, hopener, if_true]
      · simp only [Place.next, hlast]

theorem accepts_item {item : Item} (hitem : item.Formed selected) (hrest : Place.outside.accepts selected rest) :
    Place.outside.accepts selected (item.rows ++ rest) := by
  cases item with
  | row r => exact ⟨.outside, hitem.next.1, hrest⟩
  | group first more otherwise last =>
      rcases hitem with ⟨hfirst, hmore, helse, hlast⟩
      have hend : (Place.inside ((first :: more).any (Branch.holds selected))).accepts selected
          (otherwiseRows otherwise ++ last :: rest) := accepts_end helse hlast hrest
      rw [List.any_cons] at hend
      have hbranches := @accepts_checked _ _ _ false (condition first.opener.address) _
        hfirst.check hfirst.rows (accepts_more hmore hend)
      have hrows : (Item.group first more otherwise last).rows ++ rest = first.opener :: first.check ::
          (first.rows ++ (more.flatMap Branch.all ++ (otherwiseRows otherwise ++ last :: rest))) := by
        simp only [Item.rows, List.flatMap_cons, Branch.all, List.append_assoc, List.cons_append,
          List.nil_append]
      rw [hrows]
      refine ⟨.checking false (condition first.opener.address), ?_, hbranches⟩
      simp only [Place.next, hfirst.opener]

/-- The branches are valid exactly if the rows are items. -/
theorem validateRadioBranches_iff :
    validateRadioBranches rows selected = .ok ↔ Itemized selected rows := by
  rw [validateRadioBranches, branchesFrom_ok_iff rows .outside 0 {} ⟨rfl, rfl⟩]
  constructor
  · exact accepts_leads rows .outside
  · rintro ⟨items, rfl, hitems⟩
    induction items with
    | nil => exact rfl
    | cons item items ih =>
        rw [List.flatMap_cons]
        apply accepts_item (hitems item List.mem_cons_self)
        exact ih fun x hx => hitems x (List.mem_cons_of_mem item hx)

/-! ## The rows that are selected -/

/-- The rows for which the loop leaves its switch and is not skipped. -/
def picked (selected : UInt32) : List RadioRegister → Position → List RadioRegister
  | [], _ => []
  | r :: rows, p =>
      match p.control selected r.address with
      | some p => picked selected rows p
      | none => if p.isMatched then r :: picked selected rows p else picked selected rows p

theorem Plain.control {p : Position} (h : Plain r) : p.control selected r.address = none := by
  rcases h with ⟨h8, h9, h4, h10, h11, -⟩
  unfold Position.control
  split <;> simp_all

theorem picked_plain {p : Position} (hinner : ∀ r ∈ inner, Plain r) :
    picked selected (inner ++ rest) p = (if p.isMatched then inner else []) ++ picked selected rest p := by
  induction inner with
  | nil => simp
  | cons r inner ih =>
      have hrest := ih fun x hx => hinner x (List.mem_cons_of_mem r hx)
      rw [List.cons_append, picked, (hinner r List.mem_cons_self).control]
      cases hmatched : p.isMatched <;> simp_all

/-- A branch is run if it is the first whose condition is the target. -/
theorem picked_branch {opening : ℕ} {b : Branch} {p : Position} (hopening : opening = 8 ∨ opening = 9)
    (hb : b.Formed opening) :
    picked selected (b.all ++ rest) p =
      (if !p.found && b.holds selected then b.rows else []) ++
        picked selected rest
          { isMatched := !p.found && b.holds selected, found := p.found || b.holds selected,
            target := condition b.opener.address } := by
  have hopen : p.control selected b.opener.address = some { p with target := condition b.opener.address } := by
    rcases hopening with rfl | rfl
    · simp only [Position.control, hb.opener]
    · simp only [Position.control, hb.opener]
  have hfound : (p.found || (!p.found && condition b.opener.address == selected)) =
      (p.found || b.holds selected) := by
    rw [Branch.holds]
    cases p.found <;> rfl
  have hcheck : ({ p with target := condition b.opener.address } : Position).control selected b.check.address =
      some { isMatched := !p.found && b.holds selected, found := p.found || b.holds selected,
             target := condition b.opener.address } := by
    simp only [Position.control, hb.check, hfound]
    rfl
  rw [Branch.all, List.cons_append, picked, hopen]
  show picked selected (b.check :: (b.rows ++ rest)) _ = _
  rw [picked, hcheck]
  exact picked_plain hb.rows

theorem picked_branches {bs : List Branch} : ∀ {p : Position},
    (∀ b ∈ bs, b.Formed 8 ∨ b.Formed 9) →
    ∃ q : Position, picked selected (bs.flatMap Branch.all ++ rest) p =
      (if p.found then [] else ((bs.find? (Branch.holds selected)).map Branch.rows).getD []) ++
        picked selected rest q := by
  induction bs with
  | nil =>
      intro p _
      refine ⟨p, ?_⟩
      simp
  | cons b bs ih =>
      intro p hbs
      have hb : ∃ opening, (opening = 8 ∨ opening = 9) ∧ b.Formed opening := by
        rcases hbs b List.mem_cons_self with hb | hb
        · exact ⟨8, Or.inl rfl, hb⟩
        · exact ⟨9, Or.inr rfl, hb⟩
      rcases hb with ⟨opening, hopening, hb⟩
      rcases @ih ⟨!p.found && b.holds selected, p.found || b.holds selected, condition b.opener.address⟩
        (fun c hc => hbs c (List.mem_cons_of_mem b hc)) with ⟨q, hq⟩
      refine ⟨q, ?_⟩
      rw [List.flatMap_cons, List.append_assoc, picked_branch hopening hb, hq, List.find?_cons]
      -- Only the first branch that holds is run, and none after it.
      cases p.found
      · cases b.holds selected
        · simp
        · simp
      · simp

/-- At the end of a group nothing is selected, whatever the place before it. -/
theorem picked_end {otherwise : Option Otherwise} {last : RadioRegister} {q : Position}
    (helse : ∀ o, otherwise = some o → op o.opener.address = 10 ∧ ∀ r ∈ o.rows, Plain r)
    (hlast : op last.address = 11) :
    picked selected (otherwiseRows otherwise ++ last :: rest) q =
      picked selected rest { q with isMatched := true, found := false } := by
  have hend : ∀ q : Position, picked selected (last :: rest) q =
      picked selected rest { q with isMatched := true, found := false } := by
    intro q
    simp only [picked, Position.control, hlast]
  cases otherwise with
  | none => exact hend q
  | some o =>
      rcases helse o rfl with ⟨hopener, hrows⟩
      have hcontrol : q.control selected o.opener.address = some { q with isMatched := false } := by
        simp only [Position.control, hopener]
      show picked selected (o.opener :: (o.rows ++ last :: rest)) q = _
      rw [picked, hcontrol]
      show picked selected (o.rows ++ last :: rest) { q with isMatched := false } = _
      rw [picked_plain hrows, hend]
      rfl

theorem picked_items : ∀ (items : List Item) (p : Position), (∀ item ∈ items, item.Formed selected) →
    p.isMatched = true → p.found = false →
    picked selected (items.flatMap Item.rows) p = items.flatMap (Item.chosen selected) := by
  intro items
  induction items with
  | nil => exact fun p _ _ _ => rfl
  | cons item items ih =>
      intro p hitems hmatched hfound
      have htail : ∀ x ∈ items, x.Formed selected := fun x hx => hitems x (List.mem_cons_of_mem item hx)
      have hitem := hitems item List.mem_cons_self
      rw [List.flatMap_cons, List.flatMap_cons]
      cases item with
      | row r =>
          have hplain : ∀ x ∈ [r], Plain x := by
            intro x hx
            rw [List.mem_singleton.1 hx]
            exact hitem
          show picked selected ([r] ++ items.flatMap Item.rows) p = [r] ++ _
          rw [picked_plain hplain, if_pos hmatched, ih p htail hmatched hfound]
      | group first more otherwise last =>
          rcases hitem with ⟨hfirst, hmore, helse, hlast⟩
          have hbranches : ∀ b ∈ first :: more, b.Formed 8 ∨ b.Formed 9 := by
            intro b hb
            rcases List.mem_cons.1 hb with rfl | hb
            · exact Or.inl hfirst
            · exact Or.inr (hmore b hb)
          have hrows : (Item.group first more otherwise last).rows ++ items.flatMap Item.rows =
              (first :: more).flatMap Branch.all ++
                (otherwiseRows otherwise ++ last :: items.flatMap Item.rows) := by
            simp only [Item.rows, List.append_assoc, List.cons_append, List.nil_append]
          rcases @picked_branches selected
            (otherwiseRows otherwise ++ last :: items.flatMap Item.rows) _ p hbranches with ⟨q, hq⟩
          rw [hrows, hq, picked_end (fun o ho => ⟨(helse o ho).1, (helse o ho).2.1⟩) hlast,
            ih _ htail rfl rfl, if_neg (by rw [hfound]; exact Bool.false_ne_true)]
          rfl

end Radio
end Rtl8852be
