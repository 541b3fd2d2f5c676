import Rtl8852be.Bridge.Net80211PacketBridge

/-!
# Preparation — what becomes of a frame that is prepared

Every frame and every node reference has one owner: the caller, the stack, or the lease.

* `spend`, `gain` — what each function of the stack takes over and hands out;
* `protectFrame_spec`, `encapsulate_spec`, `checkEthernet_spec`, `dequeue_spec` — one for each function;
* `preparation_ownership` — the books of a whole call are balanced, and the lease is what they say.
-/

namespace Rtl8852be
namespace Bridge

open Interaction Network Code

/-! ## The books -/

inductive Resource
  | frame (frame : Frame)
  | node (node : Node)
  deriving DecidableEq

def frames (frame : Option Frame) : Multiset Resource := (frame.map Resource.frame).elim 0 ({·})

def nodes (node : Option Node) : Multiset Resource := (node.map Resource.node).elim 0 ({·})

/-- What an event uses up: `encap`, `encrypt` and `pullup` take over the frame they are given. -/
def spend : Event Stack Answer Empty → Multiset Resource
  | .call (.freem frame) _ => {.frame frame}
  | .call (.releaseNode node) _ => {.node node}
  | .call (.pullup frame _) _ => {.frame frame}
  | .call (.encrypt frame _) _ => {.frame frame}
  | .call (.encap frame) _ => {.frame frame}
  | _ => 0

/-- What an event hands out: a management frame comes with the reference of its node. -/
def gain : Event Stack Answer Empty → Multiset Resource
  | .call (.pullup _ _) frame => frames frame
  | .call (.encrypt _ _) frame => frames frame
  | .call (.encap _) encapsulated => frames encapsulated.frame + nodes encapsulated.node
  | .call .mqDequeue management => management.elim 0 fun m => {.frame m.frame} + nodes m.rcvif
  | .call .ifqDequeue frame => frames frame
  | _ => 0

def TxLease.held (lease : TxLease) : Multiset Resource := frames lease.frame + nodes lease.node

abbrev Booked (held : Multiset Resource) (log : Trace) (held' : Multiset Resource) : Prop :=
  Balanced spend gain held log held'

/-! ## One lemma for each function -/

variable {s : TxLease} {frame : Frame}

theorem booked_spend {e : Event Stack Answer Empty} {part rest : Multiset Resource} (hspend : spend e = part)
    (hgain : gain e = 0) : Booked (part + rest) [e] rest := by
  apply @Balanced.cons _ _ _ _ _ _ _ rest
  · rw [hspend]
  · rw [hgain, add_zero]
    exact Balanced.nil rest

theorem freeFrame_spec (frame : Option Frame) :
    (freeFrame frame).wp (fun log _ s' => s' = s ∧ ∀ rest, Booked (frames frame + rest) log rest) s := by
  cases frame with
  | none =>
      rw [freeFrame, wp_pure]
      refine ⟨rfl, fun rest => ?_⟩
      have hnone : frames none + rest = rest := zero_add rest
      rw [hnone]
      exact Balanced.nil rest
  | some frame =>
      rw [freeFrame, stack, wp_ask]
      intro r
      exact ⟨rfl, fun rest => booked_spend rfl rfl⟩

theorem releaseNode_spec (node : Option Node) :
    (releaseNode node).wp (fun log _ s' => s' = s ∧ ∀ rest, Booked (nodes node + rest) log rest) s := by
  cases node with
  | none =>
      rw [releaseNode, wp_pure]
      refine ⟨rfl, fun rest => ?_⟩
      have hnone : nodes none + rest = rest := zero_add rest
      rw [hnone]
      exact Balanced.nil rest
  | some node =>
      rw [releaseNode, stack, wp_ask]
      intro r
      exact ⟨rfl, fun rest => booked_spend rfl rfl⟩

theorem releaseTx_spec :
    (releaseTx true).wp (fun log _ s' => s' = {} ∧ Booked s.held log 0) s := by
  unfold releaseTx
  rw [wp_get_bind, if_pos rfl, wp_bind]
  refine wp_mono (freeFrame_spec s.frame) fun log _ s₁ hfree => ?_
  rcases hfree with ⟨rfl, hframe⟩
  rw [wp_bind]
  refine wp_mono (releaseNode_spec s₁.node) fun log' _ s₂ hrelease => ?_
  rcases hrelease with ⟨rfl, hnode⟩
  have hset : (set ({} : TxLease) : Bridged PUnit) = set ({} : TxLease) >>= fun _ => pure ⟨⟩ := rfl
  rw [hset, wp_set_bind, wp_pure, List.append_nil]
  refine ⟨rfl, (hframe _).trans ?_⟩
  have hlast := hnode 0
  rwa [add_zero] at hlast

/-- What a function leaves that gives up: an empty lease, and nothing in its books. -/
structure GaveUp (held : Multiset Resource) (log : Trace) (err : Option Errno) (s' : TxLease) : Prop where
  error : ∃ e, err = some e ∧ e ≠ .ebusy
  empty : s' = {}
  booked : Booked held log 0

theorem refuse_spec {e : Errno} (he : e ≠ .ebusy) :
    (refuse e).wp (fun log err s' => GaveUp s.held log err s') s := by
  unfold refuse
  rw [wp_bind]
  refine wp_mono releaseTx_spec fun log _ s₁ hrelease => ?_
  rw [wp_pure, List.append_nil]
  exact ⟨⟨e, rfl, he⟩, hrelease.1, hrelease.2⟩

/-- What a function leaves that succeeds: a frame whose length was checked last. -/
structure Succeeded (held : Multiset Resource) (log : Trace) (err : Option Errno) (s' : TxLease) : Prop where
  error : err = none
  last : ∃ final, s'.frame = some final ∧ log.getLast? = some (.call (.pkthdrLen final) s'.bytes)
  pos : 0 < s'.bytes
  le : s'.bytes ≤ 16383
  booked : Booked held log s'.held

section Prepend

variable {held held' : Multiset Resource} {log : Trace} {err : Option Errno} {s' : TxLease}
  {e : Event Stack Answer Empty}

theorem GaveUp.prepend (h : GaveUp held' log err s')
    (hbooks : ∀ {final}, Booked held' log final → Booked held (e :: log) final) :
    GaveUp held (e :: log) err s' :=
  ⟨h.error, h.empty, hbooks h.booked⟩

theorem Succeeded.prepend (h : Succeeded held' log err s')
    (hbooks : ∀ {final}, Booked held' log final → Booked held (e :: log) final) :
    Succeeded held (e :: log) err s' := by
  rcases h.last with ⟨final, hframe, hlast⟩
  refine ⟨h.error, ⟨final, hframe, ?_⟩, h.pos, h.le, hbooks h.booked⟩
  rw [List.getLast?_cons, hlast]
  rfl

end Prepend

theorem checkLength_spec (hs : s.frame = some frame) : (checkLength frame).wp (fun log err s' =>
    (Succeeded s.held log err s' ∧ s'.node = s.node ∧ s'.frame = some frame) ∨
      GaveUp s.held log err s') s := by
  unfold checkLength stack
  rw [wp_ask_bind]
  intro bytes
  rw [wp_modify_bind, wp_ite]
  constructor
  · intro _
    refine wp_mono (refuse_spec (by decide)) fun log err s' hgone => ?_
    exact Or.inr (hgone.prepend fun h => h.skip rfl rfl)
  · intro hlength
    rcases not_or.1 hlength with ⟨hpos, hle⟩
    rw [wp_pure]
    exact Or.inl ⟨⟨rfl, ⟨frame, hs, rfl⟩, Nat.pos_of_ne_zero hpos, Nat.le_of_not_lt hle,
      (Balanced.nil _).skip rfl rfl⟩, rfl, hs⟩

/-- The frame was encrypted in software. -/
def Encrypted (log : Trace) (frame : Frame) (header : List UInt8) (s' : TxLease) : Prop :=
  ∃ key : Key, key.swcrypto = true ∧ .call (.getTxkey header s'.node) (some key) ∈ log ∧
    .call (.encrypt frame key) s'.frame ∈ log

theorem encryptFrame_spec (hs : s.frame = some frame) (header : List UInt8) :
    (encryptFrame frame header).wp (fun log err s' =>
      (Succeeded s.held log err s' ∧ s'.node = s.node ∧ Encrypted log frame header s') ∨
        GaveUp s.held log err s') s := by
  have hheld : ∀ (key : Key) (encrypted : Option Frame),
      s.held = spend (.call (.encrypt frame key) encrypted) + nodes s.node := by
    intro key encrypted
    rw [TxLease.held, hs]
    rfl
  unfold encryptFrame
  rw [wp_get_bind, stack, wp_ask_bind]
  intro key
  cases key with
  | none =>
      refine wp_mono (refuse_spec (by decide)) fun log err s' hgone => ?_
      exact Or.inr (hgone.prepend fun h => h.skip rfl rfl)
  | some key =>
      dsimp only
      rw [wp_ite]
      constructor
      · intro _
        refine wp_mono (refuse_spec (by decide)) fun log err s' hgone => ?_
        exact Or.inr (hgone.prepend fun h => h.skip rfl rfl)
      · intro hkey
        have hsoft : key.swcrypto = true := by
          cases hk : key.swcrypto with
          | false =>
              rw [hk] at hkey
              exact absurd rfl hkey
          | true => rfl
        rw [stack, wp_ask_bind]
        intro encrypted
        rw [wp_modify_bind]
        -- The node stays in the lease while the frame is away.
        have hbooks : ∀ {log : Trace} {final : Multiset Resource},
            Booked ({ s with frame := encrypted } : TxLease).held log final →
              Booked s.held (.call (.encrypt frame key) encrypted :: log) final := by
          intro log final h
          apply Balanced.cons (hheld key encrypted)
          rw [add_comm]
          exact h
        cases encrypted with
        | none =>
            refine wp_mono (refuse_spec (by decide)) fun log err s' hgone => ?_
            exact Or.inr ((hgone.prepend hbooks).prepend fun h => h.skip rfl rfl)
        | some final =>
            refine wp_mono (checkLength_spec rfl) fun log err s' hdone => ?_
            rcases hdone with ⟨hdone, hnode, hframe⟩ | hgone
            · have hgot : Event.call (.getTxkey header s'.node) (some key) ∈
                  (.call (.getTxkey header s.node) (some key) ::
                    .call (.encrypt frame key) (some final) :: log : Trace) := by
                rw [hnode]
                exact List.mem_cons_self
              have hcrypt : Event.call (.encrypt frame key) s'.frame ∈
                  (.call (.getTxkey header s.node) (some key) ::
                    .call (.encrypt frame key) (some final) :: log : Trace) := by
                rw [hframe]
                exact List.mem_cons_of_mem _ List.mem_cons_self
              exact Or.inl ⟨(hdone.prepend hbooks).prepend fun h => h.skip rfl rfl, hnode, key, hsoft,
                hgot, hcrypt⟩
            · exact Or.inr ((hgone.prepend hbooks).prepend fun h => h.skip rfl rfl)

/-- A frame goes out as it came, or it was protected and is encrypted. -/
def Shielded (log : Trace) (frame : Frame) (s' : TxLease) : Prop :=
  ∃ header, .call (.copydata frame 0 headerBytes) (some header) ∈ log ∧
    (isProtected header = false → s'.frame = some frame) ∧
    (isProtected header = true → Encrypted log frame header s')

variable {log : Trace}

theorem Encrypted.prepend {header : List UInt8} {s' : TxLease} (h : Encrypted log frame header s')
    (e : Event Stack Answer Empty) : Encrypted (e :: log) frame header s' := by
  rcases h with ⟨key, hsoft, hget, hencrypt⟩
  exact ⟨key, hsoft, List.mem_cons_of_mem e hget, List.mem_cons_of_mem e hencrypt⟩

theorem Shielded.prepend {s' : TxLease} (h : Shielded log frame s') (e : Event Stack Answer Empty) :
    Shielded (e :: log) frame s' := by
  rcases h with ⟨header, hcopy, hopen, hclosed⟩
  exact ⟨header, List.mem_cons_of_mem e hcopy, hopen, fun hp => (hclosed hp).prepend e⟩

theorem protectFrame_spec (hs : s.frame = some frame) : (protectFrame frame).wp (fun log err s' =>
    (Succeeded s.held log err s' ∧ s'.node = s.node ∧ Shielded log frame s') ∨
      GaveUp s.held log err s') s := by
  unfold protectFrame
  rw [stack, wp_ask_bind]
  intro length
  rw [wp_ite]
  constructor
  · intro _
    refine wp_mono (refuse_spec (by decide)) fun log err s' hgone => ?_
    exact Or.inr (hgone.prepend fun h => h.skip rfl rfl)
  · intro _
    rw [stack, wp_ask_bind]
    intro copied
    cases copied with
    | none =>
        refine wp_mono (refuse_spec (by decide)) fun log err s' hgone => ?_
        exact Or.inr ((hgone.prepend fun h => h.skip rfl rfl).prepend fun h => h.skip rfl rfl)
    | some header =>
        dsimp only
        rw [wp_ite]
        constructor
        · intro hprotected
          refine wp_mono (encryptFrame_spec hs header) fun log err s' hdone => ?_
          rcases hdone with ⟨hdone, hnode, hcrypt⟩ | hgone
          · left
            refine ⟨(hdone.prepend fun h => h.skip rfl rfl).prepend fun h => h.skip rfl rfl, hnode, ?_⟩
            apply Shielded.prepend
            refine ⟨header, List.mem_cons_self, ?_, fun _ => hcrypt.prepend _⟩
            intro hopen
            rw [hprotected] at hopen
            cases hopen
          · exact Or.inr ((hgone.prepend fun h => h.skip rfl rfl).prepend fun h => h.skip rfl rfl)
        · intro hopen
          refine wp_mono (checkLength_spec hs) fun log err s' hdone => ?_
          rcases hdone with ⟨hdone, hnode, hframe⟩ | hgone
          · left
            refine ⟨(hdone.prepend fun h => h.skip rfl rfl).prepend fun h => h.skip rfl rfl, hnode, ?_⟩
            apply Shielded.prepend
            exact ⟨header, List.mem_cons_self, fun _ => hframe, fun hprotected => absurd hprotected hopen⟩
          · exact Or.inr ((hgone.prepend fun h => h.skip rfl rfl).prepend fun h => h.skip rfl rfl)

/-! ## Whole calls -/

/-- `encap` returns a node reference only with a frame. -/
def Documented : Event Stack Answer Empty → Prop
  | .call (.encap _) encapsulated => encapsulated.node.isSome = true → encapsulated.frame.isSome = true
  | _ => True

/-- The frame came out of `encap` or out of the management queue, with this node. -/
def Produced (log : Trace) (frame : Frame) (node : Option Node) : Prop :=
  (∃ ethernet, .call (.encap ethernet) ⟨some frame, node⟩ ∈ log) ∨
    (node ≠ none ∧ .call .mqDequeue (some ⟨frame, node⟩) ∈ log)

theorem Produced.node {node : Option Node} (h : Produced log frame node) :
    node ≠ none ∨ ∃ ethernet, .call (.encap ethernet) ⟨some frame, none⟩ ∈ log := by
  rcases h with ⟨ethernet, hencap⟩ | ⟨hnode, -⟩
  · cases node with
    | none => exact Or.inr ⟨ethernet, hencap⟩
    | some node => exact Or.inl (Option.some_ne_none node)
  · exact Or.inl hnode

/-- How a call ends that is not turned away. -/
inductive Ending (held : Multiset Resource) (log : Trace) (err : Option Errno) (s' : TxLease) : Prop
  | prepared (frame : Frame) (done : Succeeded held log err s') (source : Produced log frame s'.node)
      (shield : Shielded log frame s') : Ending held log err s'
  | gaveUp (gone : GaveUp held log err s') : Ending held log err s'

theorem Ending.prepend {held held' : Multiset Resource} {err : Option Errno} {s' : TxLease}
    {e : Event Stack Answer Empty} (h : Ending held' log err s')
    (hbooks : ∀ {final}, Booked held' log final → Booked held (e :: log) final) :
    Ending held (e :: log) err s' := by
  cases h with
  | gaveUp gone => exact Ending.gaveUp (gone.prepend hbooks)
  | prepared frame done source shield =>
      refine Ending.prepared frame (done.prepend hbooks) ?_ (shield.prepend e)
      rcases source with ⟨ethernet, hencap⟩ | ⟨hnode, hqueue⟩
      · exact Or.inl ⟨ethernet, List.mem_cons_of_mem e hencap⟩
      · exact Or.inr ⟨hnode, List.mem_cons_of_mem e hqueue⟩

theorem dropFrame_spec {e : Errno} (he : e ≠ .ebusy) : (dropFrame frame e).wp (fun log err s' =>
    Ending {.frame frame} log err s') {} := by
  unfold dropFrame
  rw [wp_bind]
  refine wp_mono (freeFrame_spec (some frame)) fun log _ s₁ hfree => ?_
  rcases hfree with ⟨rfl, hframe⟩
  rw [wp_pure, List.append_nil]
  have hbooked := hframe 0
  rw [add_zero] at hbooked
  exact Ending.gaveUp ⟨⟨e, rfl, he⟩, rfl, hbooked⟩

theorem encapsulate_spec (ethernet : Frame) : (encapsulate ethernet).wp (fun log err s' =>
    (∀ e ∈ log, Documented e) → Ending {.frame ethernet} log err s') {} := by
  unfold encapsulate
  rw [stack, wp_ask_bind]
  rintro ⟨final, node⟩
  rw [wp_modify_bind]
  cases final with
  | none =>
      rw [wp_set_bind, wp_pure]
      intro hdoc
      cases node with
      | none =>
          have hbooked : Booked ({.frame ethernet} + 0) [.call (.encap ethernet) ⟨none, none⟩] 0 :=
            booked_spend rfl rfl
          rw [add_zero] at hbooked
          exact Ending.gaveUp ⟨⟨.enobufs, rfl, by decide⟩, rfl, hbooked⟩
      | some node =>
          -- The reference would be lost.
          have hencap : Documented (.call (.encap ethernet) ⟨none, some node⟩) := hdoc _ List.mem_cons_self
          have hframe := hencap rfl
          cases hframe
  | some frame =>
      refine wp_mono (protectFrame_spec rfl) fun log err s' hdone _ => ?_
      have hbooks : ∀ {last : Multiset Resource},
          Booked ({ frame := some frame, node := node } : TxLease).held log last →
            Booked {.frame ethernet} (.call (.encap ethernet) ⟨some frame, node⟩ :: log) last := by
        intro last h
        apply @Balanced.cons _ _ _ _ _ _ _ 0
        · rfl
        · rw [zero_add]
          exact h
      rcases hdone with ⟨hdone, hnode, hshield⟩ | hgone
      · apply Ending.prepared frame (hdone.prepend hbooks)
        · rw [hnode]
          exact Or.inl ⟨ethernet, List.mem_cons_self⟩
        · exact hshield.prepend _
      · exact Ending.gaveUp (hgone.prepend hbooks)

/-- What is known of a trace is known of the rest of it. -/
theorem documented_tail {e : Event Stack Answer Empty} (h : ∀ e' ∈ e :: log, Documented e') :
    ∀ e' ∈ log, Documented e' :=
  fun e' he' => h e' (List.mem_cons_of_mem e he')

theorem checkLengths_spec (ethernet : Frame) : (checkLengths ethernet).wp
    (fun log err s' => (∀ e ∈ log, Documented e) → Ending {.frame ethernet} log err s') {} := by
  unfold checkLengths
  rw [stack, wp_ask_bind]
  intro length
  rw [wp_ite]
  constructor
  · intro _
    refine wp_mono (dropFrame_spec (by decide)) fun log err s' hend _ => ?_
    exact hend.prepend fun h => h.skip rfl rfl
  · intro _
    rw [stack, wp_ask_bind]
    intro first
    rw [wp_ite]
    constructor
    · intro _
      rw [stack, wp_ask_bind]
      intro pulled
      cases pulled with
      | none =>
          rw [wp_pure]
          intro _
          have hbooked : Booked ({.frame ethernet} + 0) [.call (.pullup ethernet 14) none] 0 :=
            booked_spend rfl rfl
          rw [add_zero] at hbooked
          have hend : Ending {.frame ethernet} [.call (.pullup ethernet 14) none] (some .enobufs) {} :=
            Ending.gaveUp ⟨⟨.enobufs, rfl, by decide⟩, rfl, hbooked⟩
          exact (hend.prepend fun h => h.skip rfl rfl).prepend fun h => h.skip rfl rfl
      | some pulled =>
          refine wp_mono (encapsulate_spec pulled) fun log err s' hend hdoc => ?_
          have hrest := hend (documented_tail (documented_tail (documented_tail hdoc)))
          have hpulled : Ending {.frame ethernet} (.call (.pullup ethernet 14) (some pulled) :: log) err s' := by
            apply hrest.prepend
            intro final h
            apply @Balanced.cons _ _ _ _ _ _ _ 0
            · rfl
            · rw [zero_add]
              exact h
          exact (hpulled.prepend fun h => h.skip rfl rfl).prepend fun h => h.skip rfl rfl
    · intro _
      refine wp_mono (encapsulate_spec ethernet) fun log err s' hend hdoc => ?_
      have hrest := hend (documented_tail (documented_tail hdoc))
      exact (hrest.prepend fun h => h.skip rfl rfl).prepend fun h => h.skip rfl rfl

theorem checkEthernet_spec (ic : Bool) (ethernet : Frame) : (checkEthernet ic ethernet).wp
    (fun log err s' => (∀ e ∈ log, Documented e) → Ending {.frame ethernet} log err s') {} := by
  unfold checkEthernet
  cases ic with
  | false =>
      rw [if_neg (by decide)]
      exact wp_mono (dropFrame_spec (by decide)) fun log err s' hend _ => hend
  | true =>
      rw [if_pos rfl, stack, wp_ask_bind]
      intro inRun
      rw [wp_ite]
      constructor
      · intro _
        refine wp_mono (dropFrame_spec (by decide)) fun log err s' hend _ => ?_
        exact hend.prepend fun h => h.skip rfl rfl
      · intro _
        refine wp_mono (checkLengths_spec ethernet) fun log err s' hend hdoc => ?_
        exact (hend (documented_tail hdoc)).prepend fun h => h.skip rfl rfl

theorem ending_idle {e : Errno} (he : e ≠ .ebusy) : Ending 0 [] (some e) {} :=
  Ending.gaveUp ⟨⟨e, rfl, he⟩, rfl, Balanced.nil 0⟩

def TxLease.Pending (lease : TxLease) : Prop := lease.frame.isSome ∨ lease.node.isSome

instance (lease : TxLease) : Decidable lease.Pending := inferInstanceAs (Decidable (_ ∨ _))

theorem TxLease.held_idle {lease : TxLease} (h : ¬ lease.Pending) : lease.held = 0 := by
  rcases lease with ⟨frame, node, bytes⟩
  rcases not_or.1 h with ⟨hframe, hnode⟩
  cases frame with
  | some frame => exact absurd rfl hframe
  | none =>
      cases node with
      | some node => exact absurd rfl hnode
      | none => rfl

/-- A call that is turned away: what it was given goes back, and the lease stays. -/
structure TurnedAway (held : Multiset Resource) (lease : TxLease) (log : Trace) (err : Option Errno)
    (s' : TxLease) : Prop where
  error : err = some .ebusy
  same : s' = lease
  booked : Booked held log 0

theorem prepareEthernetTx_spec (ic : Bool) (ethernet : Option Frame) : (prepareEthernetTx ic ethernet).wp
    (fun log err s' => (s.Pending → TurnedAway (frames ethernet) s log err s') ∧
      (¬ s.Pending → (∀ e ∈ log, Documented e) → Ending (frames ethernet) log err s')) s := by
  unfold prepareEthernetTx
  rw [wp_get_bind, wp_ite]
  constructor
  · intro hpending
    rw [wp_bind]
    refine wp_mono (freeFrame_spec ethernet) fun log _ s₁ hfree => ?_
    rcases hfree with ⟨rfl, hframe⟩
    rw [wp_pure, List.append_nil]
    have hbooked := hframe 0
    rw [add_zero] at hbooked
    exact ⟨fun _ => ⟨rfl, rfl, hbooked⟩, fun hidle => absurd hpending hidle⟩
  · intro hidle
    rw [wp_set_bind]
    cases ethernet with
    | none =>
        rw [wp_pure]
        exact ⟨fun hpending => absurd hpending hidle, fun _ _ => ending_idle (by decide)⟩
    | some ethernet =>
        refine wp_mono (checkEthernet_spec ic ethernet) fun log err s' hend => ?_
        exact ⟨fun hpending => absurd hpending hidle, fun _ => hend⟩

theorem dequeue_spec (ic : Bool) : (dequeue ic).wp
    (fun log err s' => (∀ e ∈ log, Documented e) → Ending 0 log err s') {} := by
  unfold dequeue
  rw [stack, wp_ask_bind]
  intro management
  cases management with
  | some management =>
      rcases management with ⟨frame, rcvif⟩
      have hbooks : ∀ {log : Trace} {last : Multiset Resource},
          Booked ({ frame := some frame, node := rcvif } : TxLease).held log last →
            Booked 0 (.call .mqDequeue (some ⟨frame, rcvif⟩) :: log) last := by
        intro log last h
        apply Balanced.bring
        · rfl
        · rw [zero_add]
          exact h
      dsimp only
      rw [wp_modify_bind]
      cases rcvif with
      | none =>
          refine wp_mono (refuse_spec (by decide)) fun log err s' hgone _ => ?_
          exact Ending.gaveUp (hgone.prepend hbooks)
      | some node =>
          refine wp_mono (protectFrame_spec rfl) fun log err s' hdone _ => ?_
          rcases hdone with ⟨hdone, hnode, hshield⟩ | hgone
          · apply Ending.prepared frame (hdone.prepend hbooks)
            · rw [hnode]
              exact Or.inr ⟨Option.some_ne_none node, List.mem_cons_self⟩
            · exact hshield.prepend _
          · exact Ending.gaveUp (hgone.prepend hbooks)
  | none =>
      dsimp only
      rw [stack, wp_ask_bind]
      intro inRun
      rw [wp_ite]
      constructor
      · intro _
        rw [wp_pure]
        intro _
        exact ((ending_idle (by decide)).prepend fun h => h.skip rfl rfl).prepend fun h => h.skip rfl rfl
      · intro _
        rw [stack, wp_ask_bind]
        intro mgmtOnly
        rw [wp_ite]
        constructor
        · intro _
          rw [wp_pure]
          intro _
          exact (((ending_idle (by decide)).prepend fun h => h.skip rfl rfl).prepend
            fun h => h.skip rfl rfl).prepend fun h => h.skip rfl rfl
        · intro _
          rw [stack, wp_ask_bind]
          intro frame
          cases frame with
          | none =>
              rw [wp_pure]
              intro _
              exact ((((ending_idle (by decide)).prepend fun h => h.skip rfl rfl).prepend
                fun h => h.skip rfl rfl).prepend fun h => h.skip rfl rfl).prepend
                  fun h => h.skip rfl rfl
          | some frame =>
              refine wp_mono (prepareEthernetTx_spec ic (some frame)) fun log err s' hend hdoc => ?_
              have hrest := hend.2 (by decide) (documented_tail (documented_tail (documented_tail
                (documented_tail hdoc))))
              have hframe : Ending 0 (.call .ifqDequeue (some frame) :: log) err s' := by
                apply hrest.prepend
                intro last h
                apply Balanced.bring
                · rfl
                · rw [zero_add]
                  exact h
              exact ((hframe.prepend fun h => h.skip rfl rfl).prepend
                fun h => h.skip rfl rfl).prepend fun h => h.skip rfl rfl

theorem prepareNextTx_spec (ic : Bool) : (prepareNextTx ic).wp
    (fun log err s' => (s.Pending → TurnedAway 0 s log err s') ∧
      (¬ s.Pending → (∀ e ∈ log, Documented e) → Ending 0 log err s')) s := by
  unfold prepareNextTx
  rw [wp_get_bind, wp_ite]
  constructor
  · intro hpending
    rw [wp_pure]
    exact ⟨fun _ => ⟨rfl, rfl, Balanced.nil 0⟩, fun hidle => absurd hpending hidle⟩
  · intro hidle
    rw [wp_set_bind, wp_ite]
    constructor
    · intro _
      rw [wp_pure]
      exact ⟨fun hpending => absurd hpending hidle, fun _ _ => ending_idle (by decide)⟩
    · intro _
      rw [stack, wp_ask_bind]
      intro running
      rw [wp_ite]
      constructor
      · intro _
        rw [wp_pure]
        refine ⟨fun hpending => absurd hpending hidle, fun _ _ => ?_⟩
        exact (ending_idle (by decide)).prepend fun h => h.skip rfl rfl
      · intro _
        refine wp_mono (dequeue_spec ic) fun log err s' hend => ?_
        refine ⟨fun hpending => absurd hpending hidle, fun _ hdoc => ?_⟩
        exact (hend (documented_tail hdoc)).prepend fun h => h.skip rfl rfl

/-! ## Both entry points -/

/-- The two functions, with the frame that is given to one of them. -/
inductive Entry
  | ethernet (frame : Option Frame)
  | next
  deriving DecidableEq

def Entry.given : Entry → Option Frame
  | .ethernet frame => frame
  | .next => none

def prepare (ic : Bool) : Entry → Bridged (Option Errno)
  | .ethernet frame => prepareEthernetTx ic frame
  | .next => prepareNextTx ic

theorem prepare_spec (ic : Bool) (entry : Entry) : (prepare ic entry).wp
    (fun log err s' => (s.Pending → TurnedAway (frames entry.given) s log err s') ∧
      (¬ s.Pending → (∀ e ∈ log, Documented e) → Ending (frames entry.given) log err s')) s := by
  cases entry with
  | ethernet frame => exact prepareEthernetTx_spec ic frame
  | next => exact prepareNextTx_spec ic

/-- What a call promises about its lease. -/
structure Promised (log : Trace) (err : Option Errno) (lease lease' : TxLease) : Prop where
  success : err = none → ∃ frame final, lease'.frame = some final ∧
    log.getLast? = some (.call (.pkthdrLen final) lease'.bytes) ∧ 0 < lease'.bytes ∧ lease'.bytes ≤ 16383 ∧
    Produced log frame lease'.node ∧ Shielded log frame lease' ∧
    (lease'.node ≠ none ∨ ∃ ethernet, .call (.encap ethernet) ⟨some frame, none⟩ ∈ log)
  failure : err ≠ none → err ≠ some .ebusy → lease' = {}
  busy : err = some .ebusy → lease' = lease

/-- Every frame and every node reference that a call is given, or that the stack hands out to it, is used
up once by the functions that take it over, or is in the lease in the end; and the lease is as promised. -/
theorem preparation_ownership (ic : Bool) (entry : Entry) {lease lease' : TxLease} {log : Trace}
    {err : Option Errno} (hrun : (prepare ic entry lease).Outcome log (err, lease'))
    (hdoc : ∀ e ∈ log, Documented e) :
    Booked (frames entry.given + lease.held) log lease'.held ∧
      (∀ r, (frames entry.given + lease.held).count r + (log.map fun e => (gain e).count r).sum =
        (log.map fun e => (spend e).count r).sum + lease'.held.count r) ∧
      Promised log err lease lease' := by
  rcases wp_outcome (prepare_spec ic entry) hrun with ⟨hpending, hidle⟩
  have hmain : Booked (frames entry.given + lease.held) log lease'.held ∧ Promised log err lease lease' := by
    by_cases h : lease.Pending
    · rcases hpending h with ⟨rfl, rfl, hbooked⟩
      have hframe := hbooked.frame lease'.held
      rw [zero_add] at hframe
      refine ⟨hframe, ⟨fun hnone => ?_, fun _ hbusy => absurd rfl hbusy, fun _ => rfl⟩⟩
      cases hnone
    · rw [TxLease.held_idle h, add_zero]
      cases hidle h hdoc with
      | prepared frame done source shield =>
          rcases done with ⟨rfl, ⟨final, hframe, hlast⟩, hpos, hle, hbooked⟩
          refine ⟨hbooked,
            ⟨fun _ => ⟨frame, final, hframe, hlast, hpos, hle, source, shield, source.node⟩, ?_, ?_⟩⟩
          · intro hnone
            exact absurd rfl hnone
          · intro hbusy
            cases hbusy
      | gaveUp gone =>
          rcases gone with ⟨⟨e, rfl, hne⟩, rfl, hbooked⟩
          refine ⟨hbooked, ⟨fun hnone => ?_, fun _ _ => rfl, fun hbusy => ?_⟩⟩
          · cases hnone
          · exact absurd (Option.some.inj hbusy) hne
  exact ⟨hmain.1, hmain.1.count, hmain.2⟩

/-- A stack with one open frame in it, and this node in what `encap` returns. -/
def answers (node : Option Node) : (c : Stack) → Unit → Answer c × Unit
  | .inRun, _ => (true, ())
  | .running, _ => (true, ())
  | .mgmtOnly, _ => (false, ())
  | .pkthdrLen _, _ => (100, ())
  | .mbufLen _, _ => (100, ())
  | .copydata _ _ length, _ => (some (List.replicate length 0), ())
  | .pullup frame _, _ => (some frame, ())
  | .freem _, _ => ((), ())
  | .releaseNode _, _ => ((), ())
  | .getTxkey _ _, _ => (none, ())
  | .encrypt _ _, _ => (none, ())
  | .encap _, _ => (⟨some 2, node⟩, ())
  | .mqDequeue, _ => (none, ())
  | .ifqDequeue, _ => (some 1, ())

theorem answers_documented {node : Option Node}
    (hlog : log = [.call .inRun true, .call (.pkthdrLen 1) 100, .call (.mbufLen 1) 100,
      .call (.encap 1) ⟨some 2, node⟩, .call (.pkthdrLen 2) 100,
      .call (.copydata 2 0 24) (some (List.replicate 24 0)), .call (.pkthdrLen 2) 100]) :
    ∀ e ∈ log, Documented e := by
  subst hlog
  intro e he
  simp only [List.mem_cons, List.not_mem_nil, or_false] at he
  rcases he with rfl | rfl | rfl | rfl | rfl | rfl | rfl
  all_goals first | exact trivial | exact fun _ => rfl

theorem preparation_ownership_ethernet : ∃ log : Trace,
    Booked ({.frame 1} + 0) log ({.frame 2} + {.node 3}) := by
  have hrun := Prog.run_outcome (answers (some 3)) (prepare true (.ethernet (some 1)) {}) ()
  exact ⟨_, (preparation_ownership true (.ethernet (some 1)) hrun (answers_documented rfl)).1⟩

/-- `encap` may return a frame without a node, and the lease is returned so. -/
theorem preparation_without_node : ∃ (log : Trace) (lease' : TxLease),
    (prepare true (.ethernet (some 1)) {}).Outcome log (none, lease') ∧ (∀ e ∈ log, Documented e) ∧
      lease'.frame = some 2 ∧ lease'.node = none := by
  have hrun := Prog.run_outcome (answers none) (prepare true (.ethernet (some 1)) {}) ()
  exact ⟨_, _, hrun, answers_documented rfl, rfl, rfl⟩

end Bridge
end Rtl8852be
