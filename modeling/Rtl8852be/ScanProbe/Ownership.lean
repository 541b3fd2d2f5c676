import Rtl8852be.ScanProbe.NativeScanProbeTx

/-!
# Ownership — references, frames and bodies of probe requests

Between two calls the owner's node has the owner's reference and one for each live frame, and everything
that was created before is gone: each node freed once, when nothing referred to it any more, and each body
freed or consumed once.

* `Balanced` — the invariant;
* `Holding` — the state inside `queueFrame`, with one reference and one body in hand;
* `probe_ownership` — what follows for every run.
-/

namespace Rtl8852be
namespace ScanProbe

open Interaction

/-! ## The invariant -/

/-- How often `freeDetachedNode` was called for a node. -/
def Kernel.timesFreed (k : Kernel) (node : ℕ) : ℕ := (k.freed.map Freed.node).count node

/-- How often a body was freed or consumed. -/
def Kernel.timesDisposed (k : Kernel) (frame : ℕ) : ℕ := k.disposed.count frame

structure Balanced (s : FrameOwner) : Prop where
  created : ∀ node, s.node = some node → node < s.ops.nodes
  references : ∀ node, s.node = some node → s.ops.references node = 1 + s.ops.frames.count node
  frames : ∀ node ∈ s.ops.frames, s.node = some node
  nodes : ∀ node, s.ops.timesFreed node = if node < s.ops.nodes ∧ s.node ≠ some node then 1 else 0
  freed : ∀ f ∈ s.ops.freed, f.references = 0 ∧ f.frames = 0
  bodies : ∀ frame, s.ops.timesDisposed frame = if frame < s.ops.bodies then 1 else 0
  locked : s.ops.locked = false
  pumping : s.ops.pumping = false

theorem balanced_new : Balanced {} where
  created := fun _ h => by cases h
  references := fun _ h => by cases h
  frames := fun _ h => absurd h List.not_mem_nil
  nodes := fun node => by simp [Kernel.timesFreed]
  freed := fun _ h => absurd h List.not_mem_nil
  bodies := fun frame => by simp [Kernel.timesDisposed]
  locked := rfl
  pumping := rfl

/-! ## One rule per hook -/

section Hooks

variable {s : FrameOwner} {node frame : ℕ} {α : Type}
  {Q : List (Event Choice Reply Empty) → α → FrameOwner → Prop}

theorem wp_onKernel (g : Kernel → Kernel) (f : Unit → Probing α) :
    (Ops.onKernel g >>= f).wp Q s ↔ (f ()).wp Q { s with ops := g s.ops } :=
  wp_modify_bind _ f

theorem wp_setNode (owner : Option ℕ) (f : Unit → Probing α) :
    (FrameOwner.setNode owner >>= f).wp Q s ↔ (f ()).wp Q { s with node := owner } :=
  wp_modify_bind _ f

theorem wp_references (f : ℕ → Probing α) :
    (Ops.references node >>= f).wp Q s ↔ (f (s.ops.references node)).wp Q s := by
  unfold Ops.references
  rw [wp_bind, wp_get_bind, wp_pure]
  simp only [List.nil_append]

theorem wp_queueContainsOnly (f : Bool → Probing α) :
    (Ops.queueContainsOnly node >>= f).wp Q s ↔ (f (s.ops.frames.contains node)).wp Q s := by
  unfold Ops.queueContainsOnly
  rw [wp_bind, wp_get_bind, wp_pure]
  simp only [List.nil_append]

theorem wp_managementOutput (f : Int32 → Probing α)
    (h : ∀ out : Output, (f out.error).wp (fun log => Q (.call .managementOutput out :: log))
      { s with ops := { s.ops with
        disposed := frame :: s.ops.disposed
        frames := if out.queued then node :: s.ops.frames else s.ops.frames } }) :
    (Ops.managementOutput node frame >>= f).wp Q s := by
  simp only [Ops.managementOutput, wp_bind, wp_ask, Ops.onKernel, wp_modify, wp_pure,
    List.append_nil, List.nil_append, List.cons_append]
  exact h

theorem wp_createNode {P : α → FrameOwner → Prop} {channel : UInt8} {rates : List UInt8}
    (f : Option ℕ → Probing α) (hnone : (f none).wp (fun _ => P) s)
    (hsome : (f (some s.ops.nodes)).wp (fun _ => P)
      { s with ops := { s.ops with
        nodes := s.ops.nodes + 1
        references := Function.update s.ops.references s.ops.nodes 1 } }) :
    (Ops.createNode channel rates >>= f).wp (fun _ => P) s := by
  unfold Ops.createNode
  rw [wp_bind, wp_ask_bind]
  intro created
  cases created with
  | false => exact (wp_pure none).2 hnone
  | true =>
      rw [if_pos rfl, wp_get_bind, wp_onKernel, wp_pure]
      exact hsome

theorem wp_createBody {P : α → FrameOwner → Prop} {body : List UInt8} (f : Option ℕ → Probing α)
    (hnone : (f none).wp (fun _ => P) s)
    (hsome : (f (some s.ops.bodies)).wp (fun _ => P)
      { s with ops := { s.ops with bodies := s.ops.bodies + 1 } }) :
    (Ops.createBody body >>= f).wp (fun _ => P) s := by
  unfold Ops.createBody
  rw [wp_bind, wp_ask_bind]
  intro created
  cases created with
  | false => exact (wp_pure none).2 hnone
  | true =>
      rw [if_pos rfl, wp_get_bind, wp_onKernel, wp_pure]
      exact hsome

end Hooks

section Owner

variable {s s' : FrameOwner} {node frame : ℕ}

theorem Balanced.no_frames (hb : Balanced s) (hnode : s.node = none) : s.ops.frames = [] := by
  apply List.eq_nil_iff_forall_not_mem.2
  intro node hmem
  exact absurd (hnode.symm.trans (hb.frames node hmem)) (by simp)

/-! ## Releasing -/

/-- What `releaseOwner` returns and leaves. -/
def released (s : FrameOwner) : Bool × FrameOwner :=
  match s.node with
  | none => (true, s)
  | some node =>
      if s.ops.references node ≠ 1 then
        (false, s)
      else
        (true, {
          node := none
          ops := { s.ops with
            references := Function.update s.ops.references node 0
            freed := ⟨node, 0, s.ops.frames.count node⟩ :: s.ops.freed } })

theorem wp_releaseOwner {Q : List (Event Choice Reply Empty) → Bool → FrameOwner → Prop} :
    FrameOwner.releaseOwner.wp Q s ↔ Q [] (released s).1 (released s).2 := by
  unfold FrameOwner.releaseOwner released
  rw [wp_get_bind]
  cases hnode : s.node with
  | none => simp
  | some node =>
      dsimp only
      rw [wp_references]
      split
      · exact wp_pure false
      · rename_i hone
        rw [Decidable.not_not] at hone
        simp [Ops.releaseNode, Ops.freeDetachedNode, wp_onKernel, wp_setNode, hone]

theorem Balanced.released (hb : Balanced s) : Balanced (released s).2 := by
  unfold ScanProbe.released
  cases hnode : s.node with
  | none => exact hb
  | some node =>
      dsimp only
      split
      · exact hb
      · rename_i hone
        rw [Decidable.not_not] at hone
        have hcount : s.ops.frames.count node = 0 := by
          have hreferences := hb.references node hnode
          omega
        refine ⟨nofun, nofun, ?_, ?_, ?_, hb.bodies, hb.locked, hb.pumping⟩
        · intro other hmem
          have hsame : node = other := Option.some.inj (hnode.symm.trans (hb.frames other hmem))
          rw [hsame] at hcount
          exact absurd hmem (List.count_eq_zero.1 hcount)
        · intro other
          have hold := hb.nodes other
          simp only [Kernel.timesFreed, List.map_cons, List.count_cons] at hold ⊢
          rw [hold]
          by_cases hother : node = other
          · subst hother
            simp [hnode, hb.created node hnode]
          · simp [hnode, hother]
        · intro f hf
          rcases List.mem_cons.1 hf with rfl | hf
          · exact ⟨rfl, hcount⟩
          · exact hb.freed f hf

/-! ## Queueing -/

/-- Inside `queueFrame`: the owner has a new node with one reference, and a body if `frame` is one. -/
structure Holding (node : ℕ) (frame : Option ℕ) (s : FrameOwner) : Prop where
  owner : s.node = some node
  created : node < s.ops.nodes
  references : s.ops.references node = 1
  frames : s.ops.frames = []
  nodes : ∀ other, s.ops.timesFreed other = if other < s.ops.nodes ∧ node ≠ other then 1 else 0
  freed : ∀ f ∈ s.ops.freed, f.references = 0 ∧ f.frames = 0
  bodies : ∀ body, s.ops.timesDisposed body = if body < s.ops.bodies ∧ some body ≠ frame then 1 else 0
  body : ∀ b, frame = some b → b < s.ops.bodies

/-- What `queueFrame` can end with. -/
inductive Queued (s : FrameOwner) : Bool → FrameOwner → Prop
  | kept (hnode : s.node ≠ none) : Queued s false s
  | nothing {s' : FrameOwner} (hnode : s.node = none) (hnode' : s'.node = none) : Queued s false s'
  | stuck {s' : FrameOwner} {node : ℕ} (hnode : s.node = none) (hnode' : s'.node = some node)
      (hframes : s'.ops.frames = [node]) : Queued s false s'
  | accepted {s' : FrameOwner} {node : ℕ} (hnode : s.node = none) (hnode' : s'.node = some node)
      (hframes : s'.ops.frames = [node]) : Queued s true s'

/-- Nothing is in hand any more: the owner can let go of the node. -/
theorem Holding.released (hh : Holding node none s) (hlocked : s.ops.locked = false)
    (hpumping : s.ops.pumping = false) :
    Balanced (ScanProbe.released s).2 ∧ (ScanProbe.released s).2.node = none := by
  have hb : Balanced s := by
    refine ⟨?_, ?_, ?_, ?_, hh.freed, ?_, hlocked, hpumping⟩
    · intro other hother
      rw [hh.owner] at hother
      cases hother
      exact hh.created
    · intro other hother
      rw [hh.owner] at hother
      cases hother
      rw [hh.frames, hh.references]
      rfl
    · intro other hmem
      rw [hh.frames] at hmem
      exact absurd hmem List.not_mem_nil
    · intro other
      rw [hh.nodes, hh.owner]
      simp
    · intro body
      rw [hh.bodies]
      simp
  refine ⟨hb.released, ?_⟩
  unfold ScanProbe.released
  rw [hh.owner]
  dsimp only
  rw [if_neg (by simp [hh.references])]

theorem Holding.disposed {body : ℕ} (hh : Holding node (some body) s) :
    Holding node none { s with ops := { s.ops with disposed := body :: s.ops.disposed } } where
  owner := hh.owner
  created := hh.created
  references := hh.references
  frames := hh.frames
  nodes := hh.nodes
  freed := hh.freed
  bodies := by
    intro other
    have hold := hh.bodies other
    simp only [Kernel.timesDisposed, List.count_cons] at hold ⊢
    rw [hold]
    by_cases hother : body = other
    · subst hother
      simp [hh.body body rfl]
    · simp [hother, Ne.symm hother]
  body := nofun

/-- After `managementOutput`: the body is gone, and two references are out. -/
structure Sent (node : ℕ) (queued : Bool) (s : FrameOwner) : Prop where
  owner : s.node = some node
  created : node < s.ops.nodes
  references : s.ops.references node = 2
  frames : s.ops.frames = if queued then [node] else []
  nodes : ∀ other, s.ops.timesFreed other = if other < s.ops.nodes ∧ node ≠ other then 1 else 0
  freed : ∀ f ∈ s.ops.freed, f.references = 0 ∧ f.frames = 0
  bodies : ∀ body, s.ops.timesDisposed body = if body < s.ops.bodies then 1 else 0

theorem Sent.balanced (hs : Sent node true s) (hlocked : s.ops.locked = false) (hpumping : s.ops.pumping = false) :
    Balanced s := by
  have hframes : s.ops.frames = [node] := hs.frames
  refine ⟨?_, ?_, ?_, ?_, hs.freed, hs.bodies, hlocked, hpumping⟩
  · intro other hother
    rw [hs.owner] at hother
    cases hother
    exact hs.created
  · intro other hother
    rw [hs.owner] at hother
    cases hother
    rw [hs.references, hframes]
    simp
  · intro other hmem
    rw [hframes] at hmem
    rw [List.mem_singleton.1 hmem, hs.owner]
  · intro other
    rw [hs.nodes, hs.owner]
    simp

theorem settle_wp {s₀ : FrameOwner} (queued : Bool) (hnode : s₀.node = none) (hs : Sent node queued s)
    (drops : UInt32) (error : Int32) :
    (FrameOwner.settle node drops error).wp (fun _ ok s' => Balanced s' ∧ Queued s₀ ok s') s := by
  have hcontains : s.ops.frames.contains node = queued := by
    rw [hs.frames]
    cases queued <;> simp
  unfold FrameOwner.settle
  simp only [Ops.suppressPump, Ops.unlockQueue, Ops.releaseNode, wp_onKernel, wp_queueContainsOnly, hcontains]
  cases queued with
  | true =>
      -- the frame is in the queue, so the owner stays whatever was returned
      have hdone : ∀ accepted : Bool,
          Balanced { s with ops := { s.ops with pumping := false, locked := false } } ∧
            Queued s₀ accepted { s with ops := { s.ops with pumping := false, locked := false } } := by
        intro accepted
        have hsent : Sent node true { s with ops := { s.ops with pumping := false, locked := false } } :=
          ⟨hs.owner, hs.created, hs.references, hs.frames, hs.nodes, hs.freed, hs.bodies⟩
        refine ⟨hsent.balanced rfl rfl, ?_⟩
        cases accepted with
        | true => exact Queued.accepted hnode hs.owner hs.frames
        | false => exact Queued.stuck hnode hs.owner hs.frames
      simp only [Bool.not_true, Bool.and_false, Bool.false_eq_true, if_false, and_true]
      split
      · rw [wp_bind, Code.wp_map, Ops.queueDrops, wp_ask]
        intro after
        rw [wp_onKernel, wp_pure]
        exact hdone _
      · rw [wp_bind, wp_pure, wp_onKernel, wp_pure]
        exact hdone false
  | false =>
      -- no queue owns the travelling reference, and without it the node has only its owner
      simp only [Bool.false_eq_true, and_false, if_false, Bool.not_false, if_true]
      rw [wp_bind, wp_pure, wp_onKernel, wp_onKernel]
      simp only [Bool.not_false, Bool.and_self, if_true]
      rw [wp_bind, wp_releaseOwner, wp_pure]
      have hholding : Holding node none { s with ops := { s.ops with
          pumping := false
          references := Function.update s.ops.references node (s.ops.references node - 1)
          locked := false } } :=
        ⟨hs.owner, hs.created, by simp [hs.references], hs.frames, hs.nodes, hs.freed,
          by simpa [Kernel.timesDisposed] using hs.bodies, nofun⟩
      rcases hholding.released rfl rfl with ⟨hb, hgone⟩
      exact ⟨hb, Queued.nothing hnode hgone⟩

theorem submit_wp {s₀ : FrameOwner} (hnode : s₀.node = none) (hh : Holding node (some frame) s)
    (hpumping : s.ops.pumping = false) :
    (FrameOwner.submit node frame).wp (fun _ ok s' => Balanced s' ∧ Queued s₀ ok s') s := by
  unfold FrameOwner.submit
  simp only [Ops.lockQueue, wp_onKernel, Ops.queueReady, wp_ask_bind]
  intro ready
  cases ready with
  | false =>
      simp only [Bool.not_false, if_true, Ops.unlockQueue, Ops.freeBody, wp_onKernel]
      rw [wp_bind, wp_releaseOwner, wp_pure]
      have hunlocked : Holding node (some frame) { s with ops := { s.ops with locked := false } } :=
        ⟨hh.owner, hh.created, hh.references, hh.frames, hh.nodes, hh.freed, hh.bodies, hh.body⟩
      rcases hunlocked.disposed.released rfl hpumping with ⟨hb, hgone⟩
      exact ⟨hb, Queued.nothing hnode hgone⟩
  | true =>
      simp only [Bool.not_true, Bool.false_eq_true, if_false, Ops.queueDrops, wp_ask_bind, Ops.retainNode,
        Ops.suppressPump, wp_onKernel]
      intro drops
      apply wp_managementOutput
      intro out
      refine settle_wp out.queued hnode ?_ drops out.error
      have hgone := hh.disposed
      refine ⟨hh.owner, hh.created, ?_, ?_, hh.nodes, hh.freed, by simpa [Kernel.timesDisposed] using hgone.bodies⟩
      · simp [hh.references]
      · simp [hh.frames]

theorem createNode_holding (hb : Balanced s) (hnode : s.node = none) :
    Holding s.ops.nodes none
      { s with
        node := some s.ops.nodes
        ops := { s.ops with
          nodes := s.ops.nodes + 1
          references := Function.update s.ops.references s.ops.nodes 1 } } where
  owner := rfl
  created := Nat.lt_succ_self _
  references := by simp
  frames := hb.no_frames hnode
  nodes := by
    intro other
    have hold := hb.nodes other
    rw [hnode] at hold
    simp only [Kernel.timesFreed] at hold ⊢
    rw [hold]
    rcases Nat.lt_trichotomy other s.ops.nodes with hlt | rfl | hgt
    · simp [hlt, Nat.lt_succ_of_lt hlt, Ne.symm (Nat.ne_of_lt hlt)]
    · simp
    · simp [Nat.not_lt.2 (Nat.le_of_lt hgt), Nat.not_lt.2 hgt]
  freed := hb.freed
  bodies := by
    intro body
    simpa [Kernel.timesDisposed] using hb.bodies body
  body := nofun

theorem Holding.createBody (hh : Holding node none s) :
    Holding node (some s.ops.bodies) { s with ops := { s.ops with bodies := s.ops.bodies + 1 } } where
  owner := hh.owner
  created := hh.created
  references := hh.references
  frames := hh.frames
  nodes := hh.nodes
  freed := hh.freed
  bodies := by
    intro body
    have hold := hh.bodies body
    simp only [Kernel.timesDisposed] at hold ⊢
    rw [hold]
    rcases Nat.lt_trichotomy body s.ops.bodies with hlt | rfl | hgt
    · simp [hlt, Nat.lt_succ_of_lt hlt, Nat.ne_of_lt hlt]
    · simp
    · simp [Nat.not_lt.2 (Nat.le_of_lt hgt), Nat.not_lt.2 hgt]
  body := by
    intro b hb
    cases hb
    exact Nat.lt_succ_self _

theorem queueFrame_wp (hb : Balanced s) (channel : UInt8) (rates : Option (List UInt8)) :
    (FrameOwner.queueFrame channel rates).wp (fun _ ok s' => Balanced s' ∧ Queued s ok s') s := by
  unfold FrameOwner.queueFrame
  rw [wp_get_bind]
  by_cases hnode : s.node = none
  · rw [if_neg (not_not.2 hnode)]
    have hnothing : Balanced s ∧ Queued s false s := ⟨hb, Queued.nothing hnode hnode⟩
    cases encode rates maxBytes with
    | error _ => exact (wp_pure false).2 hnothing
    | ok body =>
        dsimp only
        apply wp_createNode
        · rw [wp_setNode, wp_get_bind, wp_pure]
          have hsame : ({ s with node := none } : FrameOwner) = s := by rw [← hnode]
          rw [hsame]
          exact hnothing
        · rw [wp_setNode, wp_get_bind]
          have hholding := createNode_holding hb hnode
          apply wp_createBody
          · rw [wp_bind, wp_releaseOwner, wp_pure]
            rcases hholding.released hb.locked hb.pumping with ⟨hgone, hno⟩
            exact ⟨hgone, Queued.nothing hnode hno⟩
          · exact submit_wp hnode hholding.createBody hb.pumping
  · rw [if_pos hnode]
    exact (wp_pure false).2 ⟨hb, Queued.kept hnode⟩

theorem Balanced.frameDone (hb : Balanced s) (hmem : node ∈ s.ops.frames) :
    Balanced { s with ops := { s.ops with
      frames := s.ops.frames.erase node
      references := Function.update s.ops.references node (s.ops.references node - 1) } } := by
  have hnode := hb.frames node hmem
  refine ⟨hb.created, ?_, ?_, hb.nodes, hb.freed, hb.bodies, hb.locked, hb.pumping⟩
  · intro other hother
    cases hnode.symm.trans hother
    have hreferences := hb.references node hnode
    have hcount : 0 < s.ops.frames.count node := List.count_pos_iff.2 hmem
    simp only [Function.update_self, List.count_erase_self]
    omega
  · intro other hother
    exact hb.frames other (List.mem_of_mem_erase hother)

theorem frameDone_wp (hb : Balanced s) : (FrameOwner.frameDone node).wp (fun _ _ s' => Balanced s') s := by
  unfold FrameOwner.frameDone
  rw [wp_get_bind, wp_ite]
  refine ⟨fun hmem => ?_, fun _ => (wp_pure false).2 hb⟩
  rw [wp_onKernel, wp_pure]
  exact hb.frameDone (by simpa using hmem)

end Owner

/-! ## Whole runs -/

section Runs

variable {h : List Record} {s s' : FrameOwner} {op : Op} {ok : Bool} {log : List (Event Choice Reply Empty)}

theorem exec_balanced (hb : Balanced s) (hout : (exec op s).Outcome log (ok, s')) : Balanced s' := by
  cases op with
  | queueFrame channel rates => exact (wp_outcome (queueFrame_wp hb channel rates) hout).1
  | releaseOwner =>
      have hwp : FrameOwner.releaseOwner.wp (fun _ _ s' => Balanced s') s := wp_releaseOwner.2 hb.released
      exact wp_outcome hwp hout
  | frameDone node => exact wp_outcome (frameDone_wp hb) hout

theorem run_balanced (hrun : Run h s) : Balanced s :=
  hrun.invariant (P := fun _ s => Balanced s) balanced_new fun _ hb hout => exec_balanced hb hout

/-- What every use of the owner can rely on. -/
structure Ownership (h : List Record) (s : FrameOwner) : Prop where
  references : ∀ node, s.node = some node → s.ops.references node = 1 + s.ops.frames.count node
  accepted : ∀ x ∈ h, ∀ channel rates, x.op = .queueFrame channel rates → x.result = true →
    ∃ node, x.after.node = some node ∧ x.after.ops.frames = [node]
  refused : ∀ x ∈ h, ∀ channel rates, x.op = .queueFrame channel rates → x.result = false →
    x.before.node = none ∧ x.after.node = none ∧
      (∀ node, x.before.ops.nodes ≤ node → node < x.after.ops.nodes → x.after.ops.timesFreed node = 1) ∧
      (∀ frame, x.before.ops.bodies ≤ frame → frame < x.after.ops.bodies →
        x.after.ops.timesDisposed frame = 1) ∨
    x.before.node = none ∧ (∃ node, x.after.node = some node ∧ node ∈ x.after.ops.frames) ∨
    x.before.node ≠ none ∧ x.after = x.before
  freedOnce : ∀ node, node < s.ops.nodes → s.ops.timesFreed node = if s.node = some node then 0 else 1
  unreferenced : ∀ f ∈ s.ops.freed, f.references = 0 ∧ f.frames = 0
  unlocked : s.ops.locked = false ∧ s.ops.pumping = false

theorem probe_ownership (hrun : Run h s) : Ownership h s := by
  have hb := run_balanced hrun
  -- what one `queueFrame` of the run ended with
  have hqueued : ∀ x ∈ h, ∀ channel rates, x.op = .queueFrame channel rates →
      Balanced x.after ∧ Queued x.before x.result x.after := by
    intro x hx channel rates hop
    rcases List.append_of_mem hx with ⟨later, earlier, rfl⟩
    rcases (Interaction.Run.drop hrun).tail with ⟨hbefore, -, hout⟩
    rw [hop] at hout
    exact wp_outcome (queueFrame_wp (run_balanced hbefore) channel rates) hout
  refine ⟨hb.references, ?_, ?_, ?_, hb.freed, hb.locked, hb.pumping⟩
  · intro x hx channel rates hop hresult
    rcases hqueued x hx channel rates hop with ⟨-, hq⟩
    rw [hresult] at hq
    generalize x.after = after at hq ⊢
    cases hq with
    | accepted _ hnode hframes => exact ⟨_, hnode, hframes⟩
  · intro x hx channel rates hop hresult
    rcases hqueued x hx channel rates hop with ⟨hafter, hq⟩
    rw [hresult] at hq
    generalize x.before = before at hq ⊢
    generalize x.after = after at hafter hq ⊢
    cases hq with
    | kept hnode => exact Or.inr (Or.inr ⟨hnode, rfl⟩)
    | nothing hnode hnode' =>
        refine Or.inl ⟨hnode, hnode', fun node _ hlt => ?_, fun frame _ hlt => ?_⟩
        · rw [hafter.nodes, hnode', if_pos ⟨hlt, nofun⟩]
        · rw [hafter.bodies, if_pos hlt]
    | stuck hnode hnode' hframes =>
        refine Or.inr (Or.inl ⟨hnode, _, hnode', ?_⟩)
        rw [hframes]
        exact List.mem_singleton_self _
  · intro node hlt
    rw [hb.nodes]
    by_cases hnode : s.node = some node
    · rw [if_neg (fun h => h.2 hnode), if_pos hnode]
    · rw [if_pos ⟨hlt, hnode⟩, if_neg hnode]

/-- A kernel that creates everything, and queues the frame with an error. -/
def errorButQueued : (c : Choice) → Unit → Reply c × Unit
  | .createNode _ _, _ => (true, ())
  | .createBody _, _ => (true, ())
  | .queueReady, _ => (true, ())
  | .queueDrops, _ => (0, ())
  | .managementOutput, _ => (⟨5, true⟩, ())

/-- The frame is still queued at the first release, and done at the second one. -/
theorem probe_ownership_errorButQueued :
    ∃ h s, Run h s ∧ h.map (fun x => x.result) = [true, true, false, false] ∧ s.node = none ∧
      s.ops.timesFreed 0 = 1 ∧ ∀ f ∈ s.ops.freed, f.references = 0 ∧ f.frames = 0 := by
  have hrun := replay_run exec errorButQueued
    [.queueFrame 6 (some [2, 4, 11, 22]), .releaseOwner, .frameDone 0, .releaseOwner] {} ()
  have hownership := probe_ownership hrun
  exact ⟨_, _, hrun, by decide +kernel, by decide +kernel,
    (hownership.freedOnce 0 (by decide +kernel)).trans (by decide +kernel), hownership.unreferenced⟩

end Runs

end ScanProbe
end Rtl8852be
