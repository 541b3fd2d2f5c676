import Mathlib.Data.List.TakeWhile
import Rtl8852be.AuthEvents.AuthenticationEvents
import Rtl8852be.Ring.Window

/-!
# Transcripts — what an owner reads of one binding

A generation lasts until a call changes it.  The events read in it show the frames admitted in it, from
the first one on and in order, and none is read any more once one was lost.

* `Carries` — what a frame says, as the queue understands frames;
* `Bodied`, `Loses` — the frames of a binding, and those of them that cannot be kept;
* `observe_cases` — what `observe` does, and that it stays inside the frame;
* `Tracked` — the queue holds what was admitted and not yet read;
* `authentication_transcript` — the results, for every run.
-/

namespace Rtl8852be
namespace AuthEvents

open Interaction Checked

/-! ## Frames -/

def addressAt (frame : List UInt8) (offset : ℕ) : Address := fun i => frame.getD (offset + i) 0

def subtypeOf (frame : List UInt8) : UInt8 := frame.getD 0 0 &&& 0xfc

/-- The length field of the EAPOL frame at `p`. -/
def eapolLength (frame : List UInt8) (p : ℕ) : ℕ :=
  (frame.getD (p + 2) 0).toNat * 256 + (frame.getD (p + 3) 0).toNat

/-- The kind, the source and the body of a frame. -/
inductive Carries (frame : List UInt8) : Kind → Address → List UInt8 → Prop
  | authentication (hsubtype : subtypeOf frame = 0xb0) :
      Carries frame .authentication (addressAt frame 10) (frame.drop 24)
  | association (hsubtype : subtypeOf frame = 0x10 ∨ subtypeOf frame = 0x30) :
      Carries frame .association (addressAt frame 10) (frame.drop 24)
  | eapol {offset : ℕ}
      (hsubtype : subtypeOf frame = 0x08 ∧ offset = 24 ∨ subtypeOf frame = 0x88 ∧ offset = 26)
      (hsnap : (frame.drop offset).take 8 = snap)
      (hlength : offset + 8 + (4 + eapolLength frame (offset + 8)) ≤ frame.length) :
      Carries frame .eapol (addressAt frame 16)
        ((frame.drop (offset + 8)).take (4 + eapolLength frame (offset + 8)))

/-- A frame of the binding of `q`, on its channel, in one piece and in the clear. -/
structure Addressed (q : Queue) (frame : List UInt8) (channel : UInt8) : Prop where
  active : q.active = true
  complete : q.overflow = false
  long : 24 ≤ frame.length
  channel : channel = q.channel
  version : frame.getD 0 0 &&& 3 = 0
  clear : frame.getD 1 0 &&& 0xc4 = 0
  first : frame.getD 22 0 &&& 15 = 0
  own : addressAt frame 4 = q.own
  peer : addressAt frame 10 = q.peer

/-- A management frame that the access point sent for itself. -/
structure ManagementOf (q : Queue) (frame : List UInt8) : Prop where
  direction : frame.getD 1 0 &&& 3 = 0
  bssid : addressAt frame 16 = q.peer
  long : 30 ≤ frame.length

/-- An EAPOL frame behind the LLC header at `offset`. -/
structure EapolAt (frame : List UInt8) (offset : ℕ) : Prop where
  long : offset + 12 ≤ frame.length
  snap : (frame.drop offset).take 8 = [0xaa, 0xaa, 3, 0, 0, 0, 0x88, 0x8e]
  version : 1 ≤ frame.getD (offset + 8) 0 ∧ frame.getD (offset + 8) 0 ≤ 3
  type : frame.getD (offset + 9) 0 ≤ 4
  length : offset + 8 + (4 + eapolLength frame (offset + 8)) ≤ frame.length

/-- The frames of a handshake, with the length of the body. -/
inductive Bodied (q : Queue) (frame : List UInt8) : ℕ → Prop
  | management (hsubtype : subtypeOf frame = 0xb0 ∨ subtypeOf frame = 0x10 ∨ subtypeOf frame = 0x30)
      (h : ManagementOf q frame) : Bodied q frame (frame.length - 24)
  | eapol {offset : ℕ}
      (hsubtype : subtypeOf frame = 0x08 ∧ offset = 24 ∨
        subtypeOf frame = 0x88 ∧ offset = 26 ∧ frame.getD 24 0 &&& 0x80 = 0)
      (hdirection : frame.getD 1 0 &&& 3 = 2) (h : EapolAt frame offset) :
      Bodied q frame (4 + eapolLength frame (offset + 8))

/-- A frame of the binding that is too long for an event, or comes while eight are unread. -/
def Loses (q : Queue) (frame : List UInt8) (channel : UInt8) : Prop :=
  Addressed q frame channel ∧ ∃ n, Bodied q frame n ∧ (2048 < n ∨ q.count = 8)

section Bodies

variable {q : Queue} {frame : List UInt8} {n : ℕ}

theorem Bodied.of_management (h : Bodied q frame n)
    (hsubtype : subtypeOf frame = 0xb0 ∨ subtypeOf frame = 0x10 ∨ subtypeOf frame = 0x30) :
    ManagementOf q frame ∧ n = frame.length - 24 := by
  cases h with
  | management _ h => exact ⟨h, rfl⟩
  | eapol hdata =>
      rcases hdata with ⟨hdata, -⟩ | ⟨hdata, -⟩
      · rw [hdata] at hsubtype
        exact absurd hsubtype (by decide)
      · rw [hdata] at hsubtype
        exact absurd hsubtype (by decide)

theorem Bodied.of_data {offset : ℕ} (h : Bodied q frame n)
    (hsubtype : subtypeOf frame = 0x08 ∧ offset = 24 ∨ subtypeOf frame = 0x88 ∧ offset = 26) :
    (subtypeOf frame = 0x88 → frame.getD 24 0 &&& 0x80 = 0) ∧ frame.getD 1 0 &&& 3 = 2 ∧ EapolAt frame offset ∧
      n = 4 + eapolLength frame (offset + 8) := by
  cases h with
  | management hmanagement =>
      rcases hsubtype with ⟨hdata, -⟩ | ⟨hdata, -⟩
      · rw [hdata] at hmanagement
        exact absurd hmanagement (by decide)
      · rw [hdata] at hmanagement
        exact absurd hmanagement (by decide)
  | eapol hdata hdirection h =>
      rcases hsubtype with ⟨hsub, rfl⟩ | ⟨hsub, rfl⟩
      · rcases hdata with ⟨-, rfl⟩ | ⟨hqos, -⟩
        · exact ⟨fun hqos => absurd (hsub.symm.trans hqos) (by decide), hdirection, h, rfl⟩
        · exact absurd (hsub.symm.trans hqos) (by decide)
      · rcases hdata with ⟨hplain, -⟩ | ⟨-, rfl, hsingle⟩
        · exact absurd (hsub.symm.trans hplain) (by decide)
        · exact ⟨fun _ => hsingle, hdirection, h, rfl⟩

theorem Bodied.subtype (h : Bodied q frame n) :
    (subtypeOf frame = 0xb0 ∨ subtypeOf frame = 0x10 ∨ subtypeOf frame = 0x30) ∨
      subtypeOf frame = 0x08 ∨ subtypeOf frame = 0x88 := by
  cases h with
  | management hsubtype => exact Or.inl hsubtype
  | eapol hsubtype => exact Or.inr (hsubtype.imp And.left And.left)

theorem Bodied.unique {m : ℕ} (h : Bodied q frame n) (h' : Bodied q frame m) : n = m := by
  rcases h.subtype with hmanagement | hplain | hqos
  · exact (h.of_management hmanagement).2.trans (h'.of_management hmanagement).2.symm
  · have hsubtype : subtypeOf frame = 0x08 ∧ 24 = 24 ∨ subtypeOf frame = 0x88 ∧ 24 = 26 := Or.inl ⟨hplain, rfl⟩
    exact (h.of_data hsubtype).2.2.2.trans (h'.of_data hsubtype).2.2.2.symm
  · have hsubtype : subtypeOf frame = 0x08 ∧ 26 = 24 ∨ subtypeOf frame = 0x88 ∧ 26 = 26 := Or.inr ⟨hqos, rfl⟩
    exact (h.of_data hsubtype).2.2.2.trans (h'.of_data hsubtype).2.2.2.symm

end Bodies

theorem Carries.kind {frame body : List UInt8} {kind : Kind} {source : Address}
    (hc : Carries frame kind source body) : kind ≠ .empty := by
  cases hc <;> exact Kind.noConfusion

section Reading

variable {frame : List UInt8} {F : Unit → Prop}

theorem safe_equalAt {offset : ℕ} {a : Address} (h : offset + 6 ≤ frame.length) (is : List (Fin 6)) :
    Safe F (fun same => same = true ↔ ∀ i ∈ is, addressAt frame offset i = a i) (equalAt frame offset a is) := by
  induction is with
  | nil => exact Safe.pure ⟨fun _ i hi => absurd hi List.not_mem_nil, fun _ => rfl⟩
  | cons i is ih =>
      refine (Safe.byteAt (by omega)).bind fun b hb => ?_
      refine Safe.ite (fun hne => Safe.pure ⟨Bool.noConfusion, fun hall => ?_⟩) fun hsame => ?_
      · exact absurd (hb.trans (hall i List.mem_cons_self)) hne
      · rw [Decidable.not_not] at hsame
        refine ih.mono fun same hrest => hrest.trans ?_
        rw [List.forall_mem_cons]
        exact (and_iff_right (hb.symm.trans hsame)).symm

theorem safe_address {offset : ℕ} {a : Address} (h : offset + 6 ≤ frame.length) :
    Safe F (fun same => same = true ↔ addressAt frame offset = a) (equalAt frame offset a everyByte) := by
  refine (safe_equalAt h everyByte).mono fun same hsame => hsame.trans ?_
  have hevery : ∀ i : Fin 6, i ∈ everyByte := by decide
  exact ⟨fun hall => funext fun i => hall i (hevery i), fun heq i _ => congrFun heq i⟩

theorem safe_snapAt {bytes : List UInt8} : ∀ {offset : ℕ}, offset + bytes.length ≤ frame.length →
    Safe F (fun same => same = true ↔ (frame.drop offset).take bytes.length = bytes)
      (snapAt frame offset bytes) := by
  induction bytes with
  | nil => exact fun _ => Safe.pure ⟨fun _ => List.take_zero, fun _ => rfl⟩
  | cons s bytes ih =>
      intro offset h
      rw [List.length_cons] at h
      refine (Safe.byteAt (by omega)).bind fun b hb => ?_
      have hhere : frame[offset] = b := by
        rw [hb, List.getD_eq_getElem?_getD, List.getElem?_eq_getElem (by omega), Option.getD_some]
      have htake : (frame.drop offset).take (s :: bytes).length = b :: (frame.drop (offset + 1)).take bytes.length := by
        rw [List.drop_eq_getElem_cons (by omega), List.length_cons, List.take_succ_cons, hhere]
      rw [htake, List.cons_eq_cons]
      refine Safe.ite (fun hne => Safe.pure ⟨Bool.noConfusion, fun hall => absurd hall.1 hne⟩) fun hsame => ?_
      rw [Decidable.not_not] at hsame
      exact (ih (by omega)).mono fun same hrest => hrest.trans (and_iff_right hsame).symm

theorem safe_bytesFrom {n : ℕ} : ∀ {offset : ℕ}, offset + n ≤ frame.length →
    Safe F (fun l => l = (frame.drop offset).take n) (bytesFrom frame offset n) := by
  induction n with
  | zero => exact fun _ => Safe.pure List.take_zero.symm
  | succ n ih =>
      intro offset h
      refine (Safe.byteAt (by omega)).bind fun b hb => ?_
      refine (ih (by omega)).bind fun l hl => Safe.pure ?_
      have hhere : b = frame[offset] := by
        rw [hb, List.getD_eq_getElem?_getD, List.getElem?_eq_getElem (by omega), Option.getD_some]
      rw [List.drop_eq_getElem_cons (by omega), List.take_succ_cons, hhere, hl]

/-- Where the source address of an event comes from. -/
def sourceOffset (kind : Kind) : ℕ := if kind = .eapol then 16 else 10

/-- A part lies inside its frame, and is what the frame carries. -/
structure Places (frame : List UInt8) (part : Part) : Prop where
  header : 24 ≤ frame.length
  inside : part.offset + part.bodyLength ≤ frame.length
  carries : Carries frame part.kind (addressAt frame (sourceOffset part.kind))
    ((frame.drop part.offset).take part.bodyLength)

variable {q : Queue}

theorem safe_managementPart (h : 24 ≤ frame.length)
    (hsubtype : subtypeOf frame = 0xb0 ∨ subtypeOf frame = 0x10 ∨ subtypeOf frame = 0x30) :
    Safe (fun _ => ∀ n, ¬ Bodied q frame n) (fun part => Places frame part ∧ Bodied q frame part.bodyLength)
      (managementPart frame q.peer (subtypeOf frame)) := by
  refine (Safe.byteAt (by omega)).bind fun b hb => Safe.ite (fun hother => Safe.early ?_) fun hdirection => ?_
  · exact fun n hn => hother (hb ▸ (hn.of_management hsubtype).1.direction)
  rw [Decidable.not_not, hb] at hdirection
  refine (safe_address (by omega)).bind fun same hsame => Safe.ite (fun hother => Safe.early ?_) fun hyes => ?_
  · exact fun n hn => by simp [hsame.2 (hn.of_management hsubtype).1.bssid] at hother
  have hbssid := hsame.1 (by simpa using hyes)
  refine Safe.ite (fun hshort => Safe.early ?_) fun hlong => Safe.pure ⟨⟨h, ?_, ?_⟩, ?_⟩
  · intro n hn
    have hlong := (hn.of_management hsubtype).1.long
    omega
  · show 24 + (frame.length - 24) ≤ frame.length
    omega
  · have hall : (frame.drop 24).take (frame.length - 24) = frame.drop 24 := by
      rw [← List.length_drop, List.take_length]
    dsimp only
    rw [hall]
    by_cases hauthentication : subtypeOf frame = 0xb0
    · rw [if_pos hauthentication]
      exact Carries.authentication hauthentication
    · rw [if_neg hauthentication]
      exact Carries.association (hsubtype.resolve_left hauthentication)
  · exact Bodied.management hsubtype ⟨hdirection, hbssid, by omega⟩

theorem safe_eapolPart {offset : ℕ} (h : 24 ≤ frame.length)
    (hsubtype : subtypeOf frame = 0x08 ∧ offset = 24 ∨ subtypeOf frame = 0x88 ∧ offset = 26)
    (hsingle : subtypeOf frame = 0x88 → frame.getD 24 0 &&& 0x80 = 0) (hdirection : frame.getD 1 0 &&& 3 = 2) :
    Safe (fun _ => ∀ n, ¬ Bodied q frame n) (fun part => Places frame part ∧ Bodied q frame part.bodyLength)
      (eapolPart frame offset) := by
  have hat : ∀ {n}, Bodied q frame n → EapolAt frame offset := fun hn => (hn.of_data hsubtype).2.2.1
  refine Safe.ite (fun hshort => Safe.early ?_) fun hroom => ?_
  · intro n hn
    have hlong := (hat hn).long
    omega
  have hsnapLength : snap.length = 8 := rfl
  refine (safe_snapAt (by omega)).bind fun same hsame => Safe.ite (fun hother => Safe.early ?_) fun hyes => ?_
  · exact fun n hn => by simp [hsame.2 (hat hn).snap] at hother
  have hsnap := hsame.1 (by simpa using hyes)
  refine (Safe.byteAt (by omega)).bind fun version hversion => Safe.ite (fun hother => Safe.early ?_) fun hknown => ?_
  · intro n hn
    have hv := (hat hn).version
    rw [← hversion] at hv
    rcases hother with hother | hother
    · exact absurd hv.1 (UInt8.not_le.2 hother)
    · exact absurd hv.2 (UInt8.not_le.2 hother)
  rw [not_or, UInt8.not_lt, UInt8.not_lt, hversion] at hknown
  refine (Safe.byteAt (by omega)).bind fun type htype => Safe.ite (fun hother => Safe.early ?_) fun htyped => ?_
  · intro n hn
    have ht := (hat hn).type
    rw [← htype] at ht
    exact absurd ht (UInt8.not_le.2 hother)
  rw [UInt8.not_lt, htype] at htyped
  refine (Safe.byteAt (by omega)).bind fun high hhigh => ?_
  refine (Safe.byteAt (by omega)).bind fun low hlow => ?_
  have hlength : 4 + high.toNat * 256 + low.toNat = 4 + eapolLength frame (offset + 8) := by
    rw [eapolLength, ← hhigh, ← hlow, Nat.add_assoc]
  refine Safe.ite (fun hshort => Safe.early ?_) fun hbody => ?_
  · intro n hn
    have hfits := (hat hn).length
    omega
  have hinside : offset + 8 + (4 + eapolLength frame (offset + 8)) ≤ frame.length := by
    omega
  refine Safe.pure ⟨⟨h, ?_, ?_⟩, ?_⟩
  · dsimp only
    rw [hlength]
    exact hinside
  · dsimp only
    rw [hlength]
    exact Carries.eapol hsubtype hsnap hinside
  · dsimp only
    rw [hlength]
    refine Bodied.eapol (hsubtype.imp id fun hqos => ⟨hqos.1, hqos.2, hsingle hqos.1⟩) hdirection ?_
    exact ⟨by omega, hsnap, hknown, htyped, hinside⟩

theorem safe_dataPart (h : 24 ≤ frame.length) (hsubtype : subtypeOf frame = 0x08 ∨ subtypeOf frame = 0x88) :
    Safe (fun _ => ∀ n, ¬ Bodied q frame n) (fun part => Places frame part ∧ Bodied q frame part.bodyLength)
      (dataPart frame (subtypeOf frame)) := by
  have hwhere : ∃ offset, subtypeOf frame = 0x08 ∧ offset = 24 ∨ subtypeOf frame = 0x88 ∧ offset = 26 := by
    rcases hsubtype with hplain | hqos
    · exact ⟨24, Or.inl ⟨hplain, rfl⟩⟩
    · exact ⟨26, Or.inr ⟨hqos, rfl⟩⟩
  refine (Safe.byteAt (by omega)).bind fun b hb => Safe.ite (fun hother => Safe.early ?_) fun hdirection => ?_
  · rcases hwhere with ⟨offset, hwhere⟩
    exact fun n hn => hother (hb ▸ (hn.of_data hwhere).2.1)
  rw [Decidable.not_not, hb] at hdirection
  refine Safe.ite (fun hqos => ?_) fun hqos => ?_
  · have hwhere : subtypeOf frame = 0x08 ∧ 26 = 24 ∨ subtypeOf frame = 0x88 ∧ 26 = 26 := Or.inr ⟨hqos, rfl⟩
    refine Safe.ite (fun hshort => Safe.early ?_) fun hlong => ?_
    · intro n hn
      have hroom := (hn.of_data hwhere).2.2.1.long
      omega
    refine (Safe.byteAt (by omega)).bind fun control hcontrol => Safe.ite (fun hother => Safe.early ?_) fun hsingle => ?_
    · exact fun n hn => hother (hcontrol ▸ (hn.of_data hwhere).1 hqos)
    rw [Decidable.not_not, hcontrol] at hsingle
    exact safe_eapolPart h hwhere (fun _ => hsingle) hdirection
  · exact safe_eapolPart h (Or.inl ⟨hsubtype.resolve_right hqos, rfl⟩) (fun h88 => absurd h88 hqos) hdirection

/-- The frames of the binding, and no others, get to the limits of the queue. -/
theorem safe_classify {channel : UInt8} :
    Safe (fun _ => ¬ (Addressed q frame channel ∧ ∃ n, Bodied q frame n))
      (fun part => Addressed q frame channel ∧ Places frame part ∧ Bodied q frame part.bodyLength)
      (q.classify frame channel) := by
  refine Safe.ite (fun hclosed => Safe.early ?_) fun hopen => ?_
  · rintro ⟨ha, -⟩
    rcases hclosed with hno | hno | hno | hno
    · rw [ha.active] at hno
      exact Bool.noConfusion hno
    · rw [ha.complete] at hno
      exact Bool.noConfusion hno
    · exact absurd ha.long (by omega)
    · exact hno ha.channel
  simp only [not_or, Bool.not_eq_false, Bool.not_eq_true, not_lt, Decidable.not_not] at hopen
  rcases hopen with ⟨hactive, hoverflow, hlong, hchannel⟩
  refine (Safe.byteAt (by omega)).bind fun b₀ h₀ => Safe.ite (fun hno => Safe.early ?_) fun hversion => ?_
  · exact fun ha => hno (h₀ ▸ ha.1.version)
  rw [Decidable.not_not, h₀] at hversion
  refine (Safe.byteAt (by omega)).bind fun b₁ h₁ => Safe.ite (fun hno => Safe.early ?_) fun hclear => ?_
  · exact fun ha => hno (h₁ ▸ ha.1.clear)
  rw [Decidable.not_not, h₁] at hclear
  refine (Safe.byteAt (by omega)).bind fun b₂ h₂ => Safe.ite (fun hno => Safe.early ?_) fun hfirst => ?_
  · exact fun ha => hno (h₂ ▸ ha.1.first)
  rw [Decidable.not_not, h₂] at hfirst
  refine (safe_address (by omega)).bind fun same hsame => Safe.ite (fun hno => Safe.early ?_) fun hyes => ?_
  · exact fun ha => by simp [hsame.2 ha.1.own] at hno
  have hown := hsame.1 (by simpa using hyes)
  refine (safe_address (by omega)).bind fun same hsame => Safe.ite (fun hno => Safe.early ?_) fun hyes => ?_
  · exact fun ha => by simp [hsame.2 ha.1.peer] at hno
  have hpeer := hsame.1 (by simpa using hyes)
  have haddressed : Addressed q frame channel :=
    ⟨hactive, hoverflow, hlong, hchannel, hversion, hclear, hfirst, hown, hpeer⟩
  have hrest : ∀ {m : Reader Unit Part},
      Safe (fun _ => ∀ n, ¬ Bodied q frame n) (fun part => Places frame part ∧ Bodied q frame part.bodyLength) m →
      Safe (fun _ => ¬ (Addressed q frame channel ∧ ∃ n, Bodied q frame n))
        (fun part => Addressed q frame channel ∧ Places frame part ∧ Bodied q frame part.bodyLength) m :=
    fun hm => (hm.mono fun _ hpart => ⟨haddressed, hpart⟩).weaken fun _ hnone hboth => hboth.2.elim hnone
  refine (Safe.byteAt (by omega)).bind fun first hfirst => ?_
  have hsub : first &&& 0xfc = subtypeOf frame := by
    rw [hfirst]
    rfl
  rw [hsub]
  refine Safe.ite (fun hmanagement => ?_) fun hno => Safe.ite (fun hdata => ?_) fun hno' => Safe.early ?_
  · exact hrest (safe_managementPart hlong hmanagement)
  · exact hrest (safe_dataPart hlong hdata)
  · rintro ⟨-, n, hn⟩
    exact hn.subtype.elim hno hno'

end Reading

/-! ## What `observe` does -/

/-- The event shows the frame, under the binding of `q`. -/
structure Shows (q : Queue) (f : List UInt8 × UInt64) (e : Event) : Prop where
  generation : e.generation = q.generation
  epoch : e.epoch = q.epoch
  operation : e.operation = q.operation
  own : e.own = q.own
  peer : e.peer = q.peer
  channel : e.channel = q.channel
  sampledAtUs : e.sampledAtUs = f.2
  body : ∃ body, Carries f.1 e.kind e.source body ∧ e.length.toNat = body.length ∧
    e.body = body ++ List.replicate (bodyBytes - body.length) 0

inductive Observed (q : Queue) (frame : Option (List UInt8)) (channel : UInt8) (timestamp : UInt64) :
    Bool → Queue → Prop
  | refused (hno : ∀ f, frame = some f → ¬ Loses q f channel) : Observed q frame channel timestamp false q
  | lost {f : List UInt8} (hframe : frame = some f) (hloses : Loses q f channel) :
      Observed q frame channel timestamp false q.loss.2
  | admitted {f : List UInt8} {e : Event} (hframe : frame = some f) (hoverflow : q.overflow = false)
      (hroom : q.count ≠ ringSize) (hshows : Shows q (f, timestamp) e) (hno : ¬ Loses q f channel) :
      Observed q frame channel timestamp true (q.push e)

section Observing

variable {q : Queue} {frame : List UInt8} {channel : UInt8} {timestamp : UInt64}

theorem shows_event {part : Part} {retry : Bool} (hp : Places frame part) (hfits : part.bodyLength ≤ bodyBytes) :
    Shows q (frame, timestamp)
      (q.event part ((frame.drop (sourceOffset part.kind)).take 6)
        ((frame.drop part.offset).take part.bodyLength) retry timestamp) where
  generation := rfl
  epoch := rfl
  operation := rfl
  own := rfl
  peer := rfl
  channel := rfl
  sampledAtUs := rfl
  body := by
    have hlength : ((frame.drop part.offset).take part.bodyLength).length = part.bodyLength := by
      have hinside := hp.inside
      rw [List.length_take, List.length_drop]
      omega
    refine ⟨(frame.drop part.offset).take part.bodyLength, ?_, ?_, rfl⟩
    · have hsource : (fun i : Fin 6 => ((frame.drop (sourceOffset part.kind)).take 6).getD i 0) =
          addressAt frame (sourceOffset part.kind) := by
        funext i
        simp [addressAt, List.getD_eq_getElem?_getD, List.getElem?_drop, i.isLt]
      have hcarries := hp.carries
      rw [← hsource] at hcarries
      exact hcarries
    · rw [hlength]
      show (UInt32.ofNat part.bodyLength).toNat = part.bodyLength
      rw [UInt32.toNat_ofNat']
      apply Nat.mod_eq_of_lt
      exact lt_of_le_of_lt hfits (by decide)

theorem safe_store {part : Part} (timestamp : UInt64) (haddressed : Addressed q frame channel)
    (hp : Places frame part) (hbodied : Bodied q frame part.bodyLength) :
    Safe (fun _ => False) (fun out : Bool × Queue => Observed q (some frame) channel timestamp out.1 out.2)
      (q.store frame part timestamp) := by
  refine Safe.ite (fun hlong => Safe.pure ?_) fun hfits => ?_
  · exact Observed.lost rfl ⟨haddressed, _, hbodied, Or.inl hlong⟩
  refine Safe.ite (fun hfull => Safe.pure ?_) fun hroom => ?_
  · exact Observed.lost rfl ⟨haddressed, _, hbodied, Or.inr hfull⟩
  have hheader := hp.header
  have hsource : sourceOffset part.kind + 6 ≤ frame.length := by
    unfold sourceOffset
    split <;> omega
  refine (safe_bytesFrom hsource).bind fun source hsource => ?_
  refine (Safe.byteAt (by omega)).bind fun retry _ => ?_
  refine (safe_bytesFrom hp.inside).bind fun body hbody => Safe.pure ?_
  rw [hsource, hbody]
  refine Observed.admitted rfl haddressed.complete hroom (shows_event hp (by omega)) ?_
  rintro ⟨-, n, hn, hloses⟩
  rw [hn.unique hbodied] at hloses
  exact hloses.elim hfits hroom

/-- `observe` never reads outside the frame. -/
theorem observe_cases (q : Queue) (frame : Option (List UInt8)) (channel : UInt8) (timestamp : UInt64) :
    ∃ ok q', q.observe frame channel timestamp = .ok (ok, q') ∧ Observed q frame channel timestamp ok q' := by
  cases frame with
  | none => exact ⟨false, q, rfl, Observed.refused fun f hf => by cases hf⟩
  | some frame =>
      have hsafe : Safe _ _ (q.classify frame channel) := safe_classify
      rcases hsafe.ends with ⟨_, hnone, hclassify⟩ | ⟨part, ⟨haddressed, hp, hbodied⟩, hclassify⟩
      · refine ⟨false, q, ?_, Observed.refused ?_⟩
        · simp only [Queue.observe, hclassify]
          rfl
        · rintro f hf ⟨haddressed, n, hn, -⟩
          cases hf
          exact hnone ⟨haddressed, n, hn⟩
      · rcases (safe_store timestamp haddressed hp hbodied).ends with
          ⟨_, hno, -⟩ | ⟨⟨ok, q'⟩, hobserved, hstore⟩
        · exact hno.elim
        · refine ⟨ok, q', ?_, hobserved⟩
          show returned _ _ (q.classify frame channel >>= fun part => q.store frame part timestamp) = _
          rw [hclassify]
          show returned _ _ (q.store frame part timestamp) = _
          rw [hstore]
          rfl

end Observing

/-! ## One generation -/

/-- The calls since the generation last changed, newest first. -/
def since (h : List Record) : List Record := h.takeWhile fun x => x.after.generation == x.before.generation

/-- The frame that a call admitted, with its time. -/
def admittedBy (x : Record) : Option (List UInt8 × UInt64) :=
  match x.op, x.result with
  | .observe (some frame) _ timestamp, .flag true => some (frame, timestamp)
  | _, _ => none

/-- The event that a call returned, unless it is empty. -/
def readBy (x : Record) : Option Event :=
  match x.op, x.result with
  | .read _, .event true e => if e.kind = .empty then none else some e
  | _, _ => none

/-- All admitted frames, first one first. -/
def admitted (h : List Record) : List (List UInt8 × UInt64) := (h.filterMap admittedBy).reverse

def reads (h : List Record) : List Event := (h.filterMap readBy).reverse

def Queue.unread (q : Queue) : List Event := Ring.window ringSize q.entries q.head q.count

/-- The calls that start a new generation. -/
def Op.Renews (q : Queue) : Op → Prop
  | .enable who => who ≠ none ∧ q.owner = none
  | .bind _ _ _ _ _ => q.owner ≠ none
  | .invalidate => True
  | .disable => True
  | .disableFor who => q.owned who = true
  | _ => False

/-- What stays within a generation. -/
structure SameBinding (q q' : Queue) : Prop where
  owner : q'.owner = q.owner
  generation : q'.generation = q.generation
  epoch : q'.epoch = q.epoch
  operation : q'.operation = q.operation
  own : q'.own = q.own
  peer : q'.peer = q.peer
  channel : q'.channel = q.channel
  active : q'.active = q.active

theorem SameBinding.refl (q : Queue) : SameBinding q q := ⟨rfl, rfl, rfl, rfl, rfl, rfl, rfl, rfl⟩

theorem Shows.of_same {q q' : Queue} {f : List UInt8 × UInt64} {e : Event} (hs : Shows q f e)
    (hsame : SameBinding q q') : Shows q' f e where
  generation := hs.generation.trans hsame.generation.symm
  epoch := hs.epoch.trans hsame.epoch.symm
  operation := hs.operation.trans hsame.operation.symm
  own := hs.own.trans hsame.own.symm
  peer := hs.peer.trans hsame.peer.symm
  channel := hs.channel.trans hsame.channel.symm
  sampledAtUs := hs.sampledAtUs
  body := hs.body

/-- The queue after a call that starts a new generation: nothing is in it. -/
structure Fresh (q q' : Queue) : Prop where
  generation : q'.generation ≠ q.generation
  nonzero : q'.generation ≠ 0
  count : q'.count = 0
  head : q'.head = 0
  overflow : q'.overflow = false

/-- What one call does. -/
inductive Stepped (q : Queue) : Op → Result → Queue → Prop
  | stays {op : Op} {r : Result} (hrenews : ¬ op.Renews q)
      (hadmitted : ∀ frame channel timestamp, op = .observe (some frame) channel timestamp →
        r = .flag false ∧ ¬ Loses q frame channel)
      (hread : ∀ who ok e, op = .read who → r = .event ok e →
        ok = false ∨ q.owned who = true ∧ q.count = 0 ∧ e = q.header)
      (hstopped : ∀ why, r ≠ .stopped why) : Stepped q op r q
  | renews {op : Op} {r : Result} {q' : Queue} (hrenews : op.Renews q) (hfresh : Fresh q q')
      (hactive : q'.active = true → op = .bind q'.epoch q'.operation (some q'.own) (some q'.peer) q'.channel ∧
        r = .flag true)
      (hread : ∀ ok e, r ≠ .event ok e) (hstopped : ∀ why, r ≠ .stopped why) : Stepped q op r q'
  | loses {frame : List UInt8} {channel : UInt8} {timestamp : UInt64} (hloses : Loses q frame channel) :
      Stepped q (.observe (some frame) channel timestamp) (.flag false) q.loss.2
  | admits {frame : List UInt8} {channel : UInt8} {timestamp : UInt64} {e : Event}
      (hoverflow : q.overflow = false) (hroom : q.count ≠ ringSize) (hshows : Shows q (frame, timestamp) e)
      (hno : ¬ Loses q frame channel) :
      Stepped q (.observe (some frame) channel timestamp) (.flag true) (q.push e)
  | pops {who : Client} (howned : q.owned who = true) (hsome : q.count ≠ 0) :
      Stepped q (.read who) (.event true (q.entries q.head))
        { q with
          entries := Function.update q.entries q.head {}
          head := (q.head + 1) % ringSize
          count := q.count - 1 }

section Steps

variable {q q' : Queue} {op : Op} {r : Result}

theorem bump_generation (q : Queue) : q.bump.generation ≠ q.generation ∧ q.bump.generation ≠ 0 := by
  unfold Queue.bump
  by_cases hzero : q.generation + 1 = 0
  · simp only [hzero, if_true]
    refine ⟨?_, by decide⟩
    intro hone
    rw [← hone] at hzero
    exact absurd hzero (by decide)
  · simp only [hzero, if_false]
    refine ⟨?_, hzero⟩
    intro hsame
    have hnat := congrArg UInt64.toNat hsame
    have hone : (1 : UInt64).toNat = 1 := rfl
    have hlt := q.generation.toNat_lt
    rw [UInt64.toNat_add] at hnat
    omega

theorem invalidate_fresh (q : Queue) : Fresh q q.invalidate where
  generation := (bump_generation _).1
  nonzero := (bump_generation _).2
  count := rfl
  head := rfl
  overflow := rfl

theorem stays_flag {ok : Bool} (hrenews : ¬ op.Renews q) (hobserve : ∀ f c t, op ≠ .observe f c t) :
    Stepped q op (.flag ok) q :=
  Stepped.stays hrenews (fun f c t hop => absurd hop (hobserve (some f) c t))
    (fun _ _ _ _ hr => by cases hr) fun _ hr => by cases hr

theorem enable_stepped {who : Client} : Stepped q (.enable who) (.flag (q.enable who).1) (q.enable who).2 := by
  unfold Queue.enable
  split
  · rename_i hno
    refine stays_flag ?_ fun f c t h => by cases h
    rintro ⟨hwho, howner⟩
    exact hno.elim hwho fun h => h.1 howner
  · rename_i hok
    simp only [not_or, not_and, Decidable.not_not] at hok
    split
    · rename_i hsame
      refine stays_flag ?_ fun f c t h => by cases h
      rintro ⟨hwho, howner⟩
      exact hwho (hsame.symm.trans howner)
    · rename_i hnew
      have howner : q.owner = none := by
        by_contra howner
        exact hnew (hok.2 howner)
      have hfresh := invalidate_fresh { q with owner := who }
      exact Stepped.renews ⟨hok.1, howner⟩ ⟨hfresh.generation, hfresh.nonzero, rfl, rfl, rfl⟩ Bool.noConfusion
        (fun _ _ hr => by cases hr) fun _ hr => by cases hr

theorem disable_fresh (q : Queue) : Fresh q q.disable := by
  have hfresh := invalidate_fresh q
  exact ⟨hfresh.generation, hfresh.nonzero, rfl, rfl, rfl⟩

theorem bind_stepped {epoch operation : UInt64} {own peer : Option Address} {channel : UInt8} :
    Stepped q (.bind epoch operation own peer channel) (.flag (q.bind epoch operation own peer channel).1)
      (q.bind epoch operation own peer channel).2 := by
  unfold Queue.bind
  split
  · rename_i hno
    exact stays_flag (fun howner => howner hno) fun f c t h => by cases h
  · rename_i howner
    have hfresh := invalidate_fresh q
    have hrefused : Stepped q (.bind epoch operation own peer channel) (.flag false) q.invalidate :=
      Stepped.renews howner hfresh Bool.noConfusion (fun _ _ hr => by cases hr) fun _ hr => by cases hr
    split
    · rename_i own peer
      split
      · exact hrefused
      · refine Stepped.renews howner ⟨hfresh.generation, hfresh.nonzero, rfl, rfl, rfl⟩ ?_
          (fun _ _ hr => by cases hr) fun _ hr => by cases hr
        intro _
        exact ⟨rfl, rfl⟩
    · exact hrefused

theorem read_stepped {who : Client} :
    Stepped q (.read who) (.event (q.read who).1 (q.read who).2.1) (q.read who).2.2 := by
  unfold Queue.read
  split
  · refine Stepped.stays (fun h => h) (fun f c t h => by cases h) ?_ fun _ hr => by cases hr
    rintro who ok e - hr
    cases hr
    exact Or.inl rfl
  · rename_i howned
    simp only [Bool.not_eq_true', Bool.not_eq_false] at howned
    split
    · rename_i hempty
      refine Stepped.stays (fun h => h) (fun f c t h => by cases h) ?_ fun _ hr => by cases hr
      intro who' ok e hop hr
      cases hop
      cases hr
      exact Or.inr ⟨howned, hempty, rfl⟩
    · rename_i hsome
      exact Stepped.pops howned hsome

theorem apply_stepped (hout : apply op q = (r, q')) : Stepped q op r q' := by
  rcases Prod.ext_iff.1 hout with ⟨rfl, rfl⟩
  cases op with
  | enable who => exact enable_stepped
  | bind epoch operation own peer channel => exact bind_stepped
  | invalidate =>
      exact Stepped.renews trivial (invalidate_fresh q) Bool.noConfusion (fun _ _ hr => by cases hr)
        fun _ hr => by cases hr
  | disable =>
      exact Stepped.renews trivial (disable_fresh q) Bool.noConfusion (fun _ _ hr => by cases hr)
        fun _ hr => by cases hr
  | disableFor who =>
      simp only [apply, Queue.disableFor]
      split
      · rename_i howned
        exact Stepped.renews howned (disable_fresh q) Bool.noConfusion (fun _ _ hr => by cases hr)
          fun _ hr => by cases hr
      · rename_i howned
        exact stays_flag howned fun f c t h => by cases h
  | observe frame channel timestamp =>
      rcases observe_cases q frame channel timestamp with ⟨ok, q', heq, hobserved⟩
      simp only [apply, heq]
      cases hobserved with
      | refused hno =>
          refine Stepped.stays (fun h => h) ?_ (fun _ _ _ h => by cases h) fun _ hr => by cases hr
          intro f c t hop
          cases hop
          exact ⟨rfl, hno f rfl⟩
      | lost hframe hloses =>
          subst hframe
          exact Stepped.loses hloses
      | admitted hframe hoverflow hroom hshows hno =>
          subst hframe
          exact Stepped.admits hoverflow hroom hshows hno
  | read who => exact read_stepped

theorem Stepped.same (hstep : Stepped q op r q') (hrenews : ¬ op.Renews q) : SameBinding q q' := by
  cases hstep with
  | stays => exact SameBinding.refl q
  | renews hyes => exact absurd hyes hrenews
  | loses => exact ⟨rfl, rfl, rfl, rfl, rfl, rfl, rfl, rfl⟩
  | admits => exact ⟨rfl, rfl, rfl, rfl, rfl, rfl, rfl, rfl⟩
  | pops => exact ⟨rfl, rfl, rfl, rfl, rfl, rfl, rfl, rfl⟩

theorem Stepped.renewal (hstep : Stepped q op r q') (hrenews : op.Renews q) : Fresh q q' := by
  cases hstep with
  | stays hno => exact absurd hrenews hno
  | renews _ hfresh => exact hfresh
  | loses => exact hrenews.elim
  | admits => exact hrenews.elim
  | pops => exact hrenews.elim

end Steps

/-! ## The queue and its history -/

section Histories

variable {x : Record} {h : List Record} {q q' : Queue} {op : Op} {r : Result}
  {log : List (Interaction.Event Empty NoCall Empty)}

theorem since_of_same (hsame : x.after.generation = x.before.generation) : since (x :: h) = x :: since h := by
  simp [since, hsame]

theorem since_of_new (hnew : x.after.generation ≠ x.before.generation) : since (x :: h) = [] := by
  simp [since, hnew]

theorem admitted_cons (x : Record) (h : List Record) :
    admitted (x :: h) = admitted h ++ (admittedBy x).toList := by
  cases hx : admittedBy x <;> simp [admitted, hx]

theorem reads_cons (x : Record) (h : List Record) : reads (x :: h) = reads h ++ (readBy x).toList := by
  cases hx : readBy x <;> simp [reads, hx]

/-- What is read and what is unread are the events of the admitted frames; after a loss, the rest of these
is gone. -/
structure Holds (seg : List Record) (q : Queue) (evs : List Event) : Prop where
  shows : List.Forall₂ (Shows q) (admitted seg) evs
  inOrder : reads seg ++ q.unread <+: evs
  all : q.overflow = false → reads seg ++ q.unread = evs

structure Tracked (h : List Record) (q : Queue) : Prop where
  head : q.head < ringSize
  count : q.count ≤ ringSize
  lost : q.overflow = true → q.count = 0
  holds : ∃ evs, Holds (since h) q evs
  nonzero : q.owner ≠ none → q.generation ≠ 0
  binding : ∀ x ∈ since h, SameBinding x.before q
  bound : q.active = true → Since (fun x => x.after.generation = x.before.generation)
    (fun x _ => x.op = .bind q.epoch q.operation (some q.own) (some q.peer) q.channel ∧ x.result = .flag true) h

theorem tracked_new : Tracked [] {} where
  head := by decide
  count := by decide
  lost := Bool.noConfusion
  holds := ⟨[], List.Forall₂.nil, List.prefix_rfl, fun _ => rfl⟩
  nonzero := fun h => absurd rfl h
  binding := fun x hx => absurd hx List.not_mem_nil
  bound := Bool.noConfusion

theorem Holds.kind {seg : List Record} {evs : List Event} (hh : Holds seg q evs) {e : Event} (he : e ∈ evs) :
    e.kind ≠ .empty := by
  rcases List.forall₂_iff_get.1 hh.shows with ⟨hlength, hget⟩
  rcases List.mem_iff_getElem.1 he with ⟨i, hi, rfl⟩
  rcases (hget i (by omega) hi).body with ⟨body, hcarries, -⟩
  exact hcarries.kind

/-- A call that renews nothing and keeps what was admitted, what was read and what is unread. -/
theorem Tracked.stay (ht : Tracked h q) (hsame : SameBinding q q') (hhead : q'.head < ringSize)
    (hcount : q'.count ≤ ringSize) (hlost : q'.overflow = true → q'.count = 0)
    (hholds : ∀ evs, Holds (since h) q evs → ∃ evs', Holds (⟨q, op, log, r, q'⟩ :: since h) q' evs') :
    Tracked (⟨q, op, log, r, q'⟩ :: h) q' where
  head := hhead
  count := hcount
  lost := hlost
  holds := by
    rcases ht.holds with ⟨evs, hevs⟩
    rw [since_of_same hsame.generation]
    exact hholds evs hevs
  nonzero := by
    rw [hsame.owner, hsame.generation]
    exact ht.nonzero
  binding := by
    rw [since_of_same hsame.generation]
    intro x hx
    rcases List.mem_cons.1 hx with rfl | hx
    · exact hsame
    · have hb := ht.binding x hx
      exact ⟨hsame.owner.trans hb.owner, hsame.generation.trans hb.generation, hsame.epoch.trans hb.epoch,
        hsame.operation.trans hb.operation, hsame.own.trans hb.own, hsame.peer.trans hb.peer,
        hsame.channel.trans hb.channel, hsame.active.trans hb.active⟩
  bound := by
    rw [hsame.active, hsame.epoch, hsame.operation, hsame.own, hsame.peer, hsame.channel]
    exact fun hactive => Since.cons hsame.generation (ht.bound hactive)

theorem Holds.of_same {seg : List Record} {evs : List Event} (hh : Holds seg q evs) (hsame : SameBinding q q') :
    List.Forall₂ (Shows q') (admitted seg) evs :=
  hh.shows.imp fun _ _ hs => hs.of_same hsame

theorem Tracked.step (ht : Tracked h q) (hstep : Stepped q op r q') : Tracked (⟨q, op, log, r, q'⟩ :: h) q' := by
  by_cases hrenews : op.Renews q
  · have hfresh := hstep.renewal hrenews
    have hempty : since (⟨q, op, log, r, q'⟩ :: h) = [] := since_of_new hfresh.generation
    refine ⟨by rw [hfresh.head]; decide, by rw [hfresh.count]; decide, fun _ => hfresh.count, ?_,
      fun _ => hfresh.nonzero, ?_, ?_⟩
    · refine ⟨[], ?_⟩
      rw [hempty]
      have hunread : q'.unread = [] := by
        rw [Queue.unread, hfresh.count]
        rfl
      exact ⟨List.Forall₂.nil, by simp [reads, hunread], fun _ => by simp [reads, hunread]⟩
    · rw [hempty]
      exact fun x hx => absurd hx List.not_mem_nil
    · intro hactive
      cases hstep with
      | renews _ _ hbind => exact Since.here (hbind hactive)
      | stays hno => exact absurd hrenews hno
      | loses => exact hrenews.elim
      | admits => exact hrenews.elim
      | pops => exact hrenews.elim
  · have hsame := hstep.same hrenews
    cases hstep with
    | renews hyes => exact absurd hyes hrenews
    | stays _ hadmitted hread =>
        refine ht.stay hsame ht.head ht.count ht.lost fun evs hh => ⟨evs, ?_⟩
        have hnone : admittedBy ⟨q, op, log, r, q⟩ = none := by
          unfold admittedBy
          split
          · rename_i frame channel timestamp hop hr
            exact absurd ((hadmitted frame channel timestamp hop).1.symm.trans hr) (by simp)
          · rfl
        have hempty : readBy ⟨q, op, log, r, q⟩ = none := by
          unfold readBy
          split
          · rename_i who e hop hr
            rcases hread who true e hop hr with hfalse | ⟨-, -, rfl⟩
            · cases hfalse
            · rfl
          · rfl
        refine ⟨?_, ?_, ?_⟩
        · rw [admitted_cons, hnone, Option.toList_none, List.append_nil]
          exact hh.shows
        · rw [reads_cons, hempty, Option.toList_none, List.append_nil]
          exact hh.inOrder
        · rw [reads_cons, hempty, Option.toList_none, List.append_nil]
          exact hh.all
    | loses hloses =>
        refine ht.stay hsame (Nat.zero_lt_succ 7) (Nat.zero_le _) (fun _ => rfl) fun evs hh => ⟨evs, ?_, ?_, ?_⟩
        · exact hh.of_same hsame
        · refine List.IsPrefix.trans ?_ hh.inOrder
          show reads (since h) ++ [] <+: _
          rw [List.append_nil]
          exact List.prefix_append _ _
        · exact fun hfalse => Bool.noConfusion hfalse
    | admits hoverflow hroom hshows hno =>
        rename_i frame channel timestamp e
        have hcount : q.count < ringSize := lt_of_le_of_ne ht.count hroom
        have hunread : (q.push e).unread = q.unread ++ [e] := Ring.window_update hcount
        refine ht.stay hsame ht.head hcount ?_ fun evs hh => ⟨evs ++ [e], ?_, ?_, ?_⟩
        · exact fun htrue => absurd (htrue.symm.trans hoverflow) Bool.noConfusion
        · rw [admitted_cons]
          exact List.rel_append (hh.of_same hsame) (List.Forall₂.cons (hshows.of_same hsame) List.Forall₂.nil)
        all_goals
          have hall := hh.all hoverflow
          have heq : reads (⟨q, .observe (some frame) channel timestamp, log, .flag true, q.push e⟩ :: since h) ++
              (q.push e).unread = evs ++ [e] := by
            rw [hunread, ← List.append_assoc, ← hall]
            rfl
        · rw [heq]
        · exact fun _ => heq
    | pops howned hsome =>
        rename_i who
        have hpositive : 0 < q.count := Nat.pos_of_ne_zero hsome
        have hno : q.overflow = false := by
          by_contra htrue
          exact hsome (ht.lost (by simpa using htrue))
        -- the cell at `head` is the first one that was not read
        have hsplit : q.unread = q.entries q.head :: q.unread.drop 1 := by
          have hlength : 0 < q.unread.length := by
            rw [Queue.unread, Ring.length_window]
            exact hpositive
          have hfirst : q.unread[0] = q.entries q.head := by
            simp only [Queue.unread, Ring.getElem_window, Nat.add_zero, Nat.mod_eq_of_lt ht.head]
          rw [← hfirst, List.getElem_cons_drop, List.drop_zero]
        refine ht.stay hsame (Nat.mod_lt _ (by decide)) ((Nat.sub_le _ _).trans ht.count) ?_ fun evs hh => ⟨evs, ?_⟩
        · exact fun htrue => absurd (htrue.symm.trans hno) Bool.noConfusion
        have hall := hh.all hno
        have hkind : (q.entries q.head).kind ≠ .empty := by
          apply hh.kind
          rw [← hall, hsplit]
          simp
        have hread : readBy ⟨q, .read who, log, .event true (q.entries q.head),
            { q with
              entries := Function.update q.entries q.head {}
              head := (q.head + 1) % ringSize
              count := q.count - 1 }⟩ = some (q.entries q.head) := if_neg hkind
        have hrest : Queue.unread { q with
            entries := Function.update q.entries q.head {}
            head := (q.head + 1) % ringSize
            count := q.count - 1 } = q.unread.drop 1 := Ring.window_pop ht.head ht.count
        have heq : reads (since h) ++ [q.entries q.head] ++ q.unread.drop 1 = evs := by
          rw [List.append_assoc, List.singleton_append, ← hsplit]
          exact hall
        refine ⟨hh.of_same hsame, ?_, ?_⟩
        · rw [reads_cons, hread, hrest, Option.toList_some, heq]
        · rw [reads_cons, hread, hrest, Option.toList_some]
          exact fun _ => heq

end Histories

/-! ## Whole runs -/

section Runs

variable {h : List Record} {q q' : Queue} {op : Op} {r : Result}

theorem exec_outcome {log : List (Interaction.Event Empty NoCall Empty)}
    (hout : (exec op q).Outcome log (r, q')) : apply op q = (r, q') :=
  wp_outcome (Q := fun _ r q' => apply op q = (r, q')) ((Code.wp_direct _).2 rfl) hout

theorem run_tracked (hrun : Run h q) : Tracked h q :=
  hrun.invariant tracked_new fun _ ht hout => ht.step (apply_stepped (exec_outcome hout))

theorem run_stepped (hrun : Run h q) {x : Record} (hx : x ∈ h) : Stepped x.before x.op x.result x.after :=
  apply_stepped (exec_outcome (Interaction.Run.outcome hrun hx))

theorem since_split {later earlier : List Record} {x : Record} (hsplit : since h = later ++ x :: earlier) :
    ∃ before, h = later ++ x :: before ∧ since before = earlier ∧
      ∀ y ∈ later, y.after.generation = y.before.generation := by
  have hall : ∀ y ∈ later ++ [x], (y.after.generation == y.before.generation) = true := by
    intro y hy
    have hmem : y ∈ since h := by
      rw [hsplit]
      rcases List.mem_append.1 hy with hy | hy
      · exact List.mem_append_left _ hy
      · rw [List.mem_singleton.1 hy]
        simp
    exact List.mem_takeWhile_imp (p := fun y : Record => y.after.generation == y.before.generation) hmem
  have hh : h = later ++ x :: (earlier ++ h.dropWhile fun y => y.after.generation == y.before.generation) := by
    calc
      h = since h ++ h.dropWhile fun y => y.after.generation == y.before.generation :=
          (List.takeWhile_append_dropWhile ..).symm
      _ = _ := by rw [hsplit, List.append_assoc, List.cons_append]
  refine ⟨_, hh, ?_, fun y hy => by simpa using hall y (List.mem_append_left _ hy)⟩
  have htake : since ((later ++ [x]) ++ (earlier ++ h.dropWhile fun y => y.after.generation == y.before.generation)) =
      (later ++ [x]) ++ since (earlier ++ h.dropWhile fun y => y.after.generation == y.before.generation) :=
    List.takeWhile_append_of_pos hall
  have hagain : since ((later ++ [x]) ++ (earlier ++ h.dropWhile fun y => y.after.generation == y.before.generation)) =
      since h := by
    rw [List.append_assoc, List.singleton_append, ← hh]
  rw [htake, hsplit, List.append_assoc, List.singleton_append] at hagain
  exact (List.cons.inj (List.append_cancel_left hagain)).2

/-- A loss with `n` unread events. -/
structure Lost (n : ℕ) (q : Queue) : Prop where
  overflow : q.overflow = true
  count : q.count = 0
  dropped : q.dropped.toNat = n + 1

theorem Stepped.lost {n : ℕ} (hstep : Stepped q op r q') (hlost : Lost n q)
    (hsame : q'.generation = q.generation) : Lost n q' := by
  cases hstep with
  | stays => exact hlost
  | renews _ hfresh => exact absurd hsame hfresh.generation
  | loses hloses => exact absurd (hlost.overflow.symm.trans hloses.1.complete) Bool.noConfusion
  | admits hoverflow => exact absurd (hlost.overflow.symm.trans hoverflow) Bool.noConfusion
  | pops _ hsome => exact absurd hlost.count hsome

theorem Stepped.read_lost {n : ℕ} {who : Client} {e : Event} (hstep : Stepped q op r q') (hlost : Lost n q)
    (hop : op = .read who) (hr : r = .event true e) :
    e.kind = .empty ∧ e.flags &&& 2 ≠ 0 ∧ e.dropped.toNat = n + 1 := by
  cases hstep with
  | stays _ _ hread =>
      rcases hread who true e hop hr with hfalse | ⟨-, -, rfl⟩
      · cases hfalse
      · refine ⟨rfl, ?_, hlost.dropped⟩
        show ((if q.active then 1 else 0) ||| (if q.overflow then 2 else 0) : UInt8) &&& 2 ≠ 0
        rw [hlost.overflow]
        cases q.active <;> decide
  | renews _ _ _ hread => exact absurd hr (hread true e)
  | loses => cases hop
  | admits => cases hop
  | pops _ hsome => exact absurd hlost.count hsome

theorem lost_of_loses {frame : List UInt8} {channel : UInt8} {timestamp : UInt64} (hstep : Stepped q op r q')
    (hop : op = .observe (some frame) channel timestamp) (hloses : Loses q frame channel)
    (hcount : q.count ≤ ringSize) : q.overflow = false ∧ Lost q.unread.length q' := by
  cases hstep with
  | stays _ hadmitted => exact absurd hloses (hadmitted frame channel timestamp hop).2
  | renews hrenews =>
      rw [hop] at hrenews
      exact hrenews.elim
  | loses =>
      refine ⟨hloses.1.complete, rfl, rfl, ?_⟩
      show (UInt32.ofNat (q.count + 1)).toNat = q.unread.length + 1
      rw [Queue.unread, Ring.length_window, UInt32.toNat_ofNat']
      apply Nat.mod_eq_of_lt
      exact lt_of_le_of_lt (Nat.succ_le_succ hcount) (by decide)
  | admits _ _ _ hno =>
      cases hop
      exact absurd hloses hno
  | pops => cases hop

/-- What every use of the queue can rely on. -/
structure Transcript (h : List Record) (q : Queue) : Prop where
  transcript : ∃ evs, List.Forall₂ (Shows q) (admitted (since h)) evs ∧ reads (since h) <+: evs
  binding : q.active = true → Since (fun x => x.after.generation = x.before.generation)
    (fun x _ => x.op = .bind q.epoch q.operation (some q.own) (some q.peer) q.channel ∧ x.result = .flag true) h
  origin : ∀ later x earlier, h = later ++ x :: earlier → ∀ who e, x.op = .read who →
    x.result = .event true e → e.kind ≠ .empty →
    x.before.owner = who ∧ who ≠ none ∧ (∀ y ∈ since earlier, y.before.owner = who) ∧
      ∃ f ∈ admitted (since earlier), Shows x.before f e
  lost : ∀ later x earlier, since h = later ++ x :: earlier → ∀ frame channel timestamp,
    x.op = .observe (some frame) channel timestamp → Loses x.before frame channel →
    ∀ y ∈ later, ∀ who e, y.op = .read who → y.result = .event true e →
      e.kind = .empty ∧ e.flags &&& 2 ≠ 0 ∧
      e.dropped.toNat = (admitted earlier).length - (reads earlier).length + 1
  nonzero : q.owner ≠ none → q.generation ≠ 0
  renewed : ∀ x ∈ h, x.op.Renews x.before → x.after.generation ≠ x.before.generation
  inside : ∀ x ∈ h, ∀ why, x.result ≠ .stopped why

theorem Tracked.unread (ht : Tracked h q) (hoverflow : q.overflow = false) :
    q.unread.length = (admitted (since h)).length - (reads (since h)).length := by
  rcases ht.holds with ⟨evs, hh⟩
  have hlength := congrArg List.length (hh.all hoverflow)
  rw [List.length_append, ← hh.shows.length_eq] at hlength
  omega

/-- Only a read of the ring returns an event that is not empty. -/
theorem Stepped.read_event {who : Client} {e : Event} (hstep : Stepped q op r q') (hop : op = .read who)
    (hr : r = .event true e) (hkind : e.kind ≠ .empty) :
    q.owned who = true ∧ q.count ≠ 0 ∧ e = q.entries q.head := by
  cases hstep with
  | stays _ _ hread =>
      rcases hread who true e hop hr with hfalse | ⟨-, -, rfl⟩
      · cases hfalse
      · exact absurd rfl hkind
  | renews _ _ _ hread => exact absurd hr (hread true e)
  | loses => cases hop
  | admits => cases hop
  | pops howned hsome =>
      cases hop
      cases hr
      exact ⟨howned, hsome, rfl⟩

theorem Stepped.not_stopped (hstep : Stepped q op r q') (why : Stop Empty) : r ≠ .stopped why := by
  cases hstep with
  | stays _ _ _ hstopped => exact hstopped why
  | renews _ _ _ _ hstopped => exact hstopped why
  | loses => exact Result.noConfusion
  | admits => exact Result.noConfusion
  | pops => exact Result.noConfusion

/-- What the head of the ring holds was admitted in this generation. -/
theorem Tracked.head_shows (ht : Tracked h q) (hsome : q.count ≠ 0) :
    ∃ f ∈ admitted (since h), Shows q f (q.entries q.head) := by
  rcases ht.holds with ⟨evs, hh⟩
  have hmem : q.entries q.head ∈ q.unread := by
    refine Ring.mem_window.2 ⟨0, Nat.pos_of_ne_zero hsome, ?_⟩
    rw [Nat.add_zero, Nat.mod_eq_of_lt ht.head]
  have hevs : q.entries q.head ∈ evs := hh.inOrder.subset (List.mem_append_right _ hmem)
  rcases List.forall₂_iff_get.1 hh.shows with ⟨hlength, hget⟩
  rcases List.mem_iff_getElem.1 hevs with ⟨i, hi, heq⟩
  refine ⟨(admitted (since h))[i], List.getElem_mem _, ?_⟩
  rw [← heq]
  exact hget i (by omega) hi

theorem authentication_transcript (hrun : Run h q) : Transcript h q := by
  have ht := run_tracked hrun
  refine ⟨?_, ht.bound, ?_, ?_, ht.nonzero, ?_, ?_⟩
  · rcases ht.holds with ⟨evs, hh⟩
    exact ⟨evs, hh.shows, (List.prefix_append _ _).trans hh.inOrder⟩
  · rintro later x earlier rfl who e hop hr hkind
    have hx := Interaction.Run.drop hrun
    have hbefore := run_tracked hx.tail.1
    rcases (run_stepped hx List.mem_cons_self).read_event hop hr hkind with ⟨howned, hsome, rfl⟩
    simp only [Queue.owned, Bool.and_eq_true, beq_iff_eq, Option.isSome_iff_ne_none] at howned
    refine ⟨howned.2, howned.1, ?_, hbefore.head_shows hsome⟩
    intro y hy
    exact (hbefore.binding y hy).owner.symm.trans howned.2
  · intro later x earlier hsplit frame channel timestamp hop hloses y hy who e hread hr
    rcases since_split hsplit with ⟨before, rfl, rfl, hquiet⟩
    have hx := Interaction.Run.drop hrun
    have hbefore := run_tracked hx.tail.1
    rcases lost_of_loses (run_stepped hx List.mem_cons_self) hop hloses hbefore.count with ⟨hoverflow, hlost⟩
    rw [hbefore.unread hoverflow] at hlost
    have hstays : ∀ y : Record, y.after.generation = y.before.generation →
        Lost ((admitted (since before)).length - (reads (since before)).length) y.before →
        (exec y.op y.before).Outcome y.log (y.result, y.after) →
        Lost ((admitted (since before)).length - (reads (since before)).length) y.after :=
      fun y hsame hy hout => (apply_stepped (exec_outcome hout)).lost hy hsame
    have hall := (Interaction.Run.stable_while hstays later hlost hquiet hrun).2
    exact (run_stepped hrun (List.mem_append_left _ hy)).read_lost (hall y hy) hread hr
  · intro x hx hrenews
    exact ((run_stepped hrun hx).renewal hrenews).generation
  · exact fun x hx => (run_stepped hrun hx).not_stopped

/-- An authentication frame from 4:0:0:0:0:0 to 2:0:0:0:0:0. -/
def authenticationFrame (body : List UInt8) : List UInt8 :=
  [0xb0, 0, 0, 0, 2, 0, 0, 0, 0, 0, 4, 0, 0, 0, 0, 0, 4, 0, 0, 0, 0, 0, 0, 0] ++ body

/-- One frame that is read, and one that is too long. -/
def oneLoss : List Op :=
  [.enable (some 1), .bind 1 1 (some fun i => if i = 0 then 2 else 0) (some fun i => if i = 0 then 4 else 0) 6,
    .observe (some (authenticationFrame [3, 0, 1, 0, 0, 0])) 6 10, .read (some 1),
    .observe (some (authenticationFrame (List.replicate 2049 7))) 6 20, .read (some 1)]

theorem authentication_transcript_oneLoss :
    ∃ h q, Run h q ∧ q.owner ≠ none ∧ q.generation ≠ 0 ∧ (reads (since h)).map Event.kind = [.authentication] ∧
      (∃ evs, List.Forall₂ (Shows q) (admitted (since h)) evs ∧ reads (since h) <+: evs) ∧
      admitted (since h) = [(authenticationFrame [3, 0, 1, 0, 0, 0], 10)] ∧
      q.overflow = true ∧ q.dropped = 1 := by
  have hrun := replay_run exec (fun c (_ : Unit) => c.elim) oneLoss {} ()
  have ht := authentication_transcript hrun
  exact ⟨_, _, hrun, by decide +kernel, ht.nonzero (by decide +kernel), by decide +kernel, ht.transcript,
    by decide +kernel, by decide +kernel, by decide +kernel⟩

end Runs

end AuthEvents
end Rtl8852be
