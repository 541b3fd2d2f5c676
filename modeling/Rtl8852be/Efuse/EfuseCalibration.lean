import Rtl8852be.Checked.Writer

/-!
# EfuseCalibration — decoding a bank of the eFuse

`decodeEfuse` of `EfuseCalibration.hpp`.  A bank is a sequence of records.  A record has a header of two
bytes, which names a block of the output and masks words of it, and two bytes for each word that is not
masked.  A first pass checks the whole bank before a second one, with the same code, writes the output.

* `Bank` — the records of a bank;
* `decodeLoop_first` — a first pass that ends well has found the records, and wrote nothing;
* `decodeLoop_second` — on such a bank the second pass writes the words of the records, and does not fail;
* `decodeEfuse_overlays` — the two together.
-/

namespace Rtl8852be
namespace Calibration

open Checked

inductive EfuseStatus
  | ok
  | invalid
  | overlap
  | truncated
  | outOfRange
  deriving DecidableEq, Repr

/-- A buffer of the caller, with its address. -/
structure Buffer where
  address : ℕ
  bytes : List UInt8

/-! ## The code -/

/-- Code that may leave with a status.  The output is then as it was at that point. -/
abbrev Decoding := Reader (EfuseStatus × List UInt8)

/-- The loop over the words of a record, from the list of those that are left. -/
def decodeWords (physical : List UInt8) (stop : ℕ) (pass : Bool) (block : ℕ) (second : UInt8) :
    List ℕ → ℕ → List UInt8 → Decoding (ℕ × List UInt8)
  | [], cursor, logical => return (cursor, logical)
  | word :: words, cursor, logical =>
      if second.toNat.testBit word then
        decodeWords physical stop pass block second words cursor logical
      else do
        let left ← sub stop cursor
        if left < 2 then
          early (.truncated, logical)
        else if logical.length ≤ block * 8 + word * 2 ∨ logical.length - (block * 8 + word * 2) < 2 then
          early (.outOfRange, logical)
        else if pass then do
          let low ← byteAt physical cursor
          let logical ← put logical (block * 8 + word * 2) low
          let high ← byteAt physical (cursor + 1)
          let logical ← put logical (block * 8 + word * 2 + 1) high
          decodeWords physical stop pass block second words (cursor + 2) logical
        else
          decodeWords physical stop pass block second words (cursor + 2) logical

def blockOf (first second : UInt8) : ℕ := ((second.toNat >>> 4) &&& 15) ||| ((first.toNat &&& 15) <<< 4)

/-- The loop over the records.  A round passes a header, so `stop - cursor` rounds are enough; code that ran
out of them would be a loop that does not end. -/
def decodeLoop (physical : List UInt8) (stop : ℕ) (pass : Bool) :
    ℕ → ℕ → List UInt8 → Decoding (List UInt8)
  | 0, _, _ => .error .wrapped
  | rounds + 1, cursor, logical =>
      if cursor < stop then do
        let first ← byteAt physical cursor
        if first = 0xff then
          return logical
        else do
          let left ← sub stop cursor
          if left < 2 then
            early (.truncated, logical)
          else do
            let second ← byteAt physical (cursor + 1)
            if second = 0xff then
              return logical
            else do
              let (cursor, logical) ← decodeWords physical stop pass (blockOf first second) second
                [0, 1, 2, 3] (cursor + 2) logical
              decodeLoop physical stop pass rounds cursor logical
      else
        return logical

/-- The loop that fills the output before the second pass. -/
def fillLoop (target : List UInt8) : ℕ → ℕ → Decoding (List UInt8)
  | 0, _ => return target
  | n + 1, i => do
      let target ← put target i 0xff
      fillLoop target n (i + 1)

def Overlap (physical logical : Buffer) : Prop :=
  if physical.address ≤ logical.address then
    logical.address - physical.address < physical.bytes.length
  else
    physical.address - logical.address < logical.bytes.length

instance (physical logical : Buffer) : Decidable (Overlap physical logical) := by
  unfold Overlap
  infer_instance

/-- `decodeEfuse`: the status, and what the output holds then.  There may be no buffers. -/
def decodeEfuse (physical logical : Option Buffer) (securityBytes : ℕ) :
    Reader Empty (EfuseStatus × List UInt8) :=
  match physical, logical with
  | none, none => return (.invalid, [])
  | some _, none => return (.invalid, [])
  | none, some logical => return (.invalid, logical.bytes)
  | some physical, some logical =>
      returned id (fun bytes => (.ok, bytes)) <|
        if logical.bytes.length = 0 ∨ physical.bytes.length / 2 < securityBytes then
          early (.invalid, logical.bytes)
        else if Overlap physical logical then
          early (.overlap, logical.bytes)
        else do
          let stop ← sub physical.bytes.length securityBytes
          let logical ← decodeLoop physical.bytes stop false (stop + 1) securityBytes logical.bytes
          let logical ← fillLoop logical logical.length 0
          decodeLoop physical.bytes stop true (stop + 1) securityBytes logical

/-! ## Records -/

/-- Those of some words of a block that a header does not mask. -/
def remaining (second : UInt8) (words : List ℕ) : List ℕ := words.filter fun word => !second.toNat.testBit word

def unmasked (second : UInt8) : List ℕ := remaining second [0, 1, 2, 3]

/-- A record, with the bytes of its words. -/
structure Entry where
  first : UInt8
  second : UInt8
  words : List (UInt8 × UInt8)
  first_ne : first ≠ 0xff
  second_ne : second ≠ 0xff
  length_words : words.length = (unmasked second).length

/-- The block: the high half of the second byte, and above it the low half of the first. -/
def Entry.block (e : Entry) : ℕ := e.second.toNat / 16 + 16 * (e.first.toNat % 16)

def flat (words : List (UInt8 × UInt8)) : List UInt8 := words.flatMap fun w => [w.1, w.2]

def Entry.bytes (e : Entry) : List UInt8 := e.first :: e.second :: flat e.words

/-- The records of a bank.  It ends with its bytes, or where one of the two bytes of a header is 0xff. -/
inductive Bank : List UInt8 → List Entry → Prop
  | nil : Bank [] []
  | first (rest : List UInt8) : Bank (0xff :: rest) []
  | second {first : UInt8} (rest : List UInt8) (hfirst : first ≠ 0xff) : Bank (first :: 0xff :: rest) []
  | cons {e : Entry} {rest : List UInt8} {es : List Entry} (h : Bank rest es) : Bank (e.bytes ++ rest) (e :: es)

/-- Words written to a block, one after the other. -/
def putWords (block : ℕ) : List (ℕ × UInt8 × UInt8) → List UInt8 → List UInt8
  | [], logical => logical
  | (word, low, high) :: rest, logical =>
      putWords block rest ((logical.set (block * 8 + word * 2) low).set (block * 8 + word * 2 + 1) high)

/-- The words of a record written to the output. -/
def Entry.overlay (e : Entry) (logical : List UInt8) : List UInt8 :=
  putWords e.block ((unmasked e.second).zip e.words) logical

def overlay (es : List Entry) (logical : List UInt8) : List UInt8 :=
  es.foldl (fun logical e => e.overlay logical) logical

/-- The words of the record are in an output of `n` bytes. -/
def Entry.Fits (n : ℕ) (e : Entry) : Prop := ∀ word ∈ unmasked e.second, e.block * 8 + word * 2 + 2 ≤ n

/-! ## Words -/

variable {physical logical rest : List UInt8} {stop cursor block n : ℕ} {second : UInt8} {words : List ℕ}
  {es : List Entry} {e : Entry}

@[simp] theorem length_flat (ws : List (UInt8 × UInt8)) : (flat ws).length = 2 * ws.length := by
  induction ws with
  | nil => rfl
  | cons w ws ih =>
      rw [flat, List.flatMap_cons, List.length_append, ← flat, ih, List.length_cons]
      simp
      omega

theorem flat_injective {ws ws' : List (UInt8 × UInt8)} (h : flat ws = flat ws') : ws = ws' := by
  induction ws generalizing ws' with
  | nil =>
      cases ws' with
      | nil => rfl
      | cons w' ws' => cases h
  | cons w ws ih =>
      cases ws' with
      | nil => cases h
      | cons w' ws' =>
          rcases w with ⟨low, high⟩
          rcases w' with ⟨low', high'⟩
          have hcons : low :: high :: flat ws = low' :: high' :: flat ws' := h
          simp only [List.cons.injEq] at hcons
          rcases hcons with ⟨rfl, rfl, hrest⟩
          rw [ih hrest]

@[simp] theorem length_putWords (ws : List (ℕ × UInt8 × UInt8)) : (putWords block ws logical).length = logical.length := by
  induction ws generalizing logical with
  | nil => rfl
  | cons w ws ih => rw [putWords, ih, List.length_set, List.length_set]

theorem remaining_masked {word : ℕ} (h : second.toNat.testBit word = true) :
    remaining second (word :: words) = remaining second words := by
  rw [remaining, List.filter_cons, if_neg (by simp [h]), ← remaining]

theorem remaining_unmasked {word : ℕ} (h : ¬ second.toNat.testBit word = true) :
    remaining second (word :: words) = word :: remaining second words := by
  rw [remaining, List.filter_cons, if_pos (by simp [h]), ← remaining]

/-- The bytes of the bank before its end. -/
def bankOf (physical : List UInt8) (stop : ℕ) : List UInt8 := physical.take stop

theorem length_bankOf (hstop : stop ≤ physical.length) : (bankOf physical stop).length = stop := by
  rw [bankOf, List.length_take, Nat.min_eq_left hstop]

theorem drop_bankOf (hstop : stop ≤ physical.length) (hcursor : cursor + 2 ≤ stop) :
    (bankOf physical stop).drop cursor =
      physical.getD cursor 0 :: physical.getD (cursor + 1) 0 :: (bankOf physical stop).drop (cursor + 2) := by
  have hlength := length_bankOf hstop
  have hget : ∀ i (hi : i < (bankOf physical stop).length), (bankOf physical stop)[i] = physical.getD i 0 := by
    intro i hi
    rw [List.getD_eq_getElem?_getD, List.getElem?_eq_getElem (by omega), Option.getD_some]
    exact List.getElem_take
  rw [List.drop_eq_getElem_cons (by omega), List.drop_eq_getElem_cons (i := cursor + 1) (by omega),
    hget cursor (by omega), hget (cursor + 1) (by omega)]

/-- The words that the first pass goes over, up to the position `next`. -/
structure Passed (physical : List UInt8) (stop block n : ℕ) (words : List ℕ) (cursor next : ℕ)
    (ws : List (UInt8 × UInt8)) : Prop where
  inside : next ≤ stop
  forward : cursor ≤ next
  length : ws.length = words.length
  bytes : (bankOf physical stop).drop cursor = flat ws ++ (bankOf physical stop).drop next
  fits : ∀ word ∈ words, block * 8 + word * 2 + 2 ≤ n

theorem decodeWords_first (hstop : stop ≤ physical.length) (hcursor : cursor ≤ stop) :
    Safe (fun x => x.1 ≠ .ok ∧ x.2 = logical)
      (fun x => x.2 = logical ∧
        ∃ ws, Passed physical stop block logical.length (remaining second words) cursor x.1 ws)
      (decodeWords physical stop false block second words cursor logical) := by
  induction words generalizing cursor with
  | nil =>
      unfold decodeWords
      exact Safe.pure ⟨rfl, [], hcursor, Nat.le_refl _, rfl, rfl, fun _ hword => absurd hword List.not_mem_nil⟩
  | cons word words ih =>
      unfold decodeWords
      refine Safe.ite (fun hmask => ?_) fun hmask => ?_
      · rw [remaining_masked hmask]
        exact ih hcursor
      · rw [remaining_unmasked hmask]
        refine Safe.bind (Safe.sub hcursor) fun left hleft => ?_
        rw [hleft]
        refine Safe.ite (fun _ => Safe.early ⟨EfuseStatus.noConfusion, rfl⟩) fun htwo => ?_
        refine Safe.ite (fun _ => Safe.early ⟨EfuseStatus.noConfusion, rfl⟩) fun hrange => ?_
        rw [if_neg Bool.false_ne_true]
        rcases not_or.1 hrange with ⟨hlow, hhigh⟩
        have hnext : cursor + 2 ≤ stop := by omega
        refine Safe.mono (ih hnext) fun x hx => ?_
        rcases hx with ⟨hsame, ws, hws⟩
        refine ⟨hsame, (physical.getD cursor 0, physical.getD (cursor + 1) 0) :: ws, hws.inside, ?_, ?_, ?_, ?_⟩
        · exact le_trans (Nat.le_add_right cursor 2) hws.forward
        · rw [List.length_cons, List.length_cons, hws.length]
        · rw [drop_bankOf hstop (by omega), hws.bytes]
          rfl
        · intro w hw
          rcases List.mem_cons.1 hw with rfl | hw
          · omega
          · exact hws.fits w hw

theorem decodeWords_second {ws : List (UInt8 × UInt8)} (hstop : stop ≤ physical.length) (hcursor : cursor ≤ stop)
    (hlength : ws.length = (remaining second words).length)
    (hbytes : (bankOf physical stop).drop cursor = flat ws ++ rest)
    (hfits : ∀ word ∈ remaining second words, block * 8 + word * 2 + 2 ≤ logical.length) :
    Safe (fun _ => False)
      (fun x => x.2 = putWords block ((remaining second words).zip ws) logical ∧ x.1 ≤ stop ∧ cursor ≤ x.1 ∧
        (bankOf physical stop).drop x.1 = rest)
      (decodeWords physical stop true block second words cursor logical) := by
  induction words generalizing cursor logical ws with
  | nil =>
      have hnone : ws = [] := List.length_eq_zero_iff.1 hlength
      rw [hnone] at hbytes
      unfold decodeWords
      refine Safe.pure ⟨?_, hcursor, Nat.le_refl _, hbytes⟩
      rw [hnone]
      rfl
  | cons word words ih =>
      unfold decodeWords
      refine Safe.ite (fun hmask => ?_) fun hmask => ?_
      · rw [remaining_masked hmask] at hlength hfits ⊢
        exact ih hcursor hlength hbytes hfits
      · rw [remaining_unmasked hmask] at hlength hfits ⊢
        cases ws with
        | nil => cases hlength
        | cons w ws =>
            have hword := hfits word List.mem_cons_self
            have hcount := congrArg List.length hbytes
            rw [List.length_drop, length_bankOf hstop, List.length_append, length_flat, List.length_cons] at hcount
            have htwo := @drop_bankOf _ _ cursor hstop (by omega)
            rw [hbytes] at htwo
            -- The two bytes that are read are the ones of the first word.
            rcases w with ⟨low, high⟩
            have hparts : low = physical.getD cursor 0 ∧ high = physical.getD (cursor + 1) 0 ∧
                flat ws ++ rest = (bankOf physical stop).drop (cursor + 2) := by
              have hcons : low :: high :: (flat ws ++ rest) = _ := htwo
              rw [List.cons.injEq, List.cons.injEq] at hcons
              exact hcons
            rcases hparts with ⟨hlow, hhigh, hrest⟩
            refine Safe.bind (Safe.sub hcursor) fun left hleft => ?_
            rw [hleft, if_neg (by omega), if_neg (by omega), if_pos rfl]
            refine Safe.bind (Safe.byteAt (by omega)) fun b hb => ?_
            refine Safe.bind (Safe.put (by omega)) fun first hfirst => ?_
            refine Safe.bind (Safe.byteAt (by omega)) fun b' hb' => ?_
            have hsame : first.length = logical.length := by rw [hfirst, List.length_set]
            refine Safe.bind (Safe.put (by omega)) fun both hboth => ?_
            have hsize : both.length = logical.length := by rw [hboth, List.length_set, hsame]
            have hnext : cursor + 2 ≤ stop := by omega
            have hlater : ∀ w ∈ remaining second words, block * 8 + w * 2 + 2 ≤ both.length :=
              fun w hw => hsize ▸ hfits w (List.mem_cons_of_mem word hw)
            have hwords := ih hnext (Nat.succ.inj hlength) hrest.symm hlater
            refine Safe.mono hwords fun x hx => ?_
            rcases hx with ⟨hput, hin, hforward, hdrop⟩
            refine ⟨?_, hin, by omega, hdrop⟩
            rw [hput, hboth, hfirst, hb, hb', ← hlow, ← hhigh]
            rfl

/-! ## Records in a bank -/

theorem blockOf_eq (first second : UInt8) :
    blockOf first second = second.toNat / 16 + 16 * (first.toNat % 16) := by
  have hsecond := second.toNat_lt
  have hhigh : (second.toNat >>> 4) &&& 15 = second.toNat / 16 := by
    rw [show (15 : ℕ) = 2 ^ 4 - 1 from rfl, Nat.and_two_pow_sub_one_eq_mod, Nat.shiftRight_eq_div_pow]
    omega
  have hlow : first.toNat &&& 15 = first.toNat % 16 :=
    Nat.and_two_pow_sub_one_eq_mod first.toNat 4
  rw [blockOf, hhigh, hlow, Nat.or_comm, ← Nat.shiftLeft_add_eq_or_of_lt (show second.toNat / 16 < 2 ^ 4 by omega),
    Nat.shiftLeft_eq]
  omega

theorem head_bankOf {b : UInt8} (hstop : stop ≤ physical.length) (h : (bankOf physical stop).drop cursor = b :: rest) :
    cursor < stop ∧ physical.getD cursor 0 = b := by
  have hcount := congrArg List.length h
  rw [List.length_drop, length_bankOf hstop, List.length_cons] at hcount
  have hcursor : cursor < stop := by omega
  refine ⟨hcursor, ?_⟩
  have hlength := length_bankOf hstop
  rw [List.drop_eq_getElem_cons (by omega), List.cons.injEq] at h
  rw [← h.1, List.getD_eq_getElem?_getD, List.getElem?_eq_getElem (by omega), Option.getD_some]
  exact List.getElem_take.symm

theorem header_bankOf {b c : UInt8} (hstop : stop ≤ physical.length)
    (h : (bankOf physical stop).drop cursor = b :: c :: rest) :
    cursor + 2 ≤ stop ∧ physical.getD cursor 0 = b ∧ physical.getD (cursor + 1) 0 = c ∧
      (bankOf physical stop).drop (cursor + 2) = rest := by
  have hcount := congrArg List.length h
  rw [List.length_drop, length_bankOf hstop, List.length_cons, List.length_cons] at hcount
  have htwo : cursor + 2 ≤ stop := by omega
  rw [drop_bankOf hstop htwo, List.cons.injEq, List.cons.injEq] at h
  exact ⟨htwo, h.1, h.2.1, h.2.2⟩

theorem decodeLoop_first {rounds : ℕ} (hstop : stop ≤ physical.length) (hcursor : cursor ≤ stop)
    (hrounds : stop < cursor + rounds) :
    Safe (fun x => x.1 ≠ .ok ∧ x.2 = logical)
      (fun l => l = logical ∧
        ∃ es, Bank ((bankOf physical stop).drop cursor) es ∧ ∀ e ∈ es, Entry.Fits logical.length e)
      (decodeLoop physical stop false rounds cursor logical) := by
  have hlength := length_bankOf hstop
  have hnone : ∀ e ∈ ([] : List Entry), Entry.Fits logical.length e := fun _ he => absurd he List.not_mem_nil
  induction rounds generalizing cursor with
  | zero => omega
  | succ rounds ih =>
      unfold decodeLoop
      simp only [blockOf_eq]
      refine Safe.ite (fun hlt => ?_) fun hend => ?_
      · refine Safe.bind (Safe.byteAt (by omega)) fun first hfirst => ?_
        refine Safe.ite (fun hff => ?_) fun hff => ?_
        · refine Safe.pure ⟨rfl, [], ?_, hnone⟩
          have hhead : (bankOf physical stop).drop cursor = 0xff :: (bankOf physical stop).drop (cursor + 1) := by
            rw [List.drop_eq_getElem_cons (by omega)]
            congr 1
            rw [← hff, hfirst, List.getD_eq_getElem?_getD, List.getElem?_eq_getElem (by omega), Option.getD_some]
            exact List.getElem_take
          rw [hhead]
          exact .first _
        refine Safe.bind (Safe.sub hcursor) fun left hleft => ?_
        rw [hleft]
        refine Safe.ite (fun _ => Safe.early ⟨EfuseStatus.noConfusion, rfl⟩) fun htwo => ?_
        refine Safe.bind (Safe.byteAt (by omega)) fun second hsecond => ?_
        have hdrop := @drop_bankOf _ _ cursor hstop (by omega)
        rw [← hfirst, ← hsecond] at hdrop
        refine Safe.ite (fun hff' => ?_) fun hff' => ?_
        · refine Safe.pure ⟨rfl, [], ?_, hnone⟩
          rw [hdrop, hff']
          exact .second _ hff
        refine Safe.bind (decodeWords_first hstop (by omega)) fun x hx => ?_
        rcases x with ⟨next, l⟩
        rcases hx with ⟨rfl, ws, hws⟩
        have hforward := hws.forward
        refine Safe.mono (ih hws.inside (by omega)) fun l hl => ?_
        rcases hl with ⟨hsame, es, hes, hfits⟩
        refine ⟨hsame, Entry.mk first second ws hff hff' hws.length :: es, ?_, ?_⟩
        · have hbytes : (bankOf physical stop).drop cursor =
              (Entry.mk first second ws hff hff' hws.length).bytes ++ (bankOf physical stop).drop next := by
            rw [hdrop, hws.bytes]
            rfl
          rw [hbytes]
          exact .cons hes
        · intro e he
          rcases List.mem_cons.1 he with rfl | he
          · exact hws.fits
          · exact hfits e he
      · refine Safe.pure ⟨rfl, [], ?_, hnone⟩
        rw [List.drop_eq_nil_of_le (by omega)]
        exact .nil

theorem decodeLoop_second {rounds : ℕ} (hstop : stop ≤ physical.length) (hcursor : cursor ≤ stop)
    (hrounds : stop < cursor + rounds) (hbank : Bank ((bankOf physical stop).drop cursor) es)
    (hfits : ∀ e ∈ es, Entry.Fits logical.length e) :
    Safe (fun _ => False) (fun l => l = overlay es logical)
      (decodeLoop physical stop true rounds cursor logical) := by
  have hlength := length_bankOf hstop
  induction rounds generalizing cursor logical es with
  | zero => omega
  | succ rounds ih =>
      unfold decodeLoop
      simp only [blockOf_eq]
      generalize hdata : (bankOf physical stop).drop cursor = data at hbank
      cases hbank with
      | nil =>
          have hend := congrArg List.length hdata
          rw [List.length_drop, List.length_nil] at hend
          rw [if_neg (by omega)]
          exact Safe.pure rfl
      | first rest =>
          rcases head_bankOf hstop hdata with ⟨hlt, hhead⟩
          rw [if_pos hlt]
          refine Safe.bind (Safe.byteAt (by omega)) fun first hfirst => ?_
          rw [if_pos (hfirst.trans hhead)]
          exact Safe.pure rfl
      | second rest hne =>
          rcases header_bankOf hstop hdata with ⟨htwo, hhead, hnext, -⟩
          rw [if_pos (by omega)]
          refine Safe.bind (Safe.byteAt (by omega)) fun first hfirst => ?_
          rw [if_neg (fun heq => hne (hhead.symm.trans (hfirst.symm.trans heq)))]
          refine Safe.bind (Safe.sub hcursor) fun left hleft => ?_
          rw [hleft, if_neg (by omega)]
          refine Safe.bind (Safe.byteAt (by omega)) fun second hsecond => ?_
          rw [if_pos (hsecond.trans hnext)]
          exact Safe.pure rfl
      | @cons e rest es hrest =>
          rcases header_bankOf hstop hdata with ⟨htwo, hhead, hnext, hdrop⟩
          rw [if_pos (by omega)]
          refine Safe.bind (Safe.byteAt (by omega)) fun first hfirst => ?_
          rw [hhead] at hfirst
          rw [hfirst, if_neg e.first_ne]
          refine Safe.bind (Safe.sub hcursor) fun left hleft => ?_
          rw [hleft, if_neg (by omega)]
          refine Safe.bind (Safe.byteAt (by omega)) fun second hsecond => ?_
          rw [hnext] at hsecond
          rw [hsecond, if_neg e.second_ne]
          refine Safe.bind (decodeWords_second hstop (by omega) e.length_words hdrop (hfits e List.mem_cons_self))
            fun x hx => ?_
          rcases x with ⟨next, l⟩
          rcases hx with ⟨rfl, hin, hforward, hafter⟩
          have hsame : (e.overlay logical).length = logical.length := length_putWords _
          show Safe _ (fun l => l = overlay es (e.overlay logical))
            (decodeLoop physical stop true rounds next (e.overlay logical))
          refine ih hin (by omega) ?_ fun e' he' => ?_
          · rw [hafter]
            exact hrest
          · have hfit := hfits e' (List.mem_cons_of_mem e he')
            show Entry.Fits (e.overlay logical).length e'
            rw [hsame]
            exact hfit

theorem Bank.unique {data : List UInt8} {es' : List Entry} (h : Bank data es) (h' : Bank data es') : es = es' := by
  induction h generalizing es' with
  | nil =>
      generalize hdata : ([] : List UInt8) = data at h'
      cases h' with
      | nil => rfl
      | first _ => cases hdata
      | second _ _ => cases hdata
      | cons _ => cases hdata
  | first rest =>
      generalize hdata : 0xff :: rest = data at h'
      cases h' with
      | nil => cases hdata
      | first _ => rfl
      | second _ _ => rfl
      | @cons e _ _ _ => exact absurd (List.cons.inj hdata).1.symm e.first_ne
  | second rest hne =>
      rename_i b
      generalize hdata : b :: 0xff :: rest = data at h'
      cases h' with
      | nil => cases hdata
      | first _ => rfl
      | second _ _ => rfl
      | @cons e _ _ _ => exact absurd (List.cons.inj (List.cons.inj hdata).2).1.symm e.second_ne
  | @cons e rest es h ih =>
      generalize hdata : e.bytes ++ rest = data at h'
      cases h' with
      | nil => cases hdata
      | first _ => exact absurd (List.cons.inj hdata).1 e.first_ne
      | second _ _ => exact absurd (List.cons.inj (List.cons.inj hdata).2).1 e.second_ne
      | @cons e' rest' es' h' =>
          rcases e with ⟨first, second, words, hfirst, hsecond, hlength⟩
          rcases e' with ⟨first', second', words', hfirst', hsecond', hlength'⟩
          simp only [Entry.bytes, List.cons_append, List.cons.injEq] at hdata
          rcases hdata with ⟨rfl, rfl, hwords⟩
          have hcount : (flat words).length = (flat words').length := by
            rw [length_flat, length_flat, hlength, hlength']
          rcases List.append_inj hwords hcount with ⟨hflat, rfl⟩
          rcases flat_injective hflat with rfl
          rw [ih h']

/-! ## The whole call -/

theorem fillLoop_safe {F : EfuseStatus × List UInt8 → Prop} {written blank : List UInt8} (hn : n ≤ blank.length) :
    Safe F (fun l => l = written ++ List.replicate n 0xff ++ blank.drop n)
      (fillLoop (written ++ blank) n written.length) := by
  induction n generalizing written blank with
  | zero =>
      unfold fillLoop
      refine Safe.pure ?_
      rw [List.replicate_zero, List.append_nil, List.drop_zero]
  | succ n ih =>
      cases blank with
      | nil => exact absurd hn (Nat.not_succ_le_zero n)
      | cons old blank =>
          have hindex : written.length < (written ++ old :: blank).length := by
            rw [List.length_append, List.length_cons]
            omega
          unfold fillLoop
          refine Safe.bind (Safe.put hindex) fun target htarget => ?_
          have hset : target = (written ++ [0xff]) ++ blank := by
            rw [htarget, List.set_append_right _ _ (Nat.le_refl _), Nat.sub_self, List.set_cons_zero,
              List.append_assoc, List.singleton_append]
          have hlength : written.length + 1 = (written ++ [(0xff : UInt8)]).length := by
            rw [List.length_append, List.length_singleton]
          rw [hset, hlength]
          refine Safe.mono (ih (Nat.le_of_succ_le_succ hn)) fun final hfinal => ?_
          rw [hfinal, List.drop_succ_cons, List.replicate_succ, List.append_assoc, List.append_assoc,
            List.append_assoc, List.singleton_append, List.cons_append]

/-- The part of a bank that has the records. -/
def recordsOf (physical : List UInt8) (securityBytes : ℕ) : List UInt8 :=
  (bankOf physical (physical.length - securityBytes)).drop securityBytes

/-- A call comes to its end, with its reads and writes inside of the two buffers.  With the status `ok` the
output holds the words of the records of the bank, one over the other and over 0xff; with any other status it
is what it was. -/
theorem decodeEfuse_overlays (physical logical : Option Buffer) (securityBytes : ℕ) :
    ∃ status out, decodeEfuse physical logical securityBytes = .ok (status, out) ∧
      (status = .ok → ∃ bank target es, physical = some bank ∧ logical = some target ∧
        Bank (recordsOf bank.bytes securityBytes) es ∧
        (∀ es', Bank (recordsOf bank.bytes securityBytes) es' → es' = es) ∧
        (∀ e ∈ es, e.Fits target.bytes.length) ∧
        out = overlay es (List.replicate target.bytes.length 0xff)) ∧
      (status ≠ .ok → out = (logical.map Buffer.bytes).getD []) := by
  cases physical with
  | none =>
      cases logical with
      | none => exact ⟨.invalid, [], rfl, fun h => EfuseStatus.noConfusion h, fun _ => rfl⟩
      | some target => exact ⟨.invalid, target.bytes, rfl, fun h => EfuseStatus.noConfusion h, fun _ => rfl⟩
  | some bank =>
      cases logical with
      | none => exact ⟨.invalid, [], rfl, fun h => EfuseStatus.noConfusion h, fun _ => rfl⟩
      | some target =>
          have hsafe : Safe (fun x : EfuseStatus × List UInt8 => x.1 ≠ .ok ∧ x.2 = target.bytes)
              (fun out => ∃ es, Bank (recordsOf bank.bytes securityBytes) es ∧
                (∀ e ∈ es, e.Fits target.bytes.length) ∧
                out = overlay es (List.replicate target.bytes.length 0xff))
              (if target.bytes.length = 0 ∨ bank.bytes.length / 2 < securityBytes then
                early (.invalid, target.bytes)
              else if Overlap bank target then
                early (.overlap, target.bytes)
              else do
                let stop ← sub bank.bytes.length securityBytes
                let logical ← decodeLoop bank.bytes stop false (stop + 1) securityBytes target.bytes
                let logical ← fillLoop logical logical.length 0
                decodeLoop bank.bytes stop true (stop + 1) securityBytes logical) := by
            refine Safe.ite (fun _ => Safe.early ⟨EfuseStatus.noConfusion, rfl⟩) fun hvalid => ?_
            refine Safe.ite (fun _ => Safe.early ⟨EfuseStatus.noConfusion, rfl⟩) fun _ => ?_
            have hsecurity : securityBytes ≤ bank.bytes.length / 2 := Nat.not_lt.1 (not_or.1 hvalid).2
            refine Safe.bind (Safe.sub (by omega)) fun stop hstop => ?_
            refine Safe.bind (decodeLoop_first (by omega) (by omega) (by omega)) fun l hl => ?_
            rcases hl with ⟨rfl, es, hes, hfits⟩
            rw [hstop] at hes
            have hfill : Safe (fun x : EfuseStatus × List UInt8 => x.1 ≠ .ok ∧ x.2 = target.bytes)
                (fun l => l = List.replicate target.bytes.length 0xff)
                (fillLoop target.bytes target.bytes.length 0) := by
              refine Safe.mono (@fillLoop_safe _ _ [] _ (Nat.le_refl _)) fun l hl => ?_
              rw [hl, List.drop_length, List.append_nil, List.nil_append]
            refine Safe.bind hfill fun l hl => ?_
            have hwrite : Safe (fun _ => False) (fun l' => l' = overlay es l)
                (decodeLoop bank.bytes stop true (stop + 1) securityBytes l) := by
              refine decodeLoop_second (by omega) (by omega) (by omega) ?_ fun e he => ?_
              · rw [hstop]
                exact hes
              · rw [hl, List.length_replicate]
                exact hfits e he
            refine Safe.mono (hwrite.weaken fun _ hno => hno.elim) fun out hout => ?_
            exact ⟨es, hes, hfits, hout.trans (by rw [hl])⟩
          rcases @Safe.returned _ _ _ _ _ _ id (fun bytes => (EfuseStatus.ok, bytes)) hsafe with
            ⟨⟨status, out⟩, ⟨hstatus, hout⟩, hcode⟩ | ⟨out, ⟨es, hes, hfits, hout⟩, hcode⟩
          · exact ⟨status, out, hcode, fun h => absurd h hstatus, fun _ => hout⟩
          · refine ⟨.ok, out, hcode, fun _ => ?_, fun h => absurd rfl h⟩
            exact ⟨bank, target, es, rfl, rfl, hes, fun es' hes' => hes'.unique hes, hfits, hout⟩

/-- A bank with two records for one block, of which the second masks the first word, and the end behind them. -/
def twoRecords : Buffer where
  address := 0
  bytes := [0xaa, 0xbb, 0x01, 0x2c, 0x11, 0x22, 0x33, 0x44, 0x01, 0x2d, 0x55, 0x66, 0xff, 0xff]

/-- Its first two bytes are not decoded.  In block `0x12` the later word wins, and a masked word stays. -/
theorem decodeEfuse_overlays_twoRecords :
    ∃ out es, decodeEfuse (some twoRecords) (some ⟨0x100, List.replicate 160 0⟩) 2 = .ok (.ok, out) ∧
      Bank (recordsOf twoRecords.bytes 2) es ∧ out = overlay es (List.replicate 160 0xff) ∧
      (out.drop 144).take 8 = [0x11, 0x22, 0x55, 0x66, 0xff, 0xff, 0xff, 0xff] := by
  have hslice : ((decodeEfuse (some twoRecords) (some ⟨0x100, List.replicate 160 0⟩) 2).toOption.map
      fun x => (x.1, (x.2.drop 144).take 8)) =
      some (.ok, [0x11, 0x22, 0x55, 0x66, 0xff, 0xff, 0xff, 0xff]) := by
    decide +kernel
  rcases decodeEfuse_overlays (some twoRecords) (some ⟨0x100, List.replicate 160 0⟩) 2 with
    ⟨status, out, hcode, hok, -⟩
  rw [hcode] at hslice
  rcases Prod.mk.inj (Option.some.inj hslice) with ⟨rfl, hbytes⟩
  rcases hok rfl with ⟨bank, target, es, hbank, htarget, hrecords, -, -, hout⟩
  cases hbank
  cases htarget
  exact ⟨out, es, hcode, hrecords, hout, hbytes⟩

end Calibration
end Rtl8852be
