import Rtl8852be.Bits.Field
import Rtl8852be.Interaction.Checks
import Rtl8852be.Wire.Channel

/-!
# TxPowerPlan — the writes that set the transmit power

`TxPowerPlan.hpp` and `Rtw8852bPowerFunctions.inc`.  `build` puts together every write for a channel before any of
them is made.  The bytes of the limit pages come from tables, each of them cut down to the ceiling that the policy
gives for its sub-channel.
-/

namespace Rtl8852be
namespace TxPower

open Interaction

/-! ## Types -/

inductive PlanError
  | none
  | channel
  | policy
  | index
  | capacity
  deriving DecidableEq, Repr

structure Write where
  baseband : Bool
  address : UInt32
  mask : UInt32
  value : UInt32
  deriving DecidableEq, Repr

/-- The tables of the chip, which are given. -/
structure Tables where
  tx_shape_lmt : Vector Int8 96
  txpwr_lmt_2g : Vector Int8 5376
  txpwr_lmt_5g : Vector Int8 40704
  txpwr_lmt_ru_2g : Vector Int8 2240
  txpwr_lmt_ru_5g : Vector Int8 8480
  byrate : Vector Int8 240
  dfir : Vector (Vector UInt32 8) 3

/-- `query` says whether there is a policy function. -/
structure Policy where
  domain : UInt8 := 0
  generation : UInt64 := 0
  query : Bool := false

/-- The policy function. -/
inductive Io
  | query (band channel : UInt8)
  deriving DecidableEq

/-- What it returns, and the power that it gives. -/
@[reducible] def Reply : Io → Type
  | .query _ _ => Bool × Int16

/-- The plan, and the ceilings of `Context` that are cached. -/
structure Plan where
  writes : List Write := []
  error : PlanError := .none
  ceilings : ℕ → Option Int8 := fun _ => none

/-- A note is an access to a table: its size and the index. -/
abbrev Planning := Code Plan Io Reply (ℕ × ℕ)

abbrev Trace := List (Event Io Reply (ℕ × ℕ))

/-! ## Lookups -/

def regdNum : UInt8 := 16

def rfToMac (v : Int8) : Int8 :=
  Int8.ofInt (if 0 ≤ v.toInt then v.toInt / 2 else -((-v.toInt + 1) / 2))

/-- `none` is -1. -/
def channelIndex (band ch : UInt8) : Option ℕ :=
  if band = 0 then
    if 1 ≤ ch ∧ ch ≤ 14 then some (ch.toNat - 1) else none
  else if band ≠ 1 then
    none
  else if 36 ≤ ch ∧ ch ≤ 64 ∧ ch &&& 1 = 0 then
    some ((ch.toNat - 36) / 2)
  else if 100 ≤ ch ∧ ch ≤ 144 ∧ ch &&& 1 = 0 then
    some ((ch.toNat - 100) / 2 + 15)
  else if 149 ≤ ch ∧ ch ≤ 177 ∧ ch &&& 1 ≠ 0 then
    some ((ch.toNat - 149) / 2 + 38)
  else
    none

def minimum (a b : Int8) : Int8 := if a < b then a else b

def Plan.raised (d : Plan) (e : PlanError) : Plan := { d with error := e }

def raise (e : PlanError) : Planning Int8 := do
  modify fun d => d.raised e
  return -64

/-- Beyond its end a table has no value; the note says so. -/
def look {n : ℕ} (table : Vector Int8 n) (i : ℕ) : Planning Int8 := do
  Code.tell (n, i)
  return table[i]?.getD 0

def Plan.cached (d : Plan) (i : ℕ) (v : Int8) : Plan := { d with ceilings := Function.update d.ceilings i (some v) }

def granted (reply : Bool × Int16) : Bool := reply.1 && decide (-64 ≤ reply.2) && decide (reply.2 ≤ 63)

def ceiling (band ch : UInt8) : Planning Int8 :=
  match channelIndex band ch with
  | none => raise .index
  | some i => do
      let d ← get
      if d.error ≠ .none then
        return -64
      else
        match d.ceilings i with
        | some v => return v
        | none => do
            let reply ← Code.ask (Io.query band ch)
            if granted reply then do
              modify fun d => d.cached i reply.2.toInt8
              return reply.2.toInt8
            else
              raise .policy

variable (T : Tables)

/-- `band==0?txpwr_lmt_2g:txpwr_lmt_5g`. -/
def lookLimit (band : UInt8) (i : ℕ) : Planning Int8 :=
  if band = 0 then look T.txpwr_lmt_2g i else look T.txpwr_lmt_5g i

/-- `band==0?txpwr_lmt_ru_2g:txpwr_lmt_ru_5g`. -/
def lookLimitRu (band : UInt8) (i : ℕ) : Planning Int8 :=
  if band = 0 then look T.txpwr_lmt_ru_2g i else look T.txpwr_lmt_ru_5g i

def channels (band : UInt8) : ℕ := if band = 0 then 14 else 53

/-- The reference explicitly falls back to world-domain entries. -/
def fallback (lookup : ℕ → Planning Int8) (base : ℕ) (own : Int8) : Planning Int8 :=
  if own = 0 then lookup base else return own

/-- The entry of the domain, or that of the world, under the ceiling. -/
def underCeiling (lookup : ℕ → Planning Int8) (band ch : UInt8) (base : ℕ) (domain : UInt8) : Planning Int8 := do
  let own ← lookup (base + domain.toNat * channels band)
  let v ← fallback lookup base own
  let c ← ceiling band ch
  return minimum (rfToMac v) c

def limitBase (band bw ntx rs bf : UInt8) (index : ℕ) : ℕ :=
  (((bw.toNat * 2 + ntx.toNat) * 3 + rs.toNat) * 2 + bf.toNat) * 16 * channels band + index

def limitRuBase (band ru ntx : UInt8) (index : ℕ) : ℕ := (ru.toNat * 2 + ntx.toNat) * 16 * channels band + index

/-- `rtw89_phy_read_txpwr_limit`. -/
def readTxpwrLimit (domain band bw ntx rs bf ch : UInt8) : Planning Int8 :=
  match channelIndex band ch with
  | none => raise .index
  | some index =>
      if 1 < ntx ∨ 2 < rs ∨ 1 < bf ∨ (if band = 0 then 1 else 3 : UInt8) < bw then
        raise .index
      else
        underCeiling (lookLimit T band) band ch (limitBase band bw ntx rs bf index) domain

/-- `rtw89_phy_read_txpwr_limit_ru`. -/
def readTxpwrLimitRu (domain band ru ntx ch : UInt8) : Planning Int8 :=
  match channelIndex band ch with
  | none => raise .index
  | some index =>
      if 2 < ru ∨ 1 < ntx then
        raise .index
      else
        underCeiling (lookLimitRu T band) band ch (limitRuBase band ru ntx index) domain

/-! ## Pages -/

/-- The bytes of a page.  Bytes 40 to 43 are `val_0p5_n` and `val_0p5_p`. -/
abbrev Page := ℕ → Int8

/-- A call of `fillPair`: where the two bytes go, the bandwidth, the rate section and the sub-channel. -/
structure Fill where
  offset : ℕ
  bw : UInt8
  rs : UInt8
  ch : UInt8
  deriving DecidableEq

def Page.put (page : Page) (i : ℕ) (v : Int8) : Page := Function.update page i v

/-- `fillPair`. -/
def fillPair (domain band ntx : UInt8) (f : Fill) (page : Page) : Planning Page := do
  let v ← readTxpwrLimit T domain band f.bw ntx f.rs 0 f.ch
  let w ← readTxpwrLimit T domain band f.bw ntx f.rs 1 f.ch
  return (page.put f.offset v).put (f.offset + 1) w

def fillPairs (domain band ntx : UInt8) : List Fill → Page → Planning Page
  | [], page => return page
  | f :: fs, page => do
      let page ← fillPair T domain band ntx f page
      fillPairs domain band ntx fs page

def cck20m : ℕ := 0

def cck40m : ℕ := 2

def ofdm : ℕ := 4

def mcs20m (i : ℕ) : ℕ := 6 + 2 * i

def mcs40m (i : ℕ) : ℕ := 22 + 2 * i

def mcs80m (i : ℕ) : ℕ := 30 + 2 * i

def mcs40m0p5 : ℕ := 36

def val0p5n : ℕ := 40

def val0p5p : ℕ := 42

/-- `rtw89_phy_fill_txpwr_limit_20m_ax`. -/
def fillTxpwrLimit20m (ch : UInt8) : List Fill :=
  [⟨cck20m, 0, 0, ch⟩, ⟨cck40m, 1, 0, ch⟩, ⟨ofdm, 0, 1, ch⟩, ⟨mcs20m 0, 0, 2, ch⟩]

/-- `rtw89_phy_fill_txpwr_limit_40m_ax`. -/
def fillTxpwrLimit40m (ch pri : UInt8) : List Fill :=
  [⟨cck20m, 0, 0, ch - 2⟩, ⟨cck40m, 1, 0, ch⟩, ⟨ofdm, 0, 1, pri⟩, ⟨mcs20m 0, 0, 2, ch - 2⟩, ⟨mcs20m 1, 0, 2, ch + 2⟩,
    ⟨mcs40m 0, 1, 2, ch⟩]

/-- `rtw89_phy_fill_txpwr_limit_80m_ax`, but for the last loop. -/
def fillTxpwrLimit80m (ch pri : UInt8) : List Fill :=
  [⟨ofdm, 0, 1, pri⟩, ⟨mcs20m 0, 0, 2, ch - 6⟩, ⟨mcs20m 1, 0, 2, ch - 2⟩, ⟨mcs20m 2, 0, 2, ch + 2⟩,
    ⟨mcs20m 3, 0, 2, ch + 6⟩, ⟨mcs40m 0, 1, 2, ch - 4⟩, ⟨mcs40m 1, 1, 2, ch + 4⟩, ⟨mcs80m 0, 2, 2, ch⟩,
    ⟨val0p5n, 1, 2, ch - 4⟩, ⟨val0p5p, 1, 2, ch + 4⟩]

def limitFills (ch : Channel) : List Fill :=
  if ch.width = 0 then
    fillTxpwrLimit20m ch.center
  else if ch.width = 1 then
    fillTxpwrLimit40m ch.center ch.primary
  else
    fillTxpwrLimit80m ch.center ch.primary

def Page.half (page : Page) : Page :=
  (page.put mcs40m0p5 (minimum (page val0p5n) (page val0p5p))).put (mcs40m0p5 + 1)
    (minimum (page (val0p5n + 1)) (page (val0p5p + 1)))

def limitPage (domain : UInt8) (ch : Channel) (ntx : UInt8) : Planning Page := do
  let page ← fillPairs T domain ch.band ntx (limitFills ch) fun _ => 0
  return if ch.width = 0 ∨ ch.width = 1 then page else page.half

/-- A byte of the RU page: its place, the kind of RU and the sub-channel. -/
structure RuFill where
  offset : ℕ
  ru : UInt8
  ch : UInt8
  deriving DecidableEq

/-- `ru26`, `ru52` and `ru106` of these sub-channels. -/
def ruFills (chs : List UInt8) : List RuFill :=
  [(0 : ℕ), 1, 2].flatMap fun ru => chs.mapIdx fun i ch => ⟨8 * ru + i, UInt8.ofNat ru, ch⟩

/-- The sub-channels of `rtw89_phy_fill_txpwr_limit_ru_20m_ax`, `_40m_ax` and `_80m_ax`. -/
def subChannels (ch : Channel) : List UInt8 :=
  if ch.width = 0 then
    [ch.center]
  else if ch.width = 1 then
    [ch.center - 2, ch.center + 2]
  else
    [ch.center - 6, ch.center - 2, ch.center + 2, ch.center + 6]

def fillRus (domain band ntx : UInt8) : List RuFill → Page → Planning Page
  | [], page => return page
  | f :: fs, page => do
      let v ← readTxpwrLimitRu T domain band f.ru ntx f.ch
      fillRus domain band ntx fs (page.put f.offset v)

def limitRuPage (domain : UInt8) (ch : Channel) (ntx : UInt8) : Planning Page :=
  fillRus T domain ch.band ntx (ruFills (subChannels ch)) fun _ => 0

/-! ## Writes -/

def Plan.added (d : Plan) (w : Write) : Plan := { d with writes := d.writes ++ [w] }

def add (baseband : Bool) (address mask value : UInt32) : Planning Unit := do
  let d ← get
  if d.error ≠ .none then
    return ()
  else if d.writes.length = 64 then
    modify fun d => d.raised .capacity
  else
    modify fun d => d.added ⟨baseband, address, mask, value⟩

def pack (a b c d : Int8) : UInt32 :=
  a.toUInt8.toUInt32 ||| (b.toUInt8.toUInt32 <<< 8) ||| (c.toUInt8.toUInt32 <<< 16) ||| (d.toUInt8.toUInt32 <<< 24)

def inOrder : List (Planning Unit) → Planning Unit
  | [] => return ()
  | m :: ms => do
      m
      inOrder ms

def rate (band : UInt8) (nss rs index : ℕ) : Planning Int8 := do
  let band := if rs = 0 then 0 else band.toNat
  let v ← look T.byrate (((band * 2 + nss) * 5 + rs) * 12 + index)
  return rfToMac v

/-- Preserve unrelated bits in the actual registers. -/
def refMask : UInt32 := 0x07fc0000 ||| 0x0003fe00 ||| 0x1ff

def refValue : UInt32 := fieldPrep 0x07fc0000 (0x12c - 128) ||| fieldPrep 0x0003fe00 (0x27 * 8)

/-- `bases` within `offsets`. -/
def references : List UInt32 := [0x5800 + 4, 0x7800 + 4, 0x5800 + 8, 0x7800 + 8]

/-- The rates of each four that go into one write, in the order of their registers. -/
def rateQuads : List (ℕ × ℕ × ℕ) :=
  [(0, 0, 0), (0, 1, 0), (0, 1, 4), (0, 2, 0), (0, 2, 4), (0, 2, 8), (0, 3, 0), (1, 2, 0), (1, 2, 4), (1, 2, 8),
    (1, 3, 0)]

def addRates (band : UInt8) (address : UInt32) (q : ℕ × ℕ × ℕ) : Planning Unit := do
  let a ← rate T band q.1 q.2.1 q.2.2
  let b ← rate T band q.1 q.2.1 (q.2.2 + 1)
  let c ← rate T band q.1 q.2.1 (q.2.2 + 2)
  let d ← rate T band q.1 q.2.1 (q.2.2 + 3)
  add false address 0xffffffff (pack a b c d)

/-- `R_AX_PWR_RATE_OFST_CTRL`. -/
def addOffsets (band : UInt8) : Planning Unit := do
  let a ← rate T band 0 4 0
  let b ← rate T band 0 4 1
  let c ← rate T band 0 4 2
  let d ← rate T band 0 4 3
  let e ← rate T band 0 4 4
  let nibble (v : Int8) (i : UInt32) : UInt32 := (v.toUInt8 &&& 15).toUInt32 <<< (i * 4)
  add false 0xd204 0xfffff (nibble a 0 ||| nibble b 1 ||| nibble c 2 ||| nibble d 3 ||| nibble e 4)

def lookDfir (shape i : ℕ) : Planning UInt32 := do
  Code.tell (3, shape)
  Code.tell (8, i)
  return (T.dfir[shape]?.bind fun row => row[i]?).getD 0

/-- `ch.center==14?2:tx_shape_lmt[policy.domain]?1:0`. -/
def txShape (ch : Channel) (domain : UInt8) : Planning ℕ :=
  if ch.center = 14 then
    return 2
  else do
    let v ← look T.tx_shape_lmt domain.toNat
    return if v ≠ 0 then 1 else 0

def addFilter (ch : Channel) (domain : UInt8) : Planning Unit := do
  let shape ← txShape T ch domain
  inOrder ((List.range 8).map fun i => do
    let v ← lookDfir T shape i
    add true (0x2300 + UInt32.ofNat i * 4) 0xffffffff v)

def addTriangular (band domain : UInt8) : Planning Unit := do
  let v ← look T.tx_shape_lmt ((band.toNat * 2 + 1) * 16 + domain.toNat)
  add true 0x4494 0x03000000 (fieldPrep 0x03000000 (UInt32.ofInt v.toInt))

def pageWrites (address : UInt32) (size : ℕ) (page : Page) : List Write :=
  (List.range (size / 4)).map fun k =>
    ⟨false, address + UInt32.ofNat (4 * k), 0xffffffff,
      pack (page (4 * k)) (page (4 * k + 1)) (page (4 * k + 2)) (page (4 * k + 3))⟩

def addAll (ws : List Write) : Planning Unit := inOrder (ws.map fun w => add w.baseband w.address w.mask w.value)

/-- `R_AX_PWR_LMT`. -/
def limitRegister (ntx : ℕ) : UInt32 := 0xd2ec + UInt32.ofNat (ntx * 40)

/-- `R_AX_PWR_RU_LMT`. -/
def limitRuRegister (ntx : ℕ) : UInt32 := 0xd33c + UInt32.ofNat (ntx * 24)

def addLimit (domain : UInt8) (ch : Channel) (ntx : ℕ) : Planning Unit := do
  let page ← limitPage T domain ch (UInt8.ofNat ntx)
  addAll (pageWrites (limitRegister ntx) 40 page)

def addLimitRu (domain : UInt8) (ch : Channel) (ntx : ℕ) : Planning Unit := do
  let page ← limitRuPage T domain ch (UInt8.ofNat ntx)
  addAll (pageWrites (limitRuRegister ntx) 24 page)

def addHead (ch : Channel) (domain : UInt8) : Planning Unit :=
  inOrder
    ([add false 0xd200 0x0ffffc00 0] ++ references.map (fun a => add true a refMask refValue) ++
      (rateQuads.mapIdx fun k q => addRates T ch.band (0xd2c0 + UInt32.ofNat (4 * k)) q) ++ [addOffsets T ch.band] ++
      (if ch.band = 0 then [addFilter T ch domain] else []) ++ [addTriangular T ch.band domain])

def Plan.cleared : Plan := {}

def Policy.usable (policy : Policy) : Bool := policy.query && decide (policy.domain < regdNum) && policy.generation != 0

/-- Entire plan, including all policy lookups, is constructed before any MMIO. -/
def build (ch : Channel) (policy : Policy) : Planning Bool := do
  set Plan.cleared
  if !ch.validChannel then do
    modify fun d => d.raised .channel
    return false
  else if !policy.usable then do
    modify fun d => d.raised .policy
    return false
  else do
    inOrder [addHead T ch policy.domain, addLimit T policy.domain ch 0, addLimit T policy.domain ch 1,
      addLimitRu T policy.domain ch 0, addLimitRu T policy.domain ch 1]
    let d ← get
    if d.error ≠ .none then do
      modify fun d => { d with writes := [] }
      return false
    else
      return true

end TxPower
end Rtl8852be
