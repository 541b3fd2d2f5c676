import Mathlib.Tactic

/-!
# Channel — chip channel geometry

`ChannelGeometry.hpp` and the part of `RfkInitialization.hpp` it rests on.  A channel is a band, a
width (0, 1, 2 for 20, 40, 80 MHz), a centre number and the primary 20 MHz number.  This checks chip
geometry only; regulatory permission is the business of the policy layer.
-/

namespace Rtl8852be

namespace Rfk

/-- `rfk::Channel`. -/
structure Channel where
  band : UInt8 := 0
  width : UInt8 := 0
  center : UInt8 := 0
  deriving DecidableEq, Repr

def centers40 : List UInt8 := [38, 46, 54, 62, 102, 110, 118, 126, 134, 142, 151, 159, 167, 175]

def centers80 : List UInt8 := [42, 58, 106, 122, 138, 155, 171]

/-- `rfk::validChannel`: band 0 is 2.4 GHz, band 1 is 5 GHz. -/
def validChannel (c : Channel) : Bool :=
  if c.band = 0 then
    if c.width = 0 then 1 ≤ c.center && c.center ≤ 14
    else c.width == 1 && 3 ≤ c.center && c.center ≤ 11
  else if c.band ≠ 1 then
    false
  else if c.width = 0 then
    (36 ≤ c.center && c.center ≤ 64 && c.center % 4 == 0) ||
      (100 ≤ c.center && c.center ≤ 144 && c.center % 4 == 0) ||
      (149 ≤ c.center && c.center ≤ 177 && (c.center - 149) % 4 == 0)
  else
    (c.width == 1 && centers40.contains c.center) ||
      (c.width == 2 && centers80.contains c.center)

end Rfk

/-- `channel::Channel`. -/
structure Channel where
  band : UInt8 := 0
  width : UInt8 := 0
  center : UInt8 := 0
  primary : UInt8 := 0
  deriving DecidableEq, Repr, Inhabited

namespace Channel

/-- `channel::validChannel`. -/
def validChannel (c : Channel) : Bool :=
  if !Rfk.validChannel ⟨c.band, c.width, c.center⟩ || !Rfk.validChannel ⟨c.band, 0, c.primary⟩ then
    false
  else
    let distance : Int := (c.primary.toNat : Int) - c.center.toNat
    if c.width = 0 then
      distance == 0
    else if c.band = 0 ∧ c.primary = 14 then
      false
    else if c.width = 1 then
      distance == 2 || distance == -2
    else
      distance == 2 || distance == -2 || distance == 6 || distance == -6

end Channel

end Rtl8852be
