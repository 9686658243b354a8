/-
  This file defines the rounding of quotients: to the nearest
  integer and to numbers of single precision, which have 24
  significant bits.  A tie goes to the even neighbour.

  Key definitions include:
    * `Rounding.nearest`
    * `Rounding.single`

  Key statements include:
    * `Rounding.nearest_intCast`
-/

namespace Retarget.Rounding

/- The integer next to a quotient. -/
def nearest (q : Rat) : Int :=
  let below := q.floor
  let rest := q - below
  if rest < 1 / 2 then below
  else if 1 / 2 < rest then below + 1
  else if below % 2 = 0 then below
  else below + 1

def powerOfTwo (n : Int) : Rat :=
  if 0 ≤ n then 2 ^ n.toNat else 1 / 2 ^ n.natAbs

/-
  A factor that brings a positive quotient between 2 ^ 23
  and 2 ^ 24.
-/
def scale (q : Rat) : Rat :=
  let size : Int := Nat.log2 q.num.natAbs - Nat.log2 q.den
  let factor := powerOfTwo (23 - size)
  if q * factor < powerOfTwo 23 then 2 * factor else factor

/- The number of single precision next to a positive quotient. -/
def single (q : Rat) : Rat :=
  if q ≤ 0 then 0 else nearest (q * scale q) / scale q

theorem nearest_intCast
    (n : Int) :
    nearest n = n := by
  have hrest : (n : Rat) - n = 0 := Rat.sub_self
  have hhalf : (0 : Rat) < 1 / 2 := by grind
  simp only [nearest, Rat.floor_intCast, hrest, hhalf, if_true]

end Retarget.Rounding
