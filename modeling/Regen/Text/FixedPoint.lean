/-!
Decimal text with a fixed number of places.  A double is a whole number times a
power of two, so its nearest decimal is found in exact arithmetic; of two decimals
that are equally near, the even one is taken.
-/

namespace Regen.Text

/-- The whole number nearest to `num / den`; a tie goes to the even one. -/
def roundDiv (num den : Nat) : Nat :=
  let q := num / den
  let r := num % den
  if 2 * r < den then q
  else if den < 2 * r then q + 1
  else q + q % 2

theorem roundDiv_near (num : Nat) {den : Nat} (h : 0 < den) :
    2 * num ≤ (2 * roundDiv num den + 1) * den ∧
      2 * (roundDiv num den * den) ≤ 2 * num + den := by
  have hr : num % den < den := Nat.mod_lt num h
  have hn : num = den * (num / den) + num % den := (Nat.div_add_mod num den).symm
  have hc : (num / den) * den = den * (num / den) := Nat.mul_comm _ _
  unfold roundDiv
  simp only
  split
  · rw [Nat.add_mul, Nat.mul_assoc, hc]
    omega
  · split
    · rw [Nat.add_mul, Nat.mul_assoc, Nat.add_mul, hc]
      omega
    · rcases Nat.mod_two_eq_zero_or_one (num / den) with h2 | h2
      · rw [h2, Nat.add_mul, Nat.mul_assoc, Nat.add_zero, hc]
        omega
      · rw [h2, Nat.add_mul, Nat.mul_assoc, Nat.add_mul, hc]
        omega

/-- The magnitude of a finite double as a whole number times a power of two. -/
def binaryParts (x : Float) : Nat × Int :=
  let bits := x.toBits.toNat
  let unit := Nat.pow 2 52
  let exponent : Nat := bits / unit % 2048
  let fraction := bits % unit
  if exponent = 0 then (fraction, -1074)
  else (unit + fraction, (exponent : Int) - 1075)

def inPlaces (places : Nat) (x : Float) : Nat :=
  let (m, e) := binaryParts x
  roundDiv (m * Nat.pow 10 places * Nat.pow 2 e.toNat)
    (Nat.pow 2 (-e).toNat)

def placed (places n : Nat) : String :=
  let tail := toString (n % Nat.pow 10 places)
  toString (n / Nat.pow 10 places) ++ "." ++
    String.ofList (List.replicate (places - tail.length) '0') ++ tail

def fixedPoint (places : Nat) (x : Float) : String :=
  placed places (inPlaces places x)

example : placed 2 1205 = "12.05" := by decide +kernel
example : (roundDiv 5 2, roundDiv 7 2, roundDiv 9 4) = (2, 4, 2) := by decide

end Regen.Text
