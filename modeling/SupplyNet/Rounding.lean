/-!
Rounding a quotient of natural numbers to the nearest one, a tie going to the even neighbour.
-/
set_option autoImplicit false

namespace SupplyNet

def divHalfEven (n d : Nat) : Nat :=
  let q := n / d
  let twice := 2 * (n % d)
  if d < twice ∨ (twice = d ∧ q % 2 = 1) then q + 1 else q

theorem divHalfEven_of_dvd {n d : Nat} (h : d ∣ n) : divHalfEven n d = n / d := by
  have h0 : n % d = 0 := Nat.mod_eq_zero_of_dvd h
  rcases Nat.eq_zero_or_pos d with rfl | hd
  · simp [divHalfEven, Nat.eq_zero_of_zero_dvd h]
  · simp only [divHalfEven, h0]
    rw [if_neg (by omega)]

/-- The rounded quotient is within half a unit of the exact one. -/
theorem two_mul_divHalfEven_sub_le {n d : Nat} (hd : 0 < d) :
    2 * (divHalfEven n d * d) ≤ 2 * n + d ∧ 2 * n ≤ 2 * (divHalfEven n d * d) + d := by
  have hn := Nat.div_add_mod' n d
  have hr := Nat.mod_lt n hd
  simp only [divHalfEven]
  split
  · rw [Nat.add_mul]; omega
  · omega

end SupplyNet
