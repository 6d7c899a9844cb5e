/-!
Contract: binary fields of numbers: single digits as truth values, and the lowest digits as an
index.
-/

namespace TargetWakeTime.Bit

/-- The lowest binary digit of a number, read as a truth value. -/
def lowest (n : Nat) : Bool := n % 2 == 1

@[simp] theorem toNat_lowest (n : Nat) : (lowest n).toNat = n % 2 := by
  rcases Nat.mod_two_eq_zero_or_one n with even | odd <;> simp [lowest, *]

theorem lowest_eq_of_mod {n : Nat} {b : Bool} (digit : n % 2 = b.toNat) : lowest n = b := by
  cases b <;> simp [lowest, digit]

/-- A binary digit is the lowest one once all digits below it are dropped. -/
theorem lowest_div (n index : Nat) : lowest (n / Nat.pow 2 index) = n.testBit index := by
  rw [Nat.testBit_eq_decide_div_mod_eq, lowest]
  rfl

def lowTwo (n : Nat) : Fin 4 := ⟨n % 4, Nat.mod_lt n (by decide)⟩

def lowThree (n : Nat) : Fin 8 := ⟨n % 8, Nat.mod_lt n (by decide)⟩

def lowFour (n : Nat) : Fin 16 := ⟨n % 16, Nat.mod_lt n (by decide)⟩

def lowFive (n : Nat) : Fin 32 := ⟨n % 32, Nat.mod_lt n (by decide)⟩

def lowTwelve (n : Nat) : Fin 4096 := ⟨n % 4096, Nat.mod_lt n (by decide)⟩

@[simp] theorem val_lowTwo (n : Nat) : (lowTwo n).val = n % 4 := rfl

@[simp] theorem val_lowThree (n : Nat) : (lowThree n).val = n % 8 := rfl

@[simp] theorem val_lowFour (n : Nat) : (lowFour n).val = n % 16 := rfl

@[simp] theorem val_lowFive (n : Nat) : (lowFive n).val = n % 32 := rfl

@[simp] theorem val_lowTwelve (n : Nat) : (lowTwelve n).val = n % 4096 := rfl

end TargetWakeTime.Bit
