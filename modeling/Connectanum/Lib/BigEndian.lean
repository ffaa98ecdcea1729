import Mathlib.Algebra.Order.Ring.Int
import Mathlib.Data.List.Basic

/-!
# Lib — BigEndian

Numbers as bytes, the most significant first.
-/

namespace BigEndian

def read (bytes : List UInt8) : Nat := bytes.foldl (fun n byte => n * 256 + byte.toNat) 0

/-- The number in `k` bytes. -/
def write : Nat → Nat → List UInt8
  | 0, _ => []
  | k + 1, n => write k (n / 256) ++ [UInt8.ofNat (n % 256)]

@[simp]
theorem length_write (k n : Nat) : (write k n).length = k := by
  induction k generalizing n with
  | zero => rfl
  | succ k ih => rw [write, List.length_append, ih]; rfl

theorem toNat_ofNat {n : Nat} (h : n < 256) : (UInt8.ofNat n).toNat = n :=
  UInt8.toNat_ofNat_of_lt' h

theorem read_write {k n : Nat} (h : n < 256 ^ k) : read (write k n) = n := by
  induction k generalizing n with
  | zero =>
      rw [Nat.pow_zero, Nat.lt_one_iff] at h
      rw [h]
      rfl
  | succ k ih =>
      have hdiv : n / 256 < 256 ^ k := by
        rw [Nat.div_lt_iff_lt_mul (by decide)]
        rwa [Nat.pow_succ] at h
      have hlast : (UInt8.ofNat (n % 256)).toNat = n % 256 := toNat_ofNat (Nat.mod_lt n (by decide))
      have hread := ih hdiv
      rw [read] at hread
      rw [write, read, List.foldl_append, hread]
      change n / 256 * 256 + (UInt8.ofNat (n % 256)).toNat = n
      rw [hlast]
      omega

end BigEndian
