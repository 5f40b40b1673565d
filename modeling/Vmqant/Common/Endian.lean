import Mathlib

/-!
# Fixed-width numbers as bytes

A number below `256 ^ n` as `n` bytes, the least significant first (`putLE`) or last (`putBE`).
-/

namespace Endian

def putLE : ℕ → ℕ → List UInt8
  | 0, _ => []
  | n + 1, x => UInt8.ofNat x :: putLE n (x / 256)

def getLE : List UInt8 → ℕ
  | [] => 0
  | b :: bs => b.toNat + 256 * getLE bs

def putBE (n x : ℕ) : List UInt8 := (putLE n x).reverse

def getBE (bs : List UInt8) : ℕ := getLE bs.reverse

@[simp] theorem length_putLE (n x : ℕ) : (putLE n x).length = n := by
  induction n generalizing x with
  | zero => rfl
  | succ n ih => rw [putLE, List.length_cons, ih]

@[simp] theorem length_putBE (n x : ℕ) : (putBE n x).length = n := by
  rw [putBE, List.length_reverse, length_putLE]

theorem getLE_putLE (n x : ℕ) (h : x < 256 ^ n) : getLE (putLE n x) = x := by
  induction n generalizing x with
  | zero =>
    have hzero : x = 0 := by omega
    exact hzero.symm
  | succ n ih =>
    have hdiv : x / 256 < 256 ^ n := by
      rw [pow_succ] at h
      omega
    have hmod : (UInt8.ofNat x).toNat = x % 256 := UInt8.toNat_ofNat'
    rw [putLE, getLE, hmod, ih _ hdiv]
    omega

theorem getBE_putBE (n x : ℕ) (h : x < 256 ^ n) : getBE (putBE n x) = x := by
  rw [getBE, putBE, List.reverse_reverse, getLE_putLE n x h]

end Endian
