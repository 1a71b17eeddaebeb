import Mathlib.Tactic.Ring

/-!
# Bytes and words

Numbers in bytes, the most significant one first, and words of thirty-two bytes. A number that
fits in its bytes is read back from them, and a word from the front of what it is put before.
-/

namespace Bifrost

set_option autoImplicit false

abbrev Bytes := List UInt8

namespace Bytes

def ofNat : ℕ → ℕ → Bytes
  | 0, _ => []
  | k + 1, n => ofNat k (n / 256) ++ [UInt8.ofNat (n % 256)]

def toNat (l : Bytes) : ℕ := l.foldl (fun n b => n * 256 + b.toNat) 0

@[simp] theorem length_ofNat (k n : ℕ) : (ofNat k n).length = k := by
  induction k generalizing n with
  | zero => rfl
  | succ k ih => simp [ofNat, ih]

theorem toNat_concat (l : Bytes) (b : UInt8) : toNat (l ++ [b]) = toNat l * 256 + b.toNat := by
  simp [toNat]

theorem toNat_ofNat {k n : ℕ} (h : n < 256 ^ k) : toNat (ofNat k n) = n := by
  induction k generalizing n with
  | zero =>
    rw [pow_zero, Nat.lt_one_iff] at h
    subst h
    rfl
  | succ k ih =>
    have hhigh : n / 256 < 256 ^ k := by
      apply Nat.div_lt_of_lt_mul
      rw [pow_succ] at h
      omega
    have hlow : (UInt8.ofNat (n % 256)).toNat = n % 256 := by
      rw [UInt8.toNat_ofNat']
      exact Nat.mod_mod n 256
    rw [ofNat, toNat_concat, ih hhigh, hlow, Nat.mul_comm]
    exact Nat.div_add_mod n 256

end Bytes

structure Word where
  bytes : Bytes
  length_eq : bytes.length = 32
deriving DecidableEq

namespace Word

theorem bytes_inj {v w : Word} (h : v.bytes = w.bytes) : v = w := by
  cases v
  cases w
  simp only at h
  subst h
  rfl

/-- The word a list of bytes starts with. -/
def ofPrefix (l : Bytes) : Option Word :=
  if h : (l.take 32).length = 32 then some ⟨l.take 32, h⟩ else none

theorem ofPrefix_append (w : Word) (l : Bytes) : ofPrefix (w.bytes ++ l) = some w := by
  have htake : (w.bytes ++ l).take 32 = w.bytes := by
    rw [← w.length_eq, List.take_left]
  unfold ofPrefix
  rw [dif_pos (by rw [htake]; exact w.length_eq)]
  exact congrArg some (bytes_inj htake)

theorem drop_append (w : Word) (l : Bytes) : (w.bytes ++ l).drop 32 = l := by
  rw [← w.length_eq, List.drop_left]

/-- The word of a number, and the number of a word. -/
def ofNat (n : ℕ) : Word := ⟨Bytes.ofNat 32 n, Bytes.length_ofNat 32 n⟩

def toNat (w : Word) : ℕ := Bytes.toNat w.bytes

theorem toNat_ofNat {n : ℕ} (h : n < 2 ^ 256) : (ofNat n).toNat = n := by
  apply Bytes.toNat_ofNat
  have hpow : (256 : ℕ) ^ 32 = 2 ^ 256 := by norm_num
  omega

end Word

end Bifrost
