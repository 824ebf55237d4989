import StepRunner.Bytes

namespace StepRunner.Varint

/-- At most `k` groups of seven bits of `n`. -/
def groups : Nat → Nat → Bytes
  | 0, _ => []
  | k + 1, n => if n < 128 then [n.toUInt8] else (n % 128 + 128).toUInt8 :: groups k (n / 128)

/-- Lowest bits first; every byte but the last has its high bit set. -/
def encode (n : Nat) : Bytes := groups 10 n

/-- Reads a number of at most `k` bytes, the `k`-th at most 1, and tells how many it took. -/
def readUpTo : Nat → Bytes → Option (Nat × Nat)
  | 0, _ => none
  | _ + 1, [] => none
  | k + 1, b :: rest =>
    if b.toNat < 128 then
      if k = 0 ∧ 1 < b.toNat then none else some (b.toNat, 1)
    else
      match readUpTo k rest with
      | some (high, taken) => some (b.toNat - 128 + 128 * high, taken + 1)
      | none => none

def decode (bytes : Bytes) : Option (Nat × Nat) := readUpTo 10 bytes

theorem toNat_toUInt8 {n : Nat} (h : n < 256) : n.toUInt8.toNat = n := by
  simp [Nat.mod_eq_of_lt h]

theorem readUpTo_groups (k n : Nat) (rest : Bytes) (hn : n < 2 * Nat.pow 128 k) :
    readUpTo (k + 1) (groups (k + 1) n ++ rest) = some (n, (groups (k + 1) n).length) := by
  induction k generalizing n with
  | zero =>
    have hn : n < 2 := hn
    have h : n.toUInt8.toNat = n := toNat_toUInt8 (by omega)
    simp [groups, readUpTo, h, show n < 128 by omega, show n ≤ 1 by omega]
  | succ k ih =>
    rw [groups]
    split
    · next h => simp [readUpTo, h, Nat.mod_eq_of_lt (show n < 256 by omega)]
    · have h : (n % 128 + 128).toUInt8.toNat = n % 128 + 128 := toNat_toUInt8 (by omega)
      have hd : n / 128 < 2 * Nat.pow 128 k := by
        have hp : Nat.pow 128 (k + 1) = Nat.pow 128 k * 128 := rfl
        omega
      rw [List.cons_append, readUpTo, h, ih (n / 128) hd]
      simp only [show ¬(n % 128 + 128 < 128) by omega, ite_false, Option.some.injEq, Prod.mk.injEq,
        List.length_cons, and_true]
      omega

theorem decode_encode (n : Nat) (rest : Bytes) (hn : n < UInt64.size) :
    decode (encode n ++ rest) = some (n, (encode n).length) :=
  readUpTo_groups 9 n rest hn

/-- Reading takes at least one byte, and no more than there are. -/
theorem taken_of_readUpTo {k n taken : Nat} {bytes : Bytes}
    (h : readUpTo k bytes = some (n, taken)) : 0 < taken ∧ taken ≤ bytes.length := by
  induction k generalizing bytes n taken with
  | zero => simp [readUpTo] at h
  | succ k ih =>
    cases bytes with
    | nil => simp [readUpTo] at h
    | cons b bytes => grind [readUpTo]

end StepRunner.Varint
