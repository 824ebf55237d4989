import StepRunner.Bytes.Varint

namespace StepRunner.Varint

variable {k n taken : Nat} {bytes : Bytes}

/-- Reading a number does not look past it. -/
theorem readUpTo_append (h : readUpTo k bytes = some (n, taken)) (rest : Bytes) :
    readUpTo k (bytes ++ rest) = some (n, taken) := by
  induction k generalizing bytes n taken with
  | zero => cases h
  | succ k ih =>
    cases bytes with
    | nil => cases h
    | cons b bytes =>
      rw [List.cons_append, readUpTo]
      rw [readUpTo] at h
      split at h
      · next hb => rw [if_pos hb, h]
      · next hb =>
        rw [if_neg hb]
        cases hread : readUpTo k bytes with
        | none => simp [hread] at h
        | some found => rwa [ih hread, ← hread]

/-- The bytes that were taken are enough. -/
theorem readUpTo_take (h : readUpTo k bytes = some (n, taken)) :
    readUpTo k (bytes.take taken) = some (n, taken) := by
  induction k generalizing bytes n taken with
  | zero => cases h
  | succ k ih =>
    cases bytes with
    | nil => cases h
    | cons b bytes =>
      rw [readUpTo] at h
      split at h
      · next hb =>
        split at h
        · cases h
        · next hlast =>
          cases h
          rw [List.take_succ_cons, readUpTo, if_pos hb, if_neg hlast]
      · next hb =>
        cases hread : readUpTo k bytes with
        | none => simp [hread] at h
        | some found =>
          obtain ⟨high, others⟩ := found
          rw [hread] at h
          cases h
          rw [List.take_succ_cons, readUpTo, if_neg hb, ih hread]

/-- What is read of a number is its own bytes. -/
theorem decode_take_append (h : decode bytes = some (n, taken)) (rest : Bytes) :
    decode (bytes.take taken ++ rest) = some (n, taken) :=
  readUpTo_append (readUpTo_take h) rest

theorem length_groups_le (k n : Nat) : (groups k n).length ≤ k := by
  induction k generalizing n with
  | zero => exact Nat.le_refl 0
  | succ k ih =>
    rw [groups]
    split
    · simp
    · exact Nat.succ_le_succ (ih (n / 128))

theorem length_encode_pos (n : Nat) : 0 < (encode n).length := by
  rw [encode, groups]
  split <;> simp

/-- A smaller number takes no more bytes. -/
theorem length_groups_mono {m n : Nat} (h : m ≤ n) (k : Nat) :
    (groups k m).length ≤ (groups k n).length := by
  induction k generalizing m n with
  | zero => exact Nat.le_refl 0
  | succ k ih =>
    have hdiv : m / 128 ≤ n / 128 := Nat.div_le_div_right h
    rw [groups, groups]
    by_cases hn : n < 128
    · have hm : m < 128 := Nat.lt_of_le_of_lt h hn
      rw [if_pos hm, if_pos hn]
      simp
    · rw [if_neg hn]
      split
      · simp
      · exact Nat.succ_le_succ (ih hdiv)

/-- Reading accepts no spelling that is shorter than the one that is written. -/
theorem length_groups_le_taken (h : readUpTo k bytes = some (n, taken)) (j : Nat) :
    (groups j n).length ≤ taken := by
  induction k generalizing bytes n taken j with
  | zero => cases h
  | succ k ih =>
    cases bytes with
    | nil => cases h
    | cons b bytes =>
      rw [readUpTo] at h
      split at h
      · next hb =>
        split at h
        · cases h
        · cases h
          cases j with
          | zero => simp [groups]
          | succ j => simp [groups, hb]
      · next hb =>
        cases hread : readUpTo k bytes with
        | none => simp [hread] at h
        | some found =>
          obtain ⟨high, others⟩ := found
          rw [hread] at h
          cases h
          have hlt := b.toNat_lt
          cases j with
          | zero => simp [groups]
          | succ j =>
            have hhigh : (b.toNat - 128 + 128 * high) / 128 = high := by omega
            have hothers := ih hread j
            rw [groups, hhigh]
            split
            · simp
            · exact Nat.succ_le_succ hothers

end StepRunner.Varint
