import Mathlib.Data.Nat.Bitwise

/-!
# Bit sets in bytes

A set of numbers as a list of bytes: number `n` is bit `n % 8` of byte `n / 8`, and the list has as
many bytes as it needs. Growing the list keeps the set, and so a number can be added to any list that
has been grown enough (`testBit_orAt`).
-/

namespace SimLn.Lib.Bytes

/-- Whether `n` is in the set. A byte that is not there is zero. -/
def testBit (bytes : List UInt8) (n : Nat) : Bool := (bytes.getD (n / 8) 0).toNat.testBit (n % 8)

/-- Cuts the list off or fills it up with zeros, to a given length. -/
def resize (bytes : List UInt8) (length : Nat) : List UInt8 :=
  bytes.take length ++ List.replicate (length - bytes.length) 0

/-- Sets the bits of a mask in one of the bytes. -/
def orAt (bytes : List UInt8) (offset : Nat) (mask : UInt8) : List UInt8 :=
  bytes.modify offset (· ||| mask)

@[simp] theorem length_resize (bytes : List UInt8) (length : Nat) :
    (resize bytes length).length = length := by
  unfold resize
  rw [List.length_append, List.length_take, List.length_replicate]
  omega

theorem getD_replicate_zero (length i : Nat) :
    (List.replicate length (0 : UInt8)).getD i 0 = 0 := by
  rw [List.getD_eq_getElem?_getD, List.getElem?_getD_replicate_default_eq]

theorem testBit_replicate_zero (length n : Nat) : testBit (List.replicate length 0) n = false := by
  unfold testBit
  rw [getD_replicate_zero]
  exact Nat.zero_testBit _

/-- A list that only grows keeps its bits. -/
theorem testBit_resize {bytes : List UInt8} {length : Nat} (h : bytes.length ≤ length) (n : Nat) :
    testBit (resize bytes length) n = testBit bytes n := by
  unfold testBit resize
  rw [List.take_of_length_le h]
  by_cases hn : n / 8 < bytes.length
  · rw [List.getD_append _ _ _ _ hn]
  · rw [List.getD_append_right _ _ _ _ (by omega), List.getD_eq_default bytes _ (by omega)]
    rw [getD_replicate_zero]

/-- In a byte that is there, a mask adds its bits. -/
theorem testBit_orAt {bytes : List UInt8} {offset : Nat} (h : offset < bytes.length) (mask : UInt8)
    (n : Nat) : testBit (orAt bytes offset mask) n
      = (testBit bytes n || (decide (n / 8 = offset) && mask.toNat.testBit (n % 8))) := by
  unfold testBit orAt
  rw [List.getD_eq_getElem?_getD, List.getD_eq_getElem?_getD, List.getElem?_modify]
  by_cases hn : offset = n / 8
  · subst hn
    rw [List.getElem?_eq_getElem h]
    simp [UInt8.toNat_or, Nat.testBit_or]
  · cases hbyte : bytes[n / 8]? with
    | none => simp [hn, Ne.symm hn]
    | some byte => simp [hn, Ne.symm hn]

/-- Shifting a one by less than a byte. -/
theorem toNat_one_shiftLeft {k : UInt8} (h : k.toNat < 8) :
    ((1 : UInt8) <<< k).toNat = 2 ^ k.toNat := by
  rw [UInt8.toNat_shiftLeft, Nat.mod_eq_of_lt h, UInt8.toNat_one, Nat.one_shiftLeft]
  apply Nat.mod_eq_of_lt
  exact Nat.pow_lt_pow_right (by omega) h

/-- Adding `m` to a set that has room for it. -/
theorem testBit_insert {bytes : List UInt8} {m : Nat} {mask : UInt8} (h : m / 8 < bytes.length)
    (hmask : mask.toNat = 2 ^ (m % 8)) (n : Nat) :
    testBit (orAt bytes (m / 8) mask) n = (testBit bytes n || decide (m = n)) := by
  rw [testBit_orAt h, hmask, Nat.testBit_two_pow]
  congr 1
  rw [← Bool.decide_and, decide_eq_decide]
  constructor
  · rintro ⟨hbyte, hbit⟩
    rw [← Nat.div_add_mod m 8, ← Nat.div_add_mod n 8, hbyte, hbit]
  · rintro rfl
    exact ⟨rfl, rfl⟩

end SimLn.Lib.Bytes
