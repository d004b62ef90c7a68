import SimLn.Lib.Bytes
import Mathlib.Data.List.Basic

/-!
# SimLn — the features that a node advertises

Two of the backends report the features of a node as bit numbers, in no particular order. Each has
its own loop that collects them in the bytes that LDK reads features from. The loops set the same
bits: the advertised ones.
-/

namespace SimLn

open Lib Lib.Bytes

/-- Byte `byteOffset` is there, with all bytes before it. -/
def ensureByte (flags : List UInt8) (byteOffset : Nat) : List UInt8 :=
  if flags.length ≤ byteOffset then resize flags (byteOffset + 1) else flags

namespace Lnd

/-- The bytes for the features in the format returned by LND, of which 256 are there from the start. -/
def parseNodeFeatures (features : List UInt32) : List UInt8 :=
  features.foldl (fun flags f =>
    let byteOffset := (f / 8).toNat
    let mask : UInt8 := 1 <<< (f - 8 * UInt32.ofNat byteOffset).toUInt8
    orAt (ensureByte flags byteOffset) byteOffset mask) (List.replicate 256 0)

end Lnd

namespace LdkServer

/-- The bytes for the feature bits advertised by ldk-server. -/
def parseNodeFeatures (bits : List UInt32) : List UInt8 :=
  bits.foldl (fun flags bit =>
    let byteOffset := (bit / 8).toNat
    orAt (ensureByte flags byteOffset) byteOffset ((1 : UInt8) <<< (bit % 8).toUInt8)) []

end LdkServer

/-! ## One feature -/

theorem testBit_ensureByte (flags : List UInt8) (byteOffset n : Nat) :
    testBit (ensureByte flags byteOffset) n = testBit flags n := by
  unfold ensureByte
  split_ifs with h
  · exact testBit_resize (by omega) n
  · rfl

theorem lt_length_ensureByte (flags : List UInt8) (byteOffset : Nat) :
    byteOffset < (ensureByte flags byteOffset).length := by
  unfold ensureByte
  split_ifs with h
  · rw [length_resize]
    omega
  · omega

/-- Growing the bytes and setting one bit in them adds one feature. -/
theorem testBit_addFeature (flags : List UInt8) {f : UInt32} {shift : UInt8}
    (hshift : shift.toNat = f.toNat % 8) (n : Nat) :
    testBit (orAt (ensureByte flags (f / 8).toNat) (f / 8).toNat (1 <<< shift)) n
      = (testBit flags n || decide (f.toNat = n)) := by
  have hoffset : (f / 8).toNat = f.toNat / 8 := UInt32.toNat_div f 8
  have hmask : ((1 : UInt8) <<< shift).toNat = 2 ^ (f.toNat % 8) := by
    rw [toNat_one_shiftLeft (by omega), hshift]
  rw [hoffset, testBit_insert (lt_length_ensureByte _ _) hmask, testBit_ensureByte]

/-- LND's shift is what is left of the number after its full bytes. -/
theorem toNat_lndShift (f : UInt32) :
    (f - 8 * UInt32.ofNat (f / 8).toNat).toUInt8.toNat = f.toNat % 8 := by
  have hdiv : (f / 8).toNat = f.toNat / 8 := UInt32.toNat_div f 8
  have hlt := f.toNat_lt
  have hfull : (8 * UInt32.ofNat (f / 8).toNat).toNat = 8 * (f.toNat / 8) := by
    rw [UInt32.ofNat_toNat, UInt32.toNat_mul, hdiv]
    show 8 * (f.toNat / 8) % 2 ^ 32 = _
    omega
  rw [UInt32.toNat_toUInt8, UInt32.toNat_sub_of_le, hfull]
  · omega
  · rw [UInt32.le_iff_toNat_le, hfull]
    omega

theorem toNat_ldkShift (f : UInt32) : (f % 8).toUInt8.toNat = f.toNat % 8 := by
  rw [UInt32.toNat_toUInt8, UInt32.toNat_mod]
  show f.toNat % 8 % 2 ^ 8 = f.toNat % 8
  omega

/-! ## All features -/

/-- Induction on the features that are left: each of them is added, whatever has been set before. -/
theorem testBit_foldl {step : List UInt8 → UInt32 → List UInt8} (features : List UInt32)
    (hstep : ∀ flags f n, testBit (step flags f) n = (testBit flags n || decide (f.toNat = n)))
    (flags : List UInt8) (n : Nat) :
    testBit (features.foldl step flags) n = true ↔
      testBit flags n = true ∨ ∃ f ∈ features, f.toNat = n := by
  induction features generalizing flags with
  | nil => simp
  | cons f rest ih =>
    rw [List.foldl_cons, ih, hstep, Bool.or_eq_true, decide_eq_true_eq, List.exists_mem_cons_iff,
      or_assoc]

theorem Lnd.testBit_parseNodeFeatures (features : List UInt32) (n : Nat) :
    testBit (Lnd.parseNodeFeatures features) n = true ↔ ∃ f ∈ features, f.toNat = n := by
  unfold Lnd.parseNodeFeatures
  rw [testBit_foldl features fun flags f n => testBit_addFeature flags (toNat_lndShift f) n]
  rw [testBit_replicate_zero]
  simp

theorem LdkServer.testBit_parseNodeFeatures (bits : List UInt32) (n : Nat) :
    testBit (LdkServer.parseNodeFeatures bits) n = true ↔ ∃ f ∈ bits, f.toNat = n := by
  unfold LdkServer.parseNodeFeatures
  rw [testBit_foldl bits fun flags f n => testBit_addFeature flags (toNat_ldkShift f) n]
  show testBit (List.replicate 0 0) n = true ∨ _ ↔ _
  rw [testBit_replicate_zero]
  simp

/-- **The bits set are those advertised.** Both loops set them and no others, whatever the order and
the repetitions, so that they agree on the same advertisement. -/
theorem parseNodeFeatures_exact (features : List UInt32) :
    (∀ n, testBit (Lnd.parseNodeFeatures features) n = true ↔ ∃ f ∈ features, f.toNat = n) ∧
      (∀ n, testBit (LdkServer.parseNodeFeatures features) n = true ↔
        ∃ f ∈ features, f.toNat = n) ∧
      ∀ features' : List UInt32, (∀ f, f ∈ features ↔ f ∈ features') →
        ∀ n, testBit (Lnd.parseNodeFeatures features) n
          = testBit (LdkServer.parseNodeFeatures features') n := by
  refine ⟨Lnd.testBit_parseNodeFeatures features, LdkServer.testBit_parseNodeFeatures features, ?_⟩
  intro features' hsame n
  rw [Bool.eq_iff_iff, Lnd.testBit_parseNodeFeatures, LdkServer.testBit_parseNodeFeatures]
  simp only [hsame]

example : LdkServer.parseNodeFeatures [9, 55, 80] = [0, 2, 0, 0, 0, 0, 128, 0, 0, 0, 1] := by decide

end SimLn
