import BridgeGuardian.Bytes
import Mathlib.Algebra.Group.Nat.Defs

/-! # Capacities — the numbers that a width can hold

    Writing a number and reading it back are inverse up to the width:
    `ofBigEndian_bigEndian` is the one direction, `bigEndian_ofBigEndian`
    the other.  So a string of octets spells a number below the capacity of
    its width, and every such number can be spelled. -/

namespace BridgeGuardian

/-- Writing keeps a number modulo the capacity of the width. -/
theorem ofBigEndian_bigEndian (width n : Nat) :
    ofBigEndian (bigEndian width n) = n % 256 ^ width := by
  induction width generalizing n with
  | zero => simp [bigEndian, Nat.mod_one]
  | succ width ih =>
      rw [bigEndian, ofBigEndian_concat, ih, Nat.pow_succ, Nat.mul_comm (256 ^ width),
        Nat.mod_mul]
      simp
      omega

/-- A number below the capacity survives. -/
theorem ofBigEndian_bigEndian_of_lt {width n : Nat} (h : n < 256 ^ width) :
    ofBigEndian (bigEndian width n) = n := by
  rw [ofBigEndian_bigEndian, Nat.mod_eq_of_lt h]

/-- A string of octets spells a number below the capacity of its width. -/
theorem ofBigEndian_lt (bs : Bytes) : ofBigEndian bs < 256 ^ bs.length := by
  have h := ofBigEndian_bigEndian bs.length (ofBigEndian bs)
  rw [bigEndian_ofBigEndian] at h
  rw [h]
  exact Nat.mod_lt _ (Nat.pow_pos (by decide))

/-- A block spells a number below its capacity. -/
theorem Block.toNat_lt {n : Nat} (b : Block n) : b.toNat < 256 ^ n := by
  have h := ofBigEndian_lt b.bytes
  rwa [b.length_eq] at h

end BridgeGuardian
