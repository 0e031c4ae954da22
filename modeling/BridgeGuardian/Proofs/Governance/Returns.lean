import BridgeGuardian.Governance.Payload
import BridgeGuardian.Proofs.Bytes
import Mathlib.Algebra.GroupWithZero.Nat

/-! # Returns — the layout of a payload that gives funds back

    The payload has 169 octets, and every field stands at a place of its
    own, so whoever cuts it up by the widths finds the number of the
    transfer, the wrapper, the recipient, the amount and the fee, whatever
    their values are. -/

namespace BridgeGuardian

/-- A payload orders a return, field by field. -/
structure IsReturn (payload : Bytes) (sequence : UInt64) (wrapper recipient : Bytes32)
    (amount fee : Amount) : Prop where
  length : payload.length = 169
  tag : payload.take 32 = List.replicate 21 0 ++ utf8 "TokenBridge"
  action : (payload.drop 32).take 1 = [3]
  sequence : ofBigEndian ((payload.drop 33).take 8) = sequence.toNat
  wrapper : (payload.drop 41).take 32 = wrapper.bytes
  recipient : (payload.drop 73).take 32 = recipient.bytes
  amount : ofBigEndian ((payload.drop 105).take 32) = amount.toNat
  fee : ofBigEndian ((payload.drop 137).take 32) = fee.toNat

theorem Amount.length_toBytes (a : Amount) : a.toBytes.length = 32 := length_bigEndian 32 a.toNat

theorem Amount.ofBigEndian_toBytes (a : Amount) : ofBigEndian a.toBytes = a.toNat :=
  ofBigEndian_bigEndian_of_lt a.isLt

theorem bytes_tokenBridgeTag :
    tokenBridgeTag.bytes = List.replicate 21 0 ++ utf8 "TokenBridge" := by
  decide +kernel

/-- Fields in a row are found again by their widths. -/
theorem take_drop_flatten {fields : List Bytes} {widths : List Nat}
    (hwidths : fields.map List.length = widths) {i width : Nat} {field : Bytes}
    (hfield : fields[i]? = some field) (hwidth : widths[i]? = some width) :
    (fields.flatten.drop (widths.take i).sum).take width = field := by
  subst hwidths
  rw [List.getElem?_map, hfield] at hwidth
  cases hwidth
  induction fields generalizing i with
  | nil => cases hfield
  | cons first rest ih =>
      cases i with
      | zero =>
          cases hfield
          exact List.take_left
      | succ i =>
          rw [List.map_cons, List.take_succ_cons, List.sum_cons, List.flatten_cons,
            List.drop_length_add_append]
          exact ih hfield

/-- The order that is built for a transfer has this layout. -/
theorem isReturn_serialize (sequence : UInt64) (wrapper recipient : Bytes32)
    (amount fee : Amount) :
    IsReturn (GovernancePayload.undoneTransfer sequence wrapper recipient amount fee).serialize
      sequence wrapper recipient amount fee := by
  let fields : List Bytes := [tokenBridgeTag.bytes, [3], bigEndian 8 sequence.toNat,
    wrapper.bytes, recipient.bytes, amount.toBytes, fee.toBytes]
  have hpayload : (GovernancePayload.undoneTransfer sequence wrapper recipient amount
      fee).serialize = fields.flatten := by
    simp only [GovernancePayload.serialize, fields, List.flatten_cons, List.flatten_nil,
      List.append_assoc, List.append_nil]
  have hwidths : fields.map List.length = [32, 1, 8, 32, 32, 32, 32] := by
    simp only [fields, List.map_cons, List.map_nil, tokenBridgeTag.length_eq, wrapper.length_eq,
      recipient.length_eq, amount.length_toBytes, fee.length_toBytes, length_bigEndian,
      List.length_singleton]
  have hnumber : ofBigEndian (bigEndian 8 sequence.toNat) = sequence.toNat :=
    ofBigEndian_bigEndian_of_lt sequence.toNat_lt
  rw [hpayload]
  -- the place of a field is the sum of the widths in front of it
  exact {
    length := by
      rw [List.length_flatten, hwidths]
      rfl
    tag := bytes_tokenBridgeTag ▸ take_drop_flatten (i := 0) hwidths rfl rfl
    action := take_drop_flatten (i := 1) hwidths rfl rfl
    sequence := hnumber ▸ congrArg ofBigEndian (take_drop_flatten (i := 2) hwidths rfl rfl)
    wrapper := take_drop_flatten (i := 3) hwidths rfl rfl
    recipient := take_drop_flatten (i := 4) hwidths rfl rfl
    amount := amount.ofBigEndian_toBytes ▸
      congrArg ofBigEndian (take_drop_flatten (i := 5) hwidths rfl rfl)
    fee := fee.ofBigEndian_toBytes ▸
      congrArg ofBigEndian (take_drop_flatten (i := 6) hwidths rfl rfl) }

end BridgeGuardian
