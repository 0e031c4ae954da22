import BridgeGuardian.Proofs.Envelope
import BridgeGuardian.Proofs.Fields.Layout
import BridgeGuardian.Proofs.Governance.Announcement
import BridgeGuardian.Proofs.Transfer

/-! # Truncation — records that end too early

    A signed message, a transfer and an announcement are laid out field by
    field, the signatures and the keys among them one by one.  If what reads
    as such a record is cut anywhere inside its layout, it is refused, and
    the wording names the one field that the cut falls into, its width, where
    it starts and how many octets of it are left.  What is checked in front
    of the cut is still there and in order, so no other fault comes first. -/

namespace BridgeGuardian

/-! ## Answers -/

/-- The answer to a record that ends at an offset names the one field that
    holds the offset, its width, its start, and how much of it is there. -/
def Layout.NamesCut {α : Type} (layout : Layout) (what : String) (cut : Nat)
    (answer : Except Failure α) : Prop :=
  (∃! place, place ∈ layout.places 0 ∧ place.Holds cut) ∧
  ∀ place ∈ layout.places 0, place.Holds cut →
    answer = .error (.undecodable what
      (Malformed.truncated place.name place.width place.start (cut - place.start)).message)

/-- What a reader reports becomes the answer of the service. -/
theorem Reader.ReportsCuts.namesCut {α : Type} {p : Reader α} {layout : Layout} {octets : Bytes}
    (h : p.ReportsCuts layout octets) {cut : Nat} (hcut : cut < layout.width) (what : String) :
    layout.NamesCut what cut ((p.read (octets.take cut)).mapError
      fun fault => .undecodable what fault.message) := by
  have honly : ∃! place, place ∈ layout.places 0 ∧ place.Holds cut :=
    Layout.existsUnique_place (Nat.zero_le _) (by rwa [Nat.zero_add])
  refine ⟨honly, fun place hmem hholds => ?_⟩
  obtain ⟨found, hfound, hin, herror⟩ := h 0 cut hcut
  rw [Nat.zero_add] at hin herror
  rw [honly.unique ⟨hmem, hholds⟩ ⟨hfound, hin⟩, Reader.read, herror]
  rfl

/-! ## Signed messages -/

namespace Vaa

/-- The fields of a signature. -/
def signatureLayout : Layout := [⟨"signature index", 1⟩, ⟨"signature", 65⟩]

/-- The fields of a coordinate. -/
def coordinateLayout : Layout := [⟨"emitter_chain", 2⟩, ⟨"emitter_address", 32⟩, ⟨"sequence", 8⟩]

/-- The fields of a message with so many signatures. -/
def layout (signatures : Nat) : Layout :=
  [⟨"version", 1⟩, ⟨"guardian_set_index", 4⟩, ⟨"signature count", 1⟩]
    ++ ((List.replicate signatures signatureLayout).flatten
    ++ ([⟨"timestamp", 4⟩, ⟨"nonce", 4⟩] ++ (coordinateLayout ++ [⟨"consistency_level", 1⟩])))

theorem width_layout (signatures : Nat) : (layout signatures).width = 57 + 66 * signatures := by
  simp only [layout, Layout.width_append, Layout.width_flatten_replicate, signatureLayout,
    coordinateLayout, Layout.width]
  omega

theorem isLaidOut_readSignature :
    Reader.IsLaidOut readSignature signatureLayout writeSignature where
  isField := isField_readSignature
  reportsCuts s := (Reader.isLaidOut_uint8 "signature index").bind
    (((Reader.isLaidOut_block 65 "signature").reportsCuts s.signature).andThen _)

theorem isLaidOut_readCoordinate :
    Reader.IsLaidOut readCoordinate coordinateLayout writeCoordinate where
  isField := isField_readCoordinate
  reportsCuts c := by
    rw [writeCoordinate, List.append_assoc]
    refine (Reader.isLaidOut_uint16 "emitter_chain").bind ?_
    refine (Reader.isLaidOut_block 32 "emitter_address").bind ?_
    exact ((Reader.isLaidOut_uint64 "sequence").reportsCuts c.sequence).andThen _

theorem reportsCuts_reader {v : Vaa} (hversion : v.version = currentVersion)
    (hcount : v.signatures.length < 256) :
    reader.ReportsCuts (layout v.signatures.length) v.serialize := by
  rw [serialize_eq]
  refine (Reader.isLaidOut_uint8 "version").bind ?_
  rw [if_neg (not_not_intro hversion)]
  refine (Reader.isLaidOut_uint32 "guardian_set_index").bind ?_
  refine (Reader.isLaidOut_uint8 "signature count").bind ?_
  have hlength : v.signatures.length = (UInt8.ofNat v.signatures.length).toNat :=
    (UInt8.toNat_ofNat_of_lt' hcount).symm
  rw [← hlength]
  refine isLaidOut_readSignature.bind_repeated rfl ?_
  refine (Reader.isLaidOut_uint32 "timestamp").bind ?_
  refine (Reader.isLaidOut_uint32 "nonce").bind ?_
  refine isLaidOut_readCoordinate.bind ?_
  refine (Reader.isLaidOut_uint8 "consistency_level").bind ?_
  exact .nothing _ _

end Vaa

/-! ## Transfers -/

namespace Transfer

/-- The fields of a transfer. -/
def layout : Layout :=
  [⟨"payload id", 1⟩, ⟨"amount", 32⟩, ⟨"token_id", 32⟩, ⟨"token_chain_id", 2⟩,
    ⟨"to_address", 32⟩, ⟨"to_chain_id", 2⟩, ⟨"fee", 32⟩]

theorem reportsCuts_reader (t : Transfer) (rest : Bytes) :
    reader.ReportsCuts layout (t.encode ++ rest) := by
  simp only [encode_eq, List.append_assoc]
  refine (Reader.isLaidOut_uint8 "payload id").bind ?_
  rw [if_neg (not_not_intro rfl)]
  refine (Reader.isLaidOut_uint256 "amount").bind ?_
  refine (Reader.isLaidOut_block 32 "token_id").bind ?_
  refine (Reader.isLaidOut_uint16 "token_chain_id").bind ?_
  refine (Reader.isLaidOut_block 32 "to_address").bind ?_
  refine (Reader.isLaidOut_uint16 "to_chain_id").bind ?_
  refine (Reader.isLaidOut_uint256 "fee").bind ?_
  exact .nothing _ _

end Transfer

/-! ## Announcements -/

namespace GuardianSetUpdate

/-- The fields of an announcement of so many keys. -/
def layout (keys : Nat) : Layout :=
  [⟨"module", 32⟩, ⟨"action", 1⟩, ⟨"chain", 2⟩, ⟨"new_index", 4⟩, ⟨"key count", 1⟩]
    ++ (List.replicate keys [⟨"guardian key", 20⟩]).flatten

theorem width_layout (keys : Nat) : (layout keys).width = 40 + 20 * keys := by
  simp only [layout, Layout.width_append, Layout.width_flatten_replicate, Layout.width]
  omega

theorem reportsCuts_reader {u : GuardianSetUpdate} (hcount : u.keys.length < 256) (chain : UInt16)
    (rest : Bytes) : reader.ReportsCuts (layout u.keys.length) (u.fields chain rest) := by
  rw [fields]
  refine (Reader.isLaidOut_block 32 "module").bind ?_
  rw [if_neg (not_not_intro rfl)]
  refine (Reader.isLaidOut_uint8 "action").bind ?_
  rw [if_neg (not_not_intro rfl)]
  refine (Reader.isLaidOut_uint16 "chain").bind ?_
  refine (Reader.isLaidOut_uint32 "new_index").bind ?_
  refine (Reader.isLaidOut_uint8 "key count").bind ?_
  have hlength : u.keys.length = (UInt8.ofNat u.keys.length).toNat :=
    (UInt8.toNat_ofNat_of_lt' hcount).symm
  rw [← hlength, ← List.append_nil (List.replicate _ _).flatten]
  refine (Reader.isLaidOut_block 20 "guardian key").bind_repeated rfl ?_
  exact .nothing _ _

end GuardianSetUpdate

/-! ## Every cut -/

/-- Wherever inside its fields a signed message, a transfer or an announcement
    is cut, the answer is a failure to decode that names the one field that
    holds the cut. -/
theorem cuts_are_reported_at_their_field :
    (∀ bytes v, Vaa.parse bytes = .ok v → ∀ cut < 57 + 66 * v.signatures.length,
      (Vaa.layout v.signatures.length).NamesCut "vaa" cut (Vaa.parseOrFail (bytes.take cut))) ∧
    (∀ payload t, Transfer.decode payload = .ok t → ∀ cut < 133,
      Transfer.layout.NamesCut "transfer" cut (Transfer.decodeOrFail (payload.take cut))) ∧
    ∀ payload u, GuardianSetUpdate.decode payload = .ok u → ∀ cut < 40 + 20 * u.keys.length,
      (GuardianSetUpdate.layout u.keys.length).NamesCut "guardian set update" cut
        (GuardianSetUpdate.decodeOrFail (payload.take cut)) := by
  refine ⟨fun bytes v h cut hcut => ?_, fun payload t h cut hcut => ?_,
    fun payload u h cut hcut => ?_⟩
  · obtain ⟨hversion, hcount, rfl⟩ := Vaa.of_parse h
    exact (Vaa.reportsCuts_reader hversion hcount).namesCut (by rwa [Vaa.width_layout]) "vaa"
  · obtain ⟨rest, rfl⟩ := Transfer.decode_eq_ok_iff.mp h
    exact (t.reportsCuts_reader rest).namesCut hcut "transfer"
  · obtain ⟨hcount, chain, rest, rfl⟩ := GuardianSetUpdate.decode_eq_ok_iff.mp h
    exact (GuardianSetUpdate.reportsCuts_reader hcount chain rest).namesCut
      (by rwa [GuardianSetUpdate.width_layout]) "guardian set update"

/-- A message with one signature. -/
def onceSigned : Vaa := { Vaa.overfull with signatures := [⟨0, .ofNat 65 0⟩] }

/-- An announcement of two keys. -/
def pairOfKeys : GuardianSetUpdate where
  keys := [.ofNat 20 1, .ofNat 20 2]
  newIndex := 5

/-- A cut in the signature, one in the chain of the recipient, and one in the
    second key. -/
theorem signature_chain_and_key_are_named :
    (Vaa.parse onceSigned.serialize = .ok onceSigned ∧
      Vaa.parseOrFail (onceSigned.serialize.take 40) = .error (.undecodable "vaa"
        "truncated at signature: need 65 bytes at offset 7, have 33")) ∧
    (Transfer.decode (Transfer.greatest.encode ++ [9]) = .ok Transfer.greatest ∧
      Transfer.decodeOrFail ((Transfer.greatest.encode ++ [9]).take 100)
        = .error (.undecodable "transfer"
          "truncated at to_chain_id: need 2 bytes at offset 99, have 1")) ∧
    GuardianSetUpdate.decode pairOfKeys.serialize = .ok pairOfKeys ∧
      GuardianSetUpdate.decodeOrFail (pairOfKeys.serialize.take 65)
        = .error (.undecodable "guardian set update"
          "truncated at guardian key: need 20 bytes at offset 60, have 5") := by
  obtain ⟨hmessages, htransfers, hsets⟩ := cuts_are_reported_at_their_field
  have hmessage : Vaa.parse onceSigned.serialize = .ok onceSigned :=
    Vaa.parse_serialize rfl (by decide)
  have htransfer := Transfer.greatest.decode_encode_append [9]
  have hset : GuardianSetUpdate.decode pairOfKeys.serialize = .ok pairOfKeys :=
    GuardianSetUpdate.decode_serialize (by decide)
  refine ⟨⟨hmessage, ?_⟩, ⟨htransfer, ?_⟩, hset, ?_⟩
  · exact (hmessages _ _ hmessage 40 (by decide)).2 ⟨"signature", 65, 7⟩ (by decide) (by decide)
  · exact (htransfers _ _ htransfer 100 (by decide)).2 ⟨"to_chain_id", 2, 99⟩ (by decide)
      (by decide)
  · exact (hsets _ _ hset 65 (by decide)).2 ⟨"guardian key", 20, 60⟩ (by decide) (by decide)

end BridgeGuardian
