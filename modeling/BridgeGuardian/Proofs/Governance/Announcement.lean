import BridgeGuardian.Governance.Payload
import BridgeGuardian.Proofs.Fields

/-! # Announcements — which payloads read as a guardian set

    A payload announces a guardian set when it carries the tag of the core
    module, the second action, and room for as many keys as its fortieth
    octet counts.  The chain is not looked at, and neither is what follows
    the last key: `decode_eq_ok_iff` says that reading is undoing writing up
    to these two.  The tag in front tells the name of a module only up to
    leading zeros. -/

namespace BridgeGuardian

/-! ## Module names -/

/-- A name that fits the tag stands at its end. -/
theorem bytes_moduleTag {name : Bytes} (h : name.length ≤ 32) :
    (moduleTag name).bytes = List.replicate (32 - name.length) 0 ++ name := by
  show (List.replicate 32 0 ++ name).drop name.length = _
  rw [List.drop_append_of_le_length (by rwa [List.length_replicate]), List.drop_replicate]

/-- Zeros in front of a name are the same as the zeros of the tag. -/
theorem dropWhile_replicate_zero (zeros : Nat) (name : Bytes) :
    (List.replicate zeros 0 ++ name).dropWhile (· == 0) = name.dropWhile (· == 0) := by
  induction zeros with
  | zero => rfl
  | succ zeros ih =>
      rw [List.replicate_succ, List.cons_append, List.dropWhile_cons_of_pos rfl]
      exact ih

/-- A name is its leading zeros and the rest. -/
theorem eq_replicate_append_dropWhile (name : Bytes) :
    ∃ zeros, name = List.replicate zeros 0 ++ name.dropWhile (· == 0) := by
  induction name with
  | nil => exact ⟨0, rfl⟩
  | cons octet rest ih =>
      by_cases hzero : octet = 0
      · subst hzero
        obtain ⟨zeros, hrest⟩ := ih
        refine ⟨zeros + 1, ?_⟩
        rw [List.dropWhile_cons_of_pos rfl, List.replicate_succ, List.cons_append, ← hrest]
      · refine ⟨0, ?_⟩
        rw [List.dropWhile_cons_of_neg (by rwa [beq_iff_eq])]
        rfl

/-- The tag of a name is that of the name without leading zeros. -/
theorem bytes_moduleTag_eq_significant {name : Bytes} (h : name.length ≤ 32) :
    (moduleTag name).bytes
      = List.replicate (32 - (name.dropWhile (· == 0)).length) 0 ++ name.dropWhile (· == 0) := by
  obtain ⟨zeros, hname⟩ := eq_replicate_append_dropWhile name
  have hlength := congrArg List.length hname
  rw [List.length_append, List.length_replicate] at hlength
  have hzeros : 32 - (name.dropWhile (· == 0)).length = (32 - name.length) + zeros := by omega
  rw [bytes_moduleTag h, hzeros, ← List.replicate_append_replicate, List.append_assoc, ← hname]

/-- The tag tells a name up to the zeros in front of it. -/
theorem moduleTag_eq_iff {name other : Bytes} (h : name.length ≤ 32) (h' : other.length ≤ 32) :
    moduleTag name = moduleTag other ↔
      name.dropWhile (· == 0) = other.dropWhile (· == 0) := by
  constructor
  · intro htag
    have hbytes : (moduleTag name).bytes.dropWhile (· == 0)
        = (moduleTag other).bytes.dropWhile (· == 0) := by rw [htag]
    rwa [bytes_moduleTag h, bytes_moduleTag h', dropWhile_replicate_zero,
      dropWhile_replicate_zero] at hbytes
  · intro hname
    apply Block.ext
    rw [bytes_moduleTag_eq_significant h, bytes_moduleTag_eq_significant h', hname]

/-! ## Announcements -/

namespace GuardianSetUpdate

theorem isField_key : Reader.IsField (Reader.block 20 "guardian key") 20 Block.bytes :=
  Reader.isField_block 20 "guardian key"

/-- The fields in the order in which they are read, with a chain and what
    follows the last key. -/
def fields (u : GuardianSetUpdate) (chain : UInt16) (rest : Bytes) : Bytes :=
  coreTag.bytes ++ ([action] ++ (bigEndian 2 chain.toNat ++ (bigEndian 4 u.newIndex.toNat
    ++ ([UInt8.ofNat u.keys.length] ++ (u.keys.flatMap Block.bytes ++ rest)))))

theorem serialize_eq (u : GuardianSetUpdate) : u.serialize = u.fields 0 [] := by
  simp only [serialize, fields, List.append_assoc, List.append_nil]
  rfl

/-- What is read as an announcement is written like one, up to the chain and
    what follows the last key. -/
theorem decode_eq_ok_iff {payload : Bytes} {u : GuardianSetUpdate} :
    decode payload = .ok u ↔
      u.keys.length < 256 ∧ ∃ chain rest, payload = u.fields chain rest := by
  refine Reader.read_eq_ok_iff.trans ?_
  constructor
  · rintro ⟨e, h⟩
    obtain ⟨tag, c₁, htag, h⟩ := Reader.bind_eq_ok_iff.mp h
    by_cases hcore : tag ≠ coreTag
    · rw [if_pos hcore] at h
      cases h
    · rw [if_neg hcore] at h
      obtain ⟨found, c₂, hfound, h⟩ := Reader.bind_eq_ok_iff.mp h
      by_cases haction : found ≠ action
      · rw [if_pos haction] at h
        cases h
      · rw [if_neg haction] at h
        obtain ⟨chain, c₃, hchain, h⟩ := Reader.bind_eq_ok_iff.mp h
        obtain ⟨newIndex, c₄, hindex, h⟩ := Reader.bind_eq_ok_iff.mp h
        obtain ⟨count, c₅, hcount, h⟩ := Reader.bind_eq_ok_iff.mp h
        obtain ⟨keys, c₆, hkeys, h⟩ := Reader.bind_eq_ok_iff.mp h
        obtain ⟨rfl, -⟩ := Reader.pure_eq_ok_iff.mp h
        obtain ⟨hlength, hfront, -⟩ := (Reader.repeated_eq_ok_iff isField_key).mp hkeys
        refine ⟨hlength ▸ count.toNat_lt, chain, c₆.rest, ?_⟩
        have hpayload : payload = tag.bytes ++ c₁.rest :=
          ((Reader.isField_block 32 _).reads.mp htag).1
        unfold fields
        rw [hpayload, ((Reader.isField_uint8 _).reads.mp hfound).1,
          ((Reader.isField_uint16 _).reads.mp hchain).1,
          ((Reader.isField_uint32 _).reads.mp hindex).1,
          ((Reader.isField_uint8 _).reads.mp hcount).1, hfront, hlength, UInt8.ofNat_toNat,
          Decidable.not_not.mp hcore, Decidable.not_not.mp haction]
  · rintro ⟨hcount, chain, rest, rfl⟩
    refine .bind ((Reader.isField_block 32 _).read_write _ _ _) ?_
    rw [if_neg (not_not_intro rfl)]
    refine .bind ((Reader.isField_uint8 _).read_write _ _ _) ?_
    rw [if_neg (not_not_intro rfl)]
    refine .bind ((Reader.isField_uint16 _).read_write _ _ _) ?_
    refine .bind ((Reader.isField_uint32 _).read_write _ _ _) ?_
    refine .bind ((Reader.isField_uint8 _).read_write _ _ _) ?_
    have hlength : u.keys.length = (UInt8.ofNat u.keys.length).toNat :=
      (UInt8.toNat_ofNat_of_lt' hcount).symm
    refine .bind (isField_key.repeated_write hlength _ _) ?_
    exact ⟨_, rfl⟩

theorem decode_serialize {u : GuardianSetUpdate} (h : u.keys.length < 256) :
    decode u.serialize = .ok u :=
  decode_eq_ok_iff.mpr ⟨h, 0, [], u.serialize_eq⟩

/-- The tag of the core module, the second action, a count of keys, and room
    for so many. -/
def IsAnnouncement (payload : Bytes) : Prop :=
  payload.take 32 = coreTag.bytes ∧ payload[32]? = some action ∧
    ∃ count, payload[39]? = some count ∧ 40 + 20 * count.toNat ≤ payload.length

theorem length_fields (u : GuardianSetUpdate) (chain : UInt16) (rest : Bytes) :
    (u.fields chain rest).length = 40 + 20 * u.keys.length + rest.length := by
  simp only [fields, List.length_append, List.length_singleton, length_bigEndian,
    isField_key.length_flatMap, coreTag.length_eq]
  omega

theorem getElem?_count (found count : UInt8) (chain : UInt16) (newIndex : UInt32) (rest : Bytes) :
    ([found] ++ (bigEndian 2 chain.toNat ++ (bigEndian 4 newIndex.toNat ++ ([count] ++ rest))))[7]?
      = some count := by
  simp [List.getElem?_append]

/-- Behind the tag of an announcement stand its other fields. -/
theorem getElem?_fields (u : GuardianSetUpdate) (chain : UInt16) (rest : Bytes) (i : Nat) :
    (u.fields chain rest)[32 + i]? = ([action] ++ (bigEndian 2 chain.toNat
      ++ (bigEndian 4 u.newIndex.toNat ++ ([UInt8.ofNat u.keys.length]
      ++ (u.keys.flatMap Block.bytes ++ rest)))))[i]? := by
  rw [fields, List.getElem?_append_right (by rw [coreTag.length_eq]; exact Nat.le_add_right _ _),
    coreTag.length_eq, Nat.add_sub_cancel_left]

/-- The fortieth octet counts the keys, modulo 256. -/
theorem getElem?_fields_count (u : GuardianSetUpdate) (chain : UInt16) (rest : Bytes) :
    (u.fields chain rest)[39]? = some (UInt8.ofNat u.keys.length) := by
  rw [u.getElem?_fields chain rest 7, getElem?_count]

theorem isAnnouncement_fields {u : GuardianSetUpdate} (h : u.keys.length < 256) (chain : UInt16)
    (rest : Bytes) : IsAnnouncement (u.fields chain rest) := by
  refine ⟨List.take_left' coreTag.length_eq, ?_, UInt8.ofNat u.keys.length,
    u.getElem?_fields_count chain rest, ?_⟩
  · rw [u.getElem?_fields chain rest 0]
    rfl
  · rw [length_fields, UInt8.toNat_ofNat_of_lt' h]
    exact Nat.le_add_right _ _

/-- Exactly these payloads can be read as an announcement. -/
theorem exists_decode_iff {payload : Bytes} :
    (∃ u, decode payload = .ok u) ↔ IsAnnouncement payload := by
  constructor
  · rintro ⟨u, h⟩
    obtain ⟨hcount, chain, rest, rfl⟩ := decode_eq_ok_iff.mp h
    exact isAnnouncement_fields hcount chain rest
  · rintro ⟨htag, haction, count, hcount, hlength⟩
    suffices hread : reader.Succeeds ⟨0, payload⟩ by
      obtain ⟨u, e, hu⟩ := hread
      exact ⟨u, Reader.read_eq_ok_iff.mpr ⟨e, hu⟩⟩
    have hroom : 32 ≤ payload.length := by omega
    refine ((Reader.isField_block 32 _).succeeds hroom).bind fun tag c₁ h₁ => ?_
    have hfront₁ : payload = tag.bytes ++ c₁.rest := ((Reader.isField_block 32 _).reads.mp h₁).1
    have hcore : tag = coreTag := by
      rw [hfront₁, List.take_left' tag.length_eq] at htag
      exact Block.ext htag
    rw [if_neg (not_not_intro hcore)]
    have hlength₁ : payload.length = 32 + c₁.rest.length :=
      (Reader.isField_block 32 _).length_rest h₁
    refine ((Reader.isField_uint8 _).succeeds (by omega)).bind fun found c₂ h₂ => ?_
    have hbehind : ∀ i, payload[32 + i]? = c₁.rest[i]? := by
      intro i
      rw [hfront₁, List.getElem?_append_right (by rw [tag.length_eq]; omega), tag.length_eq,
        Nat.add_sub_cancel_left]
    have hfound : found = action := by
      rw [hbehind 0, ((Reader.isField_uint8 _).reads.mp h₂).1] at haction
      exact Option.some.inj haction
    rw [if_neg (not_not_intro hfound)]
    have hlength₂ := (Reader.isField_uint8 _).length_rest h₂
    refine ((Reader.isField_uint16 _).succeeds (by omega)).bind fun chain c₃ h₃ => ?_
    have hlength₃ := (Reader.isField_uint16 _).length_rest h₃
    refine ((Reader.isField_uint32 _).succeeds (by omega)).bind fun newIndex c₄ h₄ => ?_
    have hlength₄ := (Reader.isField_uint32 _).length_rest h₄
    refine ((Reader.isField_uint8 _).succeeds (by omega)).bind fun keys c₅ h₅ => ?_
    have hlength₅ := (Reader.isField_uint8 _).length_rest h₅
    -- the octet that is read here is the fortieth one
    have hkeys : keys = count := by
      rw [hbehind 7, ((Reader.isField_uint8 _).reads.mp h₂).1,
        ((Reader.isField_uint16 _).reads.mp h₃).1, ((Reader.isField_uint32 _).reads.mp h₄).1,
        ((Reader.isField_uint8 _).reads.mp h₅).1, getElem?_count] at hcount
      exact Option.some.inj hcount
    subst hkeys
    exact (Reader.succeeds_repeated isField_key (by omega)).bind fun _ c₆ _ => ⟨_, c₆, rfl⟩

/-! ## What a round trip keeps -/

/-- The keys that the octet for their number counts. -/
def counted (u : GuardianSetUpdate) : GuardianSetUpdate :=
  { u with keys := u.keys.take (u.keys.length % 256) }

theorem length_counted (u : GuardianSetUpdate) :
    u.counted.keys.length = u.keys.length % 256 := by
  rw [counted, List.length_take]
  exact Nat.min_eq_left (Nat.mod_le _ _)

/-- An announcement is written like that of its counted keys, with the other
    keys behind. -/
theorem serialize_eq_counted (u : GuardianSetUpdate) :
    u.serialize
      = u.counted.fields 0 ((u.keys.drop (u.keys.length % 256)).flatMap Block.bytes) := by
  have hcount : UInt8.ofNat u.counted.keys.length = UInt8.ofNat u.keys.length := by
    rw [length_counted]
    exact UInt8.ofNat_mod_size
  have hkeys : u.counted.keys.flatMap Block.bytes
      ++ (u.keys.drop (u.keys.length % 256)).flatMap Block.bytes = u.keys.flatMap Block.bytes := by
    rw [counted, ← List.flatMap_append, List.take_append_drop]
  rw [serialize_eq, fields, fields, hcount, hkeys, List.append_nil]
  rfl

/-- The counted keys are what is read back. -/
theorem decode_serialize_eq (u : GuardianSetUpdate) : decode u.serialize = .ok u.counted := by
  refine decode_eq_ok_iff.mpr ⟨?_, 0, _, u.serialize_eq_counted⟩
  rw [length_counted]
  exact Nat.mod_lt _ (by decide)

/-- The first octets of an announcement are its fields. -/
theorem take_fields (u : GuardianSetUpdate) (chain : UInt16) (rest : Bytes) :
    (u.fields chain rest).take (40 + 20 * u.keys.length) = u.fields chain [] := by
  have hrest : u.fields chain rest = u.fields chain [] ++ rest := by
    simp only [fields, List.append_assoc, List.append_nil]
  rw [hrest]
  exact List.take_left' (by rw [length_fields, List.length_nil, Nat.add_zero])

/-- The chain stands at two places, which can be overwritten. -/
theorem set_fields (u : GuardianSetUpdate) (chain : UInt16) (rest : Bytes) :
    ((u.fields chain rest).set 33 0).set 34 0 = u.fields 0 rest := by
  have hbehind : ∀ i, 32 ≤ i → ∀ (octets : Bytes) (octet : UInt8),
      (coreTag.bytes ++ octets).set i octet
        = coreTag.bytes ++ octets.set (i - 32) octet := by
    intro i hi octets octet
    rw [List.set_append_right i octet (by rwa [coreTag.length_eq]), coreTag.length_eq]
  rw [fields, hbehind 33 (by decide), hbehind 34 (by decide)]
  rfl

/-- An announcement that is read is written again as its octets, with no
    chain. -/
theorem serialize_of_decode {payload : Bytes} {u : GuardianSetUpdate}
    (h : decode payload = .ok u) :
    ∃ count, payload[39]? = some count ∧
      u.serialize = ((payload.take (40 + 20 * count.toNat)).set 33 0).set 34 0 := by
  obtain ⟨hfew, chain, rest, rfl⟩ := decode_eq_ok_iff.mp h
  have hlength : (UInt8.ofNat u.keys.length).toNat = u.keys.length :=
    UInt8.toNat_ofNat_of_lt' hfew
  refine ⟨UInt8.ofNat u.keys.length, getElem?_fields_count u chain rest, ?_⟩
  rw [hlength, take_fields, set_fields, serialize_eq]

/-- What the octets of an announcement tell.  Exactly up to 255 keys are read
    back; of more keys only as many are as the number modulo 256 says, under
    the same index.  The payloads that can be read are those with the tag, the
    action, a count, and room for so many keys, and writing what was read
    gives the same octets but for the chain and what stands behind the last
    key, so that it is read the same again. -/
theorem announcements_survive_up_to_chain :
    (∀ u, decode u.serialize = .ok u ↔ u.keys.length ≤ 255) ∧
    (∀ u : GuardianSetUpdate, 255 < u.keys.length →
      decode u.serialize = .ok ⟨u.keys.take (u.keys.length % 256), u.newIndex⟩) ∧
    (∀ payload, (∃ u, decode payload = .ok u) ↔ IsAnnouncement payload) ∧
    ∀ payload u, decode payload = .ok u →
      (∃ count, payload[39]? = some count ∧
        u.serialize = ((payload.take (40 + 20 * count.toNat)).set 33 0).set 34 0) ∧
      decode u.serialize = decode payload := by
  refine ⟨fun u => ⟨fun h => ?_, fun h => ?_⟩, fun u _ => u.decode_serialize_eq,
    fun payload => exists_decode_iff, fun payload u h => ⟨serialize_of_decode h, ?_⟩⟩
  · exact Nat.lt_succ_iff.mp (decode_eq_ok_iff.mp h).1
  · exact decode_serialize (Nat.lt_succ_iff.mpr h)
  · rw [decode_serialize (decode_eq_ok_iff.mp h).1, h]

/-- An announcement of 258 keys, which an octet counts as two. -/
def overfull : GuardianSetUpdate where
  keys := (List.range 258).map (.ofNat 20)
  newIndex := 5

/-- Only the first two keys are read back, and they alone are written again. -/
theorem overfull_keeps_two_keys :
    255 < overfull.keys.length ∧
      decode overfull.serialize = .ok ⟨[.ofNat 20 0, .ofNat 20 1], 5⟩ ∧
      decode overfull.serialize
        = decode (GuardianSetUpdate.serialize ⟨[.ofNat 20 0, .ofNat 20 1], 5⟩) := by
  have hlength : overfull.keys.length = 258 := by
    rw [overfull, List.length_map, List.length_range]
  have hmany : 255 < overfull.keys.length := by
    rw [hlength]
    decide
  obtain ⟨-, hwrap, -, hagain⟩ := announcements_survive_up_to_chain
  have hread : decode overfull.serialize = .ok ⟨[.ofNat 20 0, .ofNat 20 1], 5⟩ := by
    rw [hwrap overfull hmany, hlength]
    rfl
  exact ⟨hmany, hread, (hagain _ _ hread).2.symm⟩

end GuardianSetUpdate

end BridgeGuardian
