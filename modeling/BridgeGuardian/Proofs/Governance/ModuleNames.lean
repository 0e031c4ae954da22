import BridgeGuardian.Proofs.Governance.Orders
import BridgeGuardian.Proofs.Hex

/-! # Module names — what a tag tells about the name in it

    A tag is a name with zero octets in front, and a name may begin with zero
    characters of its own: in UTF-8 these are zero octets, and no other
    character begins with one.  So a tag tells a name up to the zeros in
    front of it and no further, and of names that do not begin with a zero
    it tells everything.  The tag of an order about a bridge is that of the
    module which the request names. -/

namespace BridgeGuardian

/-! ## Names in octets -/

/-- Names with the same octets are the same. -/
theorem utf8_inj {s t : String} : utf8 s = utf8 t ↔ s = t := by
  constructor
  · intro h
    exact String.toByteArray_inj.mp (ByteArray.ext (Array.toList_inj.mp h))
  · rintro rfl
    rfl

/-- Characters with the same octets are the same. -/
theorem flatMap_utf8EncodeChar_inj {chars others : List Char} :
    chars.flatMap String.utf8EncodeChar = others.flatMap String.utf8EncodeChar ↔
      chars = others := by
  rw [← utf8_ofList, ← utf8_ofList, utf8_inj, String.ofList_inj]

/-- Only the zero character begins with a zero octet. -/
theorem exists_octet_of_ne_zero {c : Char} (h : c ≠ '\x00') :
    ∃ octet rest, String.utf8EncodeChar c = octet :: rest ∧ octet ≠ 0 := by
  have hpositive : ∀ n, 0 < n → n < 256 → UInt8.ofNat n ≠ 0 := by
    intro n hlow hhigh hzero
    have hvalue := congrArg UInt8.toNat hzero
    rw [UInt8.toNat_ofNat_of_lt' hhigh, UInt8.toNat_zero] at hvalue
    omega
  have hcode : 0 < c.toNat := by
    refine Nat.pos_of_ne_zero fun hzero => h ?_
    rw [← Char.ofNat_toNat c, hzero]
  unfold String.utf8EncodeChar
  dsimp only
  split
  · next hascii => exact ⟨_, [], rfl, hpositive _ hcode (by omega)⟩
  · split
    · exact ⟨_, _, rfl, hpositive _ (by omega) (by omega)⟩
    · split
      · exact ⟨_, _, rfl, hpositive _ (by omega) (by omega)⟩
      · exact ⟨_, _, rfl, hpositive _ (by omega) (by omega)⟩

/-- The characters of a name behind the zeros in front. -/
def bareName (name : String) : List Char := name.toList.dropWhile (· == '\x00')

/-- The zero octets in front of a name are its zero characters. -/
theorem dropWhile_utf8 (name : String) :
    (utf8 name).dropWhile (· == 0) = (bareName name).flatMap String.utf8EncodeChar := by
  rw [utf8_eq_flatMap, bareName]
  induction name.toList with
  | nil => rfl
  | cons c rest ih =>
      by_cases hzero : c = '\x00'
      · subst hzero
        rw [List.dropWhile_cons_of_pos rfl, ← ih]
        rfl
      · obtain ⟨octet, others, hoctets, hne⟩ := exists_octet_of_ne_zero hzero
        rw [List.dropWhile_cons_of_neg (by rwa [beq_iff_eq]), List.flatMap_cons, hoctets,
          List.cons_append, List.dropWhile_cons_of_neg (by rwa [beq_iff_eq])]

theorem bareName_eq_toList {name : String} (h : name.toList.head? ≠ some '\x00') :
    bareName name = name.toList := by
  rw [bareName]
  cases hchars : name.toList with
  | nil => rfl
  | cons c rest =>
      rw [hchars] at h
      exact List.dropWhile_cons_of_neg fun hc => h (congrArg some (beq_iff_eq.mp hc))

/-- Without zeros in front, names are the same if they are so behind their
    zeros. -/
theorem bareName_inj {name other : String} (h : name.toList.head? ≠ some '\x00')
    (h' : other.toList.head? ≠ some '\x00') : bareName name = bareName other ↔ name = other := by
  rw [bareName_eq_toList h, bareName_eq_toList h', String.toList_inj]

/-! ## Tags -/

open GovernanceRequest

/-- The tags of names that fit are the same if the names are so behind their
    zeros. -/
theorem moduleTag_utf8_eq_iff {name other : String} (h : (utf8 name).length ≤ 32)
    (h' : (utf8 other).length ≤ 32) :
    moduleTag (utf8 name) = moduleTag (utf8 other) ↔ bareName name = bareName other := by
  rw [moduleTag_eq_iff h h', dropWhile_utf8, dropWhile_utf8, flatMap_utf8EncodeChar_inj]

theorem length_utf8_of_checkModule {name : String} (h : checkModule name = .ok name) :
    (utf8 name).length ≤ 32 := (of_checkModule h).2

/-! ## Requests -/

/-- The module that an order about a bridge names. -/
def GovernanceRequest.moduleName? : GovernanceRequest → Option String
  | .registerChain moduleName _ _ | .upgradeBridge moduleName _ _ => some moduleName
  | .guardianSet _ | .contractUpgrade _ _ | .undoneTransfer _ _ => none

/-- What begins with a tag begins with its octets. -/
theorem take_tag_append (tag : Bytes32) (rest : Bytes) : (tag.bytes ++ rest).take 32 = tag.bytes :=
  List.take_left' tag.length_eq

/-- An order that names a module behind two other readings has accepted the
    name. -/
theorem accepted_of_order {α β : Type} {first : Except RequestFault α}
    {second : Except RequestFault β} {name : String}
    {make : String → α → β → GovernancePayload} {order : GovernancePayload}
    (h : (first >>= fun a => second >>= fun b => checkModule name >>= fun accepted =>
      pure (make accepted a b)) = .ok order) :
    checkModule name = .ok name ∧ ∃ a b, order = make name a b := by
  obtain ⟨a, -, h⟩ := bind_eq_ok_iff.mp h
  obtain ⟨b, -, h⟩ := bind_eq_ok_iff.mp h
  obtain ⟨accepted, haccepted, hmade⟩ := bind_eq_ok_iff.mp h
  obtain ⟨rfl, -⟩ := of_checkModule haccepted
  cases hmade
  exact ⟨haccepted, a, b, rfl⟩

/-- An accepted order about a bridge begins with the tag of its module, and
    the name has been accepted. -/
theorem GovernanceMessage.tag_of_moduleName? {m : GovernanceMessage} {currentIndex : UInt32}
    {v : Vaa} {name : String} (h : m.toVaa currentIndex = .ok v)
    (hname : m.request.moduleName? = some name) :
    checkModule name = .ok name ∧ v.payload.take 32 = (moduleTag (utf8 name)).bytes := by
  obtain ⟨sequence, nonce, request⟩ := m
  cases request with
  | guardianSet guardians => cases hname
  | contractUpgrade chainId newContract => cases hname
  | undoneTransfer level payload => cases hname
  | registerChain moduleName chainId emitterAddress =>
      cases hname
      obtain ⟨order, horder, hpayload⟩ := payload_of_giving h
      obtain ⟨haccepted, chain, emitter, rfl⟩ := accepted_of_order horder
      rw [hpayload]
      simp only [GovernancePayload.serialize, List.append_assoc]
      exact ⟨haccepted, take_tag_append _ _⟩
  | upgradeBridge moduleName targetChainId newContract =>
      cases hname
      obtain ⟨order, horder, hpayload⟩ := payload_of_giving h
      obtain ⟨haccepted, chain, contract, rfl⟩ := accepted_of_order horder
      rw [hpayload]
      simp only [GovernancePayload.serialize, List.append_assoc]
      exact ⟨haccepted, take_tag_append _ _⟩

/-- Tags tell accepted names up to the zero characters in front of them, and
    names without such zeros in full.  An order about a bridge carries the tag
    of just the names that agree with that of its module in this sense; it
    carries the tag of the core module or of the token bridge only if its
    module is called so, possibly behind zeros. -/
theorem tags_tell_names_up_to_zeros :
    (∀ name other, checkModule name = .ok name → checkModule other = .ok other →
      (moduleTag (utf8 name) = moduleTag (utf8 other) ↔ bareName name = bareName other) ∧
      (name.toList.head? ≠ some '\x00' → other.toList.head? ≠ some '\x00' →
        (moduleTag (utf8 name) = moduleTag (utf8 other) ↔ name = other))) ∧
    (∀ (m : GovernanceMessage) (currentIndex : UInt32) (v : Vaa) (name : String),
      m.toVaa currentIndex = .ok v → m.request.moduleName? = some name →
      (∀ other, checkModule other = .ok other →
        (v.payload.take 32 = (moduleTag (utf8 other)).bytes ↔ bareName name = bareName other)) ∧
      (v.payload.take 32 = coreTag.bytes ↔ bareName name = "Core".toList) ∧
      (v.payload.take 32 = tokenBridgeTag.bytes ↔ bareName name = "TokenBridge".toList)) := by
  constructor
  · intro name other hname hother
    have htag := moduleTag_utf8_eq_iff (length_utf8_of_checkModule hname)
      (length_utf8_of_checkModule hother)
    refine ⟨htag, fun hbare hbare' => ?_⟩
    rw [htag, bareName_inj hbare hbare']
  · intro m currentIndex v name h hname
    obtain ⟨haccepted, hpayload⟩ := m.tag_of_moduleName? h hname
    have htag : ∀ other, (utf8 other).length ≤ 32 →
        (v.payload.take 32 = (moduleTag (utf8 other)).bytes ↔
          bareName name = bareName other) := by
      intro other hother
      rw [hpayload, ← moduleTag_utf8_eq_iff (length_utf8_of_checkModule haccepted) hother]
      exact ⟨Block.ext, congrArg Block.bytes⟩
    refine ⟨fun other hother => htag other (length_utf8_of_checkModule hother), ?_, ?_⟩
    · exact htag "Core" (by decide)
    · exact htag "TokenBridge" (by decide)

/-- An order to trust an emitter as the bridge of a module. -/
def registrationFor (moduleName : String) : GovernanceMessage where
  sequence := 1
  nonce := 7
  request := .registerChain moduleName 2
    "e0e0e0e0e0e0e0e0e0e0e0e0e0e0e0e0e0e0e0e0e0e0e0e0e0e0e0e0e0e0e0e0"

/-- The emitter in it. -/
def registeredEmitter : Bytes32 := ⟨List.replicate 32 0xe0, List.length_replicate⟩

/-- The name of the token bridge is told apart from that of the core module,
    and zeros in front of it make no difference to its tag. -/
theorem zeros_in_front_keep_the_tag :
    moduleTag (utf8 "TokenBridge") ≠ moduleTag (utf8 "Core") ∧
    ∃ v, (registrationFor "\x00\x00TokenBridge").toVaa 0 = .ok v ∧
      v.payload.take 32 = tokenBridgeTag.bytes ∧ v.payload.take 32 ≠ coreTag.bytes := by
  obtain ⟨hnames, horders⟩ := tags_tell_names_up_to_zeros
  have hvaa : (registrationFor "\x00\x00TokenBridge").toVaa 0
      = .ok ((registrationFor "\x00\x00TokenBridge").giving 0
          (.registerChain "\x00\x00TokenBridge" ⟨2⟩ registeredEmitter)) := by decide +kernel
  have htag := (hnames "TokenBridge" "Core" rfl rfl).2 (by decide) (by decide)
  obtain ⟨-, hcore, hbridge⟩ := horders _ _ _ "\x00\x00TokenBridge" hvaa rfl
  refine ⟨fun h => absurd (htag.mp h) (by decide), _, hvaa, hbridge.mpr (by decide), ?_⟩
  exact fun h => absurd (hcore.mp h) (by decide)

/-- A zero character in front of the name of the core module makes another
    accepted name with the same tag, and an order that carries it. -/
theorem zero_in_front_shares_the_core_tag :
    checkModule "Core" = .ok "Core" ∧ checkModule "\x00Core" = .ok "\x00Core" ∧
    "\x00Core" ≠ "Core" ∧ moduleTag (utf8 "\x00Core") = moduleTag (utf8 "Core") ∧
    ∃ v, (registrationFor "\x00Core").toVaa 0 = .ok v ∧ v.payload.take 32 = coreTag.bytes := by
  have hvaa : (registrationFor "\x00Core").toVaa 0
      = .ok ((registrationFor "\x00Core").giving 0
          (.registerChain "\x00Core" ⟨2⟩ registeredEmitter)) := by decide +kernel
  exact ⟨rfl, rfl, by decide, by decide, _, hvaa, by decide⟩

end BridgeGuardian
