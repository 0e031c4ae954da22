import BridgeGuardian.Governance.Wire
import BridgeGuardian.Proofs.Hex
import BridgeGuardian.Proofs.Json.Printed
import BridgeGuardian.Proofs.Json.Records

/-! # Written messages — a governance message in any of its spellings

    The fields of a message may be permuted, and those of its request too,
    the tag among them; in front of the digits of a payload there may be
    marks.  All of this is read as the same message, so it does not matter
    which of them an operator sends. -/

namespace BridgeGuardian

open Json (IsExact isExact_nat isExact_uint32)
open Json.Shape

/-! ## Entries -/

namespace GuardianEntry

theorem shape_toJson (e : GuardianEntry) (depth : Nat) :
    shape (depth + 1) e.toJson = .ok e := by
  have hfields : [("pubkey", Json.text e.pubkey), ("name", .text e.name)].Perm
      [("pubkey", .text e.pubkey), ("name", .text e.name)] := .refl _
  exact record_two GuardianEntry.mk (by decide) (text_text e.pubkey depth)
    (text_text e.name depth) hfields

theorem isExact_toJson (e : GuardianEntry) : IsExact e.toJson := by
  refine .record ?_
  simp only [List.forall_mem_cons]
  exact ⟨.text _, .text _, List.forall_mem_nil _⟩

end GuardianEntry

/-! ## Requests -/

namespace GovernanceRequest

theorem octets_encodeBehind (marks : Nat) (payload : Bytes) (depth : Nat) :
    octets depth (.text (Hex.encodeBehind marks payload)) = .ok payload := by
  refine refine_of_eq_some (text_text _ depth) ?_
  rw [Hex.dropMarks_encodeBehind, Hex.decode_encode]
  rfl

/-- The fields behind the tag, with marks in front of a payload. -/
def markedFields (marks : Nat) : GovernanceRequest → List (String × Json)
  | .undoneTransfer level payload =>
      [("consistency_level", .nat level.toNat),
       ("payload", .text (Hex.encodeBehind marks payload))]
  | r => r.fields

/-- The kind of a request. -/
def kindOf : GovernanceRequest → Kind
  | .guardianSet _ => .guardianSet
  | .contractUpgrade _ _ => .contractUpgrade
  | .registerChain _ _ _ => .registerChain
  | .upgradeBridge _ _ _ => .upgradeBridge
  | .undoneTransfer _ _ => .undoneTransfer

/-- The tag of a request names its kind and no other. -/
theorem ofTag?_kind (r : GovernanceRequest) : Kind.ofTag? r.kind = some r.kindOf := by
  cases r <;> rfl

theorem list_toJson (guardians : List GuardianEntry) (depth : Nat) :
    list GuardianEntry.shape (depth + 2) (.array (guardians.map GuardianEntry.toJson))
      = .ok guardians :=
  list_map (fun e => e.shape_toJson depth) guardians

/-- The fields of a request are read in any order. -/
theorem shapeOf_of_perm {r : GovernanceRequest} {marks depth : Nat}
    {fields : List (String × Json)} (hfields : fields.Perm (r.markedFields marks)) :
    shapeOf r.kindOf (depth + 3) (.record fields) = .ok r := by
  cases r with
  | guardianSet guardians =>
      exact record_one GovernanceRequest.guardianSet (list_toJson guardians depth) hfields
  | contractUpgrade chainId newContract =>
      exact record_two GovernanceRequest.contractUpgrade (by decide) (uint32_toNat chainId _)
        (text_text newContract _) hfields
  | registerChain moduleName chainId emitterAddress =>
      exact record_three GovernanceRequest.registerChain (by decide) (by decide) (by decide)
        (text_text moduleName _) (uint32_toNat chainId _) (text_text emitterAddress _) hfields
  | upgradeBridge moduleName targetChainId newContract =>
      exact record_three GovernanceRequest.upgradeBridge (by decide) (by decide) (by decide)
        (text_text moduleName _) (uint32_toNat targetChainId _) (text_text newContract _) hfields
  | undoneTransfer level payload =>
      exact record_two GovernanceRequest.undoneTransfer (by decide) (uint8_toNat level _)
        (octets_encodeBehind marks payload _) hfields

theorem isExact_of_mem_markedFields {r : GovernanceRequest} {marks : Nat}
    {field : String × Json} (h : field ∈ r.markedFields marks) : IsExact field.2 := by
  cases r with
  | guardianSet guardians =>
      obtain rfl := List.mem_singleton.mp h
      refine .array ?_
      simp only [List.forall_mem_map]
      exact fun e _ => e.isExact_toJson
  | contractUpgrade | registerChain | upgradeBridge =>
      simp only [markedFields, fields, List.mem_cons, List.not_mem_nil, or_false] at h
      rcases h with rfl | rfl | rfl
      all_goals first | exact .text _ | exact isExact_uint32 _
  | undoneTransfer level payload =>
      simp only [markedFields, List.mem_cons, List.not_mem_nil, or_false] at h
      rcases h with rfl | rfl
      · exact isExact_nat (Nat.lt_trans level.toNat_lt_size (by decide))
      · exact .text _

/-- What stands behind a tag is understood before the tag is known. -/
theorem isSound_of_mem_markedFields {r : GovernanceRequest} {marks depth : Nat}
    {field : String × Json} (h : field ∈ r.markedFields marks) :
    field.2.isSound (depth + 2) = true := by
  cases r with
  | guardianSet guardians =>
      obtain rfl := List.mem_singleton.mp h
      refine itemsSound_of_forall ?_
      simp only [List.forall_mem_map]
      intro e _
      rfl
  | contractUpgrade | registerChain | upgradeBridge | undoneTransfer =>
      simp only [markedFields, fields, List.mem_cons, List.not_mem_nil, or_false] at h
      rcases h with rfl | rfl | rfl <;> rfl

theorem hasDistinctNames (r : GovernanceRequest) (marks : Nat) (tag : Json) :
    HasDistinctNames (("type", tag) :: r.markedFields marks) := by
  cases r <;> simp [HasDistinctNames, markedFields, fields]

/-- A request is read wherever its tag stands. -/
theorem shape_of_perm {r : GovernanceRequest} {marks depth : Nat} {fields : List (String × Json)}
    (hfields : fields.Perm (("type", .text r.kind) :: r.markedFields marks)) :
    shape (depth + 3) (.record fields) = .ok r := by
  have hnames := r.hasDistinctNames marks (.text r.kind)
  have hfirst : "type" ∉ (r.markedFields marks).map Prod.fst := (List.nodup_cons.mp hnames).1
  have hothers : (fields.filter fun x => x.1 != "type").Perm (r.markedFields marks) := by
    refine (hfields.filter _).trans ?_
    rw [List.filter_cons_of_neg (by simp), List.filter_eq_self.mpr]
    intro x hx
    have hne : x.1 ≠ "type" := fun heq => hfirst (List.mem_map.mpr ⟨x, hx, heq⟩)
    simpa using hne
  refine tagged_of_mem (hnames.perm hfields) (hfields.mem_iff.mpr List.mem_cons_self)
    r.ofTag?_kind ?_ (shapeOf_of_perm hothers)
  intro x hx hname
  rcases List.mem_cons.mp (hfields.mem_iff.mp hx) with rfl | hmem
  · exact absurd rfl hname
  · exact isSound_of_mem_markedFields hmem

end GovernanceRequest

/-! ## Messages -/

namespace GovernanceMessage

/-- A value spells a message: its fields and those of its request stand in
    any order, and any number of marks in front of a payload. -/
def IsWrittenAs (m : GovernanceMessage) (v : Json) : Prop :=
  ∃ (marks : Nat) (request fields : List (String × Json)),
    request.Perm (("type", .text m.request.kind) :: m.request.markedFields marks) ∧
    fields.Perm [("sequence", .nat m.sequence.toNat), ("nonce", .nat m.nonce.toNat),
      ("request", .record request)] ∧
    v = .record fields

theorem shape_of_isWrittenAs {m : GovernanceMessage} {v : Json} (h : m.IsWrittenAs v)
    (depth : Nat) : shape (depth + 4) v = .ok m := by
  obtain ⟨marks, request, fields, hrequest, hfields, rfl⟩ := h
  exact record_three GovernanceMessage.mk (by decide) (by decide) (by decide)
    (uint64_toNat m.sequence _) (uint32_toNat m.nonce _)
    (GovernanceRequest.shape_of_perm hrequest) hfields

theorem isExact_of_isWrittenAs {m : GovernanceMessage} {v : Json} (h : m.IsWrittenAs v) :
    IsExact v := by
  obtain ⟨marks, request, fields, hrequest, hfields, rfl⟩ := h
  have hexact : IsExact (.record request) := by
    refine .record fun field hfield => ?_
    rcases List.mem_cons.mp (hrequest.mem_iff.mp hfield) with rfl | hmem
    · exact .text _
    · exact GovernanceRequest.isExact_of_mem_markedFields hmem
  refine .record fun field hfield => ?_
  have hmem := hfields.mem_iff.mp hfield
  simp only [List.mem_cons, List.not_mem_nil, or_false] at hmem
  rcases hmem with rfl | rfl | rfl
  · exact isExact_nat m.sequence.toNat_lt_size
  · exact isExact_uint32 m.nonce
  · exact hexact

/-- The value of a message spells it. -/
theorem isWrittenAs_toJson (m : GovernanceMessage) : m.IsWrittenAs m.toJson := by
  have hfields : m.request.markedFields 0 = m.request.fields := by
    cases m.request <;> rfl
  refine ⟨0, ("type", .text m.request.kind) :: m.request.fields, _, ?_, .refl _, rfl⟩
  rw [hfields]

/-- A message is read from the text of every value that spells it. -/
theorem decode_print_of_isWrittenAs {m : GovernanceMessage} {v : Json} (h : m.IsWrittenAs v) :
    Json.decode shape (Json.print v) = .ok m := by
  rw [Json.decode_print (isExact_of_isWrittenAs h)]
  exact shape_of_isWrittenAs h 123

end GovernanceMessage

end BridgeGuardian
