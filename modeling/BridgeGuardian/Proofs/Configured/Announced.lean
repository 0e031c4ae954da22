import BridgeGuardian.Proofs.Configured
import BridgeGuardian.Proofs.Configured.Variables
import BridgeGuardian.Proofs.Governance.Announcement
import BridgeGuardian.Proofs.Governance.Succession
import BridgeGuardian.Proofs.Listing

/-! # Announced guardians — the set of a proposal is the set of the settings

    Keys are read in two places, and both read what is spelled behind at most
    one mark; only in settings may the mark have a capital letter.  So the
    keys of an accepted proposal can be listed in settings as they are
    written: they have no blank and no comma, and `readKeys_of_spells` reads
    them as what the proposal spells, which is what is announced. -/

namespace BridgeGuardian

/-! ## Both readings of a key -/

namespace Address

/-- A text has a mark with a capital letter. -/
def HasCapitalMark (text : String) : Prop := ['0', 'X'] <+: text.toList

/-- The first two characters of a text tell. -/
instance (text : String) : Decidable (HasCapitalMark text) :=
  inferInstanceAs (Decidable (_ <+: _))

section

variable {text : String} {a : Address}

/-- Settings read the digits behind a mark of either case. -/
theorem read_eq_ok_iff :
    read text = .ok a ↔
      (Hex.dropMarkAnyCase text).toList.map Char.toLower = a.bytes.flatMap Hex.encodeOctet := by
  rw [← Hex.decode_eq_ok_iff, Hex.decode, read]
  constructor
  · intro h
    split at h
    · cases h
    · split at h
      · cases h
      · split at h
        · cases h
        · cases h
        · next bytes hbytes =>
            split at h
            · next block hblock =>
                cases h
                rw [hbytes, Block.ofBytes?_eq_some_iff.mp hblock]
            · cases h
  · intro h
    have hlength := Hex.length_utf8_of_decode h
    rw [a.length_eq] at hlength
    rw [if_neg (by rw [hlength]; decide), if_neg (not_not_intro hlength), h]
    dsimp only
    rw [Block.ofBytes?_bytes a]

theorem dropMarkAnyCase_of_not_hasCapitalMark (h : ¬ HasCapitalMark text) :
    Hex.dropMarkAnyCase text = Hex.dropMark text := by
  unfold Hex.dropMarkAnyCase Hex.dropMark
  split
  · next hchars =>
      rw [hchars]
      rfl
  · next rest hchars => exact absurd ⟨rest, hchars.symm⟩ h
  · next hmark _ =>
      split
      · next rest hchars => exact absurd hchars (hmark rest)
      · rfl

/-- Without a capital mark both readings are one. -/
theorem read?_eq_some_iff_read (h : ¬ HasCapitalMark text) :
    read? text = some a ↔ read text = .ok a := by
  rw [read?_eq_some_iff, isSpelledBy_iff, read_eq_ok_iff, dropMarkAnyCase_of_not_hasCapitalMark h]

/-- A text with a capital mark spells no key. -/
theorem not_isKeyText_of_hasCapitalMark (h : HasCapitalMark text) : ¬ IsKeyText text := by
  obtain ⟨rest, hrest⟩ := h
  have hdrop : Hex.dropMark text = text := by
    unfold Hex.dropMark
    split
    · next hmark =>
        rw [hmark] at hrest
        cases hrest
    · rfl
  rintro ⟨-, hdigits⟩
  rw [hdrop, ← hrest] at hdigits
  exact absurd (hdigits 'X' (List.mem_cons_of_mem _ List.mem_cons_self)) (by decide)

theorem read?_eq_none_of_hasCapitalMark (h : HasCapitalMark text) : read? text = none := by
  refine Option.eq_none_iff_forall_ne_some.mpr fun a ha => ?_
  exact not_isKeyText_of_hasCapitalMark h
    (exists_isSpelledBy_iff.mp ⟨a, read?_eq_some_iff.mp ha⟩)

/-- In settings a capital mark is as good as a small one. -/
theorem read_capitalMark (rest : List Char) :
    read (String.ofList ('0' :: 'X' :: rest)) = read (String.ofList ('0' :: 'x' :: rest)) := by
  have hdrop : Hex.dropMarkAnyCase (String.ofList ('0' :: 'X' :: rest))
      = Hex.dropMarkAnyCase (String.ofList ('0' :: 'x' :: rest)) := by
    simp only [Hex.dropMarkAnyCase, String.toList_ofList]
  rw [read, read, hdrop]

/-- What is dropped is a mark or nothing. -/
theorem exists_mark (text : String) :
    ∃ mark, (∀ c ∈ mark, c ∈ ['0', 'x']) ∧ text.toList = mark ++ (Hex.dropMark text).toList := by
  unfold Hex.dropMark
  split
  · next rest hmark =>
      refine ⟨['0', 'x'], fun _ hc => hc, ?_⟩
      rw [hmark, String.toList_ofList]
      rfl
  · exact ⟨[], List.forall_mem_nil _, rfl⟩

/-- A text that spells a key can stand in a list. -/
theorem isItem_of_isKeyText (h : IsKeyText text) : Text.IsItem text := by
  have hmarks : ∀ c ∈ ['0', 'x'], ¬ Text.isBlank c ∧ c ≠ ',' :=
    List.forall_mem_cons.mpr ⟨by decide, List.forall_mem_singleton.mpr (by decide)⟩
  have hall : "0123456789abcdefABCDEF".toList.all
      (fun c => decide (¬ Text.isBlank c ∧ c ≠ ',')) = true := by decide
  obtain ⟨hlength, hdigits⟩ := h
  obtain ⟨mark, hmark, htext⟩ := exists_mark text
  rw [Text.IsItem, htext]
  refine ⟨fun hnil => ?_, List.forall_mem_append.mpr
    ⟨fun c hc => hmarks c (hmark c hc), fun c hc => ?_⟩⟩
  · rw [(List.append_eq_nil_iff.mp hnil).2] at hlength
    cases hlength
  · exact of_decide_eq_true (List.all_eq_true.mp hall c (hdigits c hc))

end

end Address

/-! ## Configured proposals -/

namespace Configuration

/-- Settings name guardians: they list the keys, and they number the set. -/
structure NamesGuardians (env : Environment) (keys : List String) (setIndex : UInt32) : Prop where
  keys : ∃ text, env.get? "GUARDIAN_KEYS" = some text ∧ Text.IsListing keys text.toList
  setIndex : ∃ text numeral, env.get? "GUARDIAN_SET_INDEX" = some text ∧
    Text.IsNumeral setIndex.toNat numeral ∧ Text.IsPadded numeral text.toList

section

variable {env : Environment} {guardians : List GuardianEntry} {keys : List Address}
  {setIndex : UInt32}

/-- Entries are read as the keys that they spell. -/
theorem readKeys_of_spells (h : List.Forall₂ GuardianEntry.Spells guardians keys) (index : Nat) :
    readKeys index (guardians.map GuardianEntry.pubkey) = .ok keys := by
  induction h generalizing index with
  | nil => rfl
  | @cons e key rest keys hspells _ ih =>
      have hkey : Address.read e.pubkey = .ok key := by
        have hplain : ¬ Address.HasCapitalMark e.pubkey := fun hcapital =>
          Address.not_isKeyText_of_hasCapitalMark hcapital
            (Address.exists_isSpelledBy_iff.mp ⟨key, hspells⟩)
        exact (Address.read?_eq_some_iff_read hplain).mp (Address.read?_eq_some_iff.mpr hspells)
      rw [List.map_cons, readKeys, hkey]
      dsimp only
      rw [ih]
      rfl

/-- The number of the set is read without the blanks around it. -/
theorem number_setIndex {names : List String} (h : NamesGuardians env names setIndex) :
    number Text.readUInt32 "GUARDIAN_SET_INDEX" 0 env = .ok setIndex := by
  obtain ⟨text, numeral, htext, hnumeral, hpadded⟩ := h.setIndex
  have htrim : Text.trim text = String.ofList numeral :=
    congrArg String.ofList
      (Text.trimChars_of_isPadded hpadded (Text.not_isBlank_of_isNumeral hnumeral))
  rw [number, htext]
  dsimp only
  rw [htrim, Text.readUInt32_of_isNumeral (by rwa [String.toList_ofList])]
  rfl

/-- The entries of a proper list are what the settings list. -/
theorem listItems_keys (hproper : Succession.IsProperSet guardians)
    (h : NamesGuardians env (guardians.map GuardianEntry.pubkey) setIndex) :
    ∃ text, env.get? "GUARDIAN_KEYS" = some text ∧
      Text.listItems text = guardians.map GuardianEntry.pubkey := by
  obtain ⟨text, htext, hlisting⟩ := h.keys
  refine ⟨text, htext, ?_⟩
  rw [← @String.ofList_toList text]
  refine Text.listItems_of_isListing hlisting fun item hitem => ?_
  obtain ⟨e, he, rfl⟩ := List.mem_map.mp hitem
  exact Address.isItem_of_isKeyText (hproper.keys e he)

/-- Settings that name the guardians of a proper list give their set. -/
theorem ofEnvironment_of_namesGuardians {env₀ : Environment} {c₀ : Configuration}
    (h₀ : ofEnvironment env₀ = .ok c₀) (hagree : AgreeBut guardianVariables env₀ env)
    (hproper : Succession.IsProperSet guardians)
    (hspells : List.Forall₂ GuardianEntry.Spells guardians keys)
    (h : NamesGuardians env (guardians.map GuardianEntry.pubkey) setIndex) :
    ∃ c, ofEnvironment env = .ok c ∧ c.guardian.guardianSet = .ok ⟨setIndex, keys⟩ := by
  obtain ⟨text, htext, hitems⟩ := listItems_keys hproper h
  have hsome : Text.listItems text ≠ [] := by
    rw [hitems, ne_eq, List.map_eq_nil_iff, ← List.length_eq_zero_iff]
    exact Nat.ne_of_gt hproper.nonempty
  have hread : readKeys 0 (Text.listItems text) = .ok keys := by
    rw [hitems]
    exact readKeys_of_spells hspells 0
  exact ⟨_, ofEnvironment_withGuardians h₀ hagree (number_setIndex h) htext hsome hread⟩

end

/-- A key is read in proposals exactly as in settings, if its mark has no
    capital letter; with one it is read in settings alone, and there as with a
    small one.  What is announced of a list of guardians is the set of all
    settings that list its entries, with blanks and empty items as one likes,
    and number the next set: the same keys in the same order, and the same
    index. -/
theorem announced_guardians_are_configured :
    (∀ text, ¬ Address.HasCapitalMark text →
      ∀ a, Address.read? text = some a ↔ Address.read text = .ok a) ∧
    (∀ text, Address.HasCapitalMark text → Address.read? text = none) ∧
    (∀ rest, Address.read (String.ofList ('0' :: 'X' :: rest))
      = Address.read (String.ofList ('0' :: 'x' :: rest))) ∧
    ∀ (sequence : UInt64) (nonce currentIndex : UInt32) (guardians : List GuardianEntry) (v : Vaa),
      (Succession.proposal sequence nonce guardians).toVaaOrFail currentIndex = .ok v →
      ∃ u, GuardianSetUpdate.decode v.payload = .ok u ∧
        u.newIndex.toNat = currentIndex.toNat + 1 ∧
        ∀ (env₀ : Environment) (c₀ : Configuration) (env : Environment),
          ofEnvironment env₀ = .ok c₀ → AgreeBut guardianVariables env₀ env →
          NamesGuardians env (guardians.map GuardianEntry.pubkey) u.newIndex →
          ∃ c, ofEnvironment env = .ok c ∧
            c.guardian.guardianSet = .ok ⟨u.newIndex, u.keys⟩ := by
  refine ⟨fun text htext a => Address.read?_eq_some_iff_read htext,
    fun text => Address.read?_eq_none_of_hasCapitalMark, Address.read_capitalMark, ?_⟩
  intro sequence nonce currentIndex guardians v hv
  obtain ⟨hproper, hindex⟩ := Succession.isProperSet_of_toVaaOrFail hv
  obtain ⟨keys, v', hv', hpayload, hspells⟩ :=
    Succession.toVaaOrFail_of_isProperSet sequence nonce hproper hindex
  cases hv.symm.trans hv'
  have hcount : keys.length < 256 := by
    rw [← hspells.length_eq]
    exact Nat.lt_of_le_of_lt hproper.few (by decide)
  refine ⟨⟨keys, currentIndex + 1⟩, ?_, ?_, fun env₀ c₀ env h₀ hagree hnames =>
    ofEnvironment_of_namesGuardians h₀ hagree hproper hspells hnames⟩
  · rw [hpayload]
    exact GuardianSetUpdate.decode_serialize hcount
  · show (currentIndex + 1).toNat = _
    rw [UInt32.toNat_add]
    exact Nat.mod_eq_of_lt (by rw [UInt32.toNat_one]; omega)

/-! ## The next two guardians -/

/-- The settings of a guardian that is alone. -/
def soleSettings : Environment :=
  [("ALEPHIUM_NODE_URL", "http://n"), ("DATABASE_URL", "db"), ("GUARDIAN_KEYS", Site.soleKey)]

/-- The settings that name the two guardians as the fifth set. -/
def nextSettings : Environment :=
  (soleSettings.put "GUARDIAN_KEYS"
    " abababababababababababababababababababab ,,0xCDCDCDCDCDCDCDCDCDCDCDCDCDCDCDCDCDCDCDCD").put
      "GUARDIAN_SET_INDEX" "\t+05"

theorem agreeBut_put {names : List String} {name : String} (h : name ∈ names) (env : Environment)
    (value : String) : AgreeBut names env (env.put name value) := by
  intro other hother
  rw [Table.get?_put, if_neg]
  rintro rfl
  exact hother h

theorem namesGuardians_nextSettings {setIndex : UInt32} (h : setIndex.toNat = 5) :
    NamesGuardians nextSettings (Succession.twoGuardians.map GuardianEntry.pubkey) setIndex where
  keys := by
    refine ⟨_, rfl, ?_⟩
    have hblank : ∀ c ∈ [' '], Text.isBlank c := List.forall_mem_singleton.mpr rfl
    exact .cons ⟨[' '], [' '], hblank, hblank, rfl⟩
      (.skip (Text.isPadded_self []) (.one (Text.isPadded_self _)))
  setIndex := by
    refine ⟨_, ['+', '0', '5'], rfl, ?_, ['\t'], [], List.forall_mem_singleton.mpr rfl,
      List.forall_mem_nil _, rfl⟩
    rw [h]
    exact .signed 1

/-- The two guardians are announced and configured as the same set. -/
theorem two_guardians_are_configured :
    ∃ v u c, (Succession.proposal 7 3 Succession.twoGuardians).toVaaOrFail 4 = .ok v ∧
      GuardianSetUpdate.decode v.payload = .ok u ∧ u.newIndex.toNat = 5 ∧
      ofEnvironment nextSettings = .ok c ∧
      c.guardian.guardianSet = .ok ⟨u.newIndex, u.keys⟩ := by
  have hsole : ofEnvironment soleSettings = .ok (Site.listing [Site.soleKey]) := by decide +kernel
  have hagree : AgreeBut guardianVariables soleSettings nextSettings := by
    intro name hname
    exact (agreeBut_put (by decide) _ _ name hname).trans
      (agreeBut_put (by decide) _ _ name hname)
  have haccepted :
      ((Succession.proposal 7 3 Succession.twoGuardians).toVaaOrFail 4).toOption.isSome := by
    decide +kernel
  cases hv : (Succession.proposal 7 3 Succession.twoGuardians).toVaaOrFail 4 with
  | error failure =>
      rw [hv] at haccepted
      cases haccepted
  | ok v =>
      obtain ⟨-, -, -, hannounced⟩ := announced_guardians_are_configured
      obtain ⟨u, hu, hindex, hsame⟩ := hannounced 7 3 4 Succession.twoGuardians v hv
      obtain ⟨c, hc, hset⟩ := hsame soleSettings _ nextSettings hsole hagree
        (namesGuardians_nextSettings hindex)
      exact ⟨v, u, c, rfl, hu, hindex, hc, hset⟩

/-- A key behind a mark with a capital letter. -/
def capitalMarked : String := "0X5aaeb6053f3e94c9b9a09f33669435e7ef1beaed"

/-- Settings read the key, and proposals do not. -/
theorem capital_mark_is_read_in_settings_alone :
    Address.read capitalMarked = .ok (.ofNat 20 0x5aaeb6053f3e94c9b9a09f33669435e7ef1beaed) ∧
      Address.read? capitalMarked = none ∧
      ¬ ∀ text a, Address.read? text = some a ↔ Address.read text = .ok a := by
  have hread : Address.read capitalMarked
      = .ok (.ofNat 20 0x5aaeb6053f3e94c9b9a09f33669435e7ef1beaed) := by decide +kernel
  have hnone : Address.read? capitalMarked = none := by decide +kernel
  refine ⟨hread, hnone, fun h => ?_⟩
  have hsome := (h capitalMarked _).mpr hread
  rw [hnone] at hsome
  cases hsome

end Configuration

end BridgeGuardian
