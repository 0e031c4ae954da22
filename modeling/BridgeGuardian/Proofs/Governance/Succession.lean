import BridgeGuardian.Proofs.Governance.Orders
import BridgeGuardian.Proofs.Hex.Spelling
import Mathlib.Data.List.Forall2
import Mathlib.Data.List.Nodup
import Mathlib.Order.Bounds.Basic

/-! # Succession — which lists of guardians become the next set

    A list is proper when it has one to nineteen entries that spell keys, no
    two of them the same one, however the spellings differ.  The keys are
    read in order and each is compared with those in front of it, so the
    reading stops at the first entry that is no key or repeats one:
    `readKeys_cases` carries along that the entries in front spell the keys
    read so far and that these are different.  What is announced of a proper
    list is read back as its keys, under the index after the current one.  The
    entries are looked at only if there are not too many of them. -/

namespace BridgeGuardian

open GovernanceRequest

/-! ## Entries -/

namespace GuardianEntry

/-- An entry spells a key. -/
def Spells (e : GuardianEntry) (key : Address) : Prop := key.IsSpelledBy e.pubkey

/-- Two entries spell one key. -/
def SharesKey (e f : GuardianEntry) : Prop := ∃ key, e.Spells key ∧ f.Spells key

end GuardianEntry

namespace Succession

/-- An entry spells a key that an earlier one spells. -/
def Repeats (guardians : List GuardianEntry) (i j : Nat) : Prop :=
  j < i ∧ ∃ e f, guardians[i]? = some e ∧ guardians[j]? = some f ∧ f.SharesKey e

/-- An entry spells no key or repeats an earlier one. -/
def IsAtFault (guardians : List GuardianEntry) (i : Nat) : Prop :=
  (∃ e, guardians[i]? = some e ∧ ¬ Address.IsKeyText e.pubkey) ∨ ∃ j, Repeats guardians i j

/-- One to nineteen entries that spell different keys. -/
structure IsProperSet (guardians : List GuardianEntry) : Prop where
  nonempty : 1 ≤ guardians.length
  few : guardians.length ≤ 19
  keys : ∀ e ∈ guardians, Address.IsKeyText e.pubkey
  distinct : guardians.Pairwise fun e f => ¬ e.SharesKey f

/-- What is said of a list with an entry at fault: the first such entry, and
    the first one that it repeats. -/
inductive EntryObjection (guardians : List GuardianEntry) : String → Prop
  | badKey {i : Nat} {e : GuardianEntry} (first : IsLeast {k | IsAtFault guardians k} i)
      (entry : guardians[i]? = some e) (bad : ¬ Address.IsKeyText e.pubkey) :
      EntryObjection guardians s!"invalid pubkey format at index {i} ({e.name})"
  | repeatedKey {i j : Nat} {e : GuardianEntry} (first : IsLeast {k | IsAtFault guardians k} i)
      (entry : guardians[i]? = some e) (earlier : IsLeast {k | Repeats guardians i k} j) :
      EntryObjection guardians s!"duplicate pubkey at index {i} (duplicate of {j}): {e.name}"

/-- What is said of a list that does not become the next set: the number of
    its entries comes before the entries, and these before the index. -/
inductive Objection (guardians : List GuardianEntry) (currentIndex : UInt32) : String → Prop
  | noGuardians (empty : guardians = []) :
      Objection guardians currentIndex "empty guardian set specified"
  | tooMany (many : 19 < guardians.length) :
      Objection guardians currentIndex
        s!"too many guardians - {guardians.length}, maximum is 19"
  | entry {reason : String} (nonempty : 1 ≤ guardians.length) (few : guardians.length ≤ 19)
      (fault : EntryObjection guardians reason) : Objection guardians currentIndex reason
  | lastIndex (proper : IsProperSet guardians) (last : currentIndex.toNat = 2 ^ 32 - 1) :
      Objection guardians currentIndex "guardian set index overflow"

section

variable {guardians front rest : List GuardianEntry} {keys before : List Address}
  {currentIndex : UInt32} {reason : String}

/-- Entries and keys stand at the same places. -/
theorem exists_key_of_getElem? (h : List.Forall₂ GuardianEntry.Spells guardians keys) {i : Nat}
    {e : GuardianEntry} (he : guardians[i]? = some e) :
    ∃ key, keys[i]? = some key ∧ e.Spells key := by
  induction h generalizing i with
  | nil => cases he
  | cons hspells _ ih =>
      cases i with
      | zero =>
          cases he
          exact ⟨_, rfl, hspells⟩
      | succ i => exact ih he

/-- Entries that spell different keys share none. -/
theorem not_sharesKey (h : List.Forall₂ GuardianEntry.Spells guardians keys) (hkeys : keys.Nodup)
    {i j : Nat} (hij : i ≠ j) {e f : GuardianEntry} (he : guardians[i]? = some e)
    (hf : guardians[j]? = some f) : ¬ e.SharesKey f := by
  rintro ⟨key, hkey, hkey'⟩
  obtain ⟨a, ha, hspells⟩ := exists_key_of_getElem? h he
  obtain ⟨b, hb, hspells'⟩ := exists_key_of_getElem? h hf
  obtain rfl := hspells.unique hkey
  obtain rfl := hspells'.unique hkey'
  obtain ⟨hi, -⟩ := List.getElem?_eq_some_iff.mp ha
  exact hij ((List.getElem?_inj hi hkeys).mp (ha.trans hb.symm))

/-- Entries that spell different keys are not at fault, whatever follows. -/
theorem not_isAtFault (h : List.Forall₂ GuardianEntry.Spells front before)
    (hkeys : before.Nodup) {i : Nat} (hi : i < front.length) : ¬ IsAtFault (front ++ rest) i := by
  rintro (⟨e, he, hbad⟩ | ⟨j, hj, e, f, he, hf, hshare⟩)
  · rw [List.getElem?_append_left hi] at he
    obtain ⟨key, -, hspells⟩ := exists_key_of_getElem? h he
    exact hbad (Address.exists_isSpelledBy_iff.mp ⟨key, hspells⟩)
  · rw [List.getElem?_append_left hi] at he
    rw [List.getElem?_append_left (Nat.lt_trans hj hi)] at hf
    exact not_sharesKey h hkeys (Nat.ne_of_lt hj) hf he hshare

/-- An entry repeats those in front of it that spell its key. -/
theorem repeats_length_iff (h : List.Forall₂ GuardianEntry.Spells front before)
    {e : GuardianEntry} {key : Address} (he : e.Spells key) {j : Nat} :
    Repeats (front ++ e :: rest) front.length j ↔ before[j]? = some key := by
  constructor
  · rintro ⟨hj, e', f, he', hf, key', hkey, hkey'⟩
    rw [List.getElem?_append_right (Nat.le_refl _), Nat.sub_self] at he'
    rw [List.getElem?_append_left hj] at hf
    cases he'
    obtain ⟨found, hfound, hspells⟩ := exists_key_of_getElem? h hf
    rw [hfound, hspells.unique hkey, he.unique hkey']
  · intro hj
    have hlt : j < front.length := by
      rw [h.length_eq]
      exact (List.getElem?_eq_some_iff.mp hj).1
    obtain ⟨found, hfound, hspells⟩ :=
      exists_key_of_getElem? h (List.getElem?_eq_getElem hlt)
    obtain rfl := Option.some.inj (hfound.symm.trans hj)
    refine ⟨hlt, e, front[j], ?_, ?_, found, hspells, he⟩
    · rw [List.getElem?_append_right (Nat.le_refl _), Nat.sub_self]
      rfl
    · rw [List.getElem?_append_left hlt, List.getElem?_eq_getElem hlt]

/-! ## Reading the keys -/

/-- Keys are read up to the first entry at fault. -/
theorem readKeys_cases (hfront : List.Forall₂ GuardianEntry.Spells front before)
    (hbefore : before.Nodup) :
    (∃ keys, readKeys before rest = .ok keys ∧
      List.Forall₂ GuardianEntry.Spells (front ++ rest) keys ∧ keys.Nodup) ∨
    ∃ fault, readKeys before rest = .error fault ∧
      EntryObjection (front ++ rest) fault.message := by
  induction rest generalizing front before with
  | nil =>
      rw [List.append_nil]
      exact .inl ⟨before, rfl, hfront, hbefore⟩
  | cons e rest ih =>
      have hlength : before.length = front.length := hfront.length_eq.symm
      have hentry : (front ++ e :: rest)[front.length]? = some e := by simp
      have hleast : ∀ i ∈ {k | IsAtFault (front ++ e :: rest) k}, front.length ≤ i :=
        fun i hi => Nat.le_of_not_lt fun hlt => not_isAtFault hfront hbefore hlt hi
      rw [readKeys]
      cases hkey : Address.read? e.pubkey with
      | none =>
          have hbad : ¬ Address.IsKeyText e.pubkey := by
            rw [← Address.exists_isSpelledBy_iff]
            rintro ⟨key, hspelled⟩
            rw [Address.read?_eq_some_iff.mpr hspelled] at hkey
            cases hkey
          refine .inr ⟨_, rfl, ?_⟩
          rw [hlength]
          exact .badKey ⟨.inl ⟨e, hentry, hbad⟩, hleast⟩ hentry hbad
      | some key =>
          have hspells : e.Spells key := Address.read?_eq_some_iff.mp hkey
          dsimp only
          cases hearlier : before.findIdx? (· == key) with
          | none =>
              have hnew : key ∉ before := by
                intro hmem
                have hother := List.findIdx?_eq_none_iff.mp hearlier key hmem
                rw [beq_self_eq_true] at hother
                cases hother
              have hkeys : (before ++ [key]).Nodup := by
                rw [← List.concat_eq_append]
                exact List.Nodup.concat hnew hbefore
              have hread := ih (List.rel_append hfront (.cons hspells .nil)) hkeys
              rwa [List.append_assoc, List.singleton_append] at hread
          | some j =>
              obtain ⟨hj, hfound, hfirst⟩ := List.findIdx?_eq_some_iff_getElem.mp hearlier
              have hrepeats : Repeats (front ++ e :: rest) front.length j := by
                rw [repeats_length_iff hfront hspells, List.getElem?_eq_getElem hj,
                  beq_iff_eq.mp hfound]
              refine .inr ⟨_, rfl, ?_⟩
              rw [hlength]
              refine .repeatedKey ⟨.inr ⟨j, hrepeats⟩, hleast⟩ hentry ⟨hrepeats, fun k hk => ?_⟩
              obtain ⟨hk, hsame⟩ :=
                List.getElem?_eq_some_iff.mp ((repeats_length_iff hfront hspells).mp hk)
              exact Nat.le_of_not_lt fun hlt => hfirst k hlt (beq_iff_eq.mpr hsame)

/-! ## Proper lists -/

/-- Entries that spell different keys make a proper list. -/
theorem IsProperSet.of_spells (hnonempty : 1 ≤ guardians.length) (hfew : guardians.length ≤ 19)
    (h : List.Forall₂ GuardianEntry.Spells guardians keys) (hkeys : keys.Nodup) :
    IsProperSet guardians where
  nonempty := hnonempty
  few := hfew
  keys := by
    intro e he
    obtain ⟨i, hi⟩ := List.mem_iff_getElem?.mp he
    obtain ⟨key, -, hspells⟩ := exists_key_of_getElem? h hi
    exact Address.exists_isSpelledBy_iff.mp ⟨key, hspells⟩
  distinct := by
    rw [List.pairwise_iff_getElem]
    intro i j hi hj hij
    exact not_sharesKey h hkeys (Nat.ne_of_lt hij) (List.getElem?_eq_getElem hi)
      (List.getElem?_eq_getElem hj)

/-- No entry of a proper list is at fault. -/
theorem IsProperSet.not_isAtFault (h : IsProperSet guardians) (i : Nat) :
    ¬ IsAtFault guardians i := by
  rintro (⟨e, he, hbad⟩ | ⟨j, hj, e, f, he, hf, hshare⟩)
  · exact hbad (h.keys e (List.mem_of_getElem? he))
  · obtain ⟨hi, rfl⟩ := List.getElem?_eq_some_iff.mp he
    obtain ⟨hj', rfl⟩ := List.getElem?_eq_some_iff.mp hf
    exact List.pairwise_iff_getElem.mp h.distinct j i hj' hi hj hshare

theorem EntryObjection.exists_isAtFault (h : EntryObjection guardians reason) :
    ∃ i, IsAtFault guardians i := by
  cases h with
  | badKey first => exact ⟨_, first.1⟩
  | repeatedKey first => exact ⟨_, first.1⟩

/-- An entry that repeats another one spells a key. -/
theorem isKeyText_of_repeats {i j : Nat} {e : GuardianEntry} (h : Repeats guardians i j)
    (he : guardians[i]? = some e) : Address.IsKeyText e.pubkey := by
  obtain ⟨-, e', f, he', -, key, -, hspells⟩ := h
  obtain rfl := Option.some.inj (he.symm.trans he')
  exact Address.exists_isSpelledBy_iff.mp ⟨key, hspells⟩

/-- One thing is said of the entries of a list. -/
theorem EntryObjection.unique {other : String} (h : EntryObjection guardians reason)
    (h' : EntryObjection guardians other) : reason = other := by
  cases h with
  | badKey first entry bad =>
      cases h' with
      | badKey first' entry' =>
          obtain rfl := first.unique first'
          rw [Option.some.inj (entry.symm.trans entry')]
      | repeatedKey first' entry' earlier =>
          obtain rfl := first.unique first'
          exact absurd (isKeyText_of_repeats earlier.1 entry) bad
  | repeatedKey first entry earlier =>
      cases h' with
      | badKey first' entry' bad =>
          obtain rfl := first.unique first'
          exact absurd (isKeyText_of_repeats earlier.1 entry') bad
      | repeatedKey first' entry' earlier' =>
          obtain rfl := first.unique first'
          obtain rfl := earlier.unique earlier'
          rw [Option.some.inj (entry.symm.trans entry')]

/-- The keys of a list of one to nineteen entries are read, or an entry is at
    fault. -/
theorem checkGuardians_cases (hnonempty : 1 ≤ guardians.length) (hfew : guardians.length ≤ 19) :
    (∃ keys, checkGuardians guardians = .ok keys ∧
      List.Forall₂ GuardianEntry.Spells guardians keys ∧ keys.Nodup) ∨
    ∃ fault, checkGuardians guardians = .error fault ∧
      EntryObjection guardians fault.message := by
  have hsome : ¬ guardians.isEmpty := by
    rw [List.isEmpty_iff_length_eq_zero]
    omega
  have hmost : ¬ maximalGuardians < guardians.length := Nat.not_lt.mpr hfew
  have hcheck : checkGuardians guardians = readKeys [] guardians := by
    rw [checkGuardians, if_neg hsome, if_neg hmost]
  rw [hcheck]
  exact @readKeys_cases [] guardians [] .nil List.nodup_nil

/-- The keys of a proper list are read. -/
theorem checkGuardians_of_isProperSet (h : IsProperSet guardians) :
    ∃ keys, checkGuardians guardians = .ok keys ∧
      List.Forall₂ GuardianEntry.Spells guardians keys := by
  obtain ⟨keys, hcheck, hspells, -⟩ | ⟨fault, -, hfault⟩ := checkGuardians_cases h.nonempty h.few
  · exact ⟨keys, hcheck, hspells⟩
  · obtain ⟨i, hi⟩ := hfault.exists_isAtFault
    exact absurd hi (h.not_isAtFault i)

/-- Of one to nineteen entries, the first one at fault is found. -/
theorem checkGuardians_of_isAtFault {i : Nat} (h : IsAtFault guardians i)
    (hnonempty : 1 ≤ guardians.length) (hfew : guardians.length ≤ 19) :
    ∃ fault, checkGuardians guardians = .error fault ∧
      EntryObjection guardians fault.message := by
  obtain ⟨keys, -, hspells, hkeys⟩ | hfault := checkGuardians_cases hnonempty hfew
  · exact absurd h ((IsProperSet.of_spells hnonempty hfew hspells hkeys).not_isAtFault i)
  · exact hfault

/-! ## Proposals -/

/-- A request for a new guardian set. -/
def proposal (sequence : UInt64) (nonce : UInt32) (guardians : List GuardianEntry) :
    GovernanceMessage := ⟨sequence, nonce, .guardianSet guardians⟩

variable {sequence : UInt64} {nonce : UInt32}

theorem toVaaOrFail_proposal :
    (proposal sequence nonce guardians).toVaaOrFail currentIndex
      = ((proposal sequence nonce guardians).giving currentIndex
          <$> guardianSetOrder currentIndex guardians).mapError
        fun fault => .invalid fault.message := rfl

/-- A proper list becomes the next set, unless there is no next index. -/
theorem toVaaOrFail_of_isProperSet (sequence : UInt64) (nonce : UInt32)
    (h : IsProperSet guardians) (hindex : currentIndex.toNat < 2 ^ 32 - 1) :
    ∃ keys v, (proposal sequence nonce guardians).toVaaOrFail currentIndex = .ok v ∧
      v.payload = GuardianSetUpdate.serialize ⟨keys, currentIndex + 1⟩ ∧
      List.Forall₂ GuardianEntry.Spells guardians keys := by
  obtain ⟨keys, hcheck, hspells⟩ := checkGuardians_of_isProperSet h
  have hsize : currentIndex.toNat + 1 < UInt32.size := by
    rw [UInt32.size]
    omega
  have hnext : nextIndex currentIndex = .ok (currentIndex + 1) := if_pos hsize
  have horder : guardianSetOrder currentIndex guardians
      = .ok (.guardianSetUpdate ⟨keys, currentIndex + 1⟩) :=
    bind_eq_ok_iff.mpr ⟨keys, hcheck, bind_eq_ok_iff.mpr ⟨_, hnext, rfl⟩⟩
  refine ⟨keys, (proposal sequence nonce guardians).giving currentIndex
    (.guardianSetUpdate ⟨keys, currentIndex + 1⟩), ?_, rfl, hspells⟩
  rw [toVaaOrFail_proposal, horder]
  rfl

/-- The first fault is the one that is reported. -/
theorem toVaaOrFail_of_checkGuardians {fault : RequestFault}
    (h : checkGuardians guardians = .error fault) :
    (proposal sequence nonce guardians).toVaaOrFail currentIndex
      = .error (.invalid fault.message) := by
  rw [toVaaOrFail_proposal, guardianSetOrder, h]
  rfl

/-- The wording names the greatest number. -/
theorem message_tooManyGuardians (count : Nat) :
    (RequestFault.tooManyGuardians count).message
      = s!"too many guardians - {count}, maximum is 19" := by
  have hend : toString ", maximum is " ++ toString maximalGuardians
      = toString ", maximum is 19" := by decide
  unfold RequestFault.message
  dsimp only
  rw [String.append_assoc, hend]

/-- What is objected to a list is the answer. -/
theorem toVaaOrFail_of_objection (h : Objection guardians currentIndex reason) :
    (proposal sequence nonce guardians).toVaaOrFail currentIndex = .error (.invalid reason) := by
  cases h with
  | noGuardians empty =>
      have hcheck : checkGuardians guardians = .error .noGuardians := by
        rw [empty]
        rfl
      exact toVaaOrFail_of_checkGuardians hcheck
  | tooMany many =>
      have hsome : ¬ guardians.isEmpty := by
        rw [List.isEmpty_iff_length_eq_zero]
        omega
      have hcheck : checkGuardians guardians = .error (.tooManyGuardians guardians.length) := by
        rw [checkGuardians, if_neg hsome]
        exact if_pos many
      rw [toVaaOrFail_of_checkGuardians hcheck, message_tooManyGuardians]
  | entry nonempty few fault =>
      obtain ⟨i, hi⟩ := fault.exists_isAtFault
      obtain ⟨found, hcheck, hfound⟩ := checkGuardians_of_isAtFault hi nonempty few
      rw [toVaaOrFail_of_checkGuardians hcheck, hfound.unique fault]
  | lastIndex proper last =>
      obtain ⟨keys, hcheck, -⟩ := checkGuardians_of_isProperSet proper
      have hsize : ¬ currentIndex.toNat + 1 < UInt32.size := by
        rw [UInt32.size]
        omega
      have hnext : nextIndex currentIndex = .error .setIndexOverflow := if_neg hsize
      rw [toVaaOrFail_proposal, guardianSetOrder, hcheck]
      show (_ <$> (nextIndex currentIndex >>= _)).mapError _ = _
      rw [hnext]
      rfl

/-- A list is proper and has a next index, or there is an objection. -/
theorem isProperSet_or_objection (guardians : List GuardianEntry) (currentIndex : UInt32) :
    (IsProperSet guardians ∧ currentIndex.toNat < 2 ^ 32 - 1) ∨
      ∃ reason, Objection guardians currentIndex reason := by
  by_cases hnonempty : 1 ≤ guardians.length
  · by_cases hfew : guardians.length ≤ 19
    · obtain ⟨keys, -, hspells, hkeys⟩ | ⟨fault, -, hfault⟩ :=
        checkGuardians_cases hnonempty hfew
      · have hproper : IsProperSet guardians := .of_spells hnonempty hfew hspells hkeys
        have hindex : currentIndex.toNat < 2 ^ 32 := currentIndex.toNat_lt
        by_cases hlast : currentIndex.toNat = 2 ^ 32 - 1
        · exact .inr ⟨_, .lastIndex hproper hlast⟩
        · exact .inl ⟨hproper, by omega⟩
      · exact .inr ⟨_, .entry hnonempty hfew hfault⟩
    · exact .inr ⟨_, .tooMany (Nat.lt_of_not_le hfew)⟩
  · have hempty : guardians = [] := List.eq_nil_of_length_eq_zero (by omega)
    exact .inr ⟨_, .noGuardians hempty⟩

/-- A proposal fails exactly with what is objected to its list. -/
theorem toVaaOrFail_eq_error_iff {failure : Failure} :
    (proposal sequence nonce guardians).toVaaOrFail currentIndex = .error failure ↔
      ∃ reason, Objection guardians currentIndex reason ∧ failure = .invalid reason := by
  constructor
  · intro h
    obtain ⟨hproper, hindex⟩ | ⟨reason, hreason⟩ :=
      isProperSet_or_objection guardians currentIndex
    · obtain ⟨keys, v, hv, -⟩ := toVaaOrFail_of_isProperSet sequence nonce hproper hindex
      rw [hv] at h
      cases h
    · rw [toVaaOrFail_of_objection hreason] at h
      cases h
      exact ⟨reason, hreason, rfl⟩
  · rintro ⟨reason, hreason, rfl⟩
    exact toVaaOrFail_of_objection hreason

/-- Nothing else is accepted. -/
theorem isProperSet_of_toVaaOrFail {v : Vaa}
    (h : (proposal sequence nonce guardians).toVaaOrFail currentIndex = .ok v) :
    IsProperSet guardians ∧ currentIndex.toNat < 2 ^ 32 - 1 := by
  obtain hproper | ⟨reason, hreason⟩ := isProperSet_or_objection guardians currentIndex
  · exact hproper
  · rw [toVaaOrFail_of_objection hreason] at h
    cases h

/-- Of at most nineteen entries, the first one at fault is reported. -/
theorem entryObjection_of_isAtFault {i : Nat} (h : IsAtFault guardians i)
    (hfew : guardians.length ≤ 19) :
    ∃ reason, (proposal sequence nonce guardians).toVaaOrFail currentIndex
        = .error (.invalid reason) ∧ EntryObjection guardians reason := by
  have hnonempty : 1 ≤ guardians.length := by
    obtain ⟨e, he, -⟩ | ⟨-, -, e, -, he, -⟩ := h
    · exact Nat.lt_of_le_of_lt (Nat.zero_le _) (List.getElem?_eq_some_iff.mp he).1
    · exact Nat.lt_of_le_of_lt (Nat.zero_le _) (List.getElem?_eq_some_iff.mp he).1
  obtain ⟨fault, hcheck, hfault⟩ := checkGuardians_of_isAtFault h hnonempty hfew
  exact ⟨fault.message, toVaaOrFail_of_checkGuardians hcheck, hfault⟩

end

/-- Proposals are accepted exactly when the list is proper and there is a next
    index, and what is then announced is read back as the keys that the
    entries spell, in their order, under the next index.  Of at most nineteen
    entries the first one that spells no key or repeats an earlier one is
    named, and with it the first one that it repeats. -/
theorem proposals_are_checked_exactly (sequence : UInt64) (nonce currentIndex : UInt32)
    (guardians : List GuardianEntry) :
    ((∃ v, (proposal sequence nonce guardians).toVaaOrFail currentIndex = .ok v) ↔
      IsProperSet guardians ∧ currentIndex.toNat < 2 ^ 32 - 1) ∧
    (∀ v, (proposal sequence nonce guardians).toVaaOrFail currentIndex = .ok v →
      ∃ u, GuardianSetUpdate.decode v.payload = .ok u ∧
        List.Forall₂ GuardianEntry.Spells guardians u.keys ∧
        u.newIndex.toNat = currentIndex.toNat + 1) ∧
    ((∃ i, IsAtFault guardians i) → guardians.length ≤ 19 →
      ∃ reason, (proposal sequence nonce guardians).toVaaOrFail currentIndex
          = .error (.invalid reason) ∧ EntryObjection guardians reason) := by
  refine ⟨⟨?_, ?_⟩, ?_, ?_⟩
  · rintro ⟨v, hv⟩
    exact isProperSet_of_toVaaOrFail hv
  · rintro ⟨hproper, hindex⟩
    obtain ⟨keys, v, hv, -⟩ := toVaaOrFail_of_isProperSet sequence nonce hproper hindex
    exact ⟨v, hv⟩
  · intro v hv
    obtain ⟨hproper, hindex⟩ := isProperSet_of_toVaaOrFail hv
    obtain ⟨keys, v', hv', hpayload, hspells⟩ :=
      toVaaOrFail_of_isProperSet sequence nonce hproper hindex
    rw [hv] at hv'
    cases hv'
    -- nineteen keys can be counted in one octet
    have hcount : keys.length < 256 := by
      rw [← hspells.length_eq]
      exact Nat.lt_of_le_of_lt hproper.few (by decide)
    refine ⟨⟨keys, currentIndex + 1⟩, ?_, hspells, ?_⟩
    · rw [hpayload]
      exact GuardianSetUpdate.decode_serialize hcount
    · show (currentIndex + 1).toNat = _
      rw [UInt32.toNat_add]
      exact Nat.mod_eq_of_lt (by rw [UInt32.toNat_one]; omega)
  · rintro ⟨i, hi⟩ hfew
    exact entryObjection_of_isAtFault hi hfew

/-- The key whose octets are all the same. -/
def uniformKey (octet : UInt8) : Address := ⟨List.replicate 20 octet, List.length_replicate⟩

/-- Two guardians whose keys are spelled in different ways. -/
def twoGuardians : List GuardianEntry :=
  [⟨"abababababababababababababababababababab", "first"⟩,
    ⟨"0xCDCDCDCDCDCDCDCDCDCDCDCDCDCDCDCDCDCDCDCD", "second"⟩]

/-- One key in two spellings. -/
def guardianTwice : List GuardianEntry :=
  [⟨"abababababababababababababababababababab", "first"⟩,
    ⟨"0xABABABABABABABABABABABABABABABABABABABAB", "second"⟩]

/-- The two guardians are announced under the next index, and the second
    spelling is noticed. -/
theorem second_spelling_of_a_key_is_noticed :
    (∃ v u, (proposal 7 3 twoGuardians).toVaaOrFail 4 = .ok v ∧
      GuardianSetUpdate.decode v.payload = .ok u ∧
      List.Forall₂ GuardianEntry.Spells twoGuardians u.keys ∧ u.newIndex.toNat = 5) ∧
    ∃ reason, (proposal 7 3 guardianTwice).toVaaOrFail 4 = .error (.invalid reason) ∧
      EntryObjection guardianTwice reason := by
  have hab : Address.IsSpelledBy (uniformKey 0xAB) "abababababababababababababababababababab" :=
    Address.read?_eq_some_iff.mp (by decide +kernel)
  have hcd : Address.IsSpelledBy (uniformKey 0xCD) "0xCDCDCDCDCDCDCDCDCDCDCDCDCDCDCDCDCDCDCDCD" :=
    Address.read?_eq_some_iff.mp (by decide +kernel)
  have hAB : Address.IsSpelledBy (uniformKey 0xAB) "0xABABABABABABABABABABABABABABABABABABABAB" :=
    Address.read?_eq_some_iff.mp (by decide +kernel)
  have hproper : IsProperSet twoGuardians :=
    .of_spells (by decide) (by decide) (.cons hab (.cons hcd .nil)) (by decide)
  have hrepeats : Repeats guardianTwice 1 0 := ⟨by decide, _, _, rfl, rfl, _, hab, hAB⟩
  obtain ⟨haccepted, hannounced, -⟩ := proposals_are_checked_exactly 7 3 4 twoGuardians
  obtain ⟨-, -, hfault⟩ := proposals_are_checked_exactly 7 3 4 guardianTwice
  obtain ⟨v, hv⟩ := haccepted.mpr ⟨hproper, by decide⟩
  obtain ⟨u, hu, hspells, hindex⟩ := hannounced v hv
  exact ⟨⟨v, u, hv, hu, hspells, hindex⟩, hfault ⟨1, .inr ⟨0, hrepeats⟩⟩ (by decide)⟩

/-- Twenty entries that are no keys. -/
def twentyGuardians : List GuardianEntry := List.replicate 20 ⟨"", "nobody"⟩

/-- What is said of entries does not begin with a `t`. -/
theorem EntryObjection.head?_ne {guardians : List GuardianEntry} {reason : String}
    (h : EntryObjection guardians reason) : reason.toList.head? ≠ some 't' := by
  cases h with
  | badKey =>
      have hhead : (toString "invalid pubkey format at index ").toList.head? = some 'i' := rfl
      simp [String.toList_append, hhead]
  | repeatedKey =>
      have hhead : (toString "duplicate pubkey at index ").toList.head? = some 'd' := rfl
      simp [String.toList_append, hhead]

/-- More than nineteen entries are refused for their number, although the
    first of them is no key. -/
theorem twenty_guardians_are_refused_for_their_number :
    IsLeast {k | IsAtFault twentyGuardians k} 0 ∧
    (proposal 0 0 twentyGuardians).toVaaOrFail 0
      = .error (.invalid "too many guardians - 20, maximum is 19") ∧
    ¬ ∀ (sequence : UInt64) (nonce currentIndex : UInt32) (guardians : List GuardianEntry),
      (∃ i, IsAtFault guardians i) →
        ∃ reason, (proposal sequence nonce guardians).toVaaOrFail currentIndex
            = .error (.invalid reason) ∧ EntryObjection guardians reason := by
  have hfault : IsAtFault twentyGuardians 0 := .inl ⟨_, rfl, fun h => absurd h.1 (by decide)⟩
  have hmany : Objection twentyGuardians 0 "too many guardians - 20, maximum is 19" :=
    .tooMany (by decide)
  have hanswer : (proposal 0 0 twentyGuardians).toVaaOrFail 0
      = .error (.invalid "too many guardians - 20, maximum is 19") :=
    toVaaOrFail_of_objection hmany
  refine ⟨⟨hfault, fun i _ => Nat.zero_le i⟩, hanswer, fun h => ?_⟩
  obtain ⟨reason, hreason, hentry⟩ := h 0 0 0 twentyGuardians ⟨0, hfault⟩
  rw [hanswer] at hreason
  cases hreason
  exact hentry.head?_ne rfl

end Succession

end BridgeGuardian
