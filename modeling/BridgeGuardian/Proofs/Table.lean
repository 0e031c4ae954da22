import BridgeGuardian.Table

/-! # Tables in proofs — entries, and keys that occur once

    `put` and `putNew` keep every key at most once, and then looking a key
    up and finding its entry are the same thing. -/

namespace BridgeGuardian.Table

variable {κ α : Type} [DecidableEq κ] {t : Table κ α} {key : κ} {value : α}

/-- Every key has at most one entry. -/
def Distinct (t : Table κ α) : Prop := (t.map Prod.fst).Nodup

/-- In a table of one entry only its key is found. -/
theorem get?_singleton (key other : κ) (value : α) :
    get? [(key, value)] other = if key = other then some value else none :=
  get?_put [] key other value

/-- What is found for a key is its entry. -/
theorem mem_of_get? (h : t.get? key = some value) : (key, value) ∈ t := by
  induction t with
  | nil => cases h
  | cons entry rest ih =>
      obtain ⟨k, v⟩ := entry
      by_cases hk : k = key
      · subst hk
        rw [get?, if_pos rfl] at h
        cases h
        exact List.mem_cons_self
      · rw [get?, if_neg hk] at h
        exact List.mem_cons_of_mem _ (ih h)

/-- Something is found for the keys that have an entry. -/
theorem isSome_get?_iff : (t.get? key).isSome ↔ ∃ value, (key, value) ∈ t := by
  constructor
  · intro h
    obtain ⟨value, hvalue⟩ := Option.isSome_iff_exists.mp h
    exact ⟨value, mem_of_get? hvalue⟩
  · rintro ⟨value, h⟩
    induction t with
    | nil => cases h
    | cons entry rest ih =>
        obtain ⟨k, v⟩ := entry
        by_cases hk : k = key
        · rw [get?, if_pos hk]
          rfl
        · rw [get?, if_neg hk]
          rcases List.mem_cons.mp h with heq | hmem
          · cases heq
            exact absurd rfl hk
          · exact ih hmem

/-- The entry of a key is what is found for it. -/
theorem get?_of_mem (ht : t.Distinct) (h : (key, value) ∈ t) : t.get? key = some value := by
  induction t with
  | nil => cases h
  | cons entry rest ih =>
      obtain ⟨k, v⟩ := entry
      obtain ⟨hk, hrest⟩ := List.nodup_cons.mp ht
      rcases List.mem_cons.mp h with heq | hmem
      · cases heq
        exact if_pos rfl
      · have hne : k ≠ key := by
          intro heq
          subst heq
          exact hk (List.mem_map.mpr ⟨_, hmem, rfl⟩)
        rw [get?, if_neg hne]
        exact ih hrest hmem

/-- A key without an entry gets one at the end. -/
theorem put_of_get?_eq_none (h : t.get? key = none) : t.put key value = t ++ [(key, value)] := by
  induction t with
  | nil => rfl
  | cons entry rest ih =>
      obtain ⟨k, v⟩ := entry
      by_cases hk : k = key
      · rw [get?, if_pos hk] at h
        cases h
      · rw [get?, if_neg hk] at h
        rw [put, if_neg hk, ih h]
        rfl

theorem mem_putNew_of_mem {entry : κ × α} (h : entry ∈ t) : entry ∈ t.putNew key value := by
  unfold putNew
  cases hg : t.get? key with
  | some v => exact h
  | none =>
      rw [put_of_get?_eq_none hg]
      exact List.mem_append_left _ h

/-- Only the new entry comes in addition. -/
theorem mem_or_eq_of_mem_putNew {entry : κ × α} (h : entry ∈ t.putNew key value) :
    entry ∈ t ∨ entry = (key, value) := by
  unfold putNew at h
  cases hg : t.get? key with
  | some v =>
      rw [hg] at h
      exact .inl h
  | none =>
      rw [hg, put_of_get?_eq_none hg] at h
      rcases List.mem_append.mp h with h | h
      · exact .inl h
      · exact .inr (List.mem_singleton.mp h)

/-- The keys of a table with a key that is put. -/
theorem mem_keys_put {k : κ} (h : k ∈ (t.put key value).map Prod.fst) :
    k ∈ t.map Prod.fst ∨ k = key := by
  induction t with
  | nil => exact .inr (List.mem_singleton.mp h)
  | cons entry rest ih =>
      obtain ⟨k', v⟩ := entry
      by_cases hk : k' = key
      · rw [put, if_pos hk] at h
        exact .inl h
      · rw [put, if_neg hk] at h
        rcases List.mem_cons.mp h with rfl | h
        · exact .inl List.mem_cons_self
        · exact (ih h).imp_left (List.mem_cons_of_mem _)

/-- Putting keeps keys distinct. -/
theorem distinct_put (ht : t.Distinct) : (t.put key value).Distinct := by
  induction t with
  | nil => exact List.nodup_cons.mpr ⟨List.not_mem_nil, List.nodup_nil⟩
  | cons entry rest ih =>
      obtain ⟨k, v⟩ := entry
      obtain ⟨hk, hrest⟩ := List.nodup_cons.mp ht
      by_cases heq : k = key
      · rw [put, if_pos heq]
        exact ht
      · rw [put, if_neg heq]
        refine List.nodup_cons.mpr ⟨fun h => ?_, ih hrest⟩
        exact (mem_keys_put h).elim hk heq

theorem distinct_putNew (ht : t.Distinct) : (t.putNew key value).Distinct := by
  unfold putNew
  split
  · exact ht
  · exact distinct_put ht

/-- A table without a key. -/
def without (t : Table κ α) (key : κ) : Table κ α := t.filter fun entry => entry.1 ≠ key

theorem without_cons_self (t : Table κ α) (key : κ) (value : α) :
    without ((key, value) :: t) key = t.without key := by
  simp [without]

theorem without_cons_of_ne {k : κ} (h : k ≠ key) (t : Table κ α) (value : α) :
    without ((k, value) :: t) key = (k, value) :: t.without key := by
  simp [without, h]

theorem without_of_notMem_keys (h : key ∉ t.map Prod.fst) : t.without key = t := by
  refine List.filter_eq_self.mpr fun entry hentry => decide_eq_true ?_
  rintro rfl
  exact h (List.mem_map_of_mem hentry)

/-- A key that is put has its new entry, and all others keep theirs. -/
theorem put_perm (ht : t.Distinct) : (t.put key value).Perm (t.without key ++ [(key, value)]) := by
  induction t with
  | nil => exact .refl _
  | cons entry rest ih =>
      obtain ⟨k, v⟩ := entry
      obtain ⟨hk, hrest⟩ := List.nodup_cons.mp ht
      by_cases heq : k = key
      · subst heq
        rw [put, if_pos rfl, without_cons_self, without_of_notMem_keys hk]
        exact (List.perm_append_singleton _ _).symm
      · rw [put, if_neg heq, without_cons_of_ne heq]
        exact (ih hrest).cons _

/-! ## Keys without an entry -/

section Missing

variable [BEq κ]

/-- The keys of a list that have no entry, each where it occurs first. -/
def missing (t : Table κ α) (keys : List κ) : List κ :=
  (keys.filter fun key => (t.get? key).isNone).eraseDups

/-- Without entries all keys are missing. -/
theorem missing_nil (keys : List κ) : missing ([] : Table κ α) keys = keys.eraseDups :=
  congrArg List.eraseDups (List.filter_eq_self.mpr fun _ _ => rfl)

/-- A key with an entry is not missing. -/
theorem missing_cons_of_get?_eq_some (h : t.get? key = some value) (keys : List κ) :
    t.missing (key :: keys) = t.missing keys := by
  rw [missing, List.filter_cons, h]
  rfl

/-- A key without an entry is missing, and missing once. -/
theorem missing_cons_of_get?_eq_none (h : t.get? key = none) (keys : List κ) :
    t.missing (key :: keys) = key :: t.missing (keys.filter fun k => !k == key) := by
  rw [missing, List.filter_cons, h]
  show (key :: keys.filter fun k => (t.get? k).isNone).eraseDups = _
  rw [List.eraseDups_cons, missing, List.filter_filter, List.filter_filter]
  exact congrArg (fun p => key :: (keys.filter p).eraseDups) (funext fun k => Bool.and_comm ..)

/-- A key that gets an entry is not missing any more. -/
theorem missing_put [LawfulBEq κ] (t : Table κ α) (key : κ) (value : α) (keys : List κ) :
    (t.put key value).missing keys = t.missing (keys.filter fun k => !k == key) := by
  rw [missing, missing, List.filter_filter]
  refine congrArg (fun p => (keys.filter p).eraseDups) (funext fun k => ?_)
  rw [get?_put]
  by_cases hk : key = k
  · rw [if_pos hk, hk, BEq.rfl]
    simp
  · rw [if_neg hk, beq_false_of_ne (Ne.symm hk)]
    simp

end Missing

end BridgeGuardian.Table
