/-! # Tables — finite maps as lists of entries

    A table lists its entries with every key at most once as long as it is
    written through `put` and `putNew`; `get?` takes the first entry of a
    key.  `put` replaces what a key has, `putNew` leaves it. -/

namespace BridgeGuardian

/-- Entries of keys with values. -/
abbrev Table (κ α : Type) := List (κ × α)

namespace Table

variable {κ α : Type} [DecidableEq κ]

/-- The value of a key. -/
def get? : Table κ α → κ → Option α
  | [], _ => none
  | (k, v) :: rest, key => if k = key then some v else get? rest key

/-- Give a key a value, in place of what it has. -/
def put (key : κ) (value : α) : Table κ α → Table κ α
  | [] => [(key, value)]
  | (k, v) :: rest => if k = key then (k, value) :: rest else (k, v) :: put key value rest

/-- Give a key a value unless it has one. -/
def putNew (key : κ) (value : α) (t : Table κ α) : Table κ α :=
  match t.get? key with
  | some _ => t
  | none => t.put key value

@[simp] theorem get?_nil (key : κ) : get? ([] : Table κ α) key = none := rfl

theorem get?_put (t : Table κ α) (key other : κ) (value : α) :
    (t.put key value).get? other = if key = other then some value else t.get? other := by
  induction t with
  | nil => rfl
  | cons entry rest ih =>
      obtain ⟨k, v⟩ := entry
      by_cases hk : k = key
      · subst hk
        by_cases ho : k = other <;> simp [put, get?, ho]
      · by_cases ho : k = other
        · subst ho
          have hk' : ¬ key = k := fun h => hk h.symm
          simp [put, get?, hk, hk']
        · simp [put, get?, hk, ho, ih]

theorem get?_putNew (t : Table κ α) (key other : κ) (value : α) :
    (t.putNew key value).get? other
      = if key = other then some ((t.get? key).getD value) else t.get? other := by
  unfold putNew
  by_cases ho : key = other
  · subst ho
    cases hg : t.get? key with
    | some v => simp [hg]
    | none => simp [get?_put]
  · cases hg : t.get? key with
    | some v => simp [ho]
    | none => simp [get?_put, ho]

end Table

end BridgeGuardian
