import Bundleless.Distinct

/-! # Tables

    Finite maps from names to values, as lists of entries. A new name goes to
    the end; a name that is there keeps its place when its value changes, so
    the entries stand in the order in which their names came first.
-/

namespace Bundleless

/-- A finite map from names. -/
abbrev Table (α : Type) := List (String × α)

namespace Table

variable {α : Type}

/-- The value of `key`. -/
def get? (key : String) : Table α → Option α
  | [] => none
  | (k, v) :: t => if k = key then some v else get? key t

/-- There is a value for `key`. -/
def contains (key : String) (t : Table α) : Bool := (get? key t).isSome

/-- Set the value of `key`. -/
def insert (key : String) (value : α) : Table α → Table α
  | [] => [(key, value)]
  | (k, v) :: t => if k = key then (key, value) :: t else (k, v) :: insert key value t

/-- Remove `key`. -/
def erase (key : String) : Table α → Table α
  | [] => []
  | (k, v) :: t => if k = key then erase key t else (k, v) :: erase key t

/-- The names, in the order in which they came first. -/
def keys (t : Table α) : List String := t.map (·.1)

/-- The entries one after the other; of two with one name the last counts. -/
def ofList (entries : List (String × α)) : Table α :=
  entries.foldl (fun t (k, v) => insert k v t) []

@[simp] theorem get?_nil (key : String) : get? key ([] : Table α) = none := rfl

/-- **Reading after writing**: the written name has the written value, and every other name has
    the value it had. -/
theorem get?_insert (key k : String) (value : α) (t : Table α) :
    get? k (insert key value t) = if key = k then some value else get? k t := by
  induction t with
  | nil => simp [insert, get?]
  | cons e t ih =>
    obtain ⟨l, w⟩ := e
    simp only [insert]
    by_cases h : l = key
    · subst h
      simp only [if_true, get?]
      by_cases hk : l = k <;> simp [hk]
    · simp only [h, if_false, get?, ih]
      by_cases hl : l = k
      · subst hl
        simp [show key ≠ l from fun e => h e.symm]
      · simp [hl]

/-- Reading after removing: the removed name has no value, and every other name the one it had. -/
theorem get?_erase (key k : String) (t : Table α) :
    get? k (erase key t) = if key = k then none else get? k t := by
  induction t with
  | nil => simp [erase]
  | cons e t ih =>
    obtain ⟨l, w⟩ := e
    simp only [erase]
    by_cases h : l = key
    · subst h
      simp only [if_true, ih, get?]
      by_cases hk : l = k <;> simp [hk]
    · simp only [h, if_false, get?, ih]
      by_cases hl : l = k
      · subst hl
        simp [show key ≠ l from fun e => h e.symm]
      · simp [hl]

@[simp] theorem get?_insert_self (key : String) (value : α) (t : Table α) :
    get? key (insert key value t) = some value := by
  rw [get?_insert, if_pos rfl]

@[simp] theorem get?_erase_self (key : String) (t : Table α) : get? key (erase key t) = none := by
  rw [get?_erase, if_pos rfl]

theorem contains_insert (key k : String) (value : α) (t : Table α) :
    contains k (insert key value t) = (decide (key = k) || contains k t) := by
  unfold contains
  rw [get?_insert]
  split <;> simp_all

/-! ### The names -/

/-- A name is among the names if there is a value for it. -/
theorem mem_keys_iff {key : String} {t : Table α} : key ∈ keys t ↔ contains key t = true := by
  induction t with
  | nil => simp [keys, contains]
  | cons e t ih =>
    obtain ⟨k, v⟩ := e
    by_cases h : k = key
    · simp [keys, contains, get?, h]
    · have hNe : key ≠ k := fun e => h e.symm
      simpa [keys, contains, get?, h, hNe] using ih

/-- A new name comes last, and one that is there keeps its place. -/
theorem keys_insert (key : String) (value : α) (t : Table α) :
    keys (insert key value t) = Distinct.add (keys t) key := by
  induction t with
  | nil => rfl
  | cons e t ih =>
    obtain ⟨k, v⟩ := e
    have hCons : ∀ (e : String × α) (t : Table α), keys (e :: t) = e.1 :: keys t := fun _ _ => rfl
    by_cases h : k = key
    · simp [insert, hCons, Distinct.add, h]
    · have hNe : key ≠ k := fun e => h e.symm
      rw [insert, if_neg h, hCons, ih, hCons, Distinct.add, Distinct.add]
      by_cases hMem : key ∈ keys t <;> simp [hMem, hNe]

/-! ### Entries of one value among those of others -/

variable {key k : String} {v x : α} {t : Table α}

/-- A new name takes nothing from the others. -/
theorem get?_insert_of_none (hNone : get? key t = none) (hGet : get? k t = some v) :
    get? k (insert key x t) = some v := by
  have hNe : key ≠ k := by
    rintro rfl
    simp [hNone] at hGet
  rw [get?_insert, if_neg hNe, hGet]

/-- Writing one value makes no entry of another. -/
theorem get?_insert_ne (hNe : x ≠ v) (hNot : get? k t ≠ some v) :
    get? k (insert key x t) ≠ some v := by
  rw [get?_insert]
  split
  · exact fun hEq => hNe (Option.some.inj hEq)
  · exact hNot

/-- Removing an entry of one value leaves the entries of another. -/
theorem get?_erase_of_ne (hHad : get? key t = some x) (hNe : x ≠ v) (hGet : get? k t = some v) :
    get? k (erase key t) = some v := by
  have hNeKey : key ≠ k := by
    rintro rfl
    exact hNe (Option.some.inj (hHad.symm.trans hGet))
  rw [get?_erase, if_neg hNeKey, hGet]

/-- An entry is the one that was written last, or was there before. -/
theorem get?_insert_cases (hGet : get? k (insert key x t) = some v) :
    key = k ∧ x = v ∨ get? k t = some v := by
  rw [get?_insert] at hGet
  split at hGet
  · next hEq => exact Or.inl ⟨hEq, Option.some.inj hGet⟩
  · exact Or.inr hGet

/-- An entry that is left was there before. -/
theorem get?_of_erase (hGet : get? k (erase key t) = some v) : get? k t = some v := by
  rw [get?_erase] at hGet
  split at hGet
  · simp at hGet
  · exact hGet

/-- Removing makes no entry. -/
theorem get?_erase_ne (hNot : get? k t ≠ some v) : get? k (erase key t) ≠ some v := by
  rw [get?_erase]
  split
  · exact Option.some_ne_none v |>.symm
  · exact hNot

end Table

end Bundleless
