/-! # Lists without repetition

    Keep of every member its first occurrence. What is added last goes to
    the end, unless it is there already.
-/

namespace Bundleless.Distinct

variable {α : Type} [DecidableEq α]

/-- Add a member at the end, unless it is there already. -/
def add (xs : List α) (x : α) : List α := if x ∈ xs then xs else xs ++ [x]

/-- The first occurrence of every member. -/
def firsts (xs : List α) : List α := xs.foldl add []

theorem mem_add {xs : List α} {x y : α} : y ∈ add xs x ↔ y ∈ xs ∨ y = x := by
  unfold add
  split
  · next h =>
    constructor
    · exact Or.inl
    · rintro (hy | rfl)
      · exact hy
      · exact h
  · simp

theorem nodup_add {xs : List α} (h : xs.Nodup) (x : α) : (add xs x).Nodup := by
  unfold add
  split
  · exact h
  · next hx =>
    rw [List.nodup_append]
    refine ⟨h, by simp, ?_⟩
    intro a ha b hb
    rw [List.mem_singleton] at hb
    subst hb
    intro e
    exact hx (e ▸ ha)

theorem mem_foldl_add {xs acc : List α} {y : α} :
    y ∈ xs.foldl add acc ↔ y ∈ acc ∨ y ∈ xs := by
  induction xs generalizing acc with
  | nil => simp
  | cons x xs ih =>
    rw [List.foldl_cons, ih, mem_add, List.mem_cons, or_assoc]

theorem nodup_foldl_add {xs acc : List α} (h : acc.Nodup) : (xs.foldl add acc).Nodup := by
  induction xs generalizing acc with
  | nil => exact h
  | cons x xs ih => exact ih (nodup_add h x)

/-- Every member is kept, and nothing is added. -/
theorem mem_firsts {xs : List α} {y : α} : y ∈ firsts xs ↔ y ∈ xs := by
  simp [firsts, mem_foldl_add]

/-- No member occurs twice. -/
theorem nodup_firsts (xs : List α) : (firsts xs).Nodup := nodup_foldl_add List.nodup_nil

/-! ## Repetitions dropped early -/

/-- What is there already is not added. -/
theorem foldl_add_of_subset {xs acc : List α} (hSub : xs ⊆ acc) : xs.foldl add acc = acc := by
  induction xs with
  | nil => rfl
  | cons x xs ih =>
    obtain ⟨hHead, hTail⟩ := List.cons_subset.mp hSub
    rw [List.foldl_cons, add, if_pos hHead, ih hTail]

theorem firsts_append (xs ys : List α) : firsts (xs ++ ys) = ys.foldl add (firsts xs) :=
  List.foldl_append

/-- **Repetitions may be dropped before a list is spread out**, and not only after that. -/
theorem firsts_flatMap {β : Type} [DecidableEq β] (f : α → List β) (xs : List α) :
    firsts ((firsts xs).flatMap f) = firsts (xs.flatMap f) := by
  -- With any members kept before, whose spread is kept before, too.
  suffices hFrom : ∀ acc : List α, firsts ((xs.foldl add acc).flatMap f) =
      (xs.flatMap f).foldl add (firsts (acc.flatMap f)) from hFrom []
  induction xs with
  | nil => exact fun _ => rfl
  | cons x xs ih =>
    intro acc
    rw [List.foldl_cons, ih, List.flatMap_cons, List.foldl_append]
    congr 1
    by_cases hMem : x ∈ acc
    · have hThere : f x ⊆ firsts (acc.flatMap f) := fun y hy =>
        mem_firsts.mpr (List.mem_flatMap.mpr ⟨x, hMem, hy⟩)
      rw [add, if_pos hMem, foldl_add_of_subset hThere]
    · rw [add, if_neg hMem, List.flatMap_append, firsts_append]
      simp

/-- Nor does it matter whether they are dropped before the members are mapped. -/
theorem firsts_map {β : Type} [DecidableEq β] (f : α → β) (xs : List α) :
    firsts ((firsts xs).map f) = firsts (xs.map f) := by
  have hSpread (xs : List α) : xs.map f = xs.flatMap fun x => [f x] := by simp [List.map_eq_flatMap]
  rw [hSpread, hSpread, firsts_flatMap]

/-- With the same members, the first occurrences differ in nothing but their order. -/
theorem firsts_perm {xs ys : List α} (hMem : ∀ x, x ∈ firsts xs ↔ x ∈ firsts ys) :
    (firsts xs).Perm (firsts ys) :=
  (List.perm_ext_iff_of_nodup (nodup_firsts xs) (nodup_firsts ys)).mpr hMem

/-- Where nothing is repeated, nothing is dropped. -/
theorem eraseDups_of_nodup {xs : List α} (hNodup : xs.Nodup) : xs.eraseDups = xs := by
  induction xs with
  | nil => rfl
  | cons x xs ih =>
    obtain ⟨hNot, hRest⟩ := List.nodup_cons.mp hNodup
    have hKept : xs.filter (fun y => !y == x) = xs := by
      rw [List.filter_eq_self]
      intro y hy
      have hNe : y ≠ x := fun hEq => hNot (hEq ▸ hy)
      simp [hNe]
    rw [List.eraseDups_cons, hKept, ih hRest]

/-- The core library drops the same repetitions. -/
theorem firsts_eq_eraseDups (xs : List α) : firsts xs = xs.eraseDups := by
  -- With any members kept before, none of them twice.
  suffices hFrom : ∀ acc : List α, acc.Nodup → xs.foldl add acc = (acc ++ xs).eraseDups from
    hFrom [] List.nodup_nil
  induction xs with
  | nil =>
    intro acc hNodup
    rw [List.append_nil, eraseDups_of_nodup hNodup]
    rfl
  | cons x xs ih =>
    intro acc hNodup
    rw [List.foldl_cons, ih _ (nodup_add hNodup x)]
    by_cases hMem : x ∈ acc
    · rw [add, if_pos hMem, List.eraseDups_append, List.eraseDups_append]
      simp [List.removeAll, hMem]
    · rw [add, if_neg hMem, List.append_assoc, List.singleton_append]

end Bundleless.Distinct
