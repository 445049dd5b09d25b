import Bundleless.Module.Namespace
import Mathlib.Data.Char
import Mathlib.Data.List.Lex

/-! # Namespaces of values

    What a value is exposed as (`Namespace.ofValue`) has everything that the
    value has of its own. A flagged object is exposed as it is. Every other
    value gets a default export, its own or else itself, and the members of a
    default that is an object are exports too, where nothing else has their
    name. One law says what is found under each name (`get?_ofValue`), and the
    rest follows from it: nothing is left to add when a namespace is exposed
    as a value again.
-/

namespace Bundleless

/-! ## Section 1: Fields -/

namespace Fields

variable {key k : String} {x : Json} {fs : Fields}

theorem mem_keys_iff : key ∈ fs.map (·.1) ↔ (fs.get? key).isSome = true := by
  induction fs with
  | nil => simp
  | cons f fs ih =>
    obtain ⟨l, w⟩ := f
    rw [List.map_cons, List.mem_cons, ih, get?]
    by_cases hEq : l = key
    · simp [hEq]
    · simp [hEq, Ne.symm hEq]

/-- A field that is there is left alone. -/
theorem insertNew_of_isSome (hThere : (fs.get? key).isSome = true) : fs.insertNew key x = fs :=
  if_pos hThere

/-- The keys stand in the order of their code points, each once. -/
def InOrder (fs : Fields) : Prop := fs.Pairwise fun f g => f.1.toList < g.1.toList

theorem mem_insert {f : String × Json} (hMem : f ∈ fs.insert key x) : f = (key, x) ∨ f ∈ fs := by
  induction fs with
  | nil => exact Or.inl (List.mem_singleton.mp hMem)
  | cons g fs ih =>
    rw [insert] at hMem
    split at hMem
    · exact (List.mem_cons.mp hMem).imp_right (List.mem_cons_of_mem _)
    · split at hMem
      · exact List.mem_cons.mp hMem
      · rcases List.mem_cons.mp hMem with rfl | hRest
        · exact Or.inr List.mem_cons_self
        · exact (ih hRest).imp_right (List.mem_cons_of_mem _)

/-- A field is put where its key belongs. -/
theorem InOrder.insert (hOrder : fs.InOrder) (key : String) (x : Json) :
    (fs.insert key x).InOrder := by
  induction fs with
  | nil => exact List.pairwise_singleton _ _
  | cons f fs ih =>
    obtain ⟨l, w⟩ := f
    obtain ⟨hFirst, hRest⟩ := List.pairwise_cons.mp hOrder
    rw [Fields.insert]
    split
    · next hEq =>
      subst hEq
      exact List.pairwise_cons.mpr ⟨hFirst, hRest⟩
    · next hNe =>
      split
      · next hLt =>
        refine List.pairwise_cons.mpr ⟨fun g hg => ?_, hOrder⟩
        rcases List.mem_cons.mp hg with rfl | hg
        · exact hLt
        · exact List.lt_trans hLt (hFirst g hg)
      · next hNot =>
        have hAfter : l.toList < key.toList :=
          lt_of_le_of_ne (not_lt.mp hNot) fun hEq => hNe (String.toList_inj.mp hEq)
        refine List.pairwise_cons.mpr ⟨fun g hg => ?_, ih hRest⟩
        rcases mem_insert hg with rfl | hg
        · exact hAfter
        · exact hFirst g hg

theorem InOrder.insertNew (hOrder : fs.InOrder) (key : String) (x : Json) :
    (fs.insertNew key x).InOrder := by
  unfold Fields.insertNew
  split
  · exact hOrder
  · exact hOrder.insert key x

end Fields

/-! ## Section 2: What a value has of its own -/

namespace Json

/-- The fields of an object. No other value has any. -/
def ownFields : Json → Fields
  | .object fs => fs
  | _ => []

/-- The names of what the value has of its own. -/
def ownKeys (v : Json) : List String := v.ownFields.map (·.1)

/-- The value says of itself that it is shaped like a namespace. -/
def IsFlagged (v : Json) : Prop :=
  ∃ flag, v.get? Namespace.flagKey = some flag ∧ flag.isTruthy = true

/-- What stands for the default export of the value: its own one, or else the value itself. -/
def ownDefault (v : Json) : Json := (v.get? Namespace.defaultKey).getD v

variable {v : Json} {key : String}

theorem get?_ownFields (v : Json) (key : String) : v.ownFields.get? key = v.get? key := by
  cases v <;> rfl

theorem mem_ownKeys_iff : key ∈ v.ownKeys ↔ (v.get? key).isSome = true := by
  rw [← get?_ownFields]
  exact Fields.mem_keys_iff

theorem isFlagged_iff : v.IsFlagged ↔ (v.ownFields.get? Namespace.flagKey).any isTruthy = true := by
  rw [get?_ownFields, Option.any_eq_true]
  rfl

end Json

/-! ## Section 3: Lifted members -/

namespace Namespace

variable {v : Json} {members exports : Fields}

theorem lift_cons (k : String) (x : Json) (members exports : Fields) :
    lift ((k, x) :: members) exports = lift members
      (if k = defaultKey ∨ k = flagKey then exports else exports.insertNew k x) := rfl

/-- A member of a default is an export unless its name is taken, or is that of a default or a flag. -/
theorem get?_lift (members exports : Fields) (key : String) : (lift members exports).get? key =
    (exports.get? key).or
      (if key = defaultKey ∨ key = flagKey then none else members.get? key) := by
  induction members generalizing exports with
  | nil => simp [lift]
  | cons m members ih =>
    obtain ⟨k, x⟩ := m
    rw [lift_cons, ih]
    by_cases hOut : k = defaultKey ∨ k = flagKey
    · rw [if_pos hOut]
      by_cases hKey : key = defaultKey ∨ key = flagKey
      · rw [if_pos hKey, if_pos hKey]
      · have hNe : k ≠ key := fun hEq => hKey (hEq ▸ hOut)
        simp [Fields.get?, hNe]
    · rw [if_neg hOut, Fields.get?_insertNew]
      by_cases hEq : k = key
      · subst hEq
        cases hGet : exports.get? k <;> simp [Fields.get?, hOut]
      · simp [Fields.get?, hEq]

/-- Where every name is taken, nothing is lifted. -/
theorem lift_eq_self (hTaken : ∀ k ∈ members.map (·.1),
    (k = defaultKey ∨ k = flagKey) ∨ (exports.get? k).isSome = true) :
    lift members exports = exports := by
  induction members with
  | nil => rfl
  | cons m members ih =>
    obtain ⟨k, x⟩ := m
    obtain ⟨hHead, hTail⟩ := List.forall_mem_cons.mp hTaken
    have hStays : (if k = defaultKey ∨ k = flagKey then exports else exports.insertNew k x) =
        exports := by
      rcases hHead with hOut | hThere
      · exact if_pos hOut
      · rw [Fields.insertNew_of_isSome hThere, ite_self]
    rw [lift_cons, hStays, ih hTail]

theorem inOrder_lift (hOrder : exports.InOrder) : (lift members exports).InOrder := by
  induction members generalizing exports with
  | nil => exact hOrder
  | cons m members ih =>
    obtain ⟨k, x⟩ := m
    rw [lift_cons]
    apply ih
    split
    · exact hOrder
    · exact hOrder.insertNew k x

/-! ## Section 4: What is found under a name -/

theorem mem_keys_iff {n : Namespace} {key : String} :
    key ∈ n.keys ↔ (n.get? key).isSome = true := Fields.mem_keys_iff

theorem toValue_ofValue (hFlagged : v.IsFlagged) : (ofValue v).toValue = v := by
  cases v with
  | object own =>
    have hIs : ofValue (.object own) = ⟨own⟩ := if_pos (Json.isFlagged_iff.mp hFlagged)
    rw [hIs]
    rfl
  | _ =>
    obtain ⟨flag, hFlag, -⟩ := hFlagged
    cases hFlag

/-- A value that is not flagged keeps what it has of its own and gets a default export, and then the
    members of that are lifted. -/
theorem exports_ofValue (hNot : ¬v.IsFlagged) : (ofValue v).exports =
    lift v.ownDefault.ownFields (v.ownFields.insertNew defaultKey v) := by
  cases v with
  | object own =>
    have hUnflagged := mt Json.isFlagged_iff.mpr hNot
    have hDefault : Fields.get? defaultKey (Fields.insertNew defaultKey (.object own) own) =
        some (Json.object own).ownDefault := by
      rw [Fields.get?_insertNew, if_pos rfl]
      rfl
    have hIs : ofValue (.object own) = _ := if_neg hUnflagged
    rw [hIs, hDefault]
    cases (Json.object own).ownDefault <;> rfl
  | _ => rfl

/-- **What is found under a name** in the namespace of a value that is not flagged: what the value has
    of its own; else, under the name of the default export, the value itself, and under every other
    name but that of the flag, what the default has of its own. -/
theorem get?_ofValue (hNot : ¬v.IsFlagged) (key : String) : (ofValue v).get? key =
    (v.get? key).or (if key = defaultKey then some v else
      if key = flagKey then none else v.ownDefault.get? key) := by
  unfold get?
  rw [exports_ofValue hNot, get?_lift, Fields.get?_insertNew, Json.get?_ownFields,
    Json.get?_ownFields]
  by_cases hKey : key = defaultKey
  · subst hKey
    cases v.get? defaultKey <;> simp
  · simp [hKey, Ne.symm hKey]

theorem get?_default_ofValue (hNot : ¬v.IsFlagged) :
    (ofValue v).get? defaultKey = some v.ownDefault := by
  rw [get?_ofValue hNot, if_pos rfl, Json.ownDefault]
  cases v.get? defaultKey <;> rfl

/-- To expose a namespace as a value again changes nothing. -/
theorem ofValue_toValue_ofValue (v : Json) : ofValue (ofValue v).toValue = ofValue v := by
  by_cases hFlagged : v.IsFlagged
  · rw [toValue_ofValue hFlagged]
  have hGet := get?_ofValue hFlagged
  have hDefault := get?_default_ofValue hFlagged
  generalize ofValue v = n at hGet hDefault
  have hSame (key : String) : n.toValue.get? key = n.get? key := rfl
  have hIs : n.toValue.ownDefault = v.ownDefault := by
    rw [Json.ownDefault, hSame, hDefault, Option.getD_some]
  -- A flag is never lifted: the namespace has none but the one of the value.
  have hNot : ¬n.toValue.IsFlagged := by
    have hNe : flagKey ≠ defaultKey := by decide
    unfold Json.IsFlagged
    rw [hSame, hGet, if_neg hNe, if_pos rfl, Option.or_none]
    exact hFlagged
  -- There is a default export, and all that could be lifted from it is there.
  have hAdded : n.exports.insertNew defaultKey n.toValue = n.exports := by
    apply Fields.insertNew_of_isSome
    exact Option.isSome_of_eq_some hDefault
  have hLifted : lift v.ownDefault.ownFields n.exports = n.exports := by
    apply lift_eq_self
    intro k hMem
    rw [or_iff_not_imp_left, not_or]
    intro ⟨hNotDefault, hNotFlag⟩
    show (n.get? k).isSome = true
    rw [hGet, if_neg hNotDefault, if_neg hNotFlag, Option.isSome_or, Bool.or_eq_true]
    exact Or.inr (Json.mem_ownKeys_iff.mp hMem)
  have hExports : (ofValue n.toValue).exports = n.exports :=
    calc (ofValue n.toValue).exports
        = lift n.toValue.ownDefault.ownFields (n.exports.insertNew defaultKey n.toValue) :=
          exports_ofValue hNot
      _ = lift v.ownDefault.ownFields n.exports := by rw [hIs, hAdded]
      _ = n.exports := hLifted
  exact congrArg Namespace.mk hExports

/-! ## Section 5: Wrapping -/

/-- The namespace wraps the value: it takes nothing from it, adds what it should and nothing else, and
    is wrapped already. -/
structure Wraps (n : Namespace) (v : Json) : Prop where
  /-- What the value has of its own is exported under its name. -/
  own : ∀ key x, v.get? key = some x → n.get? key = some x
  /-- A flagged value is exposed as it is. -/
  flagged : v.IsFlagged → n.toValue = v
  /-- Of every other value there is a default export, its own or itself. -/
  default : ¬v.IsFlagged → n.get? defaultKey = some v.ownDefault
  /-- There are no other exports than its own, that one, and the members of it that can be lifted. -/
  keys : ¬v.IsFlagged → ∀ key, key ∈ n.keys ↔ key ∈ v.ownKeys ∨ key = defaultKey ∨
    key ∈ v.ownDefault.ownKeys ∧ key ≠ defaultKey ∧ key ≠ flagKey
  /-- A member that is lifted is exported as it is. -/
  lifted : ¬v.IsFlagged → ∀ key ∈ v.ownDefault.ownKeys, key ≠ defaultKey → key ≠ flagKey →
    key ∉ v.ownKeys → n.get? key = v.ownDefault.get? key
  /-- The exports stand in their order, each once, if the fields of the value do. -/
  inOrder : v.ownFields.InOrder → n.exports.InOrder
  /-- To wrap the namespace as a value changes nothing. -/
  again : ofValue n.toValue = n

/-- **Every value is wrapped by its namespace.** -/
theorem ofValue_wraps (v : Json) : (ofValue v).Wraps v where
  own key x hGet := by
    by_cases hFlagged : v.IsFlagged
    · rw [← toValue_ofValue hFlagged] at hGet
      exact hGet
    · rw [get?_ofValue hFlagged, hGet, Option.some_or]
  flagged := toValue_ofValue
  default := get?_default_ofValue
  keys hNot key := by
    rw [mem_keys_iff, get?_ofValue hNot, Json.mem_ownKeys_iff, Json.mem_ownKeys_iff,
      Option.isSome_or, Bool.or_eq_true]
    by_cases hDefault : key = defaultKey
    · simp [hDefault]
    · by_cases hFlag : key = flagKey <;> simp [hDefault, hFlag]
  lifted hNot key _ hNotDefault hNotFlag hNew := by
    have hNone : v.get? key = none := by
      rw [Json.mem_ownKeys_iff] at hNew
      simpa using hNew
    rw [get?_ofValue hNot, hNone, Option.none_or, if_neg hNotDefault, if_neg hNotFlag]
  inOrder hOrder := by
    by_cases hFlagged : v.IsFlagged
    · have hSame := congrArg Json.ownFields (toValue_ofValue hFlagged)
      change (ofValue v).exports = v.ownFields at hSame
      rw [hSame]
      exact hOrder
    · rw [exports_ofValue hFlagged]
      exact inOrder_lift (hOrder.insertNew _ _)
  again := ofValue_toValue_ofValue v

/-- A text that is not empty is a flag, whatever it says: the value stays as it is. -/
example : ofValue (.object [("__esModule", .string "no"), ("a", .null)]) =
    ⟨[("__esModule", .string "no"), ("a", .null)]⟩ := by decide

/-- A zero is none: the value is its own default export. -/
example : (ofValue (.object [("__esModule", .number (.int 0)), ("a", .null)])).get? "default" =
    some (.object [("__esModule", .number (.int 0)), ("a", .null)]) := by decide

/-- A flag inside of the default neither makes the value a namespace nor is lifted. -/
example : (ofValue (.object [("b", .null),
    ("default", .object [("__esModule", .bool true), ("a", .null)])])).keys =
    ["a", "b", "default"] := by decide

end Namespace

end Bundleless
