import Bundleless.Config.Reader
import Bundleless.Config.Writer
import Bundleless.Proofs.JsonTexts
import Mathlib.Data.Char
import Mathlib.Data.List.Forall2
import Mathlib.Data.List.Lex
import Mathlib.Data.List.Nodup

/-! # Records in other words

    A value can be written in more ways than the one it is printed in: the
    fields of a record in any order, under any of their names, without those
    that hold their default, and among fields that the record does not know.
    A `Way` says which documents are written for a value. A way is read by a
    function (`Way.Reads`) when that function finds the same thing in all of
    these documents, and the printed form is one of them.
-/

namespace Bundleless

/-! ## Ways -/

/-- A way of writing: which documents may be written for a value. -/
abbrev Way := Json → Document → Prop

/-- The second names of keys. -/
def secondNames : List (String × String) :=
  [("ci_provider", "ciProvider"), ("production_provider", "productionProvider"),
    ("allowFallbackCdn", "allowJsDelivr"), ("format", "type")]

/-- The names that a key may be written under. -/
def namesOf (key : String) : List String :=
  key :: (secondNames.filter (·.1 == key)).map (·.2)

/-- The fields of a record as they may be written, so far in the order of the record. A field that
    holds its default may be left out. -/
inductive Fields.Written (default : Json) (way : String → Way) :
    Fields → List (Option String × Document) → Prop where
  | nil : Written default way [] []
  | skip {key : String} {value : Json} {fs : Fields} {ds : List (Option String × Document)} :
    default.get? key = some value → Written default way fs ds →
    Written default way ((key, value) :: fs) ds
  | write {key name : String} {value : Json} {d : Document} {fs : Fields}
    {ds : List (Option String × Document)} :
    name ∈ namesOf key → way key value d → Written default way fs ds →
    Written default way ((key, value) :: fs) ((some name, d) :: ds)

namespace Way

/-- A text, a truth value or `null`, as it stands. -/
inductive leaf : Way where
  | null : leaf .null .null
  | bool (b : Bool) : leaf (.bool b) (.bool b)
  | string (s : String) : leaf (.string s) (.string (some s))

/-- A list, each item in its way. -/
inductive list (item : Way) : Way where
  | items {vs : List Json} {ds : List Document} :
    List.Forall₂ item vs ds → list item (.array vs) (.array ds)

/-- A table of texts, its entries in any order. -/
inductive table : Way where
  | entries {fs : Fields} {es written : List (String × String)} :
    fs = es.map (fun (k, v) => (k, .string v)) → written.Perm es →
    table (.object fs) (.object (written.map fun (k, v) => (some k, .string (some v))))

/-- A record, its fields in any order and among others that it does not know. -/
inductive record (default : Json) (way : String → Way) : Way where
  | fields {fs : Fields} {known unknown ds : List (Option String × Document)} :
    fs.Written default way known →
    (∀ e ∈ unknown, ∃ name, e.1 = some name ∧ ∀ f ∈ fs, name ∉ namesOf f.1) →
    ds.Perm (known ++ unknown) →
    record default way (.object fs) (.object ds)

/-- Whatever is written for the value, the function reads it as `a`; and the value may be written
    as it is printed. -/
structure Reads {α : Type} (way : Way) (f : Document → Option α) (v : Json) (a : α) : Prop where
  printed : ∃ d, v.document? = some d ∧ way v d
  read : ∀ d, way v d → f d = some a

/-- A value is read as one thing only. -/
theorem Reads.unique {α : Type} {way : Way} {f : Document → Option α} {v : Json} {a b : α}
    (ha : way.Reads f v a) (hb : way.Reads f v b) : a = b := by
  obtain ⟨d, -, hd⟩ := ha.printed
  exact Option.some.inj ((ha.read d hd).symm.trans (hb.read d hd))

/-! ## Leaves -/

theorem reads_text (s : String) : leaf.Reads Document.text? (.string s) s where
  printed := ⟨_, rfl, .string s⟩
  read := by
    rintro d ⟨⟩
    rfl

theorem reads_bool (b : Bool) : leaf.Reads Document.bool? (.bool b) b where
  printed := ⟨_, rfl, .bool b⟩
  read := by
    rintro d ⟨⟩
    rfl

/-- What may be absent is read where it is there, and `null` where it is not. -/
theorem Reads.optional {α : Type} {f : Document → Option α} {v : Json} {a : Option α}
    (hSome : ∀ x ∈ a, leaf.Reads f v x) (hNone : a = none → v = .null) (hNull : f .null = none) :
    leaf.Reads (fun d => Document.optional? f (some d)) v a := by
  cases a with
  | none =>
    obtain rfl := hNone rfl
    refine ⟨⟨_, rfl, .null⟩, ?_⟩
    rintro d ⟨⟩
    rfl
  | some x =>
    refine ⟨(hSome x rfl).printed, fun d hd => ?_⟩
    have hRead := (hSome x rfl).read d hd
    cases d with
    | null => rw [hNull] at hRead; cases hRead
    | _ => simp [Document.optional?, hRead]

theorem reads_textOption (s : Option String) :
    leaf.Reads (fun d => Document.optional? Document.text? (some d)) (.ofOption s) s :=
  .optional (by rintro x rfl; exact reads_text x) (by rintro rfl; rfl) rfl

theorem reads_boolOption (b : Option Bool) :
    leaf.Reads (fun d => Document.optional? Document.bool? (some d)) (.ofOptionBool b) b :=
  .optional (by rintro x rfl; exact reads_bool x) (by rintro rfl; rfl) rfl

/-! ## Lists -/

section Lists

variable {α : Type} {item : Way} {f : Document → Option α} {toJson : α → Json} {xs : List α}

/-- The items of a list are printed as they may be written. -/
theorem exists_documents (hItems : ∀ x ∈ xs, item.Reads f (toJson x) x) :
    ∃ ds, Json.documents? (xs.map toJson) = some ds ∧ List.Forall₂ item (xs.map toJson) ds := by
  induction xs with
  | nil => exact ⟨[], rfl, .nil⟩
  | cons x xs ih =>
    obtain ⟨d, hd, hWay⟩ := (hItems x (by simp)).printed
    obtain ⟨ds, hDs, hWays⟩ := ih fun y hy => hItems y (by simp [hy])
    exact ⟨d :: ds, by simp [Json.documents?, hd, hDs], .cons hWay hWays⟩

theorem mapM_items (hItems : ∀ x ∈ xs, item.Reads f (toJson x) x) {ds : List Document}
    (hWays : List.Forall₂ item (xs.map toJson) ds) : ds.mapM f = some xs := by
  induction xs generalizing ds with
  | nil =>
    cases hWays
    rfl
  | cons x xs ih =>
    cases hWays with
    | cons hWay hWays =>
      have hHead := (hItems x (by simp)).read _ hWay
      have hTail := ih (fun y hy => hItems y (by simp [hy])) hWays
      simp [List.mapM_cons, hHead, hTail]

/-- A list is read if its items are. -/
theorem reads_list (hItems : ∀ x ∈ xs, item.Reads f (toJson x) x) :
    (list item).Reads (Document.list? f) (.array (xs.map toJson)) xs where
  printed := by
    obtain ⟨ds, hDs, hWays⟩ := exists_documents hItems
    exact ⟨.array ds, by simp [Json.document?, hDs], .items hWays⟩
  read := by
    rintro _ ⟨hWays⟩
    exact mapM_items hItems hWays

end Lists

end Way

/-! ## Fields in the order of their keys -/

namespace Fields

/-- A new key is put somewhere among the others. -/
theorem insert_perm {k : String} {v : Json} {fs : Fields} (h : k ∉ fs.map (·.1)) :
    (fs.insert k v).Perm ((k, v) :: fs) := by
  induction fs with
  | nil => exact .refl _
  | cons f fs ih =>
    simp only [List.map_cons, List.mem_cons, not_or] at h
    simp only [insert, if_neg (Ne.symm h.1)]
    split
    · exact .refl _
    · exact ((ih h.2).cons _).trans (.swap _ _ _)

/-- Different keys are put among those that are there. -/
theorem foldl_insert_perm {acc : Fields} {fs : List (String × Json)}
    (h : ((acc ++ fs).map (·.1)).Nodup) :
    (fs.foldl (fun acc (k, v) => acc.insert k v) acc).Perm (acc ++ fs) := by
  induction fs generalizing acc with
  | nil => simp
  | cons f fs ih =>
    obtain ⟨k, v⟩ := f
    have hMiddle : (acc ++ (k, v) :: fs).Perm ((k, v) :: acc ++ fs) := List.perm_middle
    have hNodup := (hMiddle.map (·.1)).nodup_iff.mp h
    -- The key comes once, so that it is not among those put in before it.
    have hNew : k ∉ acc.map (·.1) := by
      simp only [List.cons_append, List.map_cons, List.nodup_cons, List.map_append,
        List.mem_append, not_or] at hNodup
      exact hNodup.1.1
    have hInsert := (insert_perm (v := v) hNew).append_right fs
    exact (ih ((hInsert.map (·.1)).nodup_iff.mpr hNodup)).trans (hInsert.trans hMiddle.symm)

/-- A key behind all others is put at the end. -/
theorem insert_last {k : String} {v : Json} {fs : Fields}
    (h : ∀ f ∈ fs, f.1.toList < k.toList) : fs.insert k v = fs ++ [(k, v)] := by
  induction fs with
  | nil => rfl
  | cons f fs ih =>
    have hLt : f.1.toList < k.toList := h f (by simp)
    have hNe : f.1 ≠ k := by rintro rfl; exact List.lt_irrefl _ hLt
    have hNot : ¬ k.toList < f.1.toList := fun hGt => List.lt_irrefl _ (List.lt_trans hLt hGt)
    simp [insert, hNe, hNot, ih fun g hg => h g (by simp [hg])]

/-- Fields that stand in the order of their keys are put one behind the other. -/
theorem foldl_insert_last {acc : Fields} {fs : List (String × Json)}
    (h : (acc ++ fs).Pairwise fun f g => f.1.toList < g.1.toList) :
    fs.foldl (fun acc (k, v) => acc.insert k v) acc = acc ++ fs := by
  induction fs generalizing acc with
  | nil => simp
  | cons f fs ih =>
    have hLast := insert_last (v := f.2) fun g hg =>
      (List.pairwise_append.mp h).2.2 g hg f (by simp)
    have hNext := @ih (acc ++ [f]) (by simpa using h)
    simpa [hLast] using hNext

/-- Fields with different keys only change their order. -/
theorem ofList_perm {fs : List (String × Json)} (h : (fs.map (·.1)).Nodup) :
    (ofList fs).Perm fs :=
  foldl_insert_perm h

theorem ofList_eq_self {fs : List (String × Json)}
    (h : fs.Pairwise fun f g => f.1.toList < g.1.toList) : ofList fs = fs :=
  foldl_insert_last h

end Fields

/-! ## Tables -/

namespace Document

/-- What each entry is written as is read back, one after the other. -/
theorem mapM_map_of_read {α β : Type} {g : α → β} {f : β → Option α} (h : ∀ a, f (g a) = some a)
    (xs : List α) : (xs.map g).mapM f = some xs := by
  induction xs with
  | nil => rfl
  | cons x xs ih => simp only [List.map_cons, List.mapM_cons, h, ih]; rfl

/-- New keys are added at the end. -/
theorem foldl_last {acc es : List (String × String)} (h : ((acc ++ es).map (·.1)).Nodup) :
    es.foldl (fun acc (k, v) => acc.filter (·.1 != k) ++ [(k, v)]) acc = acc ++ es := by
  induction es generalizing acc with
  | nil => simp
  | cons e es ih =>
    have hAcc : acc.filter (·.1 != e.1) = acc := by
      refine List.filter_eq_self.mpr fun a ha => ?_
      rw [List.map_append, List.nodup_append] at h
      simpa using h.2.2 a.1 (List.mem_map_of_mem ha) e.1 (by simp)
    have hNext := @ih (acc ++ [e]) (by simpa using h)
    simpa [hAcc] using hNext

/-- Of a key that comes again only the last entry stays. -/
theorem nodup_foldl {acc : List (String × String)} (h : (acc.map (·.1)).Nodup)
    (es : List (String × String)) :
    ((es.foldl (fun acc (k, v) => acc.filter (·.1 != k) ++ [(k, v)]) acc).map (·.1)).Nodup := by
  induction es generalizing acc with
  | nil => exact h
  | cons e es ih =>
    refine ih ?_
    have hKept : ((acc.filter (·.1 != e.1)).map (·.1)).Nodup :=
      h.sublist (List.filter_sublist.map _)
    simp [List.nodup_append, hKept]

/-- No key comes twice in a table that is read. -/
theorem nodup_of_table? {d : Document} {es : List (String × String)} (h : d.table? = some es) :
    (es.map (·.1)).Nodup := by
  cases d with
  | object fields =>
    obtain ⟨entries, -, hEs⟩ := Option.bind_eq_some_iff.mp h
    cases hEs
    exact @nodup_foldl [] List.nodup_nil entries
  | _ => cases h

/-- The entries of a table with different keys are read as they are written. -/
theorem table?_entries {es : List (String × String)} (h : (es.map (·.1)).Nodup) :
    table? (.object (es.map fun (k, v) => (some k, .string (some v)))) = some es := by
  have hLast := @foldl_last [] es h
  refine (congrArg (Option.bind · _) (mapM_map_of_read (fun _ => ?_) es)).trans ?_
  · rfl
  · exact congrArg some hLast

end Document

namespace ProviderConfig

/-- Entries stand in the order of their keys' code points, each key once. -/
def InOrder (es : List (String × String)) : Prop :=
  es.Pairwise fun a b => a.1.toList < b.1.toList

theorem InOrder.nodup {es : List (String × String)} (h : InOrder es) : (es.map (·.1)).Nodup := by
  refine List.pairwise_map.mpr (h.imp fun {a b} hLt hEq => ?_)
  rw [hEq] at hLt
  exact List.lt_irrefl _ hLt

/-- Sorting puts different keys in order. -/
theorem inOrder_sortAliases {es : List (String × String)} (h : (es.map (·.1)).Nodup) :
    InOrder (sortAliases es) := by
  have hLe : ∀ s t : String, Text.le s t = true ↔ s.toList ≤ t.toList := fun s t => by
    rw [← not_lt, ← List.lex_eq_true_iff_lt, Text.le, Bool.not_eq_true', Bool.not_eq_true]
  have hSorted : (sortAliases es).Pairwise fun a b => Text.le a.1 b.1 = true := by
    refine List.pairwise_mergeSort (fun a b c hab hbc => ?_) (fun a b => ?_) es
    · exact (hLe _ _).mpr (le_trans ((hLe _ _).mp hab) ((hLe _ _).mp hbc))
    · simpa [hLe] using le_total a.1.toList b.1.toList
  have hNodup : ((sortAliases es).map (·.1)).Nodup :=
    ((List.mergeSort_perm es _).map (·.1)).nodup_iff.mpr h
  refine (hSorted.and (List.pairwise_map.mp hNodup)).imp fun {a b} hab => ?_
  rcases lt_or_eq_of_le ((hLe _ _).mp hab.1) with hLt | hEq
  · exact hLt
  · exact absurd (String.toList_inj.mp hEq) hab.2

/-- Sorting finds the one order that entries can have. -/
theorem sortAliases_eq {es written : List (String × String)} (h : InOrder es)
    (hPerm : written.Perm es) : sortAliases written = es := by
  have hNodup : (written.map (·.1)).Nodup := (hPerm.map (·.1)).nodup_iff.mpr h.nodup
  -- Two orders of the same entries agree if both are strict.
  have hSame : (sortAliases written).Perm es := (List.mergeSort_perm _ _).trans hPerm
  refine List.Perm.eq_of_pairwise (fun a b _ _ hab hba => ?_) (inOrder_sortAliases hNodup) h hSame
  exact absurd (List.lt_trans hab hba) (List.lt_irrefl _)

/-- The aliases that are read are in order. -/
theorem inOrder_of_aliasesOfDocument? {d : Document} {es : List (String × String)}
    (h : aliasesOfDocument? d = some es) : InOrder es := by
  obtain ⟨written, hWritten, rfl⟩ := Option.map_eq_some_iff.mp h
  exact inOrder_sortAliases (Document.nodup_of_table? hWritten)

end ProviderConfig

theorem Json.members?_texts (es : List (String × String)) :
    members? (es.map fun (k, v) => (k, .string v)) =
      some (es.map fun (k, v) => (some k, .string (some v))) := by
  induction es with
  | nil => rfl
  | cons e es ih => simp [members?, document?, ih]

/-- A table whose keys are in order is read. -/
theorem Way.reads_table {es : List (String × String)} (h : ProviderConfig.InOrder es) :
    table.Reads ProviderConfig.aliasesOfDocument? (.ofFields (es.map fun (k, v) => (k, .string v)))
      es := by
  have hFields : Json.ofFields (es.map fun (k, v) => (k, .string v)) =
      .object (es.map fun (k, v) => (k, .string v)) :=
    congrArg Json.object (Fields.ofList_eq_self (List.pairwise_map.mpr h))
  rw [hFields]
  constructor
  · exact ⟨_, by simp [Json.document?, Json.members?_texts es], .entries rfl (.refl _)⟩
  · rintro _ @⟨_, es', written, hEq, hPerm⟩
    have hSame : es = es' := by
      refine List.map_injective_iff.mpr (fun a b hab => ?_) hEq
      simpa [Prod.ext_iff] using hab
    subst hSame
    have hNodup := (hPerm.map (·.1)).nodup_iff.mpr h.nodup
    simp [ProviderConfig.aliasesOfDocument?, Document.table?_entries hNodup,
      ProviderConfig.sortAliases_eq h hPerm]

/-! ## Records -/

/-- What is found for a field of a record: nothing where its default was left out, else a document
    that may be written for its value. -/
inductive Fields.Found (default : Json) (way : String → Way) :
    String × Json → Option Document → Prop where
  | absent {key : String} {value : Json} :
    default.get? key = some value → Found default way (key, value) none
  | present {key : String} {value : Json} {d : Document} :
    way key value d → Found default way (key, value) (some d)

/-- No name can be taken for two of the fields. -/
def Fields.Distinct (fs : Fields) : Prop := (fs.flatMap fun f => namesOf f.1).Nodup

namespace Document

theorem under_cons_of_mem {names : List String} {name : String} (h : name ∈ names) (d : Document)
    (ds : List (Option String × Document)) :
    under names ((some name, d) :: ds) = d :: under names ds := by
  simp [under, h]

theorem under_cons_of_not_mem {names : List String} {name : String} (h : name ∉ names)
    (d : Document) (ds : List (Option String × Document)) :
    under names ((some name, d) :: ds) = under names ds := by
  simp [under, h]

theorem under_append (names : List String) (ds es : List (Option String × Document)) :
    under names (ds ++ es) = under names ds ++ under names es :=
  List.filterMap_append

theorem under_perm (names : List String) {ds es : List (Option String × Document)}
    (h : ds.Perm es) : (under names ds).Perm (under names es) :=
  h.filterMap _

theorem atMostOne?_toList (o : Option Document) : atMostOne? o.toList = some o := by
  cases o <;> rfl

/-- Fields that the record does not know are not under the names of its own. -/
theorem under_unknown {names : List String} {ds : List (Option String × Document)}
    (h : ∀ e ∈ ds, ∃ name, e.1 = some name ∧ name ∉ names) : under names ds = [] := by
  refine List.filterMap_eq_nil_iff.mpr fun e he => ?_
  obtain ⟨name, hName, hNot⟩ := h e he
  obtain ⟨k, d⟩ := e
  obtain rfl : k = some name := hName
  simp [hNot]

end Document

theorem mem_namesOf (key : String) : key ∈ namesOf key := by simp [namesOf]

namespace Fields

variable {default : Json} {way : String → Way} {fs : Fields}
  {ds : List (Option String × Document)} {key : String} {value : Json}

theorem Distinct.nodup (h : fs.Distinct) : (fs.map (·.1)).Nodup := by
  refine List.pairwise_map.mpr ((List.nodup_flatMap.mp h).2.imp fun {f g} hDisjoint hEq => ?_)
  exact hDisjoint (mem_namesOf f.1) (hEq ▸ mem_namesOf g.1)

theorem Distinct.perm {gs : Fields} (h : fs.Distinct) (hPerm : gs.Perm fs) : gs.Distinct :=
  (hPerm.flatMap_right _).nodup_iff.mpr h

/-- The names of the first field are not those of the others. -/
theorem Distinct.cons (h : Distinct ((key, value) :: fs)) :
    Distinct fs ∧ ∀ f ∈ fs, ∀ n ∈ namesOf key, n ∉ namesOf f.1 := by
  simp only [Distinct, List.flatMap_cons, List.nodup_append] at h
  obtain ⟨-, hRest, hOther⟩ := h
  refine ⟨hRest, fun f hf n hn hn' => ?_⟩
  exact hOther n hn n (List.mem_flatMap.mpr ⟨f, hf, hn'⟩) rfl

namespace Written

theorem isSome_name (h : fs.Written default way ds) : ∀ e ∈ ds, e.1.isSome = true := by
  induction h with
  | nil => simp
  | skip _ _ ih => exact ih
  | write _ _ _ ih => simpa using ih

/-- Under the names of other fields nothing is written. -/
theorem under_other {names : List String} (h : fs.Written default way ds)
    (hOther : ∀ f ∈ fs, ∀ n ∈ names, n ∉ namesOf f.1) : Document.under names ds = [] := by
  induction h with
  | nil => rfl
  | skip _ _ ih => exact ih fun f hf => hOther f (by simp [hf])
  | write hName _ _ ih =>
    have hNot := fun hMem => hOther _ List.mem_cons_self _ hMem hName
    rw [Document.under_cons_of_not_mem hNot]
    exact ih fun f hf => hOther f (by simp [hf])

/-- Under the names of a field at most one document is written, and that for its value. -/
theorem under_own (h : fs.Written default way ds) (hDistinct : fs.Distinct)
    (hMem : (key, value) ∈ fs) :
    ∃ o, Document.under (namesOf key) ds = o.toList ∧ Found default way (key, value) o := by
  induction h with
  | nil => cases hMem
  | skip hDefault hRest ih =>
    obtain ⟨hTail, hOther⟩ := hDistinct.cons
    rcases List.mem_cons.mp hMem with hEq | hMem
    · obtain ⟨rfl, rfl⟩ := Prod.mk.inj hEq
      exact ⟨none, hRest.under_other hOther, .absent hDefault⟩
    · exact ih hTail hMem
  | @write k name v d fs ds hName hWay hRest ih =>
    obtain ⟨hTail, hOther⟩ := hDistinct.cons
    rcases List.mem_cons.mp hMem with hEq | hMem
    · -- It is written here, and nothing else after it.
      obtain ⟨rfl, rfl⟩ := Prod.mk.inj hEq
      refine ⟨some d, ?_, .present hWay⟩
      rw [Document.under_cons_of_mem hName, hRest.under_other hOther]
      rfl
    · obtain ⟨o, hUnder, hFound⟩ := ih hTail hMem
      have hNot : name ∉ namesOf key := hOther _ hMem name hName
      exact ⟨o, by rw [Document.under_cons_of_not_mem hNot, hUnder], hFound⟩

end Written

end Fields

namespace Document

/-- **A record is taken apart into its fields**, however it is written. -/
theorem record?_written {default : Json} {way : String → Way} {fs : Fields} {d : Document}
    (hDistinct : fs.Distinct) (h : Way.record default way (.object fs) d) :
    ∃ spelled, d = .object spelled ∧ spelled.all (·.1.isSome) ∧
      ∀ f ∈ fs, ∃ o, atMostOne? (under (namesOf f.1) spelled) = some o ∧
        Fields.Found default way f o := by
  obtain @⟨_, known, unknown, spelled, hKnown, hUnknown, hPerm⟩ := h
  refine ⟨spelled, rfl, List.all_eq_true.mpr fun e he => ?_, fun f hf => ?_⟩
  · rcases List.mem_append.mp (hPerm.mem_iff.mp he) with hMem | hMem
    · exact hKnown.isSome_name e hMem
    · obtain ⟨name, hName, -⟩ := hUnknown e hMem
      simp [hName]
  · obtain ⟨o, hOwn, hFound⟩ := hKnown.under_own hDistinct hf
    have hOther : under (namesOf f.1) unknown = [] := under_unknown fun e he => by
      obtain ⟨name, hName, hNot⟩ := hUnknown e he
      exact ⟨name, hName, hNot f hf⟩
    -- At most one document is under the names, and so there is only one order.
    have hUnder := under_perm (namesOf f.1) hPerm
    rw [under_append, hOwn, hOther, List.append_nil] at hUnder
    have hEq : under (namesOf f.1) spelled = o.toList := by
      cases o with
      | none => exact hUnder.eq_nil
      | some d => exact hUnder.eq_singleton
    exact ⟨o, by rw [hEq, atMostOne?_toList], hFound⟩

end Document

namespace Way

variable {default : Json} {way : String → Way}

/-- Each field is found as its own, in the order in which the record is read. -/
theorem exists_found {fs : Fields} {g : List String → Option (Option Document)}
    (h : ∀ f ∈ fs, ∃ o, g (namesOf f.1) = some o ∧ Fields.Found default way f o) :
    ∃ os, (fs.map fun f => namesOf f.1).mapM g = some os ∧
      List.Forall₂ (Fields.Found default way) fs os := by
  induction fs with
  | nil => exact ⟨[], rfl, .nil⟩
  | cons f fs ih =>
    obtain ⟨o, ho, hFound⟩ := h f (by simp)
    obtain ⟨os, hOs, hAll⟩ := ih fun g hg => h g (by simp [hg])
    exact ⟨o :: os, by simp [List.mapM_cons, ho, hOs], .cons hFound hAll⟩

/-- The fields of a record are printed as they may be written. -/
theorem exists_printed {fs : Fields}
    (h : ∀ f ∈ fs, ∃ d, f.2.document? = some d ∧ way f.1 f.2 d) :
    ∃ ds, Json.members? fs = some ds ∧ fs.Written default way ds := by
  induction fs with
  | nil => exact ⟨[], rfl, .nil⟩
  | cons f fs ih =>
    obtain ⟨d, hd, hWay⟩ := h f (by simp)
    obtain ⟨ds, hDs, hWritten⟩ := ih fun g hg => h g (by simp [hg])
    exact ⟨(some f.1, d) :: ds, by simp [Json.members?, hd, hDs],
      .write (mem_namesOf f.1) hWay hWritten⟩

/-- Whatever is found for the field, the function reads it as `a`; and the value may be written as
    it is printed. -/
structure FieldReads {α : Type} (default : Json) (way : String → Way) (field : String × Json)
    (f : Option Document → Option α) (a : α) : Prop where
  printed : ∃ d, field.2.document? = some d ∧ way field.1 field.2 d
  read : ∀ o, Fields.Found default way field o → f o = some a

/-- What is found for the fields, one after the other, satisfies whatever `p` says is enough; and
    their values may be written as they are printed. -/
structure FieldsRead (default : Json) (way : String → Way) (fs : Fields)
    (p : (List (Option Document) → Prop) → Prop) : Prop where
  printed : ∀ f ∈ fs, ∃ d, f.2.document? = some d ∧ way f.1 f.2 d
  read : ∀ goal, p goal → ∀ os, List.Forall₂ (Fields.Found default way) fs os → goal os

/-- Of no fields nothing is found. -/
theorem FieldsRead.nil : FieldsRead default way [] (· []) where
  printed := List.forall_mem_nil _
  read := by
    rintro goal h _ ⟨⟩
    exact h

/-- Of a field before others it may be used how the field is read. -/
theorem FieldsRead.cons {α : Type} {field : String × Json} {fs : Fields}
    {f : Option Document → Option α} {a : α} {p : (List (Option Document) → Prop) → Prop}
    (h : FieldReads default way field f a) (hRest : FieldsRead default way fs p) :
    FieldsRead default way (field :: fs) fun goal =>
      ∀ o, f o = some a → p fun rest => goal (o :: rest) where
  printed := List.forall_mem_cons.mpr ⟨h.printed, hRest.printed⟩
  read := by
    rintro goal hGoal _ (_ | ⟨hFound, hAll⟩)
    exact hRest.read _ (hGoal _ (h.read _ hFound)) _ hAll

/-- **A record is read**, if it is read from whatever is found for its fields. -/
theorem reads_record {α : Type} {fs : Fields} {spellings : List (List String)}
    {p : (List (Option Document) → Prop) → Prop} {f : List (Option Document) → Option α} {a : α}
    (hSpellings : spellings = fs.map fun f => namesOf f.1) (hDistinct : spellings.flatten.Nodup)
    (hFields : FieldsRead default way fs p) (hRead : p fun os => f os = some a) :
    (record default way).Reads (fun d => (Document.record? spellings d).bind f) (.ofFields fs)
      a := by
  subst hSpellings
  have hDistinct : fs.Distinct := by simpa [Fields.Distinct, List.flatMap_def] using hDistinct
  -- The printer sorts the fields by their keys, the reader looks for them in the order of `fs`.
  have hPerm := Fields.ofList_perm hDistinct.nodup
  constructor
  · have hMembers : ∃ ds, Json.members? (.ofList fs) = some ds ∧
        Fields.Written default way (.ofList fs) ds :=
      exists_printed fun f hf => hFields.printed f (hPerm.mem_iff.mp hf)
    obtain ⟨ds, hDs, hWritten⟩ := hMembers
    refine ⟨.object ds, by simp [Json.ofFields, Json.document?, hDs], ?_⟩
    exact .fields hWritten (List.forall_mem_nil _) (by simp)
  · intro d hd
    obtain ⟨spelled, rfl, hNames, hFound⟩ := Document.record?_written (hDistinct.perm hPerm) hd
    obtain ⟨os, hOs, hAll⟩ :=
      exists_found (g := fun names => Document.atMostOne? (Document.under names spelled))
        fun f hf => hFound f (hPerm.mem_iff.mpr hf)
    simp [Document.record?, hNames, hOs, hFields.read _ hRead os hAll]

/-! ## Fields -/

/-- A field that has a default is read. -/
theorem Reads.orDefault {α : Type} {f : Document → Option α} {key : String} {v v₀ : Json}
    {a a₀ : α} (h : (way key).Reads f v a) (h₀ : (way key).Reads f v₀ a₀)
    (hDefault : default.get? key = some v₀) :
    FieldReads default way (key, v) (Document.orDefault? a₀ f) a := by
  refine ⟨h.printed, fun o ho => ?_⟩
  cases ho with
  | present hWay => exact h.read _ hWay
  | absent hAbsent =>
    -- What is left out is the default, and that is read as one thing only.
    obtain rfl : v₀ = v := Option.some.inj (hDefault.symm.trans hAbsent)
    exact congrArg some (h₀.unique h)

/-- A field that may be absent is read. -/
theorem Reads.orNone {α : Type} {f : Document → Option α} {key : String} {v : Json}
    {a : Option α} (h : (way key).Reads (fun d => Document.optional? f (some d)) v a)
    (h₀ : (way key).Reads (fun d => Document.optional? f (some d)) .null none)
    (hDefault : default.get? key = some .null) :
    FieldReads default way (key, v) (Document.optional? f) a := by
  have hOption := h.orDefault h₀ hDefault
  refine ⟨h.printed, fun o ho => ?_⟩
  rw [← hOption.read o ho]
  cases o <;> rfl

variable (key : String) (hLeaf : way key = leaf)

include hLeaf

theorem readsField_text (s : String) {s₀ : String}
    (hDefault : default.get? key = some (.string s₀)) :
    FieldReads default way (key, .string s) (Document.orDefault? s₀ Document.text?) s :=
  Reads.orDefault (hLeaf ▸ reads_text s) (hLeaf ▸ reads_text s₀) hDefault

theorem readsField_bool (b : Bool) {b₀ : Bool} (hDefault : default.get? key = some (.bool b₀)) :
    FieldReads default way (key, .bool b) (Document.orDefault? b₀ Document.bool?) b :=
  Reads.orDefault (hLeaf ▸ reads_bool b) (hLeaf ▸ reads_bool b₀) hDefault

theorem readsField_textOption (s : Option String) (hDefault : default.get? key = some .null) :
    FieldReads default way (key, .ofOption s) (Document.optional? Document.text?) s :=
  Reads.orNone (hLeaf ▸ reads_textOption s) (hLeaf ▸ reads_textOption none) hDefault

theorem readsField_boolOption (b : Option Bool) (hDefault : default.get? key = some .null) :
    FieldReads default way (key, .ofOptionBool b) (Document.optional? Document.bool?) b :=
  Reads.orNone (hLeaf ▸ reads_boolOption b) (hLeaf ▸ reads_boolOption none) hDefault

end Way

end Bundleless
