import Bundleless.Proofs.LibrariesInOrder
import Bundleless.Session

/-! # Registrations

    The registry keeps its modules under their keys, and the keys in the
    order of their first registration. Both are written by everybody who
    loads something, step by step and in whatever order the steps come. At
    every moment they agree, and say what has been registered so far.
-/

namespace Bundleless

/-! ## Section 1: What a registry represents -/

namespace Registry

variable {r : Registry} {calls : List (String × Instance)}

/-- The registry is what these registrations make of an empty one, the latest of them last. -/
structure Represents (r : Registry) (calls : List (String × Instance)) : Prop where
  nodup : r.keys.Nodup
  /-- The modules stand under the same keys. -/
  entries : r.entries.keys = r.keys
  mem_keys : ∀ key, key ∈ r.keys ↔ ∃ m, r.get? key = some m
  order : r.keys = (calls.map (·.1)).eraseDups
  size_eq : r.size = r.keys.length
  latest : ∀ earlier key m later, calls = earlier ++ (key, m) :: later →
    key ∉ later.map (·.1) → r.get? key = some m

/-- **One registration**: the modules and the order take in the key at the same place. -/
theorem entries_keys_insert (hSame : r.entries.keys = r.keys) (key : String) (m : Instance) :
    (r.insert key m).entries.keys = (r.insert key m).keys := by
  show (r.entries.insert key m).keys = if r.contains key then r.keys else r.keys ++ [key]
  have hThere : r.contains key = true ↔ key ∈ r.keys := by
    rw [← hSame, Table.mem_keys_iff]
    rfl
  rw [Table.keys_insert, hSame, Distinct.add]
  by_cases hKey : key ∈ r.keys
  · rw [if_pos hKey, if_pos (hThere.mpr hKey)]
  · rw [if_neg hKey, if_neg (mt hThere.mp hKey)]

theorem entries_keys_insertAll (hSame : r.entries.keys = r.keys)
    (calls : List (String × Instance)) :
    (r.insertAll calls).entries.keys = (r.insertAll calls).keys := by
  induction calls generalizing r with
  | nil => exact hSame
  | cons call calls ih => exact ih (entries_keys_insert hSame call.1 call.2)

/-- Registering takes no key away, and leaves the old ones in their order. -/
theorem keys_prefix_insertAll (r : Registry) (calls : List (String × Instance)) :
    r.keys <+: (r.insertAll calls).keys := by
  rw [keys_insertAll]
  exact List.prefix_append _ _

/-- What is registered last under a key is found there. -/
theorem get?_insertAll_last {key : String} {m : Instance} {earlier later : List (String × Instance)}
    (hLast : key ∉ later.map (·.1)) :
    (r.insertAll (earlier ++ (key, m) :: later)).get? key = some m := by
  have hNone : later.reverse.find? (·.1 = key) = none := by
    rw [List.find?_eq_none]
    intro x hMem hKey
    apply hLast
    exact List.mem_map.mpr ⟨x, List.mem_reverse.mp hMem, by simpa using hKey⟩
  rw [get?_insertAll, List.reverse_append, List.reverse_cons, List.append_assoc,
    List.find?_append, hNone]
  simp

/-- **Whatever is registered, and however often**, the registry represents it. -/
theorem represents_insertAll (calls : List (String × Instance)) :
    (({} : Registry).insertAll calls).Represents calls := by
  have hOrder : (({} : Registry).insertAll calls).keys = (calls.map (·.1)).eraseDups := by
    rw [keys_insertAll, ← Distinct.firsts_eq_eraseDups]
    have hAll : (calls.map (·.1)).filter (!({} : Registry).contains ·) = calls.map (·.1) :=
      List.filter_eq_self.mpr fun _ _ => rfl
    rw [hAll]
    rfl
  have hSame : (({} : Registry).insertAll calls).entries.keys =
      (({} : Registry).insertAll calls).keys := entries_keys_insertAll rfl calls
  constructor
  · rw [hOrder, ← Distinct.firsts_eq_eraseDups]
    exact Distinct.nodup_firsts _
  · exact hSame
  · intro key
    rw [← hSame, Table.mem_keys_iff]
    exact contains_iff _ key
  · exact hOrder
  · rw [← hSame]
    exact (List.length_map _).symm
  · intro earlier key m later hCalls hLast
    rw [hCalls]
    exact get?_insertAll_last hLast

end Registry

/-! ## Section 2: Registrations since the registry was started -/

/-- The registry was started afresh. -/
def Answered.isClear (x : Answered) : Bool :=
  match x.op with
  | .store .clear => true
  | _ => false

theorem Answered.isClear_iff {x : Answered} : x.isClear = true ↔ x.op = .store .clear := by
  unfold isClear
  split
  · next hIs => simp [hIs]
  · next hNot => simpa using hNot

namespace History

/-- What was registered since the registry was started, in this order. -/
def registrations (hist : History) : List (String × Instance) :=
  registered (hist.takeWhile (!·.isClear))

theorem registrations_cons_clear {x : Answered} (hClear : x.isClear = true) (hist : History) :
    registrations (x :: hist) = [] := by
  unfold registrations
  rw [List.takeWhile_cons_of_neg (by simp [hClear])]
  rfl

theorem registrations_cons {x : Answered} (hNot : x.isClear = false) (hist : History) :
    registrations (x :: hist) = registrations hist ++ registered [x] := by
  unfold registrations
  rw [List.takeWhile_cons_of_pos (by simp [hNot])]
  exact registered_append [x] _

theorem registrations_singleton {x : Answered} (hNot : x.isClear = false) :
    registrations [x] = registered [x] := registrations_cons hNot []

end History

/-- What a history makes of the registry that was there before. -/
def Registry.after (r : Registry) (hist : History) : Registry :=
  (if hist.any (·.isClear) then {} else r).insertAll hist.registrations

theorem Registry.after_cons (r : Registry) (x : Answered) (hist : History) :
    r.after (x :: hist) = (r.after hist).after [x] := by
  unfold after
  cases hClear : x.isClear with
  | true =>
    rw [History.registrations_cons_clear hClear, History.registrations_cons_clear hClear]
    simp [hClear]
  | false =>
    rw [History.registrations_cons hClear, History.registrations_singleton hClear, insertAll_append]
    simp [hClear]

/-! ## Section 3: Courses of a page -/

/-- What a step has carried out, if it is the step of a task. -/
def Label.answered : Label → History
  | .act _ o r => [⟨o, r⟩]
  | .start _ => []

/-- The world becomes another one while this is carried out, the latest first: by the tasks, and from
    outside by anybody who calls the loader. -/
inductive World.Course (h : Host) (w₀ : World) : History → World → Prop
  | refl : Course h w₀ [] w₀
  | task {hist : History} {w w' : World} {asks : Work → Prop} {step : Label}
      (hCourse : Course h w₀ hist w) (hStep : World.Step h asks w step w') :
      Course h w₀ (step.answered ++ hist) w'
  | outside {hist : History} {w w' : World} {o : Op} {r : o.Reply}
      (hCourse : Course h w₀ hist w) (hAnswer : o.Answers h w r w') :
      Course h w₀ (⟨o, r⟩ :: hist) w'

section Course

open World (Course)

variable {h : Host} {w₀ w w' : World} {all more : History}

theorem World.Course.trans (hFirst : Course h w₀ all w) (hThen : Course h w more w') :
    Course h w₀ (more ++ all) w' := by
  induction hThen with
  | refl => exact hFirst
  | task _ hStep ih =>
    rw [List.append_assoc]
    exact ih.task hStep
  | outside _ hAnswer ih => exact ih.outside hAnswer

/-- A call beside tasks is a course, in which what the call itself has carried out is in its
    order. -/
theorem Load.Calls.exists_course {α : Type} {p q : Load α} {own : History}
    (hCalls : Calls h p w own q w') : ∃ all, own.Sublist all ∧ Course h w all w' := by
  induction hCalls with
  | refl => exact ⟨[], .refl _, .refl⟩
  | own hAnswer _ ih =>
    obtain ⟨all, hSub, hCourse⟩ := ih
    have hOwn := Course.refl.outside hAnswer
    exact ⟨_, hSub.append (.refl _), hOwn.trans hCourse⟩
  | other hStep _ ih =>
    obtain ⟨all, hSub, hCourse⟩ := ih
    have hStep := Course.refl.task hStep
    exact ⟨_, hSub.trans (List.sublist_append_left _ _), hStep.trans hCourse⟩

/-- What one operation does to the registry. -/
theorem Op.Answers.registry_after {o : Op} {r : o.Reply} (hAnswer : o.Answers h w r w') :
    w'.store.registry = w.store.registry.after [⟨o, r⟩] := by
  by_cases hClear : o = .store .clear
  · subst hClear
    obtain ⟨-, rfl⟩ := hAnswer.store
    rfl
  · have hNot : Answered.isClear ⟨o, r⟩ = false :=
      Bool.eq_false_iff.mpr fun hIs => hClear (Answered.isClear_iff.mp hIs)
    unfold Registry.after
    rw [hAnswer.registry_insertAll hClear, History.registrations_singleton hNot]
    simp [hNot]

/-- **The registry is what a course makes of it**, whoever carries out what. -/
theorem World.Course.registry_eq (hCourse : Course h w₀ all w) :
    w.store.registry = w₀.store.registry.after all := by
  induction hCourse with
  | refl => rfl
  | task _ hStep ih =>
    cases hStep with
    | act hTask hAnswer =>
      have hAct := hAnswer.registry_after
      rw [ih, ← Registry.after_cons] at hAct
      exact hAct
    | start => exact ih
  | outside _ hAnswer ih => rw [Registry.after_cons, ← ih, hAnswer.registry_after]

/-! ## Section 4: Keys that stay -/

/-- An operation takes no key away, unless it starts the registry afresh. -/
theorem Op.Answers.keys_prefix {o : Op} {r : o.Reply} (hAnswer : o.Answers h w r w')
    (hNot : o ≠ .store .clear) : w.store.registry.keys <+: w'.store.registry.keys := by
  rw [hAnswer.registry_insertAll hNot]
  exact Registry.keys_prefix_insertAll _ _

/-- Tasks take no key away, as none of them starts the registry afresh. -/
theorem World.Conducts.keys_prefix {asks : Work → Prop} {step : Label} (hConducts : w.Conducts)
    (hStep : World.Step h asks w step w') :
    w.store.registry.keys <+: w'.store.registry.keys := by
  cases hStep with
  | @act w' t work o next r hTask hAnswer =>
    obtain ⟨hist, hObeys⟩ := hConducts t work _ hTask
    have hNot : o ≠ .store .clear := by
      rintro rfl
      exact absurd hObeys.allows.not_isReserved (by decide)
    exact hAnswer.keys_prefix hNot
  | start => exact List.prefix_rfl

theorem Load.Calls.conducts {α : Type} {p q : Load α} {own : History}
    (hCalls : Calls h p w own q w') (hConducts : w.Conducts) : w'.Conducts := by
  induction hCalls with
  | refl => exact hConducts
  | own hAnswer _ ih => exact ih (hConducts.answers hAnswer)
  | other hStep _ ih => exact ih (hConducts.step hStep)

/-- **Keys stay where they are**, as long as the call does not start the registry afresh. -/
theorem Load.Calls.keys_prefix {α : Type} {p q : Load α} {own : History}
    (hCalls : Calls h p w own q w') (hConducts : w.Conducts)
    (hKept : ∀ x ∈ own, x.op ≠ .store .clear) :
    w.store.registry.keys <+: w'.store.registry.keys := by
  induction hCalls with
  | refl => exact List.prefix_rfl
  | own hAnswer _ ih =>
    obtain ⟨hRest, hFirst⟩ := List.forall_mem_append.mp hKept
    have hNot := List.forall_mem_singleton.mp hFirst
    exact (hAnswer.keys_prefix hNot).trans (ih (hConducts.answers hAnswer) hRest)
  | other hStep _ ih => exact (hConducts.keys_prefix hStep).trans (ih (hConducts.step hStep) hKept)

/-! ## Section 5: The registry of a page -/

/-- **At every moment the registry represents what has been registered in it**, whoever has done so
    and in whatever order. No key is taken away: a registry that is started afresh is another one,
    and only who calls can start one. -/
theorem registry_represents (h : Host) {w₀ : World} (hEmpty : w₀.store.registry = {})
    (hConducts : w₀.Conducts) :
    (∀ all w, Course h w₀ all w → w.store.registry.Represents all.registrations) ∧
    ∀ {α : Type} (p : Load α) own q w, Load.Calls h p w₀ own q w →
      (∃ all, own.Sublist all ∧ Course h w₀ all w) ∧
      ∀ {β : Type} (p' : Load β) own' q' w', Load.Calls h p' w own' q' w' →
        (∀ x ∈ own', x.op ≠ .store .clear) →
        w.store.registry.keys <+: w'.store.registry.keys := by
  constructor
  · intro all w hCourse
    have hRegistry := hCourse.registry_eq
    rw [hEmpty, Registry.after, ite_self] at hRegistry
    rw [hRegistry]
    exact Registry.represents_insertAll all.registrations
  · intro α p own q w hCalls
    refine ⟨hCalls.exists_course, ?_⟩
    intro β p' own' q' w' hCalls' hKept
    exact hCalls'.keys_prefix (hCalls.conducts hConducts) hKept

/-- A library is registered again after another one. -/
def Replay.renewed : List (String × Instance) :=
  [("react", ⟨0, .ofValue (.string "18")⟩), ("dayjs", ⟨1, .ofValue .null⟩),
    ("react", ⟨2, .ofValue (.string "19")⟩)]

/-- A page on which that was done. -/
def Replay.withRenewed : World := { store := { registry := ({} : Registry).insertAll renewed } }

/-- It keeps its place and gets the new module; and the keys stay when a value is registered. -/
theorem registry_represents_renewed :
    Replay.withRenewed.store.registry.Represents Replay.renewed ∧
      Replay.withRenewed.store.registry.keys = ["react", "dayjs"] ∧
      Replay.withRenewed.store.registry.get? "react" = some ⟨2, .ofValue (.string "19")⟩ ∧
      ∃ own m w', Load.Calls (Site.host {}) (Session.registerValue "vue" .null) Replay.withRenewed
        own (.done m) w' ∧ ["react", "dayjs"] <+: w'.store.registry.keys := by
  have hConducts : World.Conducts {} := by
    intro t work p hTask
    cases hTask
  have hCourse : Course (Site.host {}) {}
      (Replay.renewed.reverse.map fun x => ⟨.store (.register x.1 x.2), ()⟩)
      Replay.withRenewed :=
    ((Course.refl.outside (.perform rfl)).outside (.perform rfl)).outside (.perform rfl)
  have hFirst : ∃ own, Load.Calls (Site.host {})
      (Replay.renewed.forM fun x => Load.store (.register x.1 x.2)) {} own (.done ())
      Replay.withRenewed :=
    ⟨_, .own (.perform rfl) (.own (.perform rfl) (.own (.perform rfl) (.refl _ _)))⟩
  have hThen : ∃ own m w', Load.Calls (Site.host {}) (Session.registerValue "vue" .null)
      Replay.withRenewed own (.done m) w' ∧ ∀ x ∈ own, x.op ≠ .store .clear :=
    ⟨_, _, _, .own (.perform rfl) (.own (.perform rfl) (.refl _ _)), by simp⟩
  obtain ⟨hRepresents, hCalls⟩ := @registry_represents (Site.host {}) {} rfl hConducts
  obtain ⟨before, hFirst⟩ := hFirst
  obtain ⟨own, m, w', hThen, hKept⟩ := hThen
  refine ⟨hRepresents _ _ hCourse, rfl, rfl, own, m, w', hThen, ?_⟩
  exact (hCalls _ before _ _ hFirst).2 _ own _ w' hThen hKept

end Course

end Bundleless
