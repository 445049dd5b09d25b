import Bundleless.Proofs.History

/-! # The registry and the past

    The registry has what was registered last under a key, as long as nobody
    starts it afresh. What a module is known by is a number that no module
    had before.
-/

namespace Bundleless

variable {h : Host} {asks : Work → Prop} {w₀ w w' : World} {past : List Label}

/-! ## Section 1: What was registered last -/

/-- What a step registers under a key. -/
def Label.registered? (key : String) : Label → Option Instance
  | .act _ (.store (.register k i)) _ => if k = key then some i else none
  | _ => none

/-- What was registered last under a key. -/
def lastRegistered? (key : String) (past : List Label) : Option Instance :=
  past.findSome? (Label.registered? key)

/-- Only who registers under a key registers something there. -/
theorem Label.registered?_eq_some {key : String} {i : Instance} {step : Label}
    (hIs : step.registered? key = some i) : ∃ t, step = .act t (.store (.register key i)) () := by
  unfold registered? at hIs
  split at hIs
  · next t k j u =>
    obtain ⟨rfl, hSame⟩ := Option.ite_none_right_eq_some.mp hIs
    obtain rfl := Option.some.inj hSame
    exact ⟨t, rfl⟩
  · cases hIs

theorem mem_of_lastRegistered? {key : String} {i : Instance}
    (hLast : lastRegistered? key past = some i) :
    ∃ t, .act t (.store (.register key i)) () ∈ past := by
  obtain ⟨step, hMem, hIs⟩ := List.exists_of_findSome?_eq_some hLast
  obtain ⟨t, rfl⟩ := Label.registered?_eq_some hIs
  exact ⟨t, hMem⟩

/-- Nothing was registered last where nothing was registered at all. -/
theorem lastRegistered?_eq_none_iff {key : String} : lastRegistered? key past = none ↔
    ∀ t i, .act t (.store (.register key i)) () ∉ past := by
  unfold lastRegistered?
  rw [List.findSome?_eq_none_iff]
  constructor
  · intro hNone t i hMem
    have hNot := hNone _ hMem
    simp [Label.registered?] at hNot
  · intro hNone step hMem
    cases hIs : step.registered? key with
    | none => rfl
    | some i =>
      obtain ⟨t, rfl⟩ := Label.registered?_eq_some hIs
      exact absurd hMem (hNone t i)

/-- After a registration only later ones count. -/
theorem lastRegistered?_append_register (key : String) (i : Instance) (k : TaskId)
    (after before : List Label) :
    lastRegistered? key (after ++ .act k (.store (.register key i)) () :: before) =
      some ((lastRegistered? key after).getD i) := by
  simp only [lastRegistered?, List.findSome?_append, List.findSome?_cons, Label.registered?,
    if_true]
  cases List.findSome? (Label.registered? key) after <;> rfl

/-! ## Section 2: What operations do to the registry -/

theorem HostOp.store_perform (h : Host) (w : World) (o : HostOp) :
    (o.perform h w).2.store.registry = w.store.registry ∧
      (o.perform h w).2.store.nextId = w.store.nextId := by
  cases o with
  | compile path source =>
    unfold perform
    dsimp only
    split <;> exact ⟨rfl, rfl⟩
  | render config app =>
    unfold perform
    dsimp only
    split <;> exact ⟨rfl, rfl⟩
  | _ => exact ⟨rfl, rfl⟩

/-- Only an operation on the store registers anything, or makes a module known. -/
theorem Op.Answers.registry_eq {o : Op} {r : o.Reply} (hAnswer : o.Answers h w r w')
    (hNot : ∀ s, o ≠ .store s) :
    w'.store.registry = w.store.registry ∧ w'.store.nextId = w.store.nextId := by
  cases hAnswer.becomes with
  | store o => exact absurd rfl (hNot o)
  | host o => exact HostOp.store_perform h w o
  | log event detail level => simp only [World.store_log, and_self]
  | _ => exact ⟨rfl, rfl⟩

/-- An operation changes the registry only where it registers something or clears everything. -/
theorem Op.Answers.registry_get? {t : TaskId} {o : Op} {r : o.Reply} (hAnswer : o.Answers h w r w')
    (hClear : o ≠ .store .clear) (key : String) :
    w'.store.registry.get? key =
      ((Label.act t o r).registered? key).or (w.store.registry.get? key) := by
  by_cases hStore : ∃ s, o = .store s
  · obtain ⟨s, rfl⟩ := hStore
    obtain ⟨-, rfl⟩ := hAnswer.store
    cases s <;> try rfl
    case register k i =>
      simp only [World.withStore, StoreOp.apply, Registry.get?_insert, Label.registered?]
      split <;> rfl
    case clear => exact absurd rfl hClear
  · have hNot : ∀ s, o ≠ .store s := fun s hIs => hStore ⟨s, hIs⟩
    rw [(hAnswer.registry_eq hNot).1]
    cases o with
    | store s => exact absurd rfl (hNot s)
    | _ => rfl

/-- A module gets the next number, and no number is given twice. -/
theorem Op.Answers.nextId_le {o : Op} {r : o.Reply} (hAnswer : o.Answers h w r w') :
    w.store.nextId ≤ w'.store.nextId := by
  by_cases hStore : ∃ s, o = .store s
  · obtain ⟨s, rfl⟩ := hStore
    obtain ⟨-, rfl⟩ := hAnswer.store
    cases s with
    | create n => exact Nat.le_succ _
    | _ => exact Nat.le_refl _
  · have hNot : ∀ s, o ≠ .store s := fun s hIs => hStore ⟨s, hIs⟩
    exact Nat.le_of_eq (hAnswer.registry_eq hNot).2.symm

/-! ## Section 3: Runs -/

namespace World

/-- **The registry has what was registered last**, or what it had from the beginning, where nobody
    has cleared it. -/
theorem Run.registry_get?_of_kept (hRun : Run h asks w₀ past w)
    (hKept : ∀ t, .act t (.store .clear) () ∉ past) (key : String) :
    w.store.registry.get? key = (lastRegistered? key past).or (w₀.store.registry.get? key) := by
  induction hRun with
  | refl => rfl
  | @tail past w w' step hRun hStep ih =>
    have ih := ih fun t hMem => hKept t (List.mem_cons_of_mem _ hMem)
    cases hStep with
    | @act w' t work o next r hTask hAnswer =>
      have hClear : o ≠ .store .clear := by
        rintro rfl
        exact hKept t List.mem_cons_self
      rw [World.store_setProgram, hAnswer.registry_get? (t := t) hClear, ih]
      simp only [lastRegistered?, List.findSome?_cons]
      cases (Label.act t o r).registered? key <;> rfl
    | start hAsks => exact ih

/-- Whatever was found under a key was registered there, or had been from the beginning. -/
theorem Run.of_registered (hRun : Run h asks w₀ past w)
    (hKept : ∀ t, .act t (.store .clear) () ∉ past) {t : TaskId} {key : String}
    {r : Option Instance} (hAct : .act t (.store (.registered key)) r ∈ past) :
    ∃ before, before ⊆ past ∧ r = (lastRegistered? key before).or (w₀.store.registry.get? key) := by
  induction hRun with
  | refl => cases hAct
  | @tail past w w' step hRun hStep ih =>
    have hKeptBefore : ∀ t, .act t (.store .clear) () ∉ past :=
      fun t hMem => hKept t (List.mem_cons_of_mem _ hMem)
    rcases List.mem_cons.mp hAct with rfl | hMem
    · cases hStep with
      | act hTask hAnswer =>
        obtain ⟨rfl, -⟩ := hAnswer.store
        exact ⟨past, List.subset_cons_self _ _, hRun.registry_get?_of_kept hKeptBefore key⟩
    · obtain ⟨before, hSub, hIs⟩ := ih hKeptBefore hMem
      exact ⟨before, List.Subset.trans hSub (List.subset_cons_self _ _), hIs⟩

theorem Run.nextId_le (hRun : Run h asks w₀ past w) : w₀.store.nextId ≤ w.store.nextId := by
  induction hRun with
  | refl => exact Nat.le_refl _
  | tail _ hStep ih =>
    cases hStep with
    | act _ hAnswer => exact Nat.le_trans ih hAnswer.nextId_le
    | start => exact ih

/-- A module that is new in a run has a number that none had before. -/
theorem Run.le_id (hRun : Run h asks w₀ past w) {t : TaskId} {n : Namespace} {i : Instance}
    (hAct : .act t (.store (.create n)) i ∈ past) : w₀.store.nextId ≤ i.id := by
  induction hRun with
  | refl => cases hAct
  | @tail past w w' step hRun hStep ih =>
    rcases List.mem_cons.mp hAct with rfl | hMem
    · cases hStep with
      | act hTask hAnswer =>
        obtain ⟨rfl, -⟩ := hAnswer.store
        exact hRun.nextId_le
    · exact ih hMem

end World

end Bundleless
