import Bundleless.Proofs.Calls
import Bundleless.Proofs.Settling

/-! # Calls that settle

    A program that is carried out beside the tasks of a page on a static site
    comes to its end, whatever the order, if all work that it asks for is
    grounded. The tasks come to rest between any two of its operations, so the
    measure is what is before the program, and only then what is before the
    tasks.
-/

namespace Bundleless

variable {l : Loader} {S : StaticSite} {h : Host} {n : Nat} {w w' : World} {α : Type}

/-! ## Section 1: Programs on a static site -/

/-- The program takes one step, or one of the tasks beside it. -/
inductive Load.GoesOn (h : Host) (S : StaticSite) : Load α × World → Load α × World → Prop
  | own {o : Op} {next : o.Reply → Load α} {r : o.Reply} {w w' : World}
      (hAnswer : o.Answers h w r w') (hFits : o.FitsReply S r) :
      GoesOn h S (.ask o next, w) (next r, w')
  | other {w w' : World} (p : Load α) (hGoes : World.GoesOn h S w w') : GoesOn h S (p, w) (p, w')

/-- Whatever the order in which the program and the tasks beside it go on, on the site, it comes to
    an end, and what it comes to then is as `Q` says. -/
structure Load.Settles (h : Host) (S : StaticSite) (p : Load α) (w : World)
    (Q : α → World → Prop) : Prop where
  /-- They do not go on forever. -/
  ends : Acc (fun after before => GoesOn h S before after) (p, w)
  /-- Where nobody can go on, the program has come to a result. -/
  done : ∀ q w', Relation.ReflTransGen (GoesOn h S) (p, w) (q, w') →
    (∀ x, ¬ GoesOn h S (q, w') x) → ∃ a, q = .done a ∧ Q a w'

namespace Load

/-- Steps on the site are steps of a call. -/
theorem calls_of_goesOn {x y : Load α × World}
    (hPath : Relation.ReflTransGen (GoesOn h S) x y) : ∃ hist, Calls h x.1 x.2 hist y.1 y.2 := by
  induction hPath with
  | refl => exact ⟨[], .refl _ _⟩
  | tail _ hGoes ih =>
    obtain ⟨hist, hCalls⟩ := ih
    cases hGoes with
    | own hAnswer => exact ⟨_, hCalls.trans (.own hAnswer (.refl _ _))⟩
    | other p hGoes =>
      obtain ⟨step, hStep, -⟩ := hGoes
      exact ⟨_, hCalls.trans (.other hStep (.refl _ _))⟩

/-- What holds of every call that has come to its end holds in the end. -/
theorem Settles.of_calls {p : Load α} {Q Q' : α → World → Prop} (hSettles : p.Settles h S w Q)
    (hCalls : ∀ hist a w', Calls h p w hist (.done a) w' → Q' a w') : p.Settles h S w Q' where
  ends := hSettles.ends
  done := by
    intro q w' hPath hRests
    obtain ⟨a, rfl, -⟩ := hSettles.done q w' hPath hRests
    obtain ⟨hist, hCall⟩ := calls_of_goesOn hPath
    exact ⟨a, rfl, hCalls hist a w' hCall⟩

/-- **Where the tasks are idle the program goes on alone**, and settles if it does so from every
    answer that it can get. -/
theorem Settles.of_idle {o : Op} {next : o.Reply → Load α} {Q : α → World → Prop} (hIdle : w.Idle)
    (hSome : ∃ r w', o.Answers h w r w' ∧ o.FitsReply S r)
    (hNext : ∀ r w', o.Answers h w r w' → o.FitsReply S r → (next r).Settles h S w' Q) :
    (Load.ask o next).Settles h S w Q := by
  have hRests : ∀ w', ¬ World.GoesOn h S w w' := by
    rintro w' ⟨step, hStep, -⟩
    cases hStep with
    | act hTask _ =>
      obtain ⟨r, hDone⟩ := hIdle.done _ _ hTask
      cases hDone
    | start hAsked => exact hAsked
  refine ⟨⟨_, fun x hGoes => ?_⟩, fun q w' hPath hEnd => ?_⟩
  · cases hGoes with
    | own hAnswer hFits => exact (hNext _ _ hAnswer hFits).ends
    | other _ hGoes => exact absurd hGoes (hRests _)
  · rcases Relation.ReflTransGen.cases_head hPath with hSame | ⟨x, hGoes, hPath⟩
    · obtain ⟨r, w'', hAnswer, hFits⟩ := hSome
      exact absurd (hSame ▸ GoesOn.own hAnswer hFits) (hEnd _)
    · cases hGoes with
      | own hAnswer hFits => exact (hNext _ _ hAnswer hFits).done q w' hPath hEnd
      | other _ hGoes => exact absurd hGoes (hRests _)

end Load

/-! ### What needs no task -/

/-- The operation neither starts a task nor waits for one, and leaves the tables of the local
    modules as they are. -/
def Op.isAlone : Op → Bool
  | .await _ | .allOk _ | .allDone _ => false
  | o => o.isQuiet

theorem Op.isQuiet_of_isAlone {o : Op} (hAlone : o.isAlone = true) : o.isQuiet = true := by
  cases o with
  | await k => cases hAlone
  | allOk ks => cases hAlone
  | allDone ks => cases hAlone
  | _ => exact hAlone

theorem World.Idle.of_quiet (hIdle : w.Idle) (hQuiet : w.Quiet w') : w'.Idle where
  done t task hTask := hIdle.done t task (hQuiet.tasks ▸ hTask)
  resolving := hQuiet.resolving.trans hIdle.resolving
  executing := hQuiet.executing.trans hIdle.executing

/-- Tasks that are done obey any rule. -/
theorem World.Idle.conducts (hIdle : w.Idle) : w.Conducts := by
  intro t work p hTask
  obtain ⟨r, hDone⟩ := hIdle.done t _ hTask
  have hDone : p = .done r := hDone
  exact ⟨[], hDone ▸ .done trivial⟩

namespace Load

/-- A first program that needs no task leaves them idle. -/
theorem Settles.bind_of_idle {β : Type} {p : Load α} {f : α → Load β} {hist : History}
    {Q : History → α → Prop} {Q' : β → World → Prop}
    (hObeys : p.Obeys (fun _ o => o.isAlone = true) Q hist) (hFrom : hist.From S) (hIdle : w.Idle)
    (hNext : ∀ hist' a w', w'.Idle → hist'.From S → Q hist' a → (f a).Settles h S w' Q') :
    (p >>= f).Settles h S w Q' := by
  induction hObeys generalizing w with
  | done hDone => exact hNext _ _ w hIdle hFrom hDone
  | @ask hist o next hAlone _ ih =>
    have hNone : ∀ k wanted, ¬ o.WaitsFor k wanted := by
      rintro k wanted (_ | _ | _) <;> cases hAlone
    refine of_idle hIdle ?_ fun r w' hAnswer hFits => ?_
    · exact World.exists_answer h S w o (fun k wanted hWaits => absurd hWaits (hNone k wanted))
        fun k x hWaits _ => absurd hWaits (hNone k true)
    · exact ih r (hFrom.cons hFits) (hIdle.of_quiet (hAnswer.quiet (Op.isQuiet_of_isAlone hAlone)))

/-! ## Section 2: Programs that obey a rule -/

/-- Whoever obeys the rule waits for tasks only that it knows, and asks for grounded work only. -/
def Guides (l : Loader) (S : StaticSite) (R : History → Op → Prop) : Prop :=
  ∀ hist o, R hist o → hist.Backs o ∧ (hist.From S → o.Asks l S (l.Grounded S))

theorem guides_isAlone : Guides l S fun _ o => o.isAlone = true := by
  intro hist o hAlone
  cases o with
  | spawn new => cases hAlone
  | shareResolve l basePath => cases hAlone
  | shareExecute l path source => cases hAlone
  | await k => cases hAlone
  | allOk ks => cases hAlone
  | allDone ks => cases hAlone
  | _ => exact ⟨trivial, fun _ => trivial⟩

/-- The program obeys the rule, beside tasks in a sound world; whom it knows is at grounded work. -/
structure Sound (l : Loader) (S : StaticSite) (n : Nat) (R : History → Op → Prop)
    (x : Load α × World) : Prop where
  world : x.2.Sound l S n
  obeys : ∃ hist, x.1.Obeys R (fun _ _ => True) hist ∧ hist.Sound S n x.2 (l.Grounded S)

variable {R : History → Op → Prop}

theorem Sound.goesOn {x y : Load α × World} (hGuides : Guides l S R) (hSound : Sound l S n R x)
    (hGoes : GoesOn h S x y) : Sound l S n R y := by
  obtain ⟨hWorld, hist, hObeys, hHist⟩ := hSound
  cases hGoes with
  | @own o next r w w' hAnswer hFits =>
    have hAsks := (hGuides hist o hObeys.allows).2 hHist.replies
    obtain - | ⟨-, hNext⟩ := hObeys
    obtain ⟨works, hStarts⟩ := hAnswer.starts
    refine ⟨hWorld.answer hAsks (fun _ hDue => hDue) hAnswer, _, hNext r, ?_⟩
    exact (hHist.mono fun _ _ hAt => hStarts.workOf?_old hAt).cons hFits fun k hNamed =>
      hWorld.named hAsks hAnswer hNamed
  | other p hGoes =>
    obtain ⟨step, hStep, hFits⟩ := hGoes
    exact ⟨hWorld.goesOn ⟨step, hStep, hFits⟩, hist, hObeys, hHist.mono fun _ _ hAt => hStep.workOf? hAt⟩

/-- The tasks come to rest before the program's next operation, or it is carried out before. -/
theorem Sound.acc_of_own (hGuides : Guides l S R) {p : Load α}
    (hOwn : ∀ (o : Op) (next : o.Reply → Load α) (r : o.Reply) (w' : World), p = .ask o next →
      Sound l S n R (next r, w') → Acc (fun after before => GoesOn h S before after) (next r, w'))
    (hSound : Sound l S n R (p, w)) : Acc (fun after before => GoesOn h S before after) (p, w) := by
  -- By induction on what is before the tasks.
  generalize hTodo : w.ahead n = todo
  induction todo using (l.wellFounded_smaller S).cutExpand.induction generalizing w with
  | _ todo ih =>
    refine ⟨_, fun y hGoes => ?_⟩
    have hSound' := hSound.goesOn hGuides hGoes
    cases hGoes with
    | own => exact hOwn _ _ _ _ rfl hSound'
    | other _ hGoes =>
      exact ih _ (hTodo ▸ hSound.world.ahead_goesOn hGoes) hSound' rfl

/-- By induction on the program. -/
theorem Sound.acc (hGuides : Guides l S R) {p : Load α} (hSound : Sound l S n R (p, w)) :
    Acc (fun after before => GoesOn h S before after) (p, w) := by
  induction p generalizing w with
  | done a =>
    refine acc_of_own hGuides (fun o next r w' hIs => ?_) hSound
    cases hIs
  | ask o next ih =>
    refine acc_of_own hGuides (fun o' next' r w' hIs hSound' => ?_) hSound
    obtain ⟨rfl, hNext⟩ := Load.ask.inj hIs
    obtain rfl := eq_of_heq hNext
    exact ih r hSound'

/-- **While the program is not done it can go on, or a task for which it waits.** -/
theorem Sound.exists_goesOn (h : Host) (hGuides : Guides l S R) {o : Op} {next : o.Reply → Load α}
    (hSound : Sound l S n R (.ask o next, w)) : ∃ y, GoesOn h S (.ask o next, w) y := by
  obtain ⟨hWorld, hist, hObeys, hHist⟩ := hSound
  have hBacks := (hGuides hist o hObeys.allows).1
  by_cases hOpen : ∃ k wanted, o.WaitsFor k wanted ∧ w.outcome? k = none
  · obtain ⟨k, wanted, hWaits, hOpenK⟩ := hOpen
    obtain ⟨work, -, hWork, -, -⟩ := hHist.waits hBacks hWaits
    obtain ⟨work', o', next', hTask⟩ := World.exists_ask_of_open (World.lt_of_workOf? hWork) hOpenK
    obtain ⟨step, w', hStep, hFits⟩ := hWorld.exists_step h hTask
    exact ⟨_, .other _ ⟨step, hStep, hFits⟩⟩
  · have hDone : ∀ k wanted, o.WaitsFor k wanted → (w.outcome? k).isSome = true :=
      fun k wanted hWaits => Option.isSome_iff_ne_none.mpr fun hNone =>
        hOpen ⟨k, wanted, hWaits, hNone⟩
    obtain ⟨r, w', hAnswer, hFits⟩ := World.exists_answer h S w o hDone fun k x hWaits hOk => by
      obtain ⟨work, hLe, hWork, -, hLeaves⟩ := hHist.waits hBacks hWaits
      exact hWorld.exists_module hLe hWork (hLeaves rfl) hOk
    exact ⟨_, .own hAnswer hFits⟩

/-- **A program that asks for grounded work only settles.** -/
theorem settles_of_guides (h : Host) (hGuides : Guides l S R) {p : Load α}
    (hSound : Sound l S n R (p, w)) : p.Settles h S w fun _ _ => True where
  ends := hSound.acc hGuides
  done := by
    intro q w' hPath hRests
    have hSound' : Sound l S n R (q, w') := by
      clear hRests
      generalize (q, w') = y at hPath
      induction hPath with
      | refl => exact hSound
      | tail _ hGoes ih => exact ih.goesOn hGuides hGoes
    cases q with
    | done a => exact ⟨a, rfl, trivial⟩
    | ask o next =>
      obtain ⟨y, hGoes⟩ := hSound'.exists_goesOn h hGuides
      exact absurd hGoes (hRests y)

end Load

/-! ## Section 3: One order -/

/-- The answer on the site, if there is one. -/
def Op.answer? (h : Host) (S : StaticSite) (w : World) : (o : Op) → Option (o.Reply × World)
  | .reply method url => some (S method url, w)
  | .sleep _ => some ((), w)
  | o => o.perform h w

theorem Op.answer?_eq_some_iff {o : Op} {r : o.Reply} :
    o.answer? h S w = some (r, w') ↔ o.Answers h w r w' ∧ o.FitsReply S r := by
  constructor
  · intro hSome
    cases o with
    | reply method url =>
      cases hSome
      exact ⟨.reply method url _, rfl⟩
    | sleep ms =>
      cases hSome
      exact ⟨.wake ms, trivial⟩
    | _ => exact ⟨.perform hSome, trivial⟩
  · rintro ⟨hAnswer, hFits⟩
    cases hAnswer with
    | reply method url r =>
      have hFits : r = S method url := hFits
      rw [hFits]
      rfl
    | wake ms => rfl
    | perform hPerform =>
      cases o with
      | reply method url => cases hPerform
      | sleep ms => cases hPerform
      | _ => exact hPerform

namespace Load

/-- The next step of the program, if it can go on. -/
def step? (h : Host) (S : StaticSite) (p : Load α) (w : World) : Option (Load α × World) :=
  match p with
  | .done _ => none
  | .ask o next => (o.answer? h S w).map fun (r, w') => (next r, w')

/-- The step that is taken if the program goes before the tasks, and these go in their order. -/
def goOn? (h : Host) (S : StaticSite) (x : Load α × World) : Option (Load α × World) :=
  step? h S x.1 x.2 <|> x.2.tasks.zipIdx.findSome? fun (task, t) =>
    (step? h S task.program x.2).map fun (q, w) => (x.1, w.setProgram t q)

/-- Take so many steps, or fewer if nobody can go on any more. -/
def goFar (h : Host) (S : StaticSite) : Nat → Load α × World → Load α × World
  | 0, x => x
  | count + 1, x =>
    match goOn? h S x with
    | some y => goFar h S count y
    | none => x

theorem step?_eq_some_iff {p q : Load α} : step? h S p w = some (q, w') ↔
    ∃ (o : Op) (next : o.Reply → Load α) (r : o.Reply), p = .ask o next ∧ q = next r ∧
      o.Answers h w r w' ∧ o.FitsReply S r := by
  cases p with
  | done a => simp [step?]
  | ask o next =>
    unfold step?
    constructor
    · intro hSome
      obtain ⟨⟨r, w''⟩, hAnswer, hIs⟩ := Option.map_eq_some_iff.mp hSome
      obtain ⟨rfl, rfl⟩ := Prod.mk.inj hIs
      exact ⟨o, next, r, rfl, rfl, Op.answer?_eq_some_iff.mp hAnswer⟩
    · rintro ⟨o', next', r, hIs, rfl, hAnswer⟩
      obtain ⟨rfl, hNext⟩ := Load.ask.inj hIs
      obtain rfl := eq_of_heq hNext
      exact Option.map_eq_some_iff.mpr ⟨(r, w'), Op.answer?_eq_some_iff.mpr hAnswer, rfl⟩

theorem goesOn_of_goOn? {x y : Load α × World} (hSome : goOn? h S x = some y) : GoesOn h S x y := by
  obtain ⟨p, w⟩ := x
  rcases (Option.orElse_eq_some _ _ _).mp hSome with hOwn | ⟨-, hTask⟩
  · obtain ⟨q, w'⟩ := y
    obtain ⟨o, next, r, rfl, rfl, hAnswer, hFits⟩ := step?_eq_some_iff.mp hOwn
    exact .own hAnswer hFits
  · obtain ⟨⟨⟨work, p'⟩, t⟩, hMem, hStep⟩ := List.exists_of_findSome?_eq_some hTask
    obtain ⟨⟨q, w'⟩, hOne, rfl⟩ := Option.map_eq_some_iff.mp hStep
    obtain ⟨o, next, r, hIs, rfl, hAnswer, hFits⟩ := step?_eq_some_iff.mp hOne
    obtain rfl : p' = .ask o next := hIs
    exact .other p ⟨.act t o r, .act (List.mem_zipIdx_iff_getElem?.mp hMem) hAnswer, hFits⟩

/-- Where no step is found there is none. -/
theorem not_goesOn_of_goOn? {x y : Load α × World} (hNone : goOn? h S x = none) :
    ¬ GoesOn h S x y := by
  obtain ⟨p, w⟩ := x
  obtain ⟨hOwn, hTasks⟩ := (Option.orElse_eq_none _ _).mp hNone
  intro hGoes
  cases hGoes with
  | @own o next r _ w' hAnswer hFits =>
    have hStep := step?_eq_some_iff.mpr ⟨o, next, r, rfl, rfl, hAnswer, hFits⟩
    rw [hOwn] at hStep
    cases hStep
  | other _ hGoes =>
    obtain ⟨step, hStep, hFits⟩ := hGoes
    cases hStep with
    | @act w' t work o next r hTask hAnswer =>
      have hMem : (⟨work, .ask o next⟩, t) ∈ w.tasks.zipIdx := List.mem_zipIdx_iff_getElem?.mpr hTask
      have hAt := List.findSome?_eq_none_iff.mp hTasks _ hMem
      have hStep := step?_eq_some_iff.mpr ⟨o, next, r, rfl, rfl, hAnswer, hFits⟩
      dsimp only at hAt
      rw [hStep] at hAt
      cases hAt
    | start hAsked => exact hAsked

theorem path_goFar (count : Nat) (x : Load α × World) :
    Relation.ReflTransGen (GoesOn h S) x (goFar h S count x) := by
  induction count generalizing x with
  | zero => exact .refl
  | succ count ih =>
    unfold goFar
    split
    · next y hSome => exact .head (goesOn_of_goOn? hSome) (ih y)
    · exact .refl

/-- What evaluation finds to be at rest before its end is where nobody can go on. -/
theorem exists_rest (count : Nat) {x : Load α × World}
    (hRests : (goOn? h S (goFar h S count x)).isNone = true)
    (hOpen : (goFar h S count x).1.result?.isNone = true) :
    ∃ p w, Relation.ReflTransGen (GoesOn h S) x (p, w) ∧ (∀ y, ¬ GoesOn h S (p, w) y) ∧
      ∀ a, p ≠ .done a := by
  have hPath := path_goFar (h := h) (S := S) count x
  generalize goFar h S count x = last at hPath hRests hOpen
  obtain ⟨p, w⟩ := last
  refine ⟨p, w, hPath, fun y => not_goesOn_of_goOn? (Option.isNone_iff_eq_none.mp hRests), ?_⟩
  rintro a rfl
  cases hOpen

/-- What evaluation finds to have come to its end is the end of a call. -/
theorem exists_calls {count : Nat} {x : Load α × World} {a : α}
    (hDone : (goFar h S count x).1.result? = some a) :
    ∃ hist w, Calls h x.1 x.2 hist (.done a) w := by
  obtain ⟨hist, hCalls⟩ := calls_of_goesOn (path_goFar (h := h) (S := S) count x)
  rw [result?_eq_some_iff.mp hDone] at hCalls
  exact ⟨hist, _, hCalls⟩

end Load

end Bundleless
