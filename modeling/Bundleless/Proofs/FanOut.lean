import Bundleless.Proofs.Replay
import Bundleless.Proofs.SettlingCalls
import Bundleless.World.Site

/-! # Fan-outs

    The dependencies of a source are loaded all at once, and so are the tools
    of a page: one task is started for each of them, and whoever has started
    them waits until all have succeeded or one has failed. Who stops waiting
    takes nothing away. The tasks stand as they stood, each goes on to its
    end, and what it does on the way is there to be seen, as if it had been
    waited for.
-/

namespace Bundleless

open Load (Calls op spawnAll allSucceed loadTool loadTools preload requireLoaded)

/-! ## Section 1: What has been carried out is there to be seen -/

/-- What can be seen of an operation from outside. -/
def Answered.happening? : Answered → Option Happening
  | ⟨.send method url, _⟩ => some (.requested method url)
  | ⟨.host (.inject url), _⟩ => some (.injected url)
  | ⟨.host (.importModule url), _⟩ => some (.imported url)
  | ⟨.host (.compile path _), .ok _⟩ => some (.compiled path)
  | ⟨.host (.execute m), _⟩ => some (.executed m.path)
  | _ => none

/-- The world shows what was carried out: everything that could be seen of it has happened, in its
    order, and every key is there that something was registered under. -/
structure History.ShownIn (hist : History) (w : World) : Prop where
  happened : (hist.filterMap Answered.happening?).Sublist w.trace
  registered : ∀ key i, ⟨.store (.register key i), ()⟩ ∈ hist →
    w.store.registry.contains key = true

theorem History.shownIn_nil (w : World) : History.ShownIn [] w :=
  ⟨List.nil_sublist _, fun _ _ hMem => absurd hMem List.not_mem_nil⟩

variable {h : Host} {asks : Work → Prop} {w w' : World} {hist : History}

theorem World.sublist_log (w : World) (event : String) (detail : Json) (level : Level) :
    w.trace.Sublist (w.log event detail level).trace := by
  unfold World.log
  split
  · exact List.sublist_cons_self _ _
  · exact List.Sublist.refl _

theorem HostOp.happened (h : Host) (w : World) (o : HostOp) :
    ((Answered.happening? ⟨.host o, (o.perform h w).1⟩).toList ++ w.trace).Sublist
      (o.perform h w).2.trace := by
  cases o with
  | compile path source =>
    unfold perform
    dsimp only
    split <;> simp [Answered.happening?, World.note]
  | render config app =>
    unfold perform
    dsimp only
    split <;> simp [Answered.happening?, World.note]
  | _ => simp [perform, Answered.happening?, World.note, World.withGlobals, World.withStore]

/-- Nothing is taken out of the trace, and what can be seen of an operation is added to it. -/
theorem Op.Answers.trace {o : Op} {r : o.Reply} (hAnswer : o.Answers h w r w') :
    ((Answered.happening? ⟨o, r⟩).toList ++ w.trace).Sublist w'.trace := by
  cases hAnswer.becomes with
  | same _ _ hLeaves =>
    -- Of what leaves the world as it is there is nothing to see.
    cases o <;> first | exact List.Sublist.refl _ | cases hLeaves
  | host o => exact HostOp.happened h w o
  | log event detail level => exact World.sublist_log w event detail level
  | _ => exact List.Sublist.refl _

/-! ## Section 2: Every task is accounted for -/

namespace History

/-- What was shown once is shown for good. -/
theorem ShownIn.mono (hShown : hist.ShownIn w) (hTrace : w.trace.Sublist w'.trace)
    (hRegistered : ∀ key, w.store.registry.contains key = true →
      w'.store.registry.contains key = true) : hist.ShownIn w' where
  happened := hShown.happened.trans hTrace
  registered key i hMem := hRegistered key (hShown.registered key i hMem)

/-- An operation is shown by the world that it leaves. -/
theorem ShownIn.answer {o : Op} {r : o.Reply} (hShown : hist.ShownIn w)
    (hAnswer : o.Answers h w r w') (hNot : o.isReserved = false) :
    ShownIn (⟨o, r⟩ :: hist) w' where
  happened := by
    have hHead : (⟨o, r⟩ :: hist).filterMap Answered.happening? =
        (Answered.happening? ⟨o, r⟩).toList ++ hist.filterMap Answered.happening? := by
      rw [List.filterMap_cons]
      cases Answered.happening? ⟨o, r⟩ <;> rfl
    rw [hHead]
    exact (hShown.happened.append_left _).trans hAnswer.trace
  registered key i hMem := by
    rcases List.mem_cons.mp hMem with hIs | hMem
    · cases hIs
      obtain ⟨-, rfl⟩ := hAnswer.store
      simp [StoreOp.apply, World.withStore, Registry.contains_insert]
    · exact (hAnswer.unjudged hNot).registered key (hShown.registered key i hMem)

end History

namespace World

/-- Every task from `n` on stands where its program has come to from its beginning on, and all that
    it has carried out is shown. -/
def Accounts (n : Nat) (w : World) : Prop := ∀ (t : TaskId) (work : Work) (p : Load Outcome),
  n ≤ t → w.tasks[t]? = some ⟨work, p⟩ → ∃ hist, work.program.Came hist p ∧ hist.ShownIn w

variable {n : Nat} {label : Label}

/-- At first there are no such tasks. -/
theorem accounts_length (w : World) : w.Accounts w.tasks.length := by
  intro t work p hLe hTask
  have hLt : t < w.tasks.length := (List.getElem?_eq_some_iff.mp hTask).1
  exact absurd hLt (Nat.not_lt.mpr hLe)

/-- An operation of whoever it is leaves the tasks accounted for, and the new ones too. -/
theorem Accounts.answer {o : Op} {r : o.Reply} (hAccounts : w.Accounts n)
    (hAnswer : o.Answers h w r w') (hNot : o.isReserved = false) : w'.Accounts n := by
  obtain ⟨works, hStarts⟩ := hAnswer.starts
  intro t work p hLe hTask
  rcases Nat.lt_or_ge t w.tasks.length with hLt | hGe
  · rw [hStarts.getElem?_of_lt hLt] at hTask
    obtain ⟨hist, hCame, hShown⟩ := hAccounts t work p hLe hTask
    have hTrace : w.trace.Sublist w'.trace := (List.sublist_append_right _ _).trans hAnswer.trace
    exact ⟨hist, hCame, hShown.mono hTrace (hAnswer.unjudged hNot).registered⟩
  · have hNew : p = work.program := (hStarts.program_of_le hGe hTask).2
    exact ⟨[], hNew ▸ .start, History.shownIn_nil w'⟩

/-- **A step leaves every task accounted for.** -/
theorem Accounts.step (hAccounts : w.Accounts n) (hConducts : w.Conducts)
    (hStep : Step h asks w label w') : w'.Accounts n := by
  cases hStep with
  | @act w' k work o next r hTask hAnswer =>
    have hNot : o.isReserved = false := by
      obtain ⟨hist, hObeys⟩ := hConducts k work _ hTask
      exact hObeys.allows.not_isReserved
    have hAnswered := hAccounts.answer hAnswer hNot
    intro t work' p hLe hAt
    by_cases hEq : t = k
    · -- Who has made the step has one more operation behind it.
      subst hEq
      obtain ⟨works, hStarts⟩ := hAnswer.starts
      have hTask' := hStarts.getElem?_of_task hTask
      obtain ⟨rfl, rfl⟩ : work = work' ∧ next r = p := by
        simpa using (getElem?_setProgram_self hTask').symm.trans hAt
      obtain ⟨hist, hCame, hShown⟩ := hAccounts t work _ hLe hTask
      have hShown' := hShown.answer hAnswer hNot
      exact ⟨_, hCame.next r, hShown'.happened, hShown'.registered⟩
    · rw [getElem?_setProgram_of_ne _ hEq] at hAt
      obtain ⟨hist, hCame, hShown⟩ := hAnswered t work' p hLe hAt
      exact ⟨hist, hCame, hShown.happened, hShown.registered⟩
  | @start work =>
    have hSpawn : (Op.spawn work).Answers h w w.tasks.length (w.start work).2 := .perform rfl
    exact hAccounts.answer hSpawn rfl

theorem Accounts.leads (hAccounts : w.Accounts n) (hConducts : w.Conducts)
    (hLeads : Leads h asks w w') : w'.Accounts n := by
  obtain ⟨past, hRun⟩ := hLeads
  induction hRun with
  | refl => exact hAccounts
  | tail hRun hStep ih => exact ih.step (hConducts.leads ⟨_, hRun⟩).2 hStep

end World

/-- A call that does nothing reserved leaves every task accounted for. -/
theorem Load.Calls.accounts {α : Type} {p q : Load α} {n : Nat} (hCalls : Calls h p w hist q w')
    (hOnly : p.Only fun o => o.isReserved = false) (hAccounts : w.Accounts n)
    (hConducts : w.Conducts) : w'.Accounts n ∧ w'.Conducts := by
  induction hCalls with
  | refl => exact ⟨hAccounts, hConducts⟩
  | own hAnswer _ ih =>
    obtain - | ⟨hNot, hNext⟩ := hOnly
    exact ih (hNext _) (hAccounts.answer hAnswer hNot) (hConducts.answers hAnswer)
  | other hStep _ ih => exact ih hOnly (hAccounts.step hConducts hStep) (hConducts.step hStep)

/-! ## Section 3: One task for each job -/

/-- The operation may start a task. -/
def Op.isStarting : Op → Bool
  | .spawn _ | .shareResolve .. | .shareExecute .. => true
  | _ => false

/-- To start tasks for these jobs, one after the other, is to carry out this. -/
def History.spawns (l : Loader) (jobs : List Job) (ts : List TaskId) : History :=
  ((jobs.zip ts).map fun (job, t) => ⟨.spawn ⟨l, job⟩, t⟩).reverse

/-- The tasks are new ones since `w`, no two of them the same, and their works are the jobs, one each,
    in their order. -/
structure World.Members (w : World) (l : Loader) (jobs : List Job) (ts : List TaskId) (w' : World) :
    Prop where
  nodup : ts.Nodup
  new : ∀ t ∈ ts, w.tasks.length ≤ t
  works : ts.map w'.workOf? = jobs.map fun job => some ⟨l, job⟩

section Members

variable {l : Loader} {jobs : List Job} {ts : List TaskId} {w₁ w₂ : World}

theorem World.Members.leads (hMembers : w.Members l jobs ts w₁) (hLeads : World.Leads h asks w₁ w₂) :
    w.Members l jobs ts w₂ := by
  obtain ⟨past, hRun⟩ := hLeads
  refine ⟨hMembers.nodup, hMembers.new, ?_⟩
  rw [← hMembers.works]
  apply List.map_congr_left
  intro t ht
  -- The work of a member is known, and what is known of it stays.
  have hMem : w₁.workOf? t ∈ jobs.map fun job => some (⟨l, job⟩ : Work) :=
    hMembers.works ▸ List.mem_map_of_mem ht
  obtain ⟨job, -, hWork⟩ := List.mem_map.mp hMem
  rw [← hWork]
  exact hRun.workOf? hWork.symm

/-- Every member has one of the jobs. -/
theorem World.Members.exists_job (hMembers : w.Members l jobs ts w') {t : TaskId} (ht : t ∈ ts) :
    ∃ job ∈ jobs, w'.workOf? t = some ⟨l, job⟩ := by
  have hMem : w'.workOf? t ∈ jobs.map fun job => some (⟨l, job⟩ : Work) :=
    hMembers.works ▸ List.mem_map_of_mem ht
  obtain ⟨job, hJob, hWork⟩ := List.mem_map.mp hMem
  exact ⟨job, hJob, hWork.symm⟩

/-- What a task works on does not change while a call is under way. -/
theorem Load.Calls.workOf? {α : Type} {p q : Load α} (hCalls : Calls h p w hist q w') {t : TaskId}
    {work : Work} (hWork : w.workOf? t = some work) : w'.workOf? t = some work := by
  induction hCalls with
  | refl => exact hWork
  | own hAnswer _ ih =>
    obtain ⟨works, hStarts⟩ := hAnswer.starts
    exact ih (hStarts.workOf?_old hWork)
  | other hStep _ ih => exact ih (hStep.workOf? hWork)

/-- **To start tasks for jobs is to start one for each of them.** -/
theorem Load.Calls.members (hCalls : Calls h (spawnAll l jobs) w hist (.done ts) w') :
    hist = History.spawns l jobs ts ∧ w.Members l jobs ts w' := by
  induction jobs generalizing w hist ts w' with
  | nil =>
    obtain ⟨rfl, hDone, -⟩ := hCalls.of_done
    obtain rfl : ts = [] := Load.done.inj hDone
    exact ⟨rfl, List.nodup_nil, fun t ht => absurd ht List.not_mem_nil, rfl⟩
  | cons job jobs ih =>
    obtain ⟨w₁, t, w₂, rest, hLeads, hAnswer, hRest, rfl⟩ := hCalls.of_ask
    have hRest : Calls h (spawnAll l jobs >>= fun ts => .done (t :: ts)) w₂ rest (.done ts) w' :=
      hRest
    obtain ⟨ts', before, after, w₃, rfl, hTail, hThen⟩ := hRest.of_bind
    obtain ⟨rfl, hDone, hEnd⟩ := hThen.of_done
    obtain rfl : ts = t :: ts' := Load.done.inj hDone
    obtain ⟨rfl, hMembers⟩ := ih hTail
    obtain ⟨rfl, rfl⟩ := hAnswer.spawn
    obtain ⟨past, hBefore⟩ := hLeads
    obtain ⟨more, hAfter⟩ := hEnd
    have hLe : w.tasks.length ≤ w₁.tasks.length := hBefore.length_le
    -- Those that are started later have higher numbers than the first one.
    have hLater : ∀ t ∈ ts', w₁.tasks.length < t := by
      intro t ht
      have hNew := hMembers.new t ht
      simp only [World.start, List.length_append, List.length_singleton] at hNew
      exact hNew
    refine ⟨?_, ?_, ?_, ?_⟩
    · simp [History.spawns]
    · rw [List.nodup_cons]
      exact ⟨fun hMem => absurd (hLater _ hMem) (Nat.lt_irrefl _), hMembers.nodup⟩
    · intro t ht
      rcases List.mem_cons.mp ht with rfl | ht
      · exact hLe
      · exact Nat.le_trans hLe (Nat.le_of_lt (hLater t ht))
    · have hFirst : w'.workOf? w₁.tasks.length = some ⟨l, job⟩ :=
        hAfter.workOf? (hTail.workOf? (World.starts_start _).workOf?_new)
      have hOthers := (hMembers.leads ⟨more, hAfter⟩).works
      simp only [List.map_cons, hFirst, hOthers]

end Members

/-! ## Section 4: Whoever waits for all of them -/

/-- The load that the job is about comes to this failure. That of a dependency is the failure of the
    module, with the specifier around it. -/
def Job.Fails (l : Loader) (hist : History) (e : Failure) : Job → Prop
  | .member specifier dir => ∃ cause, e = .preload specifier cause ∧
      (requireLoaded l specifier dir).run.Came hist (.done (.error cause))
  | .tool d => (loadTool l d).run.Came hist (.done (.error e))
  | job => (⟨l, job⟩ : Work).program.Came hist (.done (.error e))

/-- A call that has started the tasks `ts` for the jobs and has come to `r` loses none of them. -/
structure Load.LosesNone (h : Host) (l : Loader) (jobs : List Job) (p : Attempt Unit) (w : World)
    (own : History) (r : Except Failure Unit) (w' : World) (ts : List TaskId) : Prop where
  /-- It has started one task for each job, and no other. -/
  starts : own.filter (·.op.isStarting) = History.spawns l jobs ts
  members : w.Members l jobs ts w'
  /-- The answer leaves the tasks as they are. -/
  answered : jobs ≠ [] → ∃ w₁, Calls h p.run w (History.spawns l jobs ts) (op (.allOk ts)) w₁ ∧
    (Op.allOk ts).Answers h w₁ r w₁ ∧ World.Leads h nothing w₁ w'
  /-- Whatever happens after the answer could have happened before it. -/
  waits : jobs ≠ [] → ∀ w'', World.Leads h nothing w' w'' →
    Calls h p.run w (History.spawns l jobs ts) (op (.allOk ts)) w''
  ok_iff : ∀ asks w'', World.Leads h asks w' w'' →
    (r = .ok () ↔ ∀ t ∈ ts, ∃ x, w''.outcome? t = some (.ok x))
  error : ∀ e, r = .error e → ∃ t ∈ ts, ∃ job ∈ jobs, w'.workOf? t = some ⟨l, job⟩ ∧
    w'.outcome? t = some (.error e) ∧ ∃ hist, job.Fails l hist e ∧ hist.ShownIn w'
  /-- All that the tasks do, the members and those that they start, is there to be seen. -/
  full : ∀ asks w'', World.Leads h asks w' w'' → w''.Accounts w.tasks.length

/-- The program starts one task for each of the jobs, waits for nothing but them, and loses none of
    them, whatever it comes to. -/
structure Load.FansOut (h : Host) (l : Loader) (jobs : List Job) (p : Attempt Unit) (w : World) :
    Prop where
  /-- Until it is done it can go on, unless there is a member that is not done. -/
  goesOn : ∀ own q w', Calls h p.run w own q w' → (∃ r, q = .done r) ∨
    (∃ o next r w'', q = .ask o next ∧ o.Answers h w' r w'') ∨
    ∃ ts, q = op (.allOk ts) ∧ own = History.spawns l jobs ts ∧ w.Members l jobs ts w' ∧
      ∃ t ∈ ts, w'.outcome? t = none
  returns : ∀ own r w', Calls h p.run w own (.done r) w' →
    ∃ ts, Load.LosesNone h l jobs p w own r w' ts

section FanOut

variable {l : Loader} {jobs : List Job} {ts : List TaskId} {own : History}

/-- A job that has failed as a task has failed as a load. -/
theorem Job.fails_of_came {job : Job} {e : Failure}
    (hCame : (⟨l, job⟩ : Work).program.Came hist (.done (.error e))) : job.Fails l hist e := by
  cases job with
  | member specifier dir =>
    obtain ⟨r, before, after, rfl, hFirst, hThen⟩ := Load.Came.of_bind hCame
    cases r with
    | ok x =>
      obtain ⟨hIs, -⟩ := hThen.of_done
      cases hIs
    | error cause =>
      obtain ⟨hIs, rfl⟩ := hThen.of_done
      cases hIs
      exact ⟨cause, rfl, hFirst⟩
  | tool d =>
    obtain ⟨r, before, after, rfl, hFirst, hThen⟩ := Load.Came.of_bind hCame
    cases r with
    | ok x =>
      obtain ⟨hIs, -⟩ := hThen.of_done
      cases hIs
    | error e =>
      obtain ⟨hIs, rfl⟩ := hThen.of_done
      cases hIs
      exact hFirst
  | _ => exact hCame

/-- A program that starts tasks and waits for all of them is about to start one; or it waits; or it
    has got an answer while it waited. -/
theorem Load.Calls.allSucceed_cases {q : Load (Except Failure Unit)}
    (hCalls : Calls h (allSucceed l jobs).run w own q w') :
    (∃ o next r w'', q = .ask o next ∧ o.Answers h w' r w'') ∨
    (∃ ts, q = op (.allOk ts) ∧ own = History.spawns l jobs ts ∧ w.Members l jobs ts w') ∨
    ∃ ts r w₁, q = .done r ∧ own = ⟨.allOk ts, r⟩ :: History.spawns l jobs ts ∧
      w.Members l jobs ts w₁ ∧
      Calls h (allSucceed l jobs).run w (History.spawns l jobs ts) (op (.allOk ts)) w₁ ∧
      (Op.allOk ts).Answers h w₁ r w₁ ∧ World.Leads h nothing w₁ w' := by
  rcases hCalls.bind_cases with ⟨p, rfl, hSpawns⟩ | ⟨ts, before, after, w₁, rfl, hSpawns, hJoin⟩
  · cases p with
    | done ts =>
      obtain ⟨hOwn, hMembers⟩ := hSpawns.members
      exact Or.inr (Or.inl ⟨ts, rfl, hOwn, hMembers⟩)
    | ask o next =>
      -- Nothing stands in the way of starting a task.
      have hOnly : (spawnAll l jobs).Only fun o => ∃ job, o = .spawn ⟨l, job⟩ :=
        only_spawnAll (fun job => ⟨job, rfl⟩) jobs
      obtain - | ⟨⟨job, rfl⟩, -⟩ := hOnly.came hSpawns.came
      exact Or.inl ⟨_, _, _, _, rfl, .perform rfl⟩
  · obtain ⟨rfl, hMembers⟩ := hSpawns.members
    have hWaits : ∀ {w₂}, World.Leads h nothing w₁ w₂ → Calls h (allSucceed l jobs).run w
        (History.spawns l jobs ts) (op (.allOk ts)) w₂ := fun hLeads =>
      (hSpawns.bind fun ts => op (.allOk ts)).trans (.of_leads _ hLeads)
    rcases hJoin.ask_cases with ⟨rfl, rfl, hLeads⟩ | ⟨w₂, r, w₃, rest, hLeads, hAnswer, hRest, rfl⟩
    · exact Or.inr (Or.inl ⟨ts, rfl, rfl, hMembers.leads hLeads⟩)
    · obtain ⟨rfl, rfl, hLeads'⟩ := hRest.of_done
      obtain ⟨-, rfl⟩ := hAnswer.allOk
      exact Or.inr (Or.inr ⟨ts, r, w₃, rfl, rfl, hMembers.leads hLeads, hWaits hLeads, hAnswer,
        hLeads'⟩)

theorem History.filter_spawns :
    (History.spawns l jobs ts).filter (·.op.isStarting) = History.spawns l jobs ts := by
  rw [List.filter_eq_self]
  intro x hx
  obtain ⟨⟨job, t⟩, -, rfl⟩ := List.mem_map.mp (List.mem_reverse.mp hx)
  rfl

/-- The answer to whoever waits for all of the tasks is theirs, and stays so. -/
theorem World.ok_iff_of_allOk {w₁ : World} {r : Except Failure Unit}
    (hAnswer : (Op.allOk ts).Answers h w₁ r w₁)
    (hKept : ∀ t x, w₁.outcome? t = some x → w.outcome? t = some x) :
    r = .ok () ↔ ∀ t ∈ ts, ∃ x, w.outcome? t = some (.ok x) := by
  have hAll : Join.all (ts.map w₁.outcome?) = some r := hAnswer.allOk.1
  constructor
  · rintro rfl t ht
    obtain ⟨x, hOk⟩ := Join.all_eq_ok hAll _ (List.mem_map_of_mem ht)
    exact ⟨x, hKept t _ hOk⟩
  · intro hOk
    cases r with
    | ok => rfl
    | error e =>
      obtain ⟨t, ht, hFailed⟩ := List.mem_map.mp (Join.all_eq_error hAll)
      obtain ⟨x, hIs⟩ := hOk t ht
      cases (hKept t _ hFailed).symm.trans hIs

/-- **To start tasks and to wait for all of them is to lose none of them.** -/
theorem Load.fansOut_allSucceed (h : Host) (l : Loader) (jobs : List Job) (hConducts : w.Conducts) :
    Load.FansOut h l jobs (allSucceed l jobs) w where
  goesOn own q w' hCalls := by
    rcases hCalls.allSucceed_cases with hGoes | ⟨ts, rfl, hOwn, hMembers⟩ | ⟨ts, r, w₁, hDone, -⟩
    · exact Or.inr (Or.inl hGoes)
    · by_cases hOpen : ∃ t ∈ ts, w'.outcome? t = none
      · exact Or.inr (Or.inr ⟨ts, rfl, hOwn, hMembers, hOpen⟩)
      · -- All are done, and so there is an answer.
        have hSome : (Join.all (ts.map w'.outcome?)).isSome = true := Join.isSome_all fun o ho => by
          obtain ⟨t, ht, rfl⟩ := List.mem_map.mp ho
          exact Option.isSome_iff_ne_none.mpr fun hNone => hOpen ⟨t, ht, hNone⟩
        obtain ⟨r, hAll⟩ := Option.isSome_iff_exists.mp hSome
        exact Or.inr (Or.inl ⟨_, _, r, w', rfl, .perform (by simp [Op.perform, hAll])⟩)
    · exact Or.inl ⟨r, hDone⟩
  returns own r w' hCalls := by
    have hAccounts := hCalls.accounts
      (only_allSucceed (fun _ => rfl) (fun _ => rfl) jobs) (World.accounts_length w) hConducts
    rcases hCalls.allSucceed_cases with
      ⟨_, _, _, _, hIs, -⟩ | ⟨_, hIs, -⟩ | ⟨ts, r', w₁, hIs, rfl, hMembers, hWaits, hAnswer, hLeads⟩
    · cases hIs
    · cases hIs
    obtain rfl := Load.done.inj hIs
    obtain ⟨past, hRun⟩ := id hLeads
    refine ⟨ts, ?_, hMembers.leads hLeads, fun _ => ⟨w₁, hWaits, hAnswer, hLeads⟩, ?_, ?_, ?_, ?_⟩
    · simpa [Op.isStarting] using History.filter_spawns
    · intro _ w'' hLater
      exact hWaits.trans (.of_leads _ (hLeads.trans hLater))
    · rintro asks w'' ⟨more, hMore⟩
      exact World.ok_iff_of_allOk hAnswer fun t x hOutcome => hMore.outcome? (hRun.outcome? hOutcome)
    · rintro e rfl
      obtain ⟨t, ht, hFailed⟩ := List.mem_map.mp (Join.all_eq_error hAnswer.allOk.1)
      obtain ⟨job, hJob, hWork⟩ := (hMembers.leads hLeads).exists_job ht
      have hFailed' : w'.outcome? t = some (.error e) := hRun.outcome? hFailed
      obtain ⟨work, hTask⟩ := World.outcome?_eq_some_iff.mp hFailed'
      obtain rfl : work = ⟨l, job⟩ := Option.some.inj ((World.workOf?_of_task hTask).symm.trans hWork)
      obtain ⟨hist, hCame, hShown⟩ := hAccounts.1 t _ _ (hMembers.new t ht) hTask
      exact ⟨t, ht, job, hJob, hWork, hFailed', hist, Job.fails_of_came hCame, hShown⟩
    · exact fun asks w'' hLater => hAccounts.1.leads hAccounts.2 hLater

/-- The program that does nothing starts a task for each of no jobs. -/
theorem Load.fansOut_pure (h : Host) (l : Loader) (hConducts : w.Conducts) :
    Load.FansOut h l [] (pure ()) w where
  goesOn own q w' hCalls := by
    obtain ⟨-, hIs, -⟩ := hCalls.of_done
    exact Or.inl ⟨_, hIs⟩
  returns own r w' hCalls := by
    have hAccounts := hCalls.accounts (.done _) (World.accounts_length w) hConducts
    obtain ⟨rfl, hIs, -⟩ := hCalls.of_done
    obtain rfl := Load.done.inj hIs
    have hMembers : w.Members l [] [] w' :=
      ⟨List.nodup_nil, fun t ht => absurd ht List.not_mem_nil, rfl⟩
    refine ⟨[], rfl, hMembers, fun hSome => absurd rfl hSome, fun hSome => absurd rfl hSome, ?_, ?_,
      fun asks w'' hLater => hAccounts.1.leads hAccounts.2 hLater⟩
    · intro asks w'' hLater
      exact ⟨fun _ t ht => absurd ht List.not_mem_nil, fun _ => rfl⟩
    · intro e hIs
      cases hIs

/-- **Fan-outs lose no sibling.** Whatever the world and the order of things, to load the dependencies
    of a source, or tools, starts one load for each of them; it succeeds if and only if all of them
    do, fails as one of them fails, and what it comes to takes nothing from what the others do. -/
theorem Load.fansOut (h : Host) (l : Loader) (hConducts : w.Conducts) :
    (∀ source dir, (Source.specifiers source).Nodup ∧
      Load.FansOut h l ((Source.specifiers source).map fun s => .member s dir)
        (preload l source dir) w) ∧
    ∀ ds, Load.FansOut h l (ds.map .tool) (loadTools l ds) w := by
  refine ⟨fun source dir => ⟨Distinct.nodup_firsts _, ?_⟩, fun ds => ?_⟩
  · unfold preload
    split
    · next hNone =>
      rw [hNone]
      exact fansOut_pure h l hConducts
    · exact fansOut_allSucceed h l _ hConducts
  · exact fansOut_allSucceed h l _ hConducts

end FanOut

namespace Replay

/-- A tool that publishes nothing, and one that does what it should. -/
def tools : List Descriptor :=
  [{ name := "Sass", url := some "https://e.test/sass.js" },
    { name := "lodash", url := some "https://e.test/lodash.js", global := some "_" }]

def toolHost : Host := Site.host {
  scripts := [("https://e.test/sass.js", []), ("https://e.test/lodash.js", [("_", .string "fn")])] }

/-- The first tool has been loaded, the second one not yet. -/
def halfway : Load (Except Failure Unit) × World :=
  Load.goFar toolHost (.ofFiles []) 6 ((loadTools loader tools).run, {})

end Replay

open Replay in
/-- The first tool has failed, and the call has ended with that, while the second tool was on its
    way. -/
theorem Load.fansOut_tools : World.Conducts {} ∧ ∃ own e w ts,
    Calls toolHost (loadTools loader tools).run {} own (.done (.error e)) w ∧
    w.outcome? 1 = none ∧
    Load.LosesNone toolHost loader (tools.map .tool) (loadTools loader tools) {} own (.error e) w ts := by
  have hConducts : World.Conducts {} := World.idle_empty.conducts
  have hFailed : (halfway.1.result?.any (!·.isOk)) = true := by decide +kernel
  have hOpen : (halfway.2.outcome? 1).isNone = true := by decide +kernel
  obtain ⟨r, hDone, hNot⟩ := (Option.any_eq_true ..).mp hFailed
  obtain ⟨own, hCalls⟩ := Load.calls_of_goesOn (Load.path_goFar (h := toolHost)
    (S := .ofFiles []) 6 ((loadTools loader tools).run, {}))
  have hCalls : Calls toolHost (loadTools loader tools).run {} own (.done r) halfway.2 := by
    rw [← Load.result?_eq_some_iff.mp hDone]
    exact hCalls
  cases r with
  | ok => cases hNot
  | error e =>
    obtain ⟨ts, hNone⟩ := ((fansOut toolHost loader hConducts).2 tools).returns _ _ _ hCalls
    exact ⟨hConducts, own, e, halfway.2, ts, hCalls, Option.isNone_iff_eq_none.mp hOpen, hNone⟩

end Bundleless
