import Bundleless.Proofs.FanOut
import Bundleless.Proofs.Timeline

/-! # First failures

    A fan-out should fail when the first of its members does
    (`Instant.Reports`). As long as there are no more than `Join.watched` of
    them it does, whatever the others do. Of more members each is looked at
    only when those before it have succeeded: a failure is seen at once if and
    only if nothing stands before it that is still under way, and if that
    never ends the failure is never seen.
-/

namespace Bundleless

open Load (Calls op spawnAll allSucceed loadTools preload)

variable {h : Host} {w w' : World} {ts : List TaskId}

/-! ## Section 1: When there is an answer for whoever waits -/

namespace World

/-- All of the tasks have succeeded. -/
def AllOk (w : World) (ts : List TaskId) : Prop := ∀ t ∈ ts, ∃ x, w.outcome? t = some (.ok x)

/-- One of the tasks has failed. -/
def SomeFailed (w : World) (ts : List TaskId) : Prop := ∃ t ∈ ts, ∃ e, w.outcome? t = some (.error e)

/-- One of the tasks has failed, and all that stand before it have succeeded. -/
def FailedInOrder (w : World) (ts : List TaskId) : Prop := ∃ before t after e,
  ts = before ++ t :: after ∧ w.outcome? t = some (.error e) ∧ w.AllOk before

/-- Whoever waits for the tasks has an answer. -/
def Decides (w : World) (ts : List TaskId) : Prop :=
  w.AllOk ts ∨ w.FailedInOrder ts ∨ ts.length ≤ Join.watched ∧ w.SomeFailed ts

theorem FailedInOrder.someFailed (hFailed : w.FailedInOrder ts) : w.SomeFailed ts := by
  obtain ⟨before, t, after, e, rfl, hFailed, -⟩ := hFailed
  exact ⟨t, by simp, e, hFailed⟩

theorem not_allOk (hFailed : w.SomeFailed ts) : ¬w.AllOk ts := by
  obtain ⟨t, ht, e, hFailed⟩ := hFailed
  intro hAll
  obtain ⟨x, hOk⟩ := hAll t ht
  cases hFailed.symm.trans hOk

theorem Decides.mono (hDecides : w.Decides ts)
    (hStands : ∀ t x, w.outcome? t = some x → w'.outcome? t = some x) : w'.Decides ts := by
  have hAllOk : ∀ {ts}, w.AllOk ts → w'.AllOk ts := fun hAll t ht => by
    obtain ⟨x, hOk⟩ := hAll t ht
    exact ⟨x, hStands t _ hOk⟩
  rcases hDecides with hAll | ⟨before, t, after, e, hIs, hFailed, hBefore⟩ | ⟨hFew, t, ht, e, hFailed⟩
  · exact Or.inl (hAllOk hAll)
  · exact Or.inr (Or.inl ⟨before, t, after, e, hIs, hStands t _ hFailed, hAllOk hBefore⟩)
  · exact Or.inr (Or.inr ⟨hFew, t, ht, e, hStands t _ hFailed⟩)

theorem failedInOrder_cons_iff {t : TaskId} : w.FailedInOrder (t :: ts) ↔
    (∃ e, w.outcome? t = some (.error e)) ∨
      (∃ x, w.outcome? t = some (.ok x)) ∧ w.FailedInOrder ts := by
  constructor
  · rintro ⟨before, k, after, e, hIs, hFailed, hBefore⟩
    cases before with
    | nil =>
      obtain ⟨rfl, rfl⟩ := List.cons.inj hIs
      exact Or.inl ⟨e, hFailed⟩
    | cons k' before =>
      obtain ⟨rfl, rfl⟩ := List.cons.inj hIs
      obtain ⟨hHead, hTail⟩ := List.forall_mem_cons.mp hBefore
      exact Or.inr ⟨hHead, before, k, after, e, rfl, hFailed, hTail⟩
  · rintro (⟨e, hFailed⟩ | ⟨hOk, before, k, after, e, rfl, hFailed, hBefore⟩)
    · exact ⟨[], t, ts, e, rfl, hFailed, fun _ hMem => by cases hMem⟩
    · exact ⟨t :: before, k, after, e, rfl, hFailed, List.forall_mem_cons.mpr ⟨hOk, hBefore⟩⟩

/-- In their order the tasks are looked at up to the first one that has not succeeded. -/
theorem isSome_ordered_iff : (Join.ordered (ts.map w.outcome?)).isSome = true ↔
    w.AllOk ts ∨ w.FailedInOrder ts := by
  induction ts with
  | nil => simp [Join.ordered, AllOk]
  | cons t ts ih =>
    have hAll : w.AllOk (t :: ts) ↔ (∃ x, w.outcome? t = some (.ok x)) ∧ w.AllOk ts :=
      List.forall_mem_cons
    rw [List.map_cons, failedInOrder_cons_iff, hAll]
    cases hOutcome : w.outcome? t with
    | none => simp [Join.ordered]
    | some r =>
      cases r with
      | error e => simp [Join.ordered]
      | ok x => simpa [Join.ordered] using ih

/-- All at once, a failure is seen wherever it is. -/
theorem isSome_eager_iff : (Join.eager (ts.map w.outcome?)).isSome = true ↔
    w.AllOk ts ∨ w.SomeFailed ts := by
  constructor
  · intro hSome
    obtain ⟨r, hEager⟩ := Option.isSome_iff_exists.mp hSome
    cases r with
    | ok => exact Or.inl fun t ht => Join.eager_eq_ok hEager _ (List.mem_map_of_mem ht)
    | error e =>
      obtain ⟨t, ht, hFailed⟩ := List.mem_map.mp (Join.eager_eq_error hEager)
      exact Or.inr ⟨t, ht, e, hFailed⟩
  · rintro (hAll | ⟨t, ht, e, hFailed⟩)
    · refine Join.isSome_eager fun o ho => ?_
      obtain ⟨t, ht, rfl⟩ := List.mem_map.mp ho
      obtain ⟨x, hOk⟩ := hAll t ht
      rw [hOk]
      rfl
    · unfold Join.eager
      split
      · rfl
      · next hNone =>
        have hNot := List.findSome?_eq_none_iff.mp hNone _ (List.mem_map_of_mem ht)
        simp [hFailed] at hNot

theorem isSome_all_iff : (Join.all (ts.map w.outcome?)).isSome = true ↔ w.Decides ts := by
  unfold Join.all Decides
  rw [List.length_map]
  split
  · next hFew =>
    rw [isSome_eager_iff]
    constructor
    · exact fun hEither => hEither.imp_right fun hFailed => Or.inr ⟨hFew, hFailed⟩
    · exact fun hEither => hEither.imp_right fun hFailed => hFailed.elim (·.someFailed) (·.2)
  · next hMany => simp [isSome_ordered_iff, hMany]

end World

/-! ## Section 2: Members of a call -/

/-- The task that was started, by an operation that starts one. -/
def Answered.started? : Answered → Option TaskId
  | ⟨.spawn _, t⟩ => some t
  | _ => none

/-- The tasks that were started, in their order. -/
def History.started (own : History) : List TaskId := (own.filterMap Answered.started?).reverse

section Members

variable {l : Loader} {jobs : List Job} {own : History}

theorem History.started_spawns (hLength : ts.length = jobs.length) :
    (History.spawns l jobs ts).started = ts := by
  unfold started spawns
  rw [List.filterMap_reverse, List.reverse_reverse, List.filterMap_map]
  -- Every one of them starts the task beside it.
  show (jobs.zip ts).filterMap (some ∘ Prod.snd) = ts
  rw [List.filterMap_eq_map, List.map_snd_zip (Nat.le_of_eq hLength)]

theorem World.Members.length_eq (hMembers : w.Members l jobs ts w') : ts.length = jobs.length := by
  simpa using congrArg List.length hMembers.works

/-- Before it is done, a fan-out is about to start a task, or it waits for all of them. -/
theorem Load.Calls.allSucceed_open {o : Op} {next : o.Reply → Load (Except Failure Unit)}
    (hCalls : Calls h (allSucceed l jobs).run w own (.ask o next) w') : (∃ work, o = .spawn work) ∨
      ∃ ts, Load.ask o next = op (.allOk ts) ∧ own = History.spawns l jobs ts ∧
        w.Members l jobs ts w' := by
  rcases hCalls.bind_cases with ⟨p, hIs, hSpawns⟩ | ⟨ts, before, after, w₁, rfl, hSpawns, hJoin⟩
  · cases p with
    | done ts =>
      obtain ⟨hOwn, hMembers⟩ := hSpawns.members
      exact Or.inr ⟨ts, hIs, hOwn, hMembers⟩
    | ask o' next' =>
      have hOnly : (spawnAll l jobs).Only fun o => ∃ work, o = .spawn work :=
        Load.only_spawnAll (fun job => ⟨_, rfl⟩) jobs
      obtain - | ⟨hSpawn, -⟩ := hOnly.came hSpawns.came
      obtain ⟨rfl, -⟩ := Load.ask.inj hIs
      exact Or.inl hSpawn
  · obtain ⟨rfl, hMembers⟩ := hSpawns.members
    rcases hJoin.ask_cases with ⟨rfl, hIs, hLeads⟩ | ⟨w₂, r, w₃, rest, -, -, hRest, -⟩
    · exact Or.inr ⟨ts, hIs, rfl, hMembers.leads hLeads⟩
    · obtain ⟨-, hDone, -⟩ := hRest.of_done
      cases hDone

end Members

/-! ## Section 3: Fan-outs on a clock -/

namespace Instant

/-- The members of the call, as far as they have been started. -/
def members {α : Type} (m : Instant α) : List TaskId := m.own.started

/-- The end of the instant at which a member of the call has failed, and none had before. -/
structure IsFirstFailure (h : Host) (past : List (Instant (Except Failure Unit)))
    (m : Instant (Except Failure Unit)) : Prop where
  rests : m.Rests h
  failed : m.world.SomeFailed m.members
  first : ∀ m' ∈ past, m'.world.SomeFailed m.members → m'.time = m.time

/-- The call has ended at this instant, with the failure of a member that has failed at this
    instant. -/
structure Reports (past : List (Instant (Except Failure Unit)))
    (m : Instant (Except Failure Unit)) : Prop where
  failure : ∃ e, m.program = .done (.error e) ∧ ∃ t ∈ m.members,
    m.world.outcome? t = some (.error e) ∧
      ∀ m' ∈ past, (m'.world.outcome? t).isSome = true → m'.time = m.time
  notBefore : ∀ m' ∈ past, m'.program.result?.isSome = true → m'.time = m.time

end Instant

/-- What there is to know of the time at which a fan-out with so many members ends, on every
    timeline. -/
structure Load.EndsInTime (h : Host) (p : Attempt Unit) (count : Nat) (w : World) : Prop where
  /-- It need not wait for anybody else as soon as there is an answer. -/
  ready : ∀ time past m, Timeline h ⟨time, p.run, [], w⟩ past m → m.world.Decides m.members →
    m.program.result?.isSome = true ∨ m.program.canMove h m.world = true
  /-- And so at the end of an instant it has ended if there is an answer, and only then. -/
  ended_iff : ∀ time past m, Timeline h ⟨time, p.run, [], w⟩ past m → m.Rests h →
    (m.program.result?.isSome = true ↔ m.world.Decides m.members)
  /-- The first failure is reported at once if all are watched, or nothing stands before it. -/
  reports_iff : ∀ time past m, Timeline h ⟨time, p.run, [], w⟩ past m → m.IsFirstFailure h past →
    (m.Reports past ↔ count ≤ Join.watched ∨ m.world.FailedInOrder m.members)

section Timelines

variable {l : Loader} {jobs : List Job} {time : Nat} {past : List (Instant (Except Failure Unit))}
  {m : Instant (Except Failure Unit)}

/-- While a fan-out is not done it can go on, or it waits for its members. -/
theorem Timeline.members_of_open
    (hTimeline : Timeline h ⟨time, (allSucceed l jobs).run, [], w⟩ past m)
    (hOpen : m.program.result? = none) : m.program.canMove h m.world = true ∨
      m.program = op (.allOk m.members) ∧ w.Members l jobs m.members m.world := by
  obtain ⟨hist, hOwn, hCalls⟩ := hTimeline.calls
  rw [List.append_nil] at hOwn
  cases hProgram : m.program with
  | done r =>
    rw [hProgram] at hOpen
    cases hOpen
  | ask o next =>
    rw [hProgram] at hCalls
    rcases hCalls.allSucceed_open with ⟨work, rfl⟩ | ⟨ts, hIs, rfl, hMembers⟩
    · exact Or.inl rfl
    · have hStarted : m.members = ts := by
        rw [Instant.members, hOwn, History.started_spawns hMembers.length_eq]
      exact Or.inr ⟨hStarted ▸ hIs, hStarted ▸ hMembers⟩

/-- When it is done, it has got its answer at some instant. -/
theorem Timeline.answered {r : Except Failure Unit}
    (hTimeline : Timeline h ⟨time, (allSucceed l jobs).run, [], w⟩ past m)
    (hDone : m.program = .done r) : w.Members l jobs m.members m.world ∧
      ∃ m₁ ∈ past, Join.all (m.members.map m₁.world.outcome?) = some r := by
  have hOpen : (allSucceed l jobs).run.result? = none := by
    cases jobs <;> rfl
  obtain ⟨m₁, hMem, o, next, r', w', -, hAnswer, -, hLast⟩ := hTimeline.exists_answer hOpen hDone
  obtain ⟨hist, hOwn, hCalls⟩ := hTimeline.calls
  rw [List.append_nil] at hOwn
  rcases hCalls.allSucceed_cases with
    ⟨o, next, _, _, hIs, -⟩ | ⟨ts, hIs, -⟩ | ⟨ts, r₁, w₁, hIs, hHist, hMembers, -, -, hLeads⟩
  · cases hIs.symm.trans hDone
  · cases hIs.symm.trans hDone
  obtain rfl := Load.done.inj (hIs.symm.trans hDone)
  -- What it has carried out last is to wait for its members.
  obtain ⟨hAnswered, -⟩ := List.cons.inj (hLast.symm.trans (hOwn.trans hHist))
  cases hAnswered
  have hStarted : m.members = ts := by
    rw [Instant.members, hOwn, hHist]
    exact History.started_spawns hMembers.length_eq
  rw [hStarted]
  exact ⟨hMembers.leads hLeads, m₁, hMem, hAnswer.allOk.1⟩

/-- At the end of an instant all members have been started. -/
theorem Timeline.members_of_rests
    (hTimeline : Timeline h ⟨time, (allSucceed l jobs).run, [], w⟩ past m) (hRests : m.Rests h) :
    w.Members l jobs m.members m.world := by
  cases hResult : m.program.result? with
  | some r => exact (hTimeline.answered (Load.result?_eq_some_iff.mp hResult)).1
  | none =>
    rcases hTimeline.members_of_open hResult with hMoves | ⟨-, hMembers⟩
    · cases hMoves.symm.trans hRests.1
    · exact hMembers

/-- It fails as one of its members has failed. -/
theorem Timeline.failed_of_done {e : Failure}
    (hTimeline : Timeline h ⟨time, (allSucceed l jobs).run, [], w⟩ past m)
    (hDone : m.program = .done (.error e)) :
    ∃ t ∈ m.members, m.world.outcome? t = some (.error e) := by
  obtain ⟨-, m₁, hMem, hAll⟩ := hTimeline.answered hDone
  obtain ⟨t, ht, hFailed⟩ := List.mem_map.mp (Join.all_eq_error hAll)
  exact ⟨t, ht, hTimeline.stands hMem hFailed⟩

/-- As soon as there is an answer the fan-out can go on, if it is not done. -/
theorem Timeline.ready (hTimeline : Timeline h ⟨time, (allSucceed l jobs).run, [], w⟩ past m)
    (hDecides : m.world.Decides m.members) :
    m.program.result?.isSome = true ∨ m.program.canMove h m.world = true := by
  cases hResult : m.program.result? with
  | some r => exact Or.inl rfl
  | none =>
    right
    rcases hTimeline.members_of_open hResult with hMoves | ⟨hWaits, -⟩
    · exact hMoves
    · rw [hWaits]
      simpa [op, Load.canMove, Op.perform] using World.isSome_all_iff.mpr hDecides

theorem Timeline.decides_of_done {r : Except Failure Unit}
    (hTimeline : Timeline h ⟨time, (allSucceed l jobs).run, [], w⟩ past m)
    (hDone : m.program = .done r) : m.world.Decides m.members := by
  obtain ⟨-, m₁, hMem, hAll⟩ := hTimeline.answered hDone
  have hThen : m₁.world.Decides m.members := World.isSome_all_iff.mp (Option.isSome_of_eq_some hAll)
  exact hThen.mono fun _ _ => hTimeline.stands hMem

/-- A fan-out that is done where a member has failed first reports that. -/
theorem Timeline.reports {r : Except Failure Unit}
    (hTimeline : Timeline h ⟨time, (allSucceed l jobs).run, [], w⟩ past m)
    (hFirst : m.IsFirstFailure h past) (hDone : m.program = .done r) : m.Reports past := by
  cases r with
  | ok =>
    obtain ⟨-, m₁, hMem, hAll⟩ := hTimeline.answered hDone
    refine absurd (fun t ht => ?_) (World.not_allOk hFirst.failed)
    obtain ⟨x, hOk⟩ := Join.all_eq_ok hAll _ (List.mem_map_of_mem ht)
    exact ⟨x, hTimeline.stands hMem hOk⟩
  | error e =>
    obtain ⟨t, ht, hFailed⟩ := hTimeline.failed_of_done hDone
    refine ⟨⟨e, hDone, t, ht, hFailed, fun m' hMem hSome => ?_⟩, fun m' hMem hSome => ?_⟩
    · obtain ⟨x, hOutcome⟩ := Option.isSome_iff_exists.mp hSome
      obtain rfl := Option.some.inj ((hTimeline.stands hMem hOutcome).symm.trans hFailed)
      exact hFirst.first m' hMem ⟨t, ht, e, hOutcome⟩
    · -- It had failed there, so one of its members had.
      obtain ⟨r', hResult'⟩ := Option.isSome_iff_exists.mp hSome
      have hDone' := Load.result?_eq_some_iff.mp hResult'
      obtain ⟨_, _, hBefore, hAfter⟩ := hTimeline.cut hMem
      obtain ⟨hSame, hOwn⟩ := hAfter.of_done hDone'
      have hMembers : m.members = m'.members := congrArg History.started hOwn
      obtain rfl := Load.done.inj (hSame.symm.trans hDone)
      obtain ⟨k, hk, hFailed'⟩ := hBefore.failed_of_done hDone'
      exact hFirst.first m' hMem ⟨k, hMembers ▸ hk, e, hFailed'⟩

/-- **To start tasks and to wait for all of them ends as soon as there is an answer.** -/
theorem Load.endsInTime_allSucceed (h : Host) (l : Loader) (jobs : List Job) (w : World) :
    EndsInTime h (allSucceed l jobs) jobs.length w := by
  have hEndedIff : ∀ time past m, Timeline h ⟨time, (allSucceed l jobs).run, [], w⟩ past m →
      m.Rests h → (m.program.result?.isSome = true ↔ m.world.Decides m.members) := by
    intro time past m hTimeline hRests
    constructor
    · intro hResult
      obtain ⟨r, hResult⟩ := Option.isSome_iff_exists.mp hResult
      exact hTimeline.decides_of_done (Load.result?_eq_some_iff.mp hResult)
    · intro hDecides
      rcases hTimeline.ready hDecides with hResult | hMoves
      · exact hResult
      · cases hMoves.symm.trans hRests.1
  refine ⟨fun time past m => Timeline.ready, hEndedIff, fun time past m hTimeline hFirst => ?_⟩
  have hLength : m.members.length = jobs.length :=
    (hTimeline.members_of_rests hFirst.rests).length_eq
  rw [← hLength]
  constructor
  · rintro ⟨⟨e, hDone, -⟩, -⟩
    rcases hTimeline.decides_of_done hDone with hAll | hInOrder | ⟨hFew, -⟩
    · exact absurd hAll (World.not_allOk hFirst.failed)
    · exact Or.inr hInOrder
    · exact Or.inl hFew
  · intro hSeen
    have hDecides : m.world.Decides m.members := by
      rcases hSeen with hFew | hInOrder
      · exact Or.inr (Or.inr ⟨hFew, hFirst.failed⟩)
      · exact Or.inr (Or.inl hInOrder)
    obtain ⟨r, hResult⟩ :=
      Option.isSome_iff_exists.mp ((hEndedIff time past m hTimeline hFirst.rests).mpr hDecides)
    exact hTimeline.reports hFirst (Load.result?_eq_some_iff.mp hResult)

/-- A call that is done from the beginning has no members. -/
theorem Load.endsInTime_pure (h : Host) (w : World) : EndsInTime h (pure ()) 0 w := by
  have hStays : ∀ {time past m}, Timeline h ⟨time, (pure () : Attempt Unit).run, [], w⟩ past m →
      m.program = .done (.ok ()) ∧ m.members = [] := fun hTimeline =>
    (hTimeline.of_done rfl).imp_right (congrArg History.started)
  have hDone : ∀ {time past m}, Timeline h ⟨time, (pure () : Attempt Unit).run, [], w⟩ past m →
      m.program.result?.isSome = true := fun hTimeline =>
    Option.isSome_of_eq_some (Load.result?_eq_some_iff.mpr (hStays hTimeline).1)
  refine ⟨fun time past m hTimeline _ => Or.inl (hDone hTimeline), fun time past m hTimeline _ => ?_,
    fun time past m hTimeline hFirst => ?_⟩
  · refine iff_of_true (hDone hTimeline) (Or.inl ?_)
    rw [(hStays hTimeline).2]
    exact fun t ht => absurd ht List.not_mem_nil
  · obtain ⟨t, ht, -⟩ := hFirst.failed
    rw [(hStays hTimeline).2] at ht
    exact absurd ht List.not_mem_nil

/-- **When fan-outs end.** Whatever the world and the order of things in time, to load the dependencies
    of a source, or tools, ends at the instant at which there is an answer; and the first failure is
    reported when it happens if and only if there are no more members than are watched at once, or
    all that stand before a failed one have succeeded. -/
theorem Load.endsInTime (h : Host) (l : Loader) (w : World) :
    (∀ source dir, EndsInTime h (preload l source dir) (Source.specifiers source).length w) ∧
    ∀ ds, EndsInTime h (loadTools l ds) ds.length w := by
  refine ⟨fun source dir => ?_, fun ds => ?_⟩
  · unfold preload
    split
    · next hNone =>
      rw [hNone]
      exact endsInTime_pure h w
    · simpa using endsInTime_allSucceed h l ((Source.specifiers source).map fun s => .member s dir) w
  · have hAll := endsInTime_allSucceed h l (ds.map .tool) w
    rw [List.length_map] at hAll
    exact hAll

end Timelines

/-! ## Section 4: A failure that is not reported -/

namespace Replay

/-- A tool that is looked for on the network. -/
def slowTool : Descriptor := { name := "slow" }

/-- A tool that fails at once: there is no such script. -/
def brokenTool : Descriptor := { name := "broken", url := some "https://e.test/broken.js" }

/-- The page on which these tools are loaded. -/
def brokenHost : Host := Site.host {}

/-- A slow tool and, after it, so many broken ones. -/
def slowFirst (broken : Nat) : List Descriptor := slowTool :: List.replicate broken brokenTool

/-- The load of these tools, on a network that answers nothing before 10 ms have passed. -/
def begun (broken : Nat) : Caller (Except Failure Unit) :=
  { machine := { network := .scripted [] 10 }, program := (loadTools loader (slowFirst broken)).run }

/-- The load at the end of the instant at which it begins. -/
def atOnce (broken : Nat) : Caller (Except Failure Unit) :=
  ((begun broken).run brokenHost (some 0) 40).2

/-- Nobody can go on any more at that time, and the broken tools have failed. -/
def failsAtOnce (broken : Nat) : Bool :=
  (atOnce broken).machine.clock == 0 && decide (((atOnce broken).instant []).Rests brokenHost) &&
    (atOnce broken).machine.world.tasks.all fun task =>
      task.work.job != .tool brokenTool || task.outcome?.any (!·.isOk)

/-- What evaluation finds at the end of that instant is a first failure. -/
theorem exists_firstFailure (broken : Nat) (hSome : 0 < broken) (hFails : failsAtOnce broken = true) :
    ∃ past m, Timeline brokenHost ⟨0, (loadTools loader (slowFirst broken)).run, [], {}⟩ past m ∧
      m.IsFirstFailure brokenHost past ∧ m.program = (atOnce broken).program := by
  simp only [failsAtOnce, Bool.and_eq_true, beq_iff_eq, decide_eq_true_eq] at hFails
  obtain ⟨⟨hClock, hRests⟩, hFailed⟩ := hFails
  have hOnTime : (begun broken).OnTime :=
    ⟨fun e hMem => absurd hMem List.not_mem_nil, fun time hDue => by cases hDue⟩
  obtain ⟨own, past, hTimeline⟩ := Caller.leads_run (h := brokenHost) hOnTime (some 0) 40 []
  have hMembers : World.Members {} loader ((slowFirst broken).map .tool) _ _ :=
    hTimeline.members_of_rests hRests
  refine ⟨past, _, hTimeline, ⟨hRests, ?_, fun m' hMem _ => ?_⟩, rfl⟩
  · have hJob : some ⟨loader, .tool brokenTool⟩ ∈
        ((slowFirst broken).map Job.tool).map fun job => some (⟨loader, job⟩ : Work) := by
      simp [slowFirst, Nat.ne_of_gt hSome]
    rw [← hMembers.works] at hJob
    obtain ⟨t, ht, hWork⟩ := List.mem_map.mp hJob
    obtain ⟨task, hTask, hIs⟩ := Option.map_eq_some_iff.mp hWork
    have hNot := List.all_eq_true.mp hFailed task (List.mem_of_getElem? hTask)
    rw [hIs, bne_self_eq_false, Bool.false_or] at hNot
    obtain ⟨r, hOutcome, hNotOk⟩ := (Option.any_eq_true ..).mp hNot
    cases r with
    | ok x => cases hNotOk
    | error e => exact ⟨t, ht, e, Option.bind_eq_some_iff.mpr ⟨task, hTask, hOutcome⟩⟩
  · have hLe : m'.time ≤ (atOnce broken).machine.clock := hTimeline.time_le_of_mem hMem
    show m'.time = (atOnce broken).machine.clock
    omega

end Replay

open Replay in
/-- One of two tools has failed, and the call has ended with that, while the other tool was looked
    for. -/
theorem Load.endsInTime_tools : ∃ past m,
    Timeline brokenHost ⟨0, (loadTools loader (slowFirst 1)).run, [], {}⟩ past m ∧
      m.IsFirstFailure brokenHost past ∧ m.Reports past := by
  obtain ⟨past, m, hTimeline, hFirst, -⟩ := exists_firstFailure 1 (by decide)
    (by decide +kernel)
  exact ⟨past, m, hTimeline, hFirst, ((endsInTime brokenHost loader {}).2 (slowFirst 1)).reports_iff
    0 past m hTimeline hFirst |>.mpr (Or.inl (by decide))⟩

open Replay in
/-- Thirty of 31 tools have failed, but the first one is still looked for, and the call goes on. -/
theorem Load.not_reports : ¬∀ h l w ds time past m,
    Timeline h ⟨time, (loadTools l ds).run, [], w⟩ past m → m.IsFirstFailure h past →
      m.Reports past := by
  intro hAll
  obtain ⟨past, m, hTimeline, hFirst, hSame⟩ := exists_firstFailure 30 (by decide)
    (by decide +kernel)
  obtain ⟨⟨e, hDone, -⟩, -⟩ := hAll _ _ _ _ _ past m hTimeline hFirst
  have hOpen : (atOnce 30).result?.isNone = true := by decide +kernel
  rw [Caller.result?, ← hSame, hDone] at hOpen
  cases hOpen

end Bundleless
