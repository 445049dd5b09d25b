import Bundleless.Proofs.Names
import Bundleless.Proofs.Replay
import Bundleless.Proofs.Solo
import Bundleless.Session

/-! # The log only watches

    Whether the log is verbose decides which events are emitted, and nothing
    else. A world can be retold: after another past, and without the events
    that a quiet log leaves out. Every operation goes on in the world retold
    as in the world itself, but for the one that turns the log on or off; so
    do the tasks, the clock and the network, and so does a whole session. Two
    sessions that begin with the log on and off are the same one retold, and
    from the first command on that turns the log they emit the same too.
-/

namespace Bundleless

/-! ## Section 1: Worlds retold -/

/-- An event that is emitted only while the log is verbose. -/
def Happening.isMinor : Happening → Bool
  | .logged e => !e.level.isGrave
  | _ => false

/-- Another way to tell what happens: after another past, and without minor events if the log is
    quiet. -/
structure Retelling where
  quiet : Bool
  past : List Happening

namespace Retelling

variable (ρ : Retelling)

/-- It is told that this has happened. -/
def tells (happening : Happening) : Bool := !(ρ.quiet && happening.isMinor)

/-- What has happened, the latest first, as it is told. -/
def trace (happenings : List Happening) : List Happening := happenings.filter ρ.tells ++ ρ.past

theorem tells_of_not_isMinor {ρ : Retelling} {happening : Happening}
    (hNot : happening.isMinor = false) : ρ.tells happening = true := by
  simp [tells, hNot]

theorem trace_cons_of_tells {ρ : Retelling} {happening : Happening}
    (hTells : ρ.tells happening = true) (happenings : List Happening) :
    ρ.trace (happening :: happenings) = happening :: ρ.trace happenings := by
  simp [trace, hTells]

end Retelling

/-- The operation does not turn the log on or off. -/
def Op.leavesLog : Op → Bool
  | .setVerbose _ => false
  | _ => true

/-- Whether the log is verbose can be retold as long as nobody turns it. -/
def Retelling.Allows (ρ : Retelling) (o : Op) : Prop := ρ.quiet = true → o.leavesLog = true

namespace World

/-- The world retold. -/
def retold (ρ : Retelling) (w : World) : World :=
  { w with
    trace := ρ.trace w.trace
    telemetry := { w.telemetry with verbose := w.telemetry.verbose && !ρ.quiet } }

variable (ρ : Retelling) (w : World)

@[simp] theorem store_retold : (w.retold ρ).store = w.store := rfl

@[simp] theorem tasks_retold : (w.retold ρ).tasks = w.tasks := rfl

@[simp] theorem outcome?_retold : (w.retold ρ).outcome? = w.outcome? := rfl

@[simp] theorem loaded?_retold : (w.retold ρ).loaded? = w.loaded? := rfl

theorem note_retold {ρ : Retelling} {happening : Happening} (hTells : ρ.tells happening = true) :
    (w.retold ρ).note happening = (w.note happening).retold ρ := by
  simp only [retold, note, Retelling.trace_cons_of_tells hTells]

/-- **An event** is emitted in the world retold exactly if it is emitted and told. -/
theorem log_retold (event : String) (detail : Json) (level : Level) :
    (w.retold ρ).log event detail level = (w.log event detail level).retold ρ := by
  unfold log Telemetry.event? Telemetry.admits
  cases hGrave : level.isGrave with
  | true =>
    simp only [Bool.true_or, if_true]
    refine note_retold w (Retelling.tells_of_not_isMinor ?_)
    simp [Happening.isMinor, hGrave]
  | false =>
    cases hVerbose : w.telemetry.verbose with
    | false => simp [retold, hVerbose]
    | true =>
      cases hQuiet : ρ.quiet with
      | false => simp [retold, note, Retelling.trace, Retelling.tells, hVerbose, hQuiet]
      | true =>
        simp [retold, note, Retelling.trace, Retelling.tells, Happening.isMinor, hVerbose, hQuiet,
          hGrave]

end World

variable {h : Host} {ρ : Retelling}

/-- What is handed to the page is always told. -/
theorem HostOp.perform_retold (w : World) (o : HostOp) :
    o.perform h (w.retold ρ) = ((o.perform h w).1, (o.perform h w).2.retold ρ) := by
  have hNote : ∀ happening : Happening, happening.isMinor = false →
      (w.retold ρ).note happening = (w.note happening).retold ρ := fun _ hNot =>
    World.note_retold w (Retelling.tells_of_not_isMinor hNot)
  cases o <;> simp only [perform, World.store_retold]
  case compile path source =>
    cases h.compile path source with
    | ok m => simp only [hNote (.compiled path) rfl]
    | error e => rfl
  case render config app =>
    cases h.render config w.store.registry app with
    | ok _ => simp only [hNote (.rendered config.rootId app) rfl]
    | error e => rfl
  case inject url | importModule url => rw [hNote _ rfl]; rfl
  all_goals rw [hNote _ rfl]

/-- **Every operation does the same in the world retold**, and leaves the same world, retold. -/
theorem Op.perform_retold {o : Op} (hAllows : ρ.Allows o) (w : World) :
    o.perform h (w.retold ρ) = (o.perform h w).map fun (r, w') => (r, w'.retold ρ) := by
  cases o <;> simp only [perform, World.store_retold, World.outcome?_retold, World.loaded?_retold]
  case host o => rw [HostOp.perform_retold]; rfl
  case send method url => rw [World.note_retold w (Retelling.tells_of_not_isMinor rfl)]; rfl
  case log event detail level => rw [World.log_retold]; rfl
  case setVerbose on =>
    -- Only who retells everything is told how the log is turned.
    have hLoud : ρ.quiet = false := by
      cases hQuiet : ρ.quiet with
      | false => rfl
      | true => cases hAllows hQuiet
    simp [World.retold, hLoud]
  case shareResolve loader basePath =>
    split <;> rfl
  case shareExecute loader path source =>
    split
    · rfl
    · split <;> rfl
  case await t => rw [Option.map_map]; rfl
  case allOk ts => rw [Option.map_map]; rfl
  case allDone ts => rw [Option.map_map]; rfl
  all_goals rfl

/-- Who need not wait need not wait in the world retold. -/
theorem Op.isSome_perform_retold (o : Op) (w : World) :
    (o.perform h (w.retold ρ)).isSome = (o.perform h w).isSome := by
  cases o with
  | setVerbose on => rfl
  | _ => rw [Op.perform_retold fun _ => rfl, Option.isSome_map]

/-! ## Section 2: Who leaves the log alone -/

/-- The program does not turn the log on or off. -/
abbrev Load.LeavesLog {α : Type} (p : Load α) : Prop := p.Only (·.leavesLog = true)

/-- The program does not turn the log on or off. -/
abbrev Attempt.LeavesLog {α : Type} (p : Attempt α) : Prop := p.Only (·.leavesLog = true)

theorem Op.leavesLog_of_isRemote {o : Op} (hRemote : o.isRemote = true) : o.leavesLog = true := by
  cases o with
  | setVerbose on => cases hRemote
  | _ => rfl

/-- No piece of work turns the log. -/
theorem Work.leavesLog (work : Work) : work.program.LeavesLog := by
  refine (Work.obeys work).only fun hist o hAllows => ?_
  cases o with
  | setVerbose on => exact hAllows.elim
  | _ => rfl

namespace Load.Only

variable {α : Type} {p : Load α}

theorem leavesLog (hRemote : p.Remote) : p.LeavesLog :=
  hRemote.imp fun _ => Op.leavesLog_of_isRemote

theorem allowed (hLeaves : p.LeavesLog) : p.Only ρ.Allows := hLeaves.imp fun _ hLeaves _ => hLeaves

end Load.Only

/-- What holds of a whole attempt holds of its first part. -/
theorem Attempt.Only.of_bind {α β : Type} {P : Op → Prop} {p : Attempt α} {f : α → Attempt β}
    (hOnly : (p >>= f).Only P) : p.Only P := Load.Only.of_bind hOnly

theorem Attempt.Only.leavesLog {α : Type} {p : Attempt α} (hRemote : p.Remote) : p.LeavesLog :=
  Load.Only.leavesLog hRemote

namespace Load

variable {l : Loader}

theorem leavesLog_op {o : Op} (hLeaves : o.leavesLog = true) : (op o).LeavesLog := only_op hLeaves

/-! ### Loads that are asked for

    Each of them is the first part of the program of a piece of work. -/

theorem leavesLog_requireLoaded (name : String) (dir : Option String) :
    (requireLoaded l name dir).LeavesLog :=
  Only.of_bind (Work.leavesLog ⟨l, .call name dir⟩)

theorem leavesLog_findLocal (specifier dir : String) : (findLocal l specifier dir).LeavesLog :=
  Only.of_bind (Work.leavesLog ⟨l, .load specifier dir⟩)

theorem leavesLog_preload (source : String) (dir : Option String) :
    (preload l source dir).LeavesLog :=
  Only.of_bind (Work.leavesLog ⟨l, .preload source dir⟩)

theorem leavesLog_fetchSource (basePath : String) : (fetchSource l basePath).LeavesLog := by
  have hStage : (findAndExecute l basePath).LeavesLog :=
    Only.of_bind (Only.of_bind (Work.leavesLog ⟨l, .resolve basePath⟩))
  unfold findAndExecute at hStage
  exact Attempt.Only.of_bind hStage

theorem leavesLog_route (name : String) : (route l name).LeavesLog := by
  unfold route
  split
  · exact .done _
  · refine (leavesLog_op rfl).bind fun found => ?_
    cases found with
    | some m => exact .done _
    | none =>
      dsimp only
      split <;> exact .done _

end Load

/-! ## Section 3: Machines retold -/

/-- No task has anything left that turns the log. -/
def World.LeavesLog (w : World) : Prop := ∀ task ∈ w.tasks, task.program.LeavesLog

namespace World.LeavesLog

variable {w w' : World}

theorem of_starts {works : List Work} (hLeaves : w.LeavesLog) (hStarts : w.Starts w' works) :
    w'.LeavesLog := by
  intro task hTask
  rw [hStarts, List.mem_append] at hTask
  rcases hTask with hOld | hNew
  · exact hLeaves task hOld
  · obtain ⟨work, -, rfl⟩ := List.mem_map.mp hNew
    exact work.leavesLog

theorem perform {o : Op} {r : o.Reply} (hLeaves : w.LeavesLog)
    (hPerform : o.perform h w = some (r, w')) : w'.LeavesLog := by
  obtain ⟨works, hStarts⟩ := (Op.Answers.perform hPerform).starts
  exact hLeaves.of_starts hStarts

theorem setProgram (hLeaves : w.LeavesLog) (t : TaskId) {p : Load Outcome} (hNew : p.LeavesLog) :
    (w.setProgram t p).LeavesLog := by
  intro task hTask
  obtain ⟨k, hAt⟩ := List.mem_iff_getElem?.mp hTask
  rw [World.setProgram, List.getElem?_modify] at hAt
  split at hAt
  · obtain ⟨old, -, rfl⟩ := Option.map_eq_some_iff.mp hAt
    exact hNew
  · obtain ⟨old, hOld, rfl⟩ := Option.map_eq_some_iff.mp hAt
    exact hLeaves old (List.mem_of_getElem? hOld)

end World.LeavesLog

namespace Load

variable {α : Type} {P : Op → Prop}

theorem Only.drive {p : Load α} (hOnly : p.Only P) (w : World) : (p.drive h w).1.Only P := by
  induction hOnly generalizing w with
  | done a => exact .done a
  | @ask o next hOp hNext ih =>
    unfold Load.drive
    split
    · next r w₁ _ => exact ih r w₁
    · exact .ask hOp hNext

theorem Only.deliver {p : Load α} (hOnly : p.Only P) (n : Network) : (p.deliver n).1.Only P := by
  unfold Load.deliver
  split
  · obtain - | ⟨-, hNext⟩ := hOnly
    exact hNext _
  · obtain - | ⟨-, hNext⟩ := hOnly
    exact hNext _
  · exact hOnly

theorem leavesLog_drive (p : Load α) {w : World} (hLeaves : w.LeavesLog) :
    (p.drive h w).2.LeavesLog := by
  induction p generalizing w with
  | done a => exact hLeaves
  | ask o next ih =>
    unfold drive
    split
    · next r w₁ hPerform => exact ih r (hLeaves.perform hPerform)
    · exact hLeaves

theorem canMove_retold (p : Load α) (w : World) : p.canMove h (w.retold ρ) = p.canMove h w := by
  cases p with
  | done a => rfl
  | ask o next => exact Op.isSome_perform_retold o w

/-- **A program goes as far in the world retold**, and leaves the same world, retold. -/
theorem drive_retold {p : Load α} (hOnly : p.Only ρ.Allows) (w : World) :
    p.drive h (w.retold ρ) = ((p.drive h w).1, (p.drive h w).2.retold ρ) := by
  induction hOnly generalizing w with
  | done a => rfl
  | @ask o next hOp _ ih =>
    simp only [drive, Op.perform_retold hOp]
    cases o.perform h w with
    | none => rfl
    | some answer => exact ih answer.1 answer.2

end Load

/-- The machine retold. -/
def Machine.retold (ρ : Retelling) (m : Machine) : Machine := { m with world := m.world.retold ρ }

namespace Machine

variable {m : Machine}

@[simp] theorem world_retold (m : Machine) : (m.retold ρ).world = m.world.retold ρ := rfl

theorem movable?_retold (m : Machine) : (m.retold ρ).movable? h = m.movable? h := by
  simp only [movable?, world_retold, World.tasks_retold, Load.canMove_retold]

theorem next?_retold (m : Machine) : (m.retold ρ).next? = m.next? := rfl

theorem drive_retold {p : Load Outcome} (hOnly : p.Only ρ.Allows) (t : TaskId) :
    (m.retold ρ).drive h t p = (m.drive h t p).retold ρ := by
  simp only [drive, world_retold, Load.drive_retold hOnly]
  rfl

theorem leavesLog_drive {p : Load Outcome} (hLeaves : m.world.LeavesLog) (hTurns : p.LeavesLog)
    (t : TaskId) : (m.drive h t p).world.LeavesLog :=
  (Load.leavesLog_drive p hLeaves).setProgram t (hTurns.drive m.world)

theorem leavesLog_of_movable? {t : TaskId} {p : Load Outcome} (hLeaves : m.world.LeavesLog)
    (hMovable : m.movable? h = some (t, p)) : p.LeavesLog := by
  obtain ⟨work, hTask⟩ := exists_task_of_movable? hMovable
  exact hLeaves _ (List.mem_of_getElem? hTask)

theorem deliver_retold (hLeaves : m.world.LeavesLog) (t : TaskId) (time : Nat) :
    (m.retold ρ).deliver h t time = (m.deliver h t time).retold ρ := by
  simp only [deliver, world_retold, World.tasks_retold]
  split
  · rfl
  · next task hTask =>
    have hTurns := (hLeaves task (List.mem_of_getElem? hTask)).deliver m.network
    let m₁ : Machine := { m with
      network := (task.program.deliver m.network).2, clock := time, due := m.due.filter (·.1 != t) }
    exact drive_retold (m := m₁) hTurns.allowed t

theorem leavesLog_deliver (hLeaves : m.world.LeavesLog) (t : TaskId) (time : Nat) :
    (m.deliver h t time).world.LeavesLog := by
  unfold deliver
  dsimp only
  split
  · exact hLeaves
  · next task hTask =>
    exact leavesLog_drive hLeaves ((hLeaves task (List.mem_of_getElem? hTask)).deliver m.network) t

end Machine

/-- The caller and its machine retold. -/
def Caller.retold {α : Type} (ρ : Retelling) (c : Caller α) : Caller α :=
  { c with machine := c.machine.retold ρ }

/-- Neither the tasks nor the caller, as far as it is retold, turn the log. -/
structure Caller.Leaves {α : Type} (ρ : Retelling) (c : Caller α) : Prop where
  tasks : c.machine.world.LeavesLog
  caller : c.program.Only ρ.Allows

namespace Caller

variable {α : Type} {c : Caller α}

theorem drive_retold (hLeaves : c.Leaves ρ) : (c.retold ρ).drive h = (c.drive h).retold ρ := by
  simp only [drive, retold, Machine.world_retold, Load.drive_retold hLeaves.caller]
  rfl

theorem Leaves.drive (hLeaves : c.Leaves ρ) : (c.drive h).Leaves ρ where
  tasks := Load.leavesLog_drive c.program hLeaves.tasks
  caller := hLeaves.caller.drive c.machine.world

/-- The caller with what it waited for. -/
def given (c : Caller α) (time : Nat) : Caller α :=
  { c with
    machine := { c.machine with network := (c.program.deliver c.machine.network).2, clock := time }
    program := (c.program.deliver c.machine.network).1 }

theorem Leaves.given (hLeaves : c.Leaves ρ) (time : Nat) : (c.given time).Leaves ρ :=
  ⟨hLeaves.tasks, hLeaves.caller.deliver c.machine.network⟩

theorem deliver_retold (hLeaves : c.Leaves ρ) (time : Nat) :
    (c.retold ρ).deliver h time = (c.deliver h time).retold ρ :=
  drive_retold (hLeaves.given time)

/-- **The same happens next**, to the caller retold as to the caller itself. -/
theorem step_retold (hLeaves : c.Leaves ρ) (limit : Option Nat) :
    (c.retold ρ).step h limit = ((c.step h limit).1, (c.step h limit).2.retold ρ) ∧
      (c.step h limit).2.Leaves ρ := by
  have hDrive := drive_retold (h := h) hLeaves
  have hDeliver := deliver_retold (h := h) hLeaves
  have hDelivered : ∀ time, (c.deliver h time).Leaves ρ := fun time => (hLeaves.given time).drive
  have hTask := Machine.deliver_retold (h := h) (ρ := ρ) hLeaves.tasks
  have hTasks : ∀ t time, Caller.Leaves ρ { c with machine := c.machine.deliver h t time } :=
    fun t time => ⟨Machine.leavesLog_deliver hLeaves.tasks t time, hLeaves.caller⟩
  unfold step
  simp only [show (c.retold ρ).program = c.program from rfl,
    show (c.retold ρ).machine = c.machine.retold ρ from rfl,
    show (c.retold ρ).due = c.due from rfl, Machine.world_retold, Load.canMove_retold,
    Machine.movable?_retold, Machine.next?_retold, hDrive, hDeliver, hTask]
  split
  · exact ⟨rfl, hLeaves.drive⟩
  split
  · next t p hMovable =>
    have hTurns := Machine.leavesLog_of_movable? hLeaves.tasks hMovable
    rw [Machine.drive_retold hTurns.allowed]
    exact ⟨rfl, Machine.leavesLog_drive hLeaves.tasks hTurns t, hLeaves.caller⟩
  split
  · exact ⟨rfl, hLeaves⟩
  · split
    · exact ⟨rfl, hDelivered _⟩
    · exact ⟨rfl, hLeaves⟩
  · split
    · exact ⟨rfl, hTasks _ _⟩
    · exact ⟨rfl, hLeaves⟩
  -- Both the caller and a task wait for the clock.
  · split
    · split
      · exact ⟨rfl, hDelivered _⟩
      · exact ⟨rfl, hLeaves⟩
    · split
      · exact ⟨rfl, hTasks _ _⟩
      · exact ⟨rfl, hLeaves⟩

theorem run_retold (hLeaves : c.Leaves ρ) (limit : Option Nat) (fuel : Nat) :
    (c.retold ρ).run h limit fuel = ((c.run h limit fuel).1, (c.run h limit fuel).2.retold ρ) ∧
      (c.run h limit fuel).2.Leaves ρ := by
  induction fuel generalizing c with
  | zero => exact ⟨rfl, hLeaves⟩
  | succ fuel ih =>
    obtain ⟨hStep, hNext⟩ := step_retold (h := h) hLeaves limit
    unfold run
    rw [show (c.retold ρ).result? = c.result? from rfl, hStep]
    split
    · exact ⟨rfl, hLeaves⟩
    · cases hIs : c.step h limit with
      | mk progress next =>
        rw [hIs] at hNext
        cases progress with
        | moved => exact ih hNext
        | idle | stuck => exact ⟨rfl, hNext⟩

end Caller

namespace Machine

variable {m : Machine}

/-- **What is left behind runs to the same end**, retold. -/
theorem settle_retold (hLeaves : m.world.LeavesLog) (fuel : Nat) :
    (m.retold ρ).settle h fuel = (m.settle h fuel).retold ρ ∧
      (m.settle h fuel).world.LeavesLog := by
  induction fuel generalizing m with
  | zero => exact ⟨rfl, hLeaves⟩
  | succ fuel ih =>
    let c : Caller Unit := { machine := m, program := .done () }
    obtain ⟨hStep, hNext⟩ := Caller.step_retold (h := h) (ρ := ρ) (c := c) ⟨hLeaves, .done ()⟩ none
    unfold settle
    dsimp only
    rw [show ({ machine := m.retold ρ, program := .done () } : Caller Unit) = c.retold ρ from rfl,
      show ({ machine := m, program := .done () } : Caller Unit) = c from rfl, hStep]
    cases hIs : c.step h none with
    | mk progress next =>
      rw [hIs] at hNext
      cases progress with
      | moved => exact ih hNext.tasks
      | idle | stuck => exact ⟨rfl, hNext.tasks⟩

/-- **Beside the tasks a program comes to the same in the same time**, and leaves the same machine,
    retold. -/
theorem run_retold {α : Type} {p : Load α} (hLeaves : m.world.LeavesLog) (hOnly : p.Only ρ.Allows)
    (limit : Option Nat) :
    (m.retold ρ).run h p limit =
        { m.run h p limit with machine := (m.run h p limit).machine.retold ρ } ∧
      (m.run h p limit).machine.world.LeavesLog := by
  let c : Caller α := { machine := m, program := p }
  have hCaller : c.Leaves ρ := ⟨hLeaves, hOnly⟩
  obtain ⟨hRun, hEnd⟩ :=
    Caller.run_retold (h := h) hCaller.drive (limit.map (m.clock + ·)) patience
  unfold run
  dsimp only
  rw [show (m.retold ρ).clock = m.clock from rfl,
    show ({ machine := m.retold ρ, program := p } : Caller α) = c.retold ρ from rfl,
    show ({ machine := m, program := p } : Caller α) = c from rfl,
    Caller.drive_retold hCaller, hRun]
  cases hIs : (c.drive h).run h (limit.map (m.clock + ·)) patience with
  | mk progress last =>
    rw [hIs] at hEnd
    dsimp only
    rw [show (last.retold ρ).result? = last.result? from rfl]
    split
    · exact ⟨rfl, hEnd.tasks⟩
    · exact ⟨rfl, hEnd.tasks⟩

end Machine

/-! ## Section 4: Sessions -/

/-- The command does not turn the log on or off. -/
def Command.leavesLog : Command → Bool
  | .setVerbose _ => false
  | _ => true

namespace Session

open Load (leavesLog_op)

/-- The session retold. -/
def retold (ρ : Retelling) (s : Session) : Session := { s with machine := s.machine.retold ρ }

variable {s : Session} {c : Command}

theorem leavesLog_answer {α : Type} (f : α → Result) {p : Attempt α} (hLeaves : p.LeavesLog) :
    (answer f p).LeavesLog :=
  Load.Only.bind hLeaves fun _ => .done _

theorem leavesLog_loadTogether (l : Loader) (calls : List (String × Option String)) :
    (loadTogether l calls).LeavesLog :=
  (Load.only_spawnAll (fun _ => rfl) _).bind fun _ => (leavesLog_op rfl).bind fun _ => .done _

theorem leavesLog_registerAlias (existing key : String) : (registerAlias existing key).LeavesLog := by
  refine (leavesLog_op rfl).bind fun found => ?_
  cases found with
  | some m => exact (leavesLog_op rfl).bind fun _ => .done _
  | none => exact .done _

theorem leavesLog_loadUnder (l : Loader) (name : String) (rules : List Rule) :
    (Load.loadUnder l name rules).LeavesLog := by
  unfold Load.loadUnder
  split
  · exact (Load.remote_loadWithRule l name _).leavesLog
  · exact Attempt.only_throw _

theorem leavesLog_importMap (l : Loader) (m : ImportMap) (ds : List Descriptor) :
    (Load.importMap l m ds).LeavesLog := by
  induction ds generalizing m with
  | nil => exact Attempt.only_pure _
  | cons d ds ih =>
    exact (Load.searches_resolve l d).nameless.remote.leavesLog.bind fun url => ih _

/-- **Only the command that turns the log turns it.** -/
theorem leavesLog_program (s : Session) (hLeaves : c.leavesLog = true) :
    (s.program c).LeavesLog := by
  cases c with
  | setVerbose on => cases hLeaves
  | register key value =>
    refine Load.Only.bind ?_ fun _ => .done _
    exact (leavesLog_op rfl).bind fun _ => (leavesLog_op rfl).bind fun _ => .done _
  | registerAlias existing key => exact (leavesLog_registerAlias existing key).bind fun _ => .done _
  | require name =>
    refine leavesLog_answer _ ((Attempt.only_lift (leavesLog_op rfl)).bind fun found => ?_)
    cases found with
    | some m => exact Attempt.only_pure _
    | none => exact Attempt.only_throw _
  | classify name => exact (Load.leavesLog_route name).bind fun _ => .done _
  | requireAsync name dir | abandon name dir ms =>
    exact leavesLog_answer _
      ((Load.leavesLog_requireLoaded name dir).bind fun _ => Attempt.only_pure _)
  | preload source dir => exact leavesLog_answer _ (Load.leavesLog_preload source dir)
  | preloadDynamic source =>
    refine Load.Only.bind (Load.only_preloadDynamic (fun _ => rfl) (fun _ => rfl) ?_ source)
      fun _ => .done _
    exact fun o hSearch =>
      Op.leavesLog_of_isRemote (Op.isRemote_of_isLoading (Op.isLoading_of_isSearch hSearch))
  | load specifier dir =>
    exact leavesLog_answer _
      ((Load.leavesLog_findLocal specifier dir).bind fun _ => Attempt.only_pure _)
  | parallel calls => exact (leavesLog_loadTogether _ calls).bind fun _ => .done _
  | fetchSource basePath => exact leavesLog_answer _ (Load.leavesLog_fetchSource basePath)
  | loadTools =>
    exact leavesLog_answer _ (Load.only_allSucceed (fun _ => rfl) (fun _ => rfl) _)
  | loadModules => exact leavesLog_answer _ (Load.remote_loadLibraries _ _).leavesLog
  | loadDynamic name => exact leavesLog_answer _ (leavesLog_loadUnder _ name _)
  | loadWithRule r name => exact leavesLog_answer _ (Load.remote_loadWithRule _ name r).leavesLog
  | resolve d => exact leavesLog_answer _ (Load.searches_resolve _ d).nameless.remote.leavesLog
  | resolveIcon r name icon =>
    exact leavesLog_answer _ (Load.searches_resolveIcon _ r name icon).nameless.remote.leavesLog
  | probe url options =>
    exact (Load.searches_probeFrom _ url _ _).nameless.remote.leavesLog.bind fun _ => .done _
  | isReachable url =>
    exact (Load.searches_probeFrom _ url _ _).nameless.remote.leavesLog.bind fun _ => .done _
  | importMap => exact leavesLog_answer _ (leavesLog_importMap _ _ _)
  | script url => exact leavesLog_answer _ (Load.nameless_runScript url).remote.leavesLog
  | importExports url => exact leavesLog_answer _ (Load.nameless_importExports url).remote.leavesLog
  | setGlobal name value => exact (leavesLog_op rfl).bind fun _ => .done _
  | _ => exact .done _

/-- The report, as it is told. -/
def told (ρ : Retelling) (r : Report) : Report :=
  { r with happenings := r.happenings.filter ρ.tells }

theorem since_retold {w : World} (hStart : s.world.trace = []) :
    since (s.retold ρ).world.trace.length (w.retold ρ) =
      (since s.world.trace.length w).filter ρ.tells := by
  have hPast : (s.retold ρ).world.trace = ρ.past := by
    show s.world.trace.filter ρ.tells ++ ρ.past = ρ.past
    rw [hStart]
    rfl
  unfold since
  rw [hPast, hStart, List.length_nil, Nat.sub_zero, List.take_length, List.filter_reverse]
  simp [World.retold, Retelling.trace]

theorem inspect?_retold (hLog : ρ.quiet = true → c ≠ .describe .telemetry) :
    (s.retold ρ).inspect? c = s.inspect? c := by
  cases c with
  | describe part =>
    cases part with
    | telemetry =>
      have hLoud : ρ.quiet = false := Bool.eq_false_iff.mpr fun hQuiet => hLog hQuiet rfl
      have hSame : (s.retold ρ).world.telemetry = s.world.telemetry := by
        simp [retold, world, Machine.retold, World.retold, hLoud]
      show some (Result.text (s.retold ρ).world.telemetry.describe) = _
      rw [hSame]
      rfl
    | registry | require => rfl
  | _ => rfl

/-- **A command comes to the same in the session retold**, in the same time. It has to leave the log
    alone where that is retold. -/
theorem perform_retold (hStart : s.world.trace = []) (hLeaves : s.world.LeavesLog)
    (hTurns : ρ.quiet = true → c.leavesLog = true)
    (hLog : ρ.quiet = true → c ≠ .describe .telemetry) :
    (s.retold ρ).perform c = (told ρ (s.perform c).1, (s.perform c).2.retold ρ) ∧
      (s.perform c).2.world.LeavesLog := by
  have hOnly : (s.program c).Only ρ.Allows := by
    cases hQuiet : ρ.quiet with
    | true => exact (leavesLog_program s (hTurns hQuiet)).allowed
    | false => exact Load.only_of_forall (fun o hIs => by cases hQuiet.symm.trans hIs) _
  obtain ⟨hRun, hAfter⟩ := Machine.run_retold (h := s.host) hLeaves hOnly (limit? c)
  obtain ⟨hSettle, hEnd⟩ :=
    Machine.settle_retold (h := s.host) (ρ := ρ) hAfter Machine.patience
  unfold perform
  rw [inspect?_retold hLog]
  cases s.inspect? c with
  | some r => exact ⟨rfl, hLeaves⟩
  | none =>
    dsimp only
    rw [show (s.retold ρ).machine = s.machine.retold ρ from rfl,
      show (s.retold ρ).host = s.host from rfl, show (s.retold ρ).program c = s.program c from rfl,
      hRun]
    simp only [hSettle, Machine.world_retold, World.store_retold, since_retold hStart]
    exact ⟨rfl, hEnd⟩

/-- The session with its log turned on or off. -/
def turned (on : Bool) (s : Session) : Session :=
  let w := s.machine.world
  { s with machine := { s.machine with
    world := { w with telemetry := { w.telemetry with verbose := on } } } }

/-- A log that is turned first has been turned when the command that turns it is over. -/
theorem perform_turned (s : Session) (on : Bool) :
    (s.turned on).perform (.setVerbose on) = s.perform (.setVerbose on) := rfl

/-- Once the log is turned, it does not matter how it was retold. -/
theorem turned_retold (hStart : s.world.trace = []) (ρ : Retelling) (on : Bool) :
    (s.retold ρ).turned on = (s.turned on).retold ⟨false, ρ.past⟩ := by
  have hTrace : s.machine.world.trace = [] := hStart
  simp [turned, retold, Machine.retold, World.retold, Retelling.trace, hTrace]

/-- The session with nothing behind it. -/
def cleared (s : Session) : Session :=
  { s with machine := { s.machine with world := { s.machine.world with trace := [] } } }

/-! ### Two sessions -/

/-- Two sessions are one session retold, once with its whole log and once with a quiet one, if the log
    is quiet at all. -/
inductive Alike (quiet : Bool) : Session → Session → Prop
  | retold (s : Session) (past past' : List Happening) (hStart : s.world.trace = [])
      (hLeaves : s.world.LeavesLog) : Alike quiet (s.retold ⟨false, past⟩) (s.retold ⟨quiet, past'⟩)

/-- The second session is the first one, but for the log and for what has been told. -/
def SameButLog (s s' : Session) : Prop :=
  s' = { s with machine := { s.machine with
    world := { s.machine.world with
      trace := s'.world.trace, telemetry := s'.world.telemetry } } }

theorem Alike.sameButLog {quiet : Bool} {s s' : Session} (hAlike : Alike quiet s s') :
    s.SameButLog s' := by
  cases hAlike
  rfl

/-- The report without the events that are emitted only while the log is verbose. -/
def withoutMinor (r : Report) : Report :=
  { r with happenings := r.happenings.filter (!·.isMinor) }

theorem told_quiet (past : List Happening) (r : Report) : told ⟨true, past⟩ r = withoutMinor r :=
  rfl

theorem told_loud (past : List Happening) (r : Report) : told ⟨false, past⟩ r = r := by
  have hAll : r.happenings.filter (Retelling.tells ⟨false, past⟩) = r.happenings :=
    List.filter_eq_self.mpr fun _ _ => rfl
  rw [told, hAll]

/-- What a command reports with a quiet log, if the log is quiet until then; `r` is what it reports
    with a verbose one. -/
def quietReport (t : Telemetry) (c : Command) (r : Report) : Report :=
  if c = .describe .telemetry then ⟨.text { t with verbose := false }.describe, 0, []⟩
  else withoutMinor r

/-- **A command goes the same way in both sessions.** If it turns the log, both logs are the same from
    then on. -/
theorem Alike.perform {quiet : Bool} {s s' : Session} (hAlike : Alike quiet s s') (c : Command) :
    Alike (quiet && c.leavesLog) (s.perform c).2 (s'.perform c).2 ∧
      (s'.perform c).1 =
        if quiet && c.leavesLog then quietReport s.world.telemetry c (s.perform c).1
        else (s.perform c).1 := by
  obtain ⟨s, past, past', hStart, hLeaves⟩ := hAlike
  -- What is said of both, unless the quiet one is asked for its log.
  have hBoth : ∀ (s : Session) (quiet : Bool), s.world.trace = [] → s.world.LeavesLog →
      (quiet = true → c.leavesLog = true) → (quiet = true → c ≠ .describe .telemetry) →
      Alike quiet ((s.retold ⟨false, past⟩).perform c).2 ((s.retold ⟨quiet, past'⟩).perform c).2 ∧
        ((s.retold ⟨quiet, past'⟩).perform c).1 =
          told ⟨quiet, past'⟩ ((s.retold ⟨false, past⟩).perform c).1 := by
    intro s quiet hStart hLeaves hTurns hLog
    obtain ⟨hLoud, hAfter⟩ := perform_retold (ρ := ⟨false, past⟩) hStart hLeaves nofun nofun
    obtain ⟨hQuiet, -⟩ := perform_retold (ρ := ⟨quiet, past'⟩) hStart hLeaves hTurns hLog
    rw [hLoud, hQuiet, told_loud]
    exact ⟨.retold (s.perform c).2.cleared _ _ rfl hAfter, rfl⟩
  cases quiet with
  | false =>
    obtain ⟨hNext, hReport⟩ := hBoth s false hStart hLeaves nofun nofun
    exact ⟨hNext, hReport.trans (told_loud _ _)⟩
  | true =>
    cases hTurns : c.leavesLog with
    | false =>
      cases c with
      | setVerbose on =>
        rw [← perform_turned (s.retold ⟨false, past⟩), ← perform_turned (s.retold ⟨true, past'⟩),
          turned_retold hStart, turned_retold hStart]
        obtain ⟨hNext, hReport⟩ := hBoth (s.turned on) false hStart hLeaves nofun nofun
        exact ⟨hNext, hReport.trans (told_loud _ _)⟩
      | _ => cases hTurns
    | true =>
      by_cases hLog : c = .describe .telemetry
      · subst hLog
        refine ⟨.retold s past past' hStart hLeaves, ?_⟩
        have hOff : (s.retold ⟨true, past'⟩).world.telemetry =
            { (s.retold ⟨false, past⟩).world.telemetry with verbose := false } := by
          simp [Session.retold, world, Machine.retold, World.retold]
        show (⟨.text (s.retold ⟨true, past'⟩).world.telemetry.describe, 0, []⟩ : Report) = _
        rw [hOff]
        rfl
      · obtain ⟨hNext, hReport⟩ := hBoth s true hStart hLeaves (fun _ => hTurns) fun _ => hLog
        refine ⟨hNext, hReport.trans ((told_quiet _ _).trans ?_)⟩
        simp [quietReport, hLog]

/-- The session after commands. -/
def after (s : Session) (commands : List Command) : Session :=
  commands.foldl (fun s c => (s.perform c).2) s

theorem Alike.after {quiet : Bool} {s s' : Session} (hAlike : Alike quiet s s')
    (commands : List Command) :
    Alike (quiet && commands.all (·.leavesLog)) (s.after commands) (s'.after commands) := by
  induction commands generalizing quiet s s' with
  | nil => simpa [Session.after] using hAlike
  | cons c commands ih =>
    rw [List.all_cons, ← Bool.and_assoc]
    exact ih (hAlike.perform c).1

theorem alike_init (site : Site) (loader : Loader) (config : Config) (network : Network)
    (globals : Globals) : Alike true (init site loader config network globals true)
      (init site loader config network globals false) :=
  .retold (init site loader config network globals true) [] [] rfl fun _ hMem => by cases hMem

/-- **The log only watches.** Two sessions begin with the log on and off. After any commands they are the
    same but for the log, and a further command reports the same but for the minor events, until a
    command turns the log, and everything the same from then on. Only whoever asks for a description of
    the log is told how it stands. -/
theorem log_only_watches (site : Site) (loader : Loader) (config : Config) (network : Network)
    (globals : Globals) (commands : List Command) (c : Command) :
    let on := (init site loader config network globals true).after commands
    let off := (init site loader config network globals false).after commands
    on.SameButLog off ∧ (off.perform c).1 =
      if (commands ++ [c]).all (·.leavesLog) then quietReport on.world.telemetry c (on.perform c).1
      else (on.perform c).1 := by
  intro on off
  have hAlike := (alike_init site loader config network globals).after commands
  refine ⟨hAlike.sameButLog, (hAlike.perform c).2.trans ?_⟩
  simp only [Bool.true_and, List.all_append, List.all_cons, List.all_nil, Bool.and_true]
  rfl

/-- A session can be asked whether its log is verbose. -/
theorem not_log_only_watches : ¬ ∀ (commands : List Command) (c : Command),
    (((init {} Replay.loader {} .refusing [] false).after commands).perform c).1.result =
      (((init {} Replay.loader {} .refusing [] true).after commands).perform c).1.result := by
  intro hAll
  have hText : Telemetry.describe { verbose := false } = Telemetry.describe { verbose := true } :=
    Result.text.inj (hAll [] (.describe .telemetry))
  exact absurd hText (by decide)

end Session

end Bundleless
