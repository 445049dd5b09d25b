import Bundleless.Proofs.LocalFacts

/-! # Replays

    A run that is written down turn by turn: what is asked for, which task
    goes on and how far, and what the network answers. The steps and the
    worlds in between follow from that. A replay that comes to its end is a
    run (`exists_run`), and so runs can be shown by evaluation.
-/

namespace Bundleless

/-- A turn of a replay. -/
inductive Turn where
  /-- A piece of work is asked for. -/
  | ask (job : Job)
  /-- A task carries out so many operations, none of which has to wait. -/
  | go (t : TaskId) (count : Nat)
  /-- The request that a task waits for is answered. -/
  | reply (t : TaskId) (r : Reply)

/-- A world and the steps that were made. -/
abbrev Replayed := List Label × World

/-- The module that a task has loaded, if it has. -/
def World.loadedBy? (w : World) (t : TaskId) : Option Loaded :=
  (w.loaded? t).bind (·.toOption)

theorem World.loadedBy?_eq_some_iff {w : World} {t : TaskId} {x : Loaded} :
    w.loadedBy? t = some x ↔ w.outcome? t = some (.ok (some x)) := by
  constructor
  · intro hLoaded
    obtain ⟨r, hDone, hOk⟩ := Option.bind_eq_some_iff.mp hLoaded
    cases r with
    | error e => simp [Except.toOption] at hOk
    | ok y =>
      obtain rfl : y = x := Option.some.inj hOk
      exact World.outcome?_of_loaded? hDone
  · intro hDone
    simp [loadedBy?, loaded?, hDone, Except.toOption]

/-- The failure of a task, if it has failed. -/
def World.failureOf? (w : World) (t : TaskId) : Option Failure :=
  match w.outcome? t with
  | some (.error e) => some e
  | _ => none

theorem World.failureOf?_eq_some_iff {w : World} {t : TaskId} {e : Failure} :
    w.failureOf? t = some e ↔ w.outcome? t = some (.error e) := by
  unfold failureOf?
  split <;> simp_all

/-- What has come out well can be found by evaluation. -/
theorem eq_ok_of_toOption {ε α : Type} {r : Except ε α} {a : α} (hOk : r.toOption = some a) :
    r = .ok a := by
  cases r with
  | error e => cases hOk
  | ok b => exact congrArg Except.ok (Option.some.inj hOk)

/-- The failure of what has failed. -/
def failure? {ε α : Type} : Except ε α → Option ε
  | .error e => some e
  | .ok _ => none

/-- And so can what has failed. -/
theorem eq_error_of_failure? {ε α : Type} {r : Except ε α} {e : ε} (hFails : failure? r = some e) :
    r = .error e := by
  cases r with
  | error e' => exact congrArg Except.error (Option.some.inj hFails)
  | ok a => cases hFails

namespace Replay

/-- A page with the parts of its path. -/
def pageAt (parts : List String) : Page where
  location := {
    scheme := "https".toList
    authority := some { host := some (.domain "e.test".toList) }
    path := .segments (parts.map (·.toList)) }

/-- The loader of a page. -/
def loaderAt (parts : List String) : Loader :=
  { page := pageAt parts, providers := .ofPage (pageAt parts) }

/-- The loader of a page at the root of its site. -/
def loader : Loader := loaderAt [""]

/-- There is something at a URL. -/
def found (body : String) : Reply := .ok ⟨200, body⟩

/-- There is nothing at a URL. -/
def missing : Reply := .ok ⟨404, ""⟩

/-- The source of a module that imports another one. -/
def importing : String := "import \"./dep.ts\";"

/-- A module and the one that it imports are loaded, up to where the first is about to run. The
    request is task 0; the module is executed by task 2, and what it imports is loaded by task 3. -/
def upToRun : List Turn :=
  [.ask (.load "./main.ts" "src"), .go 0 3, .go 1 1, .reply 1 (found importing), .go 1 2, .go 2 1,
    .go 3 3, .go 4 1, .reply 4 (found ""), .go 4 2, .go 5 6, .go 4 2, .go 3 3, .go 2 2]

end Replay

namespace World

variable (h : Host) (l : Loader)

/-- A task carries out operations, as many as are said. -/
def goOn (t : TaskId) : Nat → Replayed → Option Replayed
  | 0, x => some x
  | count + 1, (past, w) =>
    match w.tasks[t]? with
    | some ⟨_, .ask o next⟩ =>
      match o.perform h w with
      | some (r, w') => goOn t count (.act t o r :: past, w'.setProgram t (next r))
      | none => none
    | _ => none

/-- Take one turn. -/
def take : Turn → Replayed → Option Replayed
  | .ask job, (past, w) =>
    if job.isAsked then some (.start ⟨l, job⟩ :: past, (w.start ⟨l, job⟩).2) else none
  | .go t count, x => goOn h t count x
  | .reply t r, (past, w) =>
    match w.tasks[t]? with
    | some ⟨_, .ask (.reply method url) next⟩ =>
      some (.act t (.reply method url) r :: past, w.setProgram t (next r))
    | _ => none

/-- Take the turns one after the other. -/
def replay (turns : List Turn) (w : World) : Option Replayed :=
  turns.foldlM (fun x turn => take h l turn x) ([], w)

variable {h l}
variable {w₀ : World} {x y : Replayed}

theorem run_of_goOn {t : TaskId} {count : Nat} (hGo : goOn h t count x = some y)
    (hRun : Run h l.Asks w₀ x.1 x.2) : Run h l.Asks w₀ y.1 y.2 := by
  induction count generalizing x with
  | zero =>
    obtain rfl := Option.some.inj hGo
    exact hRun
  | succ count ih =>
    obtain ⟨past, w⟩ := x
    simp only [goOn] at hGo
    split at hGo
    · next work o next hTask =>
      split at hGo
      · next r w' hPerform => exact ih hGo (hRun.tail (.act hTask (.perform hPerform)))
      · simp at hGo
    · simp at hGo

theorem run_of_take {turn : Turn} (hTake : take h l turn x = some y)
    (hRun : Run h l.Asks w₀ x.1 x.2) : Run h l.Asks w₀ y.1 y.2 := by
  obtain ⟨past, w⟩ := x
  cases turn with
  | ask job =>
    simp only [take] at hTake
    split at hTake
    · next hAsked =>
      obtain rfl := Option.some.inj hTake
      exact hRun.tail (.start w ⟨hAsked, rfl, rfl⟩)
    · simp at hTake
  | go t count => exact run_of_goOn hTake hRun
  | reply t r =>
    simp only [take] at hTake
    split at hTake
    · next work method url next hTask =>
      obtain rfl := Option.some.inj hTake
      exact hRun.tail (.act hTask (.reply method url r))
    · simp at hTake

/-- **A replay that comes to its end is a run.** -/
theorem run_of_replay {turns : List Turn} (hReplay : replay h l turns w₀ = some y) :
    Run h l.Asks w₀ y.1 y.2 := by
  -- From any point of the replay on, as the induction is on the turns that are left.
  suffices hFrom : ∀ x, Run h l.Asks w₀ x.1 x.2 →
      turns.foldlM (fun x turn => take h l turn x) x = some y → Run h l.Asks w₀ y.1 y.2 from
    hFrom ([], w₀) .refl hReplay
  clear hReplay
  induction turns with
  | nil =>
    rintro x hRun ⟨⟩
    exact hRun
  | cons turn turns ih =>
    intro x hRun hReplay
    obtain ⟨x', hTake, hRest⟩ := Option.bind_eq_some_iff.mp hReplay
    exact ih x' (run_of_take hTake hRun) hRest

variable (h l w₀) in
/-- What evaluation finds at the end of a replay holds at the end of a run. -/
theorem exists_run (turns : List Turn) (p : Replayed → Bool)
    (hReplay : (replay h l turns w₀).any p = true) :
    ∃ past w, Run h l.Asks w₀ past w ∧ p (past, w) = true := by
  obtain ⟨y, hIs, hHolds⟩ := (Option.any_eq_true ..).mp hReplay
  exact ⟨y.1, y.2, run_of_replay hIs, hHolds⟩

/-- What a task does next, if it is not done. -/
def nextOp? (w : World) (t : TaskId) : Option Op :=
  w.tasks[t]?.bind fun task => match task.program with
    | .done _ => none
    | .ask o _ => some o

theorem exists_task_of_nextOp? {w : World} {t : TaskId} {o : Op} (hNext : w.nextOp? t = some o) :
    ∃ work next, w.tasks[t]? = some ⟨work, .ask o next⟩ := by
  obtain ⟨⟨work, p⟩, hTask, hOp⟩ := Option.bind_eq_some_iff.mp hNext
  cases p with
  | done r => simp at hOp
  | ask o' next =>
    obtain rfl := Option.some.inj hOp
    exact ⟨work, next, hTask⟩

end World

end Bundleless
