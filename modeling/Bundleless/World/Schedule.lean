import Bundleless.World.Network
import Bundleless.World.Step

/-! # Schedules

    One order in which the tasks of a world are carried out, on a virtual
    clock: whoever need not wait goes on, and only when all wait does the
    clock move, to the next reply or the next end of a pause. A caller runs
    beside the tasks and goes before them.
-/

namespace Bundleless

/-- A world under a clock, with the network it is connected to. -/
structure Machine where
  world : World := {}
  network : Network := .refusing
  /-- The time, in milliseconds. -/
  clock : Nat := 0
  /-- When the tasks that wait for a reply or in a pause go on. -/
  due : List (TaskId × Nat) := []

/-- Carry out a program as far as it need not wait. -/
def Load.drive {α : Type} (h : Host) : Load α → World → Load α × World
  | .done a, w => (.done a, w)
  | .ask o next, w =>
    match o.perform h w with
    | some (r, w) => drive h (next r) w
    | none => (.ask o next, w)

/-- A program need not wait. -/
def Load.canMove {α : Type} (h : Host) (w : World) : Load α → Bool
  | .done _ => false
  | .ask o _ => (o.perform h w).isSome

/-- How long a program waits for something from outside. -/
def Load.delay? {α : Type} (n : Network) : Load α → Option Nat
  | .ask (.reply ..) _ => some n.delay
  | .ask (.sleep ms) _ => some ms
  | _ => none

/-- What a program goes on with after what it waited for from outside. -/
def Load.deliver {α : Type} (n : Network) : Load α → Load α × Network
  | .ask (.reply method url) next =>
    let (r, n) := n.take method url
    (next r, n)
  | .ask (.sleep _) next => (next (), n)
  | p => (p, n)

namespace Machine

/-- The first task that need not wait. -/
def movable? (h : Host) (m : Machine) : Option (TaskId × Load Outcome) :=
  m.world.tasks.zipIdx.findSome? fun (task, t) =>
    if task.program.canMove h m.world then some (t, task.program) else none

/-- Carry out a task as far as it need not wait. -/
def drive (h : Host) (m : Machine) (t : TaskId) (p : Load Outcome) : Machine :=
  let (p, w) := p.drive h m.world
  -- At the end of the list: of two that are due at once the one that waited first goes on.
  let due :=
    match p.delay? m.network with
    | some ms => m.due ++ [(t, m.clock + ms)]
    | none => m.due
  { m with world := w.setProgram t p, due := due }

/-- The task that goes on first, and when. -/
def next? (m : Machine) : Option (TaskId × Nat) :=
  m.due.foldl
    (fun best e =>
      match best with
      | some b => if e.2 < b.2 then some e else best
      | none => some e)
    none

/-- Give a task what it waited for, and carry it on. -/
def deliver (h : Host) (m : Machine) (t : TaskId) (time : Nat) : Machine :=
  let m := { m with clock := time, due := m.due.filter (·.1 != t) }
  match m.world.tasks[t]? with
  | none => m
  | some task =>
    let (p, n) := task.program.deliver m.network
    { m with network := n }.drive h t p

end Machine

/-! ## Callers -/

/-- A program that runs beside the tasks. -/
structure Caller (α : Type) where
  machine : Machine
  program : Load α
  /-- When it goes on, if it waits for something from outside. -/
  due : Option Nat := none

/-- How far a run goes. -/
inductive Progress where
  /-- Something has happened. -/
  | moved
  /-- Nothing happens before the time limit. -/
  | idle
  /-- Nothing will ever happen. -/
  | stuck
deriving DecidableEq, Repr

namespace Caller

variable {α : Type}

/-- What the caller has come to, once it is done. -/
def result? (c : Caller α) : Option α :=
  match c.program with
  | .done a => some a
  | .ask _ _ => none

/-- Carry out the caller's own program as far as it need not wait. -/
def drive (h : Host) (c : Caller α) : Caller α :=
  let (p, w) := c.program.drive h c.machine.world
  { machine := { c.machine with world := w }, program := p,
    due := (p.delay? c.machine.network).map (c.machine.clock + ·) }

/-- Give the caller what it waited for, and carry it on. -/
def deliver (h : Host) (c : Caller α) (time : Nat) : Caller α :=
  let (p, n) := c.program.deliver c.machine.network
  { c with machine := { c.machine with network := n, clock := time }, program := p }.drive h

/-- The time lies within the limit. -/
def within (limit : Option Nat) (time : Nat) : Bool := limit.all (time ≤ ·)

/-- Let one thing happen, not after the time limit. -/
def step (h : Host) (limit : Option Nat) (c : Caller α) : Progress × Caller α :=
  if c.program.canMove h c.machine.world then (.moved, c.drive h)
  else
    match c.machine.movable? h with
    | some (t, p) => (.moved, { c with machine := c.machine.drive h t p })
    | none =>
      match c.due, c.machine.next? with
      | none, none => (.stuck, c)
      | some time, none => if within limit time then (.moved, c.deliver h time) else (.idle, c)
      | none, some (t, time) =>
        if within limit time then (.moved, { c with machine := c.machine.deliver h t time })
        else (.idle, c)
      | some mine, some (t, time) =>
        -- At the same time the caller goes first.
        if mine ≤ time then
          if within limit mine then (.moved, c.deliver h mine) else (.idle, c)
        else if within limit time then
          (.moved, { c with machine := c.machine.deliver h t time })
        else (.idle, c)

/-- Let things happen until the caller is done or nothing happens any more. -/
def run (h : Host) (limit : Option Nat) : (fuel : Nat) → Caller α → Progress × Caller α
  | 0, c => (.idle, c)
  | fuel + 1, c =>
    if c.result?.isSome then (.moved, c)
    else
      match c.step h limit with
      | (.moved, c) => run h limit fuel c
      | (p, c) => (p, c)

end Caller

namespace Machine

/-- Let things happen until nothing happens any more. -/
def settle (h : Host) : (fuel : Nat) → Machine → Machine
  | 0, m => m
  | fuel + 1, m =>
    -- A caller that is done already leaves every step to the tasks.
    let c : Caller Unit := { machine := m, program := .done () }
    match c.step h none with
    | (.moved, c) => settle h fuel c.machine
    | (_, c) => c.machine

/-- More steps than any run takes. -/
def patience : Nat := 1000000000

/-- What running a program came to: its result, if it ever came to one, the time it took, and the
    machine at that moment. -/
structure Ran (α : Type) where
  result : Option α
  ms : Nat
  machine : Machine

/-- Run a program beside the tasks, up to its result or up to a time limit, counted from now. -/
def run {α : Type} (h : Host) (m : Machine) (p : Load α) (limit : Option Nat) : Ran α :=
  let c : Caller α := { machine := m, program := p }
  let (_, c) := (c.drive h).run h (limit.map (m.clock + ·)) patience
  match c.result?, limit with
  | none, some ms => ⟨none, ms, { c.machine with clock := m.clock + ms }⟩
  | r, _ => ⟨r, c.machine.clock - m.clock, c.machine⟩

end Machine

end Bundleless
