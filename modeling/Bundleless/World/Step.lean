import Bundleless.World.Basic

/-! # Steps of a world

    Everything that can happen to a world, whatever the order: a task carries
    out one operation, and a new piece of work is asked for. Operations that
    wait for something from outside are answered at any time, a request with
    any reply. One step is one operation, so the runs of this relation are
    all interleavings of the tasks. Whoever gives up waiting takes no more
    steps; nothing forces a task to take one.
-/

namespace Bundleless

/-! ## Answers -/

/-- The operation can be answered so, and leaves the world so. -/
inductive Op.Answers (h : Host) (w : World) : (o : Op) → o.Reply → World → Prop
  | perform {o : Op} {r : o.Reply} {w' : World} (hPerform : o.perform h w = some (r, w')) :
      Answers h w o r w'
  | reply (method : Method) (url : String) (r : Bundleless.Reply) :
      Answers h w (.reply method url) r w
  | wake (ms : Nat) : Answers h w (.sleep ms) () w

/-! ## Steps -/

/-- What a step is about. -/
inductive Label where
  /-- A task carries out an operation, and gets an answer. -/
  | act (t : TaskId) (o : Op) (r : o.Reply)
  /-- A piece of work is asked for. -/
  | start (work : Work)

namespace World

/-- Replace what is left of a task's program. -/
def setProgram (w : World) (t : TaskId) (p : Load Outcome) : World :=
  { w with tasks := w.tasks.modify t fun task => { task with program := p } }

variable (h : Host) (asks : Work → Prop)

/-- The world goes over into another by a step. From outside only such work is asked for. -/
inductive Step : World → Label → World → Prop
  | act {w w' : World} {t : TaskId} {work : Work} {o : Op} {next : o.Reply → Load Outcome}
      {r : o.Reply} (hTask : w.tasks[t]? = some ⟨work, .ask o next⟩)
      (hAnswer : o.Answers h w r w') : Step w (.act t o r) (w'.setProgram t (next r))
  | start (w : World) {work : Work} (hAsks : asks work) : Step w (.start work) (w.start work).2

/-- The world can become another by such steps, the latest first. -/
inductive Run (w₀ : World) : List Label → World → Prop
  | refl : Run w₀ [] w₀
  | tail {past : List Label} {w w' : World} {l : Label} (hRun : Run w₀ past w)
      (hStep : Step h asks w l w') : Run w₀ (l :: past) w'

end World

end Bundleless
