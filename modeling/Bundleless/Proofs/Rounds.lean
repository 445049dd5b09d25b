import Bundleless.Proofs.FirstReachable

/-! # Rounds

    A program that goes through a list carries out one round after the
    other, one for each member. What it has carried out in the end is all
    rounds in the order of the list, each to its end before the next one
    was begun.
-/

namespace Bundleless

variable {α β : Type}

/-- A round of a program that goes through a list: the member, what was carried out for it, the
    latest first, and what has come of it. -/
structure Round (α β : Type) where
  member : α
  hist : History
  result : β

namespace Round

/-- The round was carried out from its beginning to its end. -/
def IsComplete (f : α → Load β) (x : Round α β) : Prop :=
  (f x.member).Came x.hist (.done x.result)

/-- The round was carried out from its beginning to its end, and it has not failed. -/
def Succeeds (f : α → Attempt β) (x : Round α β) : Prop :=
  (f x.member).run.Came x.hist (.done (.ok x.result))

/-- What is carried out in these rounds, each to its end before the next one is begun. -/
def written (rounds : List (Round α β)) : History := rounds.reverse.flatMap (·.hist)

@[simp] theorem written_nil : written ([] : List (Round α β)) = [] := rfl

theorem written_append (rounds more : List (Round α β)) :
    written (rounds ++ more) = written more ++ written rounds := by
  simp [written]

theorem written_cons (x : Round α β) (rounds : List (Round α β)) :
    written (x :: rounds) = written rounds ++ x.hist := by
  simp [written]

/-- The requests are those of the rounds, one round after the other. -/
theorem requests_written (rounds : List (Round α β)) :
    (written rounds).requests = rounds.flatMap (·.hist.requests) :=
  History.requests_parts Round.hist rounds

end Round

/-- **A program that does the same for every member of a list goes through it round by round.** -/
theorem Load.came_mapM {f : α → Load β} {xs : List α} {ys : List β} {hist : History}
    (hCame : (xs.mapM f).Came hist (.done ys)) :
    ∃ rounds : List (Round α β), rounds.map (·.member) = xs ∧ rounds.map (·.result) = ys ∧
      (∀ x ∈ rounds, x.IsComplete f) ∧ hist = Round.written rounds := by
  induction xs generalizing hist ys with
  | nil =>
    rw [List.mapM_nil] at hCame
    obtain ⟨rfl, rfl⟩ := Came.answer_of_done hCame
    exact ⟨[], rfl, rfl, by simp, rfl⟩
  | cons a xs ih =>
    rw [List.mapM_cons] at hCame
    obtain ⟨y, before, after, rfl, hFirst, hThen⟩ := hCame.of_bind
    obtain ⟨zs, others, last, rfl, hRest, hReturn⟩ := hThen.of_bind
    obtain ⟨rfl, rfl⟩ := Came.answer_of_done hReturn
    obtain ⟨rounds, hMembers, hResults, hComplete, rfl⟩ := ih hRest
    refine ⟨⟨a, before, y⟩ :: rounds, ?_, ?_, ?_, ?_⟩
    · exact congrArg (a :: ·) hMembers
    · rw [← hResults]
      rfl
    · exact List.forall_mem_cons.mpr ⟨hFirst, hComplete⟩
    · rw [Round.written_cons]
      rfl

end Bundleless
