import Bundleless.Proofs.Discipline

/-! # Triples

    Safe programs, piece by piece. A fact is something that a task knows and
    that the others do not take back. A triple says that a program, started
    where one fact holds, is safe and ends where another one does. A program
    that keeps what is known and adds to it is described by what it adds
    (`Adds`), one that can fail by what it adds when it does not (`Tries`).
-/

namespace Bundleless

/-- Something that a task knows, whatever the others do. -/
structure Fact (D : Discipline) (t : TaskId) where
  At : Moment → Prop
  stable : ∀ {m m'}, D.rely t m m' → At m → At m'

namespace Fact

variable {D : Discipline} {t : TaskId}

instance : CoeFun (Fact D t) fun _ => Moment → Prop := ⟨Fact.At⟩

/-- Nothing is known. -/
def top : Fact D t := ⟨fun _ => True, fun _ h => h⟩

/-- Something that does not depend on the moment. -/
def pure (P : Prop) : Fact D t := ⟨fun _ => P, fun _ h => h⟩

/-- Both facts. -/
def and (K L : Fact D t) : Fact D t :=
  ⟨fun m => K m ∧ L m, fun hRely h => ⟨K.stable hRely h.1, L.stable hRely h.2⟩⟩

/-- The fact about what is there, if anything is. -/
def onSome {α : Type} (N : α → Fact D t) : Option α → Fact D t
  | some a => N a
  | none => top

/-- The fact that belongs to the outcome of a program that can fail. -/
def onOk {α : Type} (K : Fact D t) (N : α → Fact D t) : Except Failure α → Fact D t
  | .ok a => K.and (N a)
  | .error _ => K

end Fact

section Triples

variable {D : Discipline} (h : Host) (work : Work) {t : TaskId}
variable {α β : Type} {K K' : Fact D t}

/-! ## Section 1: Triples -/

/-- Where `K` holds the program is safe, and it ends where `Q` does. -/
def Triple (K : Fact D t) (p : Load α) (Q : α → Fact D t) : Prop :=
  ∀ m, K m → D.live work t m →
    D.Safe h work t (fun a m' => Q a m' ∧ D.live work t m') p m

variable {h work}

theorem Triple.done {a : α} {Q : α → Fact D t} (hImp : ∀ m, K m → Q a m) :
    Triple h work K (.done a) Q := by
  intro m hK hLive
  refine .done fun m' hRely => ⟨?_, D.live_stable hRely hLive⟩
  exact (Q a).stable hRely (hImp m hK)

theorem Triple.bind {p : Load α} {f : α → Load β} {Q : α → Fact D t} {R : β → Fact D t}
    (hFirst : Triple h work K p Q) (hThen : ∀ a, Triple h work (Q a) (f a) R) :
    Triple h work K (p >>= f) R := by
  intro m hK hLive
  refine (hFirst m hK hLive).bind fun a m' hQ => ?_
  obtain ⟨hQ, hLive⟩ := hQ
  exact hThen a m' hQ hLive

theorem Triple.conseq {p : Load α} {Q Q' : α → Fact D t} (hTriple : Triple h work K' p Q')
    (hPre : ∀ m, K m → K' m) (hPost : ∀ a m, Q' a m → Q a m) : Triple h work K p Q := by
  intro m hK hLive
  refine (hTriple m (hPre m hK) hLive).imp fun a m' hQ => ?_
  obtain ⟨hQ, hLive⟩ := hQ
  exact ⟨hPost a m' hQ, hLive⟩

/-- **One operation**: it has to be allowed, and what is known after it has to hold after any
    answer. -/
theorem Triple.op {o : Op} {Q : o.Reply → Fact D t}
    (hOp : ∀ m, D.Holds m → D.live work t m → K m → D.may work t o m ∧
      ∀ r w, o.Answers h m.toWorld r w →
        D.live work t (m.act t o r w) ∧ Q r (m.act t o r w)) :
    Triple h work K (Load.op o) Q := by
  intro m hK hLive
  -- The others may act before the operation is carried out; what the task knows is known still.
  have hOp' : ∀ m', D.rely t m m' → D.Holds m' → D.may work t o m' ∧
      ∀ r w, o.Answers h m'.toWorld r w →
        D.live work t (m'.act t o r w) ∧ Q r (m'.act t o r w) := fun m' hRely hHolds =>
    hOp m' hHolds (D.live_stable hRely hLive) (K.stable hRely hK)
  refine .ask ?_ ?_ ?_
  · intro m' hRely
    exact D.live_stable hRely hLive
  · intro m' hRely hHolds
    exact (hOp' m' hRely hHolds).1
  · intro m' r w hRely hHolds hAnswer
    obtain ⟨hLiveNext, hQ⟩ := (hOp' m' hRely hHolds).2 r w hAnswer
    exact .done fun m'' hLater => ⟨(Q r).stable hLater hQ, D.live_stable hLater hLiveNext⟩

/-- Any program is safe where nothing can be. -/
theorem Triple.of_false {p : Load α} {Q : α → Fact D t} (hFalse : ∀ m, ¬ K m) :
    Triple h work K p Q :=
  fun m hK => absurd hK (hFalse m)

/-! ## Section 2: Programs that add to what is known -/

variable (h work)

/-- The program keeps what is known, and adds `N`. -/
def Adds (K : Fact D t) (p : Load α) (N : α → Fact D t) : Prop :=
  Triple h work K p fun a => K.and (N a)

/-- The program keeps what is known, and adds `N` unless it fails. -/
def Tries (K : Fact D t) (p : Attempt α) (N : α → Fact D t) : Prop :=
  Triple h work K p.run (K.onOk N)

variable {h work}
variable {N : α → Fact D t} {M : β → Fact D t}

theorem Adds.done {a : α} (hImp : ∀ m, K m → N a m) : Adds h work K (.done a) N :=
  Triple.done fun m hK => ⟨hK, hImp m hK⟩

theorem Adds.bind {p : Load α} {f : α → Load β} (hFirst : Adds h work K p N)
    (hThen : ∀ a, Adds h work (K.and (N a)) (f a) M) : Adds h work K (p >>= f) M := by
  refine Triple.bind hFirst fun a => ?_
  refine (hThen a).conseq (fun _ hK => hK) fun b m hM => ?_
  obtain ⟨⟨hK, -⟩, hM⟩ := hM
  exact ⟨hK, hM⟩

/-- **One operation** that leaves the task what it counts on: what was known is known still. -/
theorem Adds.op {o : Op} {N : o.Reply → Fact D t}
    (hOp : ∀ m, D.Holds m → D.live work t m → K m → D.may work t o m ∧
      ∀ r w, o.Answers h m.toWorld r w →
        D.rely t m (m.act t o r w) ∧ N r (m.act t o r w)) :
    Adds h work K (Load.op o) N := by
  refine Triple.op fun m hHolds hLive hK => ?_
  obtain ⟨hMay, hNext⟩ := hOp m hHolds hLive hK
  refine ⟨hMay, ?_⟩
  intro r w hAnswer
  obtain ⟨hRely, hN⟩ := hNext r w hAnswer
  exact ⟨D.live_stable hRely hLive, K.stable hRely hK, hN⟩

/-! ### Programs that can fail -/

theorem Tries.pure {a : α} (hImp : ∀ m, K m → N a m) :
    Tries h work K (Pure.pure a : Attempt α) N :=
  Triple.done fun m hK => ⟨hK, hImp m hK⟩

theorem Tries.throw {e : Failure} : Tries h work K (throw e : Attempt α) N :=
  Triple.done fun _ hK => hK

theorem Tries.ofExcept {r : Except Failure α} (hImp : ∀ a m, r = .ok a → K m → N a m) :
    Tries h work K (Attempt.ofExcept r) N := by
  cases r with
  | ok a => exact Tries.pure fun m hK => hImp a m rfl hK
  | error e => exact Tries.throw

theorem Tries.bind {p : Attempt α} {f : α → Attempt β} (hFirst : Tries h work K p N)
    (hThen : ∀ a, Tries h work (K.and (N a)) (f a) M) : Tries h work K (p >>= f) M := by
  refine Triple.bind hFirst fun r => ?_
  cases r with
  -- A failure skips the rest, and adds nothing.
  | error e => exact Triple.done fun _ hK => hK
  | ok a =>
    refine (hThen a).conseq (fun _ hK => hK) fun r m hM => ?_
    cases r with
    | ok b => exact ⟨hM.1.1, hM.2⟩
    | error e => exact hM.1

/-- What comes after may give up what was known before. -/
theorem Tries.andThen {p : Attempt α} {f : α → Attempt β} (hFirst : Tries h work K p N)
    (hThen : ∀ a, Triple h work (K.and (N a)) (f a).run (Fact.top.onOk M)) :
    Triple h work K (p >>= f).run (Fact.top.onOk M) := by
  refine Triple.bind hFirst fun r => ?_
  cases r with
  | ok a => exact hThen a
  | error e => exact Triple.done fun _ _ => trivial

/-- A program that cannot fail, as a part of one that can. -/
theorem Tries.lift {p : Load α} (hAdds : Adds h work K p N) :
    Tries h work K (liftM p : Attempt α) N :=
  Triple.bind hAdds fun _ => Triple.done fun _ hN => hN

theorem Tries.mk {p : Load (Except Failure α)}
    (hAdds : Adds h work K p fun r => Fact.top.onOk N r) : Tries h work K (ExceptT.mk p) N :=
  Triple.conseq hAdds (fun _ hK => hK) fun r m hN => by
    cases r with
    | ok a => exact ⟨hN.1, hN.2.2⟩
    | error e => exact hN.1

theorem Tries.imp {p : Attempt α} {N' : α → Fact D t} (hTries : Tries h work K p N')
    (hImp : ∀ a m, K m → N' a m → N a m) : Tries h work K p N := by
  refine hTries.conseq (fun _ hK => hK) fun r m hN => ?_
  cases r with
  | ok a => exact ⟨hN.1, hImp a m hN.1 hN.2⟩
  | error e => exact hN

/-- What a program comes to is known also where it fails. -/
theorem Tries.outcome {p : Attempt α} (hTries : Tries h work K p N) :
    Tries h work K (Attempt.outcome p)
      fun r => Fact.top.onOk N r :=
  Triple.bind hTries fun r => Triple.done fun m hN => by
    cases r with
    | ok a => exact ⟨hN.1, trivial, hN.2⟩
    | error e => exact ⟨hN, trivial⟩

end Triples

end Bundleless
