import Bundleless.Proofs.Calls
import Bundleless.World.Site

/-! # Requests and what answers them

    Nothing is assumed of the network: a reply may depend on all requests
    that were sent before it. Such a network is a function of the requests so
    far (`Transport`), and a history agrees with it if all replies in it are
    the transport's. A program that reaches for nothing but what is remote
    comes to its end with every transport.
-/

namespace Bundleless

/-! ## Section 1: Requests -/

/-- The request that an operation sends. -/
def Op.sent? : Op → Option (Method × String)
  | .send method url => some (method, url)
  | _ => none

/-- The requests of a history, in the order in which they were sent. -/
def History.requests (hist : History) : List (Method × String) :=
  (hist.filterMap fun x => x.op.sent?).reverse

namespace History

theorem requests_append (later earlier : History) :
    requests (later ++ earlier) = requests earlier ++ requests later := by
  simp [requests]

theorem mem_requests {hist : History} {request : Method × String} :
    request ∈ hist.requests ↔ ∃ x ∈ hist, x.op.sent? = some request := by
  simp [requests]

/-- The requests of parts that were carried out one after the other. -/
theorem requests_parts {α : Type} (part : α → History) (xs : List α) :
    requests (xs.reverse.flatMap part) = xs.flatMap fun x => requests (part x) := by
  induction xs with
  | nil => rfl
  | cons x xs ih =>
    rw [List.reverse_cons, List.flatMap_append, requests_append, ih]
    simp

end History

/-! ## Section 2: Transports -/

/-- What answers requests, with whatever it remembers: the answer to a request depends on all that
    were sent so far, this one last. -/
abbrev Transport := List (Method × String) → Reply

/-- All answers in the history are those of the transport. -/
def Transport.Gave (τ : Transport) (hist : History) : Prop :=
  ∀ (later earlier : History) (method : Method) (url : String) (r : Reply),
    hist = later ++ ⟨.reply method url, r⟩ :: earlier → r = τ earlier.requests

namespace Transport

/-- What the transport answers to all requests after these. -/
def after (τ : Transport) (sent : List (Method × String)) : Transport :=
  fun more => τ (sent ++ more)

variable {τ : Transport} {hist more : History}

theorem gave_nil : τ.Gave [] := fun _ _ _ _ _ hIs => by simp at hIs

/-- One more answer is the transport's own, or one to something else than a request. -/
theorem Gave.cons (hGave : τ.Gave hist) {x : Answered}
    (hOwn : ∀ method url r, x = ⟨.reply method url, r⟩ → r = τ hist.requests) :
    τ.Gave (x :: hist) := by
  intro later earlier method url r hIs
  rcases List.cons_eq_append_iff.mp hIs with ⟨-, hFirst⟩ | ⟨later, -, hRest⟩
  · obtain ⟨hEq, rfl⟩ := List.cons.inj hFirst
    exact hOwn method url r hEq.symm
  · exact hGave later earlier method url r hRest

/-- What was answered first. -/
theorem Gave.of_append (hGave : τ.Gave (more ++ hist)) : τ.Gave hist := by
  intro later earlier method url r hIs
  apply hGave (more ++ later) earlier method url r
  simp [hIs]

/-- What was answered after that. -/
theorem Gave.afterwards (hGave : τ.Gave (more ++ hist)) : (τ.after hist.requests).Gave more := by
  intro later earlier method url r hIs
  show r = τ (hist.requests ++ earlier.requests)
  rw [← History.requests_append]
  apply hGave later (earlier ++ hist) method url r
  simp [hIs]

end Transport

/-! ## Section 3: Programs and what answers them -/

/-- What answers an operation of a program that is carried out by itself: the transport, if it waits
    for a reply; else the page, unless it waits for a task. -/
def Transport.answer? (τ : Transport) (h : Host) (past : History) (w : World) :
    (o : Op) → Option (o.Reply × World)
  | .reply .. => some (τ past.requests, w)
  | .sleep _ => some ((), w)
  | o => o.perform h w

/-- Such an answer is one, and it is the transport's own if it is a reply. -/
theorem Transport.answers_of_answer? {τ : Transport} {h : Host} {past : History} {w w' : World}
    {o : Op} {r : o.Reply} (hIs : τ.answer? h past w o = some (r, w')) :
    o.Answers h w r w' ∧ (τ.Gave past → τ.Gave (⟨o, r⟩ :: past)) := by
  cases o with
  | reply method url =>
    obtain ⟨rfl, rfl⟩ := Prod.mk.inj (Option.some.inj hIs)
    refine ⟨.reply method url _, fun hGave => hGave.cons fun _ _ _ hIs => ?_⟩
    obtain ⟨hOp, hReply⟩ := Answered.mk.inj hIs
    cases hOp
    exact (eq_of_heq hReply).symm
  | sleep ms =>
    obtain ⟨-, rfl⟩ := Prod.mk.inj (Option.some.inj hIs)
    exact ⟨.wake ms, fun hGave => hGave.cons fun _ _ _ hIs => by cases hIs⟩
  | _ => exact ⟨.perform hIs, fun hGave => hGave.cons fun _ _ _ hIs => by cases hIs⟩

namespace Load

variable {α : Type} {p : Load α}

/-- Carry out a program by itself, with the replies of a transport: what it comes to, what it has
    carried out, and the world at the end. -/
def serve? (h : Host) (τ : Transport) : Load α → World → History → Option (α × History × World)
  | .done a, w, past => some (a, past, w)
  | .ask o next, w, past =>
    match τ.answer? h past w o with
    | some (r, w') => serve? h τ (next r) w' (⟨o, r⟩ :: past)
    | none => none

/-- What evaluation brings to its end is a call. -/
theorem calls_of_serve? {h : Host} {τ : Transport} {w w' : World} {past hist : History} {a : α}
    (hIs : serve? h τ p w past = some (a, hist, w')) (hGave : τ.Gave past) :
    ∃ own, hist = own ++ past ∧ Calls h p w own (.done a) w' ∧ τ.Gave hist := by
  induction p generalizing w past with
  | done b =>
    obtain ⟨rfl, rfl, rfl⟩ : b = a ∧ past = hist ∧ w = w' := by simpa [serve?] using hIs
    exact ⟨[], rfl, .refl _ _, hGave⟩
  | ask o next ih =>
    rw [serve?] at hIs
    split at hIs
    · next r w₁ hAnswer =>
      obtain ⟨hAnswers, hNext⟩ := Transport.answers_of_answer? hAnswer
      obtain ⟨own, rfl, hCalls, hGave⟩ := ih r hIs (hNext hGave)
      exact ⟨own ++ [⟨o, r⟩], by simp, .own hAnswers hCalls, hGave⟩
    · cases hIs

/-- What evaluation finds of a program holds of a call of it. -/
theorem exists_calls_of_serve? {h : Host} {τ : Transport} {w : World}
    (holds : α × History × World → Bool) (hServe : (serve? h τ p w []).any holds = true) :
    ∃ a own w', Calls h p w own (.done a) w' ∧ τ.Gave own ∧ holds (a, own, w') = true := by
  obtain ⟨⟨a, hist, w'⟩, hIs, hHolds⟩ := (Option.any_eq_true ..).mp hServe
  obtain ⟨own, rfl, hCalls, hGave⟩ := calls_of_serve? hIs Transport.gave_nil
  rw [List.append_nil] at hGave hHolds
  exact ⟨a, own, w', hCalls, hGave, hHolds⟩

/-- **Whatever the transport, a program that only reaches for something remote comes to its end**,
    in every world. -/
theorem Only.exists_calls (hRemote : p.Remote) (h : Host) (w : World) (τ : Transport) :
    ∃ own a w', Calls h p w own (.done a) w' ∧ τ.Gave own := by
  -- From any point on, whatever was carried out before.
  suffices hFrom : ∀ w past, ∃ x, serve? h τ p w past = some x by
    obtain ⟨⟨a, hist, w'⟩, hIs⟩ := hFrom w []
    obtain ⟨own, rfl, hCalls, hGave⟩ := calls_of_serve? hIs Transport.gave_nil
    exact ⟨own, a, w', hCalls, List.append_nil own ▸ hGave⟩
  induction hRemote with
  | done a => exact fun w past => ⟨_, rfl⟩
  | @ask o next hOp _ ih =>
    intro w past
    obtain ⟨⟨r, w₁⟩, hAnswer⟩ : ∃ x, τ.answer? h past w o = some x := by
      cases o with
      | reply | sleep | store | host | send | log => exact ⟨_, rfl⟩
      | _ => cases hOp
    rw [serve?, hAnswer]
    exact ih r w₁ _

/-- So it has a history in which all answers are those of the transport. -/
theorem Only.exists_came (hSearches : p.Searches) (τ : Transport) :
    ∃ hist a, p.Came hist (.done a) ∧ τ.Gave hist := by
  obtain ⟨hist, a, _, hCalls, hGave⟩ := hSearches.nameless.remote.exists_calls (Site.host {}) {} τ
  exact ⟨hist, a, hCalls.came, hGave⟩

end Load

end Bundleless
