import Bundleless.Proofs.Transport
import Mathlib.Order.Bounds.Basic

/-! # Probes and their retries

    A probe is made of attempts. An attempt asks for the head alone, and for
    the whole where the head was refused as a method; its last reply is its
    outcome. The attempts of a probe, with any transport, are numbered from
    zero as if there were no end to them (`Transport.outcome`). The policy
    then says which of them is the last: the first one whose outcome is
    final, or the one that uses up the retries.

    Section 2 follows the program attempt by attempt. What is left of a probe
    after its first attempt is a probe again, with one retry less and with
    the transport as the attempt has left it (`Transport.after`).
-/

namespace Bundleless

/-! ## Section 1: Attempts -/

/-- The operations of a history, in the order in which they were carried out. -/
def History.ops (hist : History) : List Op := (hist.map (·.op)).reverse

@[simp] theorem History.ops_nil : History.ops [] = [] := rfl

@[simp] theorem History.ops_cons (x : Answered) (hist : History) :
    History.ops (x :: hist) = History.ops hist ++ [x.op] := by
  simp [History.ops]

@[simp] theorem History.ops_append (later earlier : History) :
    History.ops (later ++ earlier) = History.ops earlier ++ History.ops later := by
  simp [History.ops]

theorem History.requests_eq_ops (hist : History) :
    hist.requests = hist.ops.filterMap Op.sent? := by
  rw [History.ops, List.filterMap_reverse, List.filterMap_map]
  rfl

/-- A request is sent, and its reply is waited for. -/
def Op.exchange (request : Method × String) : List Op :=
  [.send request.1 request.2, .reply request.1 request.2]

namespace Transport

variable (o : ProbeOptions) (url : String)

/-- The head is refused as a method, and the policy has the whole asked for in its place. -/
def asksAgain (τ : Transport) : Bool :=
  (τ [(.head, url)]).toOption.any fun head => o.allowGetFallback && Status.refusesHead head.status

/-- The requests of one attempt. -/
def attempt (τ : Transport) : List (Method × String) :=
  (.head, url) :: if τ.asksAgain o url then [(.get, url)] else []

/-- The transport as it is before an attempt, after all attempts before that. -/
def before : Nat → Transport → Transport
  | 0, τ => τ
  | i + 1, τ => before i (τ.after (τ.attempt o url))

/-- The requests of an attempt. -/
def asked (τ : Transport) (i : Nat) : List (Method × String) := (before o url i τ).attempt o url

/-- The outcome of an attempt: the status of its last reply, or the failure of the network. -/
def outcome (τ : Transport) (i : Nat) : Except Failure Nat :=
  (before o url i τ (asked o url τ i)).map (·.status)

/-- The operations of a probe up to the end of attempt `last`: the attempts follow each other, and
    between attempt `i` and the next one there is the pause `pause i`. -/
def course (pause : Nat → Nat) (τ : Transport) (last : Nat) : List Op :=
  ((List.range last).flatMap fun i =>
    (asked o url τ i).flatMap Op.exchange ++ [.sleep (pause i)]) ++
  (asked o url τ last).flatMap Op.exchange

end Transport

namespace Transport

variable {o : ProbeOptions} {url : String} {τ : Transport}

/-- What follows the first attempt are the attempts with the transport as that has left it. -/
theorem course_succ (pause : Nat → Nat) (last : Nat) :
    τ.course o url pause (last + 1) = (τ.asked o url 0).flatMap Op.exchange ++
      [.sleep (pause 0)] ++
      (τ.after (τ.attempt o url)).course o url (fun i => pause (i + 1)) last := by
  have hNext (i : Nat) : τ.asked o url (i + 1) = (τ.after (τ.attempt o url)).asked o url i := rfl
  simp [course, List.range_succ_eq_map, List.flatMap_map, hNext]

end Transport

theorem Op.filterMap_exchange (requests : List (Method × String)) :
    (requests.flatMap Op.exchange).filterMap Op.sent? = requests := by
  induction requests with
  | nil => rfl
  | cons request requests ih =>
    rw [List.flatMap_cons, List.filterMap_append, ih]
    rfl

/-- The requests of exchanges. -/
theorem History.requests_of_exchange {hist : History} {requests : List (Method × String)}
    (hOps : hist.ops = requests.flatMap Op.exchange) : hist.requests = requests := by
  rw [requests_eq_ops, hOps, Op.filterMap_exchange]

/-- The outcome ends a probe: a success, or a status that does not pass. -/
def ProbeOptions.isFinal (outcome : Except Failure Nat) : Bool :=
  outcome.toOption.any fun status => Status.isSuccess status || !Status.isRetryable (some status)

namespace ProbeResult

/-- What a probe comes to whose last attempt has this outcome. -/
def ofOutcome (outcome : Except Failure Nat) : ProbeResult :=
  ⟨outcome.toOption.any Status.isSuccess, outcome.toOption⟩

/-- What is noted of a URL that was not reached. -/
def failure (url : String) : Except Failure Nat → Json
  | .ok status => .ofFields [("url", .string url), ("status", .ofNat status)]
  | .error e => .ofFields [("url", .string url), ("error", .string e.message)]

/-- What a probe does after its last attempt: it notes the URL, unless it was reached. -/
def notes (url : String) (outcome : Except Failure Nat) : List Op :=
  if (ofOutcome outcome).reachable then [] else [.log "probe:fail" (failure url outcome) .info]

end ProbeResult

/-! ## Section 2: What a probe carries out -/

namespace Load

variable {α β : Type} {o : ProbeOptions} {url : String} {τ : Transport} {hist : History}

/-- A program that begins with a request has sent it, and goes on with what the transport
    replied. -/
theorem came_request {method : Method} {f : Response → Attempt β} {r : Except Failure β}
    (hCame : (request method url >>= f).run.Came hist (.done r)) (hGave : τ.Gave hist) :
    ∃ rest, hist.ops = Op.exchange (method, url) ++ rest.ops ∧
      (τ.after [(method, url)]).Gave rest ∧
      (ExceptT.bindCont f (τ [(method, url)])).Came rest (.done r) := by
  obtain ⟨_, sent, rfl, hSent⟩ := Came.of_ask hCame
  obtain ⟨reply, rest, rfl, hRest⟩ := Came.of_ask hSent
  have hReply : reply = τ [(method, url)] :=
    hGave rest [⟨.send method url, ()⟩] method url reply (by simp)
  rw [List.append_assoc] at hGave
  refine ⟨rest, by simp [Op.exchange], hGave.afterwards, ?_⟩
  rw [← hReply]
  exact hRest

/-- The head is refused as a method exactly where the program asks again. -/
theorem asksAgain_eq {head : Response} (hHead : τ [(.head, url)] = .ok head) :
    τ.asksAgain o url = (!Status.isSuccess head.status && o.allowGetFallback &&
      Status.refusesHead head.status) := by
  have hNot : Status.refusesHead head.status = true → Status.isSuccess head.status = false := by
    simp only [Status.refusesHead, Status.isSuccess, Bool.or_eq_true, beq_iff_eq,
      Bool.and_eq_false_iff, decide_eq_false_iff_not]
    omega
  simp only [Transport.asksAgain, hHead, Except.toOption, Option.any_some]
  by_cases hRefuses : Status.refusesHead head.status = true
  · simp [hRefuses, hNot hRefuses]
  · simp [hRefuses]

/-- **An attempt** sends its requests, and comes to its outcome. -/
theorem came_check {r : Except Failure Nat} (hCame : (check o url).run.Came hist (.done r))
    (hGave : τ.Gave hist) :
    r = τ.outcome o url 0 ∧ hist.ops = (τ.asked o url 0).flatMap Op.exchange := by
  obtain ⟨rest, hOps, hGaveRest, hRest⟩ := came_request hCame hGave
  rw [hOps]
  show r = (τ (τ.attempt o url)).map (·.status) ∧
    Op.exchange (.head, url) ++ rest.ops = (τ.attempt o url).flatMap Op.exchange
  cases hHead : τ [(.head, url)] with
  | error e =>
    have hAttempt : τ.attempt o url = [(.head, url)] := by
      simp [Transport.attempt, Transport.asksAgain, hHead, Except.toOption]
    rw [hHead] at hRest
    obtain ⟨hDone, rfl⟩ := Came.of_done hRest
    rw [hAttempt, hHead]
    exact ⟨Load.done.inj hDone, by simp⟩
  | ok head =>
    rw [hHead] at hRest
    change (if _ then request .get url >>= fun get => pure get.status
      else pure head.status : Attempt Nat).run.Came rest (.done r) at hRest
    rw [← asksAgain_eq hHead] at hRest
    by_cases hAgain : τ.asksAgain o url = true
    · -- The second request has the last word.
      have hAttempt : τ.attempt o url = [(.head, url), (.get, url)] := by
        simp [Transport.attempt, hAgain]
      rw [if_pos hAgain] at hRest
      obtain ⟨last, hOps, -, hLast⟩ := came_request hRest hGaveRest
      have hBoth : τ.after [(.head, url)] [(.get, url)] = τ [(.head, url), (.get, url)] := rfl
      rw [hBoth] at hLast
      rw [hAttempt, hOps]
      cases hReply : τ [(.head, url), (.get, url)] with
      | error e | ok get =>
        rw [hReply] at hLast
        obtain ⟨hDone, rfl⟩ := Came.of_done hLast
        exact ⟨Load.done.inj hDone, by simp⟩
    · have hAttempt : τ.attempt o url = [(.head, url)] := by
        simp [Transport.attempt, hAgain]
      rw [if_neg hAgain] at hRest
      obtain ⟨hDone, rfl⟩ := Came.of_done hRest
      rw [hAttempt, hHead]
      exact ⟨Load.done.inj hDone, by simp⟩

/-- The end of a probe notes a failure, and gives the outcome as the result. -/
theorem came_conclude {outcome : Except Failure Nat} {result : ProbeResult}
    (hCame : (conclude url outcome).Came hist (.done result)) :
    result = .ofOutcome outcome ∧ hist.ops = ProbeResult.notes url outcome := by
  cases outcome with
  | error e =>
    obtain ⟨_, rest, rfl, hRest⟩ := Came.of_ask hCame
    obtain ⟨hDone, rfl⟩ := Came.of_done hRest
    exact ⟨Load.done.inj hDone, rfl⟩
  | ok status =>
    unfold conclude at hCame
    dsimp only at hCame
    by_cases hSuccess : Status.isSuccess status = true
    · rw [if_pos hSuccess] at hCame
      obtain ⟨hDone, rfl⟩ := Came.of_done hCame
      rw [Load.done.inj hDone]
      simp [ProbeResult.notes, ProbeResult.ofOutcome, Except.toOption, hSuccess]
    · rw [if_neg hSuccess] at hCame
      obtain ⟨_, rest, rfl, hRest⟩ := Came.of_ask hCame
      obtain ⟨hDone, rfl⟩ := Came.of_done hRest
      rw [Load.done.inj hDone]
      simp [ProbeResult.notes, ProbeResult.failure, ProbeResult.ofOutcome, Except.toOption,
        hSuccess]

/-- What ends a probe is what is not waited out. -/
theorem isFinal_eq (outcome : Except Failure Nat) :
    ProbeOptions.isFinal outcome = !isPassing outcome := by
  cases outcome with
  | error e => rfl
  | ok status =>
    have hPasses : Status.isRetryable (some status) = true → Status.isSuccess status = false := by
      unfold Status.isRetryable Status.isSuccess
      split
      · simp_all
      · simp_all
      · simp_all
        omega
    show (Status.isSuccess status || !Status.isRetryable (some status)) =
      !Status.isRetryable (some status)
    by_cases hRetryable : Status.isRetryable (some status) = true
    · simp [hRetryable, hPasses hRetryable]
    · simp [hRetryable]

/-- Where the first attempt does not end the probe, its last one comes after that. -/
theorem isLeast_succ {P : Nat → Prop} {left last : Nat} (hNot : ¬P 0)
    (hLast : IsLeast {i | P (i + 1) ∨ i = left} last) :
    IsLeast {i | P i ∨ i = left + 1} (last + 1) := by
  obtain ⟨hEnds, hLeast⟩ := hLast
  constructor
  · show P (last + 1) ∨ last + 1 = left + 1
    exact hEnds.imp_right (congrArg (· + 1))
  · intro i hi
    cases i with
    | zero =>
      have hUsedUp : 0 = left + 1 := hi.resolve_left hNot
      omega
    | succ i =>
      have hBelow : last ≤ i := hLeast (hi.imp_right Nat.succ.inj)
      omega

/-- **A probe follows its policy**, with any number of retries left and of pauses made. -/
theorem came_probeFrom {left retry : Nat} {result : ProbeResult}
    (hCame : (probeFrom o url left retry).Came hist (.done result)) (hGave : τ.Gave hist) :
    ∃ last, IsLeast {i | ProbeOptions.isFinal (τ.outcome o url i) = true ∨ i = left} last ∧
      hist.ops = τ.course o url (fun i => o.delay ↑(retry + i)) last ++
        ProbeResult.notes url (τ.outcome o url last) ∧
      result = .ofOutcome (τ.outcome o url last) := by
  induction left generalizing τ retry hist with
  | zero =>
    obtain ⟨outcome, first, rest, rfl, hCheck, hEnd⟩ := Came.of_bind hCame
    obtain ⟨rfl, hFirst⟩ := came_check hCheck hGave.of_append
    obtain ⟨hResult, hRest⟩ := came_conclude hEnd
    refine ⟨0, ⟨Or.inr rfl, fun _ _ => Nat.zero_le _⟩, ?_, hResult⟩
    simp [Transport.course, hFirst, hRest]
  | succ left ih =>
    obtain ⟨outcome, first, more, rfl, hCheck, hMore⟩ := Came.of_bind hCame
    obtain ⟨rfl, hFirst⟩ := came_check hCheck hGave.of_append
    by_cases hFinal : ProbeOptions.isFinal (τ.outcome o url 0) = true
    · have hNot : isPassing (τ.outcome o url 0) = false := by simpa [isFinal_eq] using hFinal
      simp only [hNot] at hMore
      obtain ⟨hResult, hEnd⟩ := came_conclude hMore
      refine ⟨0, ⟨Or.inl hFinal, fun _ _ => Nat.zero_le _⟩, ?_, hResult⟩
      simp [Transport.course, hFirst, hEnd]
    · have hPasses : isPassing (τ.outcome o url 0) = true := by simpa [isFinal_eq] using hFinal
      simp only [hPasses, if_true] at hMore
      obtain ⟨_, rest, rfl, hRest⟩ := Came.of_ask hMore
      -- A pause is no request: what is left of the probe follows on the first attempt.
      have hGaveRest : (τ.after (τ.attempt o url)).Gave rest := by
        have hRequests : first.requests = τ.attempt o url := History.requests_of_exchange hFirst
        rw [List.append_assoc] at hGave
        have hSent : History.requests ([⟨.sleep (o.delay retry), ()⟩] ++ first) =
            τ.attempt o url := by
          rw [History.requests_append, hRequests]
          exact List.append_nil _
        exact hSent ▸ hGave.afterwards
      obtain ⟨last, hLast, hOps, hResult⟩ := ih hRest hGaveRest
      refine ⟨last + 1, isLeast_succ hFinal hLast, ?_, hResult⟩
      have hPause : (fun i : Nat => o.delay ↑(retry + (i + 1))) =
          fun i => o.delay ↑(retry + 1 + i) := by
        funext i
        rw [Nat.add_right_comm retry 1 i, Nat.add_assoc]
      rw [Transport.course_succ, History.ops_append, History.ops_append, hFirst, hOps, hPause]
      simp
      rfl

end Load

/-! ## Section 3: The policy -/

/-- The operation notes that a URL was not reached. -/
def Op.notesFailure : Op → Bool
  | .log event .. => event == "probe:fail"
  | _ => false

/-- What a probe has carried out with this transport, and its result, are what the policy says:
    `last` is its last attempt. -/
structure ProbeOptions.Governs (o : ProbeOptions) (url : String) (τ : Transport) (last : Nat)
    (hist : History) (result : ProbeResult) : Prop where
  /-- The last attempt is the first one whose outcome is final, or the one that uses up the
      retries. -/
  least : IsLeast {i | isFinal (τ.outcome o url i) = true ∨ i = o.retries} last
  /-- All attempts up to the last one were made, in their order. -/
  requests : hist.requests = (List.range (last + 1)).flatMap (τ.asked o url)
  /-- Between attempt `i` and the next one, and nowhere else, there was the pause `delay i`. After
      the last one a failure was noted. Nothing else was done. -/
  ops : hist.ops = τ.course o url (fun i => o.delay i) last ++
    ProbeResult.notes url (τ.outcome o url last)
  /-- The URL was reached exactly if the last outcome is a success. -/
  reachable : result.reachable = true ↔
    ∃ status, τ.outcome o url last = .ok status ∧ Status.isSuccess status = true
  /-- The status is that of the last outcome. -/
  status : ∀ status, result.status = some status ↔ τ.outcome o url last = .ok status
  /-- There is none exactly if the network failed. -/
  unanswered : result.status = none ↔ ∃ e, τ.outcome o url last = .error e
  heads : (hist.requests.map (·.1)).count .head ≤ o.retries + 1
  gets : (hist.requests.map (·.1)).count .get ≤ o.retries + 1
  /-- A failure was noted once, a success never. -/
  failures : hist.ops.countP Op.notesFailure = if result.reachable then 0 else 1

namespace Transport

variable {o : ProbeOptions} {url : String} {τ : Transport}

/-- Pauses are no requests. -/
theorem filterMap_course (pause : Nat → Nat) (last : Nat) :
    (τ.course o url pause last).filterMap Op.sent? =
      (List.range (last + 1)).flatMap (τ.asked o url) := by
  induction last generalizing τ pause with
  | zero => simp [course, Op.filterMap_exchange]
  | succ last ih =>
    have hNext (i : Nat) : τ.asked o url (i + 1) = (τ.after (τ.attempt o url)).asked o url i := rfl
    rw [course_succ, List.filterMap_append, ih, List.range_succ_eq_map (n := last + 1),
      List.flatMap_cons, List.flatMap_map]
    simp [Op.filterMap_exchange, Op.sent?, hNext]

/-- An attempt asks once for the head, and at most once for the whole. -/
theorem count_asked (o : ProbeOptions) (url : String) (τ : Transport) (i : Nat) :
    ((τ.asked o url i).map (·.1)).count .head = 1 ∧
    ((τ.asked o url i).map (·.1)).count .get ≤ 1 := by
  unfold asked attempt
  split <;> simp

theorem count_requests (o : ProbeOptions) (url : String) (τ : Transport) (count : Nat) :
    (((List.range count).flatMap (τ.asked o url)).map (·.1)).count .head = count ∧
      (((List.range count).flatMap (τ.asked o url)).map (·.1)).count .get ≤ count := by
  induction count with
  | zero => simp
  | succ count ih =>
    obtain ⟨hHead, hGet⟩ := count_asked o url τ count
    simp only [List.range_succ, List.flatMap_append, List.flatMap_singleton, List.map_append,
      List.count_append]
    omega

/-- Nothing is noted before the last attempt has ended. -/
theorem countP_course (pause : Nat → Nat) (last : Nat) :
    (τ.course o url pause last).countP Op.notesFailure = 0 := by
  have hExchange (requests : List (Method × String)) :
      (requests.flatMap Op.exchange).countP Op.notesFailure = 0 := by
    induction requests with
    | nil => rfl
    | cons request requests ih => rw [List.flatMap_cons, List.countP_append, ih]; rfl
  induction last generalizing τ pause with
  | zero => simpa [course] using hExchange _
  | succ last ih =>
    rw [course_succ, List.countP_append, List.countP_append, ih, hExchange]
    rfl

end Transport

theorem ProbeResult.countP_notes (url : String) (outcome : Except Failure Nat) :
    (notes url outcome).countP Op.notesFailure =
      if (ofOutcome outcome).reachable then 0 else 1 := by
  unfold notes
  split <;> rfl

/-- What a probe has carried out, and its result, are governed by its policy. -/
theorem Load.governs_of_came {o : ProbeOptions} {url : String} {τ : Transport} {hist : History}
    {result : ProbeResult} (hCame : (probe o url).Came hist (.done result)) (hGave : τ.Gave hist) :
    ∃ last, o.Governs url τ last hist result := by
  obtain ⟨last, hLeast, hOps, rfl⟩ := came_probeFrom hCame hGave
  have hWithin : last ≤ o.retries := hLeast.2 (Or.inr rfl)
  have hRequests : hist.requests = (List.range (last + 1)).flatMap (τ.asked o url) := by
    have hNone : (ProbeResult.notes url (τ.outcome o url last)).filterMap Op.sent? = [] := by
      unfold ProbeResult.notes
      split <;> rfl
    rw [History.requests_eq_ops, hOps, List.filterMap_append, Transport.filterMap_course, hNone,
      List.append_nil]
  obtain ⟨hHeads, hGets⟩ := Transport.count_requests o url τ (last + 1)
  refine ⟨last, hLeast, hRequests, ?_, ?_, ?_, ?_, ?_, ?_, ?_⟩
  · simpa using hOps
  · cases hOutcome : τ.outcome o url last <;> simp [ProbeResult.ofOutcome, Except.toOption]
  · intro status
    cases hOutcome : τ.outcome o url last <;> simp [ProbeResult.ofOutcome, Except.toOption]
  · cases hOutcome : τ.outcome o url last <;> simp [ProbeResult.ofOutcome, Except.toOption]
  · rw [hRequests, hHeads]
    omega
  · rw [hRequests]
    omega
  · rw [hOps, List.countP_append, Transport.countP_course, ProbeResult.countP_notes, Nat.zero_add]

/-- **A probe does what its policy says.** With every transport it comes to an end, and whatever it
    has carried out by then, and its result, are governed by the policy. -/
theorem Load.probe_follows_policy (o : ProbeOptions) (url : String) (τ : Transport) :
    (∃ hist result, (probe o url).Came hist (.done result) ∧ τ.Gave hist) ∧
      ∀ hist result, (probe o url).Came hist (.done result) → τ.Gave hist →
        ∃ last, o.Governs url τ last hist result :=
  ⟨Load.Only.exists_came (searches_probeFrom o url _ _) τ, fun _ _ => governs_of_came⟩

/-- A server that is overloaded, then silent, and then refuses the head but gives the whole. -/
def Replay.flaky : Transport := fun sent =>
  [.ok ⟨503, ""⟩, .error (.network "reset"), .ok ⟨405, ""⟩].getD (sent.length - 1) (.ok ⟨200, ""⟩)

/-- With such a server a probe waits twice, and reaches the URL in its third attempt. -/
theorem Load.probe_follows_policy_flaky : ∃ hist result,
    (probe {} "https://e.test/x.js").Came hist (.done result) ∧ Replay.flaky.Gave hist ∧
      hist.ops = Op.exchange (.head, "https://e.test/x.js") ++ [.sleep 300] ++
        Op.exchange (.head, "https://e.test/x.js") ++ [.sleep 450] ++
        Op.exchange (.head, "https://e.test/x.js") ++ Op.exchange (.get, "https://e.test/x.js") ∧
      result = ⟨true, some 200⟩ := by
  obtain ⟨⟨hist, result, hCame, hGave⟩, hFollows⟩ :=
    Load.probe_follows_policy {} "https://e.test/x.js" Replay.flaky
  obtain ⟨last, hGoverns⟩ := hFollows hist result hCame hGave
  have hLast : last = 2 := by
    apply hGoverns.least.unique
    constructor
    · exact Or.inr rfl
    · intro i hi
      by_contra hLess
      have hCases : i = 0 ∨ i = 1 := by omega
      rcases hCases with rfl | rfl <;> revert hi <;> decide
  subst hLast
  obtain ⟨reachable, status⟩ := result
  have hReached : reachable = true := hGoverns.reachable.mpr ⟨200, by decide, by decide⟩
  have hStatus : status = some 200 := (hGoverns.status 200).mpr (by decide)
  exact ⟨hist, _, hCame, hGave, hGoverns.ops.trans (by decide), by rw [hReached, hStatus]⟩

end Bundleless
