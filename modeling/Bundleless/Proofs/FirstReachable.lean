import Bundleless.Proofs.Replay
import Bundleless.Proofs.Retries
import Mathlib.Data.List.Basic
import Mathlib.Data.List.TakeWhile

/-! # The first candidate that can be reached

    The URL of a dependency is found by probing its candidates in their
    order, each probe to its end before the next one begins. What a whole
    resolution has carried out is therefore a list of complete probes and
    one note (`Tried`): all of them but the last came to nothing, and the
    last one decides. Each probe is what the policy makes of the transport
    as the probes before it have left it (`Tried.governed`).
-/

namespace Bundleless

/-! ## Section 1: Resolutions -/

/-- A probe of a URL: what it has carried out, the latest first, and its result. -/
structure Probed where
  url : String
  hist : History
  result : ProbeResult

/-- The probe was carried out from its beginning to its end. -/
def Probed.IsComplete (o : ProbeOptions) (x : Probed) : Prop :=
  (Load.probe o x.url).Came x.hist (.done x.result)

/-- What a resolution has carried out, and what it has come to: it has tried candidates in their
    order by these probes, up to the first that was reached, or all of them. A failure names `all`.
    -/
structure Tried (o : ProbeOptions) (name : String) (all candidates : List String)
    (probes : List Probed) (hist : History) (r : Except Failure String) : Prop where
  complete : ∀ x ∈ probes, x.IsComplete o
  /-- The first candidates were probed, each once. -/
  inOrder : probes.map (·.url) <+: candidates
  /-- All candidates before the last one that was probed could not be reached. -/
  unreachable : ∀ x ∈ probes.dropLast, x.result.reachable = false
  /-- The last one was reached and is the answer, or there was no other and none could be reached.
      -/
  ends : (∃ x, probes.getLast? = some x ∧ x.result.reachable = true ∧ r = .ok x.url) ∨
    (probes.map (·.url) = candidates ∧ (∀ x ∈ probes, x.result.reachable = false) ∧
      r = .error (.unresolved name all))
  /-- Beside the probes, which follow each other, the outcome was noted, and nothing else was done.
      -/
  history : ∃ event detail, hist =
    ⟨.log event detail .info, ()⟩ :: probes.reverse.flatMap (·.hist)

namespace Tried

variable {o : ProbeOptions} {name : String} {all candidates : List String} {probes : List Probed}
  {hist : History} {r : Except Failure String}

/-- The requests are those of the probes, one probe after the other. -/
theorem requests_eq (hTried : Tried o name all candidates probes hist r) :
    hist.requests = probes.flatMap (·.hist.requests) := by
  obtain ⟨event, detail, rfl⟩ := hTried.history
  have hProbes := History.requests_parts (·.hist) probes
  exact (History.requests_append [_] _).trans ((List.append_nil _).trans hProbes)

/-- A candidate that could not be reached goes before. -/
theorem skip (hTried : Tried o name all candidates probes hist r) {x : Probed}
    (hComplete : x.IsComplete o) (hNot : x.result.reachable = false) :
    Tried o name all (x.url :: candidates) (x :: probes) (hist ++ x.hist) r where
  complete := List.forall_mem_cons.mpr ⟨hComplete, hTried.complete⟩
  inOrder := by
    rw [List.map_cons]
    exact (List.prefix_cons_inj _).mpr hTried.inOrder
  unreachable := by
    cases probes with
    | nil => exact fun _ hMem => by cases hMem
    | cons y probes =>
      rw [List.dropLast_cons_cons]
      exact List.forall_mem_cons.mpr ⟨hNot, hTried.unreachable⟩
  ends := by
    refine hTried.ends.imp ?_ fun ⟨hAll, hNone, hFails⟩ => ?_
    · rintro ⟨y, hLast, hReached⟩
      exact ⟨y, by rw [List.getLast?_cons, hLast, Option.getD_some], hReached⟩
    · exact ⟨congrArg (x.url :: ·) hAll, List.forall_mem_cons.mpr ⟨hNot, hNone⟩, hFails⟩
  history := by
    obtain ⟨event, detail, rfl⟩ := hTried.history
    exact ⟨event, detail, by simp⟩

end Tried

namespace Attempt

/-- A part that cannot fail is carried out first. -/
theorem run_lift_bind {α β : Type} (p : Load α) (f : α → Attempt β) :
    ((liftM p : Attempt α) >>= f).run = p >>= fun a => (f a).run := by
  show ((p >>= fun a => Load.done (Except.ok a)) >>= ExceptT.bindCont f) = _
  rw [Load.bind_assoc]
  rfl

end Attempt

namespace Load

/-- **Every resolution is a list of probes**, whatever is answered. -/
theorem came_firstReachable {o : ProbeOptions} {name : String} {all candidates : List String}
    {hist : History} {r : Except Failure String}
    (hCame : (firstReachable o name all candidates).run.Came hist (.done r)) :
    ∃ probes, Tried o name all candidates probes hist r := by
  induction candidates generalizing hist with
  | nil =>
    unfold firstReachable at hCame
    obtain ⟨_, after, rfl, hThrow⟩ := Came.of_ask hCame
    obtain ⟨hFails, rfl⟩ := Came.of_done hThrow
    exact ⟨[], fun _ hMem => (by cases hMem), List.nil_prefix, fun _ hMem => (by cases hMem),
      Or.inr ⟨rfl, fun _ hMem => (by cases hMem), Load.done.inj hFails⟩, _, _, rfl⟩
  | cons url rest ih =>
    unfold firstReachable at hCame
    rw [Attempt.run_lift_bind] at hCame
    obtain ⟨result, before, after, rfl, hProbe, hRest⟩ := hCame.of_bind
    let x : Probed := ⟨url, before, result⟩
    split at hRest
    · next hReached =>
      obtain ⟨_, last, rfl, hReturn⟩ := Came.of_ask hRest
      obtain ⟨hOk, rfl⟩ := Came.of_done hReturn
      exact ⟨[x], List.forall_mem_singleton.mpr hProbe, List.prefix_append [url] rest,
        fun _ hMem => (by cases hMem), Or.inl ⟨x, rfl, hReached, Load.done.inj hOk⟩, _, _,
        congrArg (_ :: ·) (List.append_nil before).symm⟩
    · next hNot =>
      obtain ⟨probes, hTried⟩ := ih hRest
      exact ⟨x :: probes, hTried.skip (x := x) hProbe (Bool.eq_false_iff.mpr hNot)⟩

/-- A probe sends no request but for its URL. -/
theorem url_of_probed {o : ProbeOptions} {x : Probed} (hComplete : x.IsComplete o)
    {request : Method × String} (hMem : request ∈ x.hist.requests) : request.2 = x.url := by
  have hOnly : (probe o x.url).Only fun o => ∀ request, o.sent? = some request →
      request.2 = x.url := by
    refine only_probeFrom _ _ _ (fun _ _ hIs => ?_) (fun _ _ hIs => ?_) (fun _ _ hIs => ?_)
      fun _ _ hIs => ?_
    · exact (congrArg Prod.snd (Option.some.inj hIs)).symm
    all_goals cases hIs
  obtain ⟨y, hy, hSent⟩ := History.mem_requests.mp hMem
  exact hOnly.of_mem hComplete hy request hSent

end Load

namespace Tried

variable {o : ProbeOptions} {name : String} {all candidates : List String} {probes : List Probed}
  {hist : History} {r : Except Failure String}

/-- The candidates after the one that decided are never asked for. -/
theorem not_requested (hTried : Tried o name all candidates probes hist r)
    (hNodup : candidates.Nodup) {url : String} (hLater : url ∈ candidates.drop probes.length)
    (method : Method) : (method, url) ∉ hist.requests := by
  rw [hTried.requests_eq]
  intro hMem
  obtain ⟨x, hx, hRequest⟩ := List.mem_flatMap.mp hMem
  have hUrl : url = x.url := Load.url_of_probed (hTried.complete x hx) hRequest
  -- The candidate stands before the others, where it was probed, and among them.
  obtain ⟨rest, rfl⟩ := hTried.inOrder
  have hFirst : url ∈ probes.map (·.url) := List.mem_map.mpr ⟨x, hx, hUrl.symm⟩
  have hRest : url ∈ rest := by simpa using hLater
  exact (List.nodup_append.mp hNodup).2.2 url hFirst url hRest rfl

/-- Where the same URLs can be reached at any time, the first such candidate is found, and only it
    and those before it were probed. -/
theorem finds_first (hTried : Tried o name all candidates probes hist r) {p : String → Bool}
    (hThere : ∀ x ∈ probes, x.result.reachable = p x.url) :
    probes.map (·.url) = candidates.takeWhile (!p ·) ++ (candidates.find? p).toList ∧
      r = (candidates.find? p).elim (.error (.unresolved name all)) .ok := by
  rcases hTried.ends with ⟨x, hLast, hReached, rfl⟩ | ⟨rfl, hNone, rfl⟩
  · obtain ⟨before, rfl⟩ := List.getLast?_eq_some_iff.mp hLast
    obtain ⟨rest, rfl⟩ := hTried.inOrder
    have hNotBefore : ∀ url ∈ before.map (·.url), p url = false := by
      intro url hMem
      obtain ⟨y, hy, rfl⟩ := List.mem_map.mp hMem
      rw [← hThere y (List.mem_append_left _ hy)]
      apply hTried.unreachable
      rwa [List.dropLast_concat]
    have hHere : p x.url = true := by
      rw [← hThere x (List.mem_append_right _ List.mem_cons_self), hReached]
    have hFind : (before.map (·.url)).find? p = none := by
      simpa [List.find?_eq_none] using hNotBefore
    have hTake : ∀ more, (before.map (·.url) ++ more).takeWhile (!p ·) =
        before.map (·.url) ++ more.takeWhile (!p ·) := fun more =>
      List.takeWhile_append_of_pos fun url hMem => by rw [hNotBefore url hMem, Bool.not_false]
    simp [List.find?_append, hFind, hTake, hHere]
  · have hNowhere : ∀ url ∈ probes.map (·.url), p url = false := by
      intro url hMem
      obtain ⟨y, hy, rfl⟩ := List.mem_map.mp hMem
      rw [← hThere y hy, hNone y hy]
    have hFind : (probes.map (·.url)).find? p = none := by
      simpa [List.find?_eq_none] using hNowhere
    have hTake : (probes.map (·.url)).takeWhile (!p ·) = probes.map (·.url) :=
      List.takeWhile_eq_self_iff.mpr fun url hMem => by rw [hNowhere url hMem, Bool.not_false]
    rw [hFind, hTake]
    exact ⟨(List.append_nil _).symm, rfl⟩

/-- Each probe is governed by the policy, with the transport as it is after the requests of the
    probes before it. -/
theorem governed (hTried : Tried o name all candidates probes hist r) {τ : Transport}
    (hGave : τ.Gave hist) {before after : List Probed} {x : Probed}
    (hIs : probes = before ++ x :: after) :
    ∃ last, o.Governs x.url (τ.after (before.flatMap (·.hist.requests))) last x.hist x.result := by
  have hComplete : x.IsComplete o := hTried.complete x (by simp [hIs])
  obtain ⟨event, detail, hHist⟩ := hTried.history
  have hParts : hist = (⟨.log event detail .info, ()⟩ :: after.reverse.flatMap (·.hist)) ++
      (x.hist ++ before.reverse.flatMap (·.hist)) := by
    rw [hHist, hIs]
    simp
  rw [hParts] at hGave
  rw [← History.requests_parts]
  exact Load.governs_of_came hComplete hGave.of_append.afterwards

end Tried

/-! ## Section 2: Dependencies and icons -/

theorem Providers.nodup_candidates (p : Providers) (d : Descriptor) : (p.candidates d).Nodup :=
  Distinct.nodup_firsts _

theorem Providers.nodup_ruleCandidates (p : Providers) (r : Rule) (icon : String) :
    (p.ruleCandidates r icon).Nodup := Distinct.nodup_firsts _

/-- A search fails only when it has tried all candidates. -/
theorem Load.of_came_resolveAmong {o : ProbeOptions} {name : String} {candidates : List String}
    {hist : History} {e : Failure}
    (hCame : (resolveAmong o name candidates).run.Came hist (.done (.error e))) :
    e = .unresolved name candidates := by
  obtain ⟨probes, hTried⟩ := came_firstReachable hCame
  rcases hTried.ends with ⟨x, -, -, hIs⟩ | ⟨-, -, hIs⟩
  · cases hIs
  · exact Except.error.inj hIs

/-- Where something is can only fail to be found if nothing can be reached. -/
theorem Load.of_came_resolve {l : Loader} {d : Descriptor} {hist : History} {e : Failure}
    (hCame : (resolve l d).run.Came hist (.done (.error e))) :
    d.verbatimUrl? = none ∧ (∀ x ∈ hist, x.op.isSearch = true) ∧
      e = .unresolved (if d.name = "" then unnamed else d.name) (l.providers.candidates d) := by
  have hSearch : ∀ x ∈ hist, x.op.isSearch = true := fun _ hMem =>
    (searches_resolve l d).of_mem hCame hMem
  unfold resolve at hCame
  split at hCame
  · cases hCame.of_done.1
  · next hNone => exact ⟨hNone, hSearch, of_came_resolveAmong hCame⟩

/-- The program finds the first of the candidates that can be reached. It comes to an end with every
    transport, and whatever is answered, what it has carried out is one probe after the other, up to
    the one that decides. Each of them sends the requests that the policy says, and comes to the
    result that it says, for the transport as the probes before have left it. -/
structure Load.FindsFirst (p : Attempt String) (o : ProbeOptions) (name : String)
    (candidates : List String) : Prop where
  ends : ∀ τ : Transport, ∃ hist r, p.run.Came hist (.done r) ∧ τ.Gave hist
  tries : ∀ hist r, p.run.Came hist (.done r) → ∃ probes,
    Tried o name candidates candidates probes hist r ∧
      hist.requests = probes.flatMap (·.hist.requests) ∧
      (∀ url ∈ candidates.drop probes.length, ∀ method, (method, url) ∉ hist.requests) ∧
      ∀ τ : Transport, τ.Gave hist → ∀ before x after, probes = before ++ x :: after →
        ∃ last, o.Governs x.url (τ.after (before.flatMap (·.hist.requests))) last x.hist x.result

theorem Load.findsFirst_resolveAmong (o : ProbeOptions) (name : String) {candidates : List String}
    (hNodup : candidates.Nodup) :
    FindsFirst (resolveAmong o name candidates) o name candidates where
  ends τ := Load.Only.exists_came (searches_firstReachable o name candidates candidates) τ
  tries hist r hCame := by
    obtain ⟨probes, hTried⟩ := came_firstReachable hCame
    refine ⟨probes, hTried, hTried.requests_eq, ?_, ?_⟩
    · exact fun url hLater => hTried.not_requested hNodup hLater
    · exact fun τ hGave before x after hIs => hTried.governed hGave hIs

/-- **The URL of a dependency is the first candidate that can be reached.** One that is given is
    used as it stands, and nothing is carried out. The URL of an icon under a rule is found alike.
    -/
theorem Load.finds_first_reachable (l : Loader) :
    (∀ (d : Descriptor) (url : String), d.verbatimUrl? = some url →
      ∀ hist q, (resolve l d).run.Came hist q → hist = [] ∧ q = .done (.ok url)) ∧
    (∀ d : Descriptor, d.verbatimUrl? = none →
      FindsFirst (resolve l d) l.probe (if d.name = "" then unnamed else d.name)
        (l.providers.candidates d)) ∧
    ∀ (r : Rule) (name icon : String),
      FindsFirst (resolveIcon l r name icon) l.probe name (l.providers.ruleCandidates r icon) := by
  refine ⟨fun d url hGiven hist q hCame => ?_, fun d hNone => ?_, fun r name icon => ?_⟩
  · have hIs : (resolve l d).run = .done (.ok url) := by
      unfold resolve
      rw [hGiven]
      rfl
    rw [hIs] at hCame
    exact hCame.of_done.symm
  · unfold resolve
    rw [hNone]
    exact findsFirst_resolveAmong _ _ (l.providers.nodup_candidates d)
  · exact findsFirst_resolveAmong _ _ (l.providers.nodup_ruleCandidates r icon)

namespace Replay

/-- A network in which only the second of the public providers has the package. -/
def onlySecond : Transport := fun sent =>
  if sent.getLast?.map (·.2) = some "https://unpkg.com/react@18" then found "" else missing

/-- With such a network a probe is one request, at any time. -/
theorem governs_onlySecond {sent : List (Method × String)} {url : String} {last : Nat}
    {hist : History} {result : ProbeResult}
    (hGoverns : ProbeOptions.Governs {} url (onlySecond.after sent) last hist result) :
    hist.requests = [(.head, url)] ∧
      result.reachable = decide (url = "https://unpkg.com/react@18") := by
  let status := if url = "https://unpkg.com/react@18" then 200 else 404
  have hReply : onlySecond.after sent [(.head, url)] = .ok ⟨status, ""⟩ := by
    by_cases hUrl : url = "https://unpkg.com/react@18" <;>
      simp [Transport.after, onlySecond, status, hUrl, found, missing]
  have hOnce : (onlySecond.after sent).asksAgain {} url = false := by
    rw [Transport.asksAgain, hReply]
    by_cases hUrl : url = "https://unpkg.com/react@18" <;> simp only [status, hUrl] <;> decide
  have hAsked : (onlySecond.after sent).asked {} url 0 = [(.head, url)] := by
    show (onlySecond.after sent).attempt {} url = _
    rw [Transport.attempt, hOnce]
    rfl
  have hOutcome : (onlySecond.after sent).outcome {} url 0 = .ok status := by
    rw [Transport.outcome, hAsked]
    show (onlySecond.after sent [(.head, url)]).map _ = _
    rw [hReply]
    rfl
  have hFinal : ProbeOptions.isFinal (.ok status) = true := by
    by_cases hUrl : url = "https://unpkg.com/react@18" <;> simp only [status, hUrl] <;> decide
  obtain rfl : last = 0 := by
    have hNow : last ≤ 0 := hGoverns.least.2 (Or.inl (by rw [hOutcome]; exact hFinal))
    omega
  constructor
  · rw [hGoverns.requests]
    simpa using hAsked
  · apply Bool.eq_iff_iff.mpr
    rw [hGoverns.reachable, hOutcome]
    by_cases hUrl : url = "https://unpkg.com/react@18" <;> simp [status, hUrl, Status.isSuccess]

end Replay

/-- A package without hints is looked for at the public providers, and one with a URL nowhere. Where
    only the second provider has it, both are asked for the head alone, one after the other. -/
theorem Load.finds_first_reachable_public :
    (∃ hist, (resolve Replay.loader { name := "react", version := some "18" }).run.Came hist
        (.done (.ok "https://unpkg.com/react@18")) ∧ Replay.onlySecond.Gave hist ∧
      hist.requests = [(.head, "https://cdn.jsdelivr.net/npm/react@18"),
        (.head, "https://unpkg.com/react@18")]) ∧
    (Load.FindsFirst (resolve Replay.loader { name := "react", version := some "18" }) {} "react"
        ["https://cdn.jsdelivr.net/npm/react@18", "https://unpkg.com/react@18"]) ∧
      ∀ hist q, (resolve Replay.loader { url := some "https://e.test/a.js" }).run.Came hist q →
        hist = [] ∧ q = .done (.ok "https://e.test/a.js") := by
  obtain ⟨hVerbatim, hFinds, -⟩ := Load.finds_first_reachable Replay.loader
  have hCandidates :
      Replay.loader.providers.candidates { name := "react", version := some "18" } =
        ["https://cdn.jsdelivr.net/npm/react@18", "https://unpkg.com/react@18"] := by decide
  have hReact := hCandidates ▸ hFinds { name := "react", version := some "18" } rfl
  refine ⟨?_, hReact, hVerbatim _ _ (by decide)⟩
  obtain ⟨hist, r, hCame, hGave⟩ := hReact.ends Replay.onlySecond
  obtain ⟨probes, hTried, hRequests, -, hGoverned⟩ := hReact.tries hist r hCame
  have hEach : ∀ x ∈ probes, x.hist.requests = [(.head, x.url)] ∧
      x.result.reachable = decide (x.url = "https://unpkg.com/react@18") := by
    intro x hMem
    obtain ⟨before, after, hIs⟩ := List.append_of_mem hMem
    obtain ⟨last, hGoverns⟩ := hGoverned Replay.onlySecond hGave before x after hIs
    exact Replay.governs_onlySecond hGoverns
  obtain ⟨hUrls, rfl⟩ := hTried.finds_first
    (p := (· = "https://unpkg.com/react@18")) fun x hMem => (hEach x hMem).2
  refine ⟨hist, hCame, hGave, ?_⟩
  calc hist.requests
    _ = probes.flatMap fun x => [(.head, x.url)] := by
      rw [hRequests]
      exact List.flatMap_congr fun x hMem => (hEach x hMem).1
    _ = (probes.map (·.url)).map (Prod.mk .head) := by rw [List.map_map, List.map_eq_flatMap]; rfl
    _ = _ := by rw [hUrls]; rfl

end Bundleless
