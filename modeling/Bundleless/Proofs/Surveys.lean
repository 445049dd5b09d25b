import Bundleless.Cli.Program
import Bundleless.Proofs.Rounds
import Bundleless.Proofs.Trimming
import Mathlib.Data.List.Forall2

/-! # Surveys

    A survey goes through all tools, then all library modules, then all
    names, and a failure ends nothing. Resolving and listing go different
    ways, which meet in how a subject is searched for: what is listed is what
    a search takes as it stands, or all that a search in vain has tried.

    What is printed is written down here letter by letter, with the sequences
    that colour it: a heading for every group that has members, and the lines
    on each member (`grouped`, `Visit.line`, `Subject.Lists`).
-/

namespace Bundleless

/-! ## Section 1: Searches that come to nothing -/

namespace Load

/-- Where nothing is, one attempt is enough to see it. -/
theorem exists_came_probe (o : ProbeOptions) (url : String) :
    ∃ hist, (probe o url).Came hist (.done ⟨false, some 404⟩) := by
  have hCheck : ∃ hist, (check o url).run.Came hist (.done (.ok 404)) := by
    obtain ⟨_, _, fallback⟩ := o
    cases fallback <;> exact ⟨_, .ask () (.ask (Except.ok ⟨404, ""⟩ : Reply) .start)⟩
  have hConclude : ∃ hist, (conclude url (.ok 404)).Came hist (.done ⟨false, some 404⟩) :=
    ⟨_, .ask () .start⟩
  obtain ⟨before, hCheck⟩ := hCheck
  obtain ⟨after, hConclude⟩ := hConclude
  unfold probe
  cases o.retries with
  | zero => exact ⟨after ++ before, hCheck.bind hConclude⟩
  | succ left => exact ⟨after ++ before, hCheck.bind hConclude⟩

/-- So a search can be in vain, whatever it tries. -/
theorem exists_came_resolveAmong (o : ProbeOptions) (name : String) (candidates : List String) :
    ∃ hist, (resolveAmong o name candidates).run.Came hist
      (.done (.error (.unresolved name candidates))) := by
  -- From any of the candidates on, as those that were tried are named in the end.
  suffices hFrom : ∀ rest, ∃ hist, (firstReachable o name candidates rest).run.Came hist
      (.done (.error (.unresolved name candidates))) from hFrom candidates
  intro rest
  induction rest with
  | nil => exact ⟨_, .ask () .start⟩
  | cons url rest ih =>
    obtain ⟨before, hProbe⟩ := exists_came_probe o url
    obtain ⟨after, hRest⟩ := ih
    unfold firstReachable
    rw [Attempt.run_lift_bind]
    exact ⟨after ++ before, hProbe.bind hRest⟩

end Load

namespace Cli

open Load (resolve resolveIcon)

/-! ## Section 2: Lines -/

/-- A text in one of the styles, written out. -/
theorem Style.paint_eq (style : Style) (text : String) : style.paint text =
    match style with
    | .bold => "\x1b[1m" ++ text ++ "\x1b[0m"
    | .dim => "\x1b[2m" ++ text ++ "\x1b[0m"
    | .red => "\x1b[31m" ++ text ++ "\x1b[39m"
    | .green => "\x1b[32m" ++ text ++ "\x1b[39m"
    | .yellow => "\x1b[33m" ++ text ++ "\x1b[39m"
    | .cyan => "\x1b[36m" ++ text ++ "\x1b[39m" := by
  cases style <;> rfl

theorem join_eq_intercalate (w : String) (pieces : List String) :
    Text.join w pieces = w.intercalate pieces := by
  induction pieces with
  | nil => rfl
  | cons s pieces ih =>
    cases pieces with
    | nil => exact String.intercalate_singleton.symm
    | cons t rest => rw [Text.join, ih, String.intercalate_cons_cons]

namespace Finding

theorem lines_resolved (name url : String) : (resolved name url).lines =
    ["  \x1b[32m✓\x1b[39m " ++ name ++ " -> \x1b[36m" ++ url ++ "\x1b[39m"] := by
  simp [lines, Style.paint_eq, ← String.toList_inj]

theorem lines_failed (name asked : String) (tried : List String) :
    (failed name (.unresolved asked tried)).lines =
      ["  \x1b[31m✗\x1b[39m " ++ name ++ ": Unable to resolve URL for module " ++ asked ++
        " (tried: " ++ ", ".intercalate tried ++ ")"] := by
  have hLine (message : String) : "  " ++ Style.red.paint "✗" ++ " " ++ name ++ ": " ++ message =
      "  \x1b[31m✗\x1b[39m " ++ name ++ (": " ++ message) := by
    simp [Style.paint_eq, ← String.toList_inj]
  have hMessage : ": " ++ (Failure.unresolved asked tried).message =
      ": Unable to resolve URL for module " ++ asked ++ " (tried: " ++
        Text.join ", " tried ++ ")" := by
    show ": " ++ ("Unable to resolve URL for module " ++ asked ++ " (tried: " ++
      Text.join ", " tried ++ ")") = _
    generalize Text.join ", " tried = list
    simp [← String.toList_inj]
  show ["  " ++ Style.red.paint "✗" ++ " " ++ name ++ ": " ++
    (Failure.unresolved asked tried).message] = _
  rw [hLine, hMessage, join_eq_intercalate]
  simp only [String.append_assoc]

theorem lines_noRule (name : String) :
    (noRule name).lines = ["  \x1b[31m✗\x1b[39m " ++ name ++ ": no matching rule"] := by
  simp [lines, Style.paint_eq]

theorem lines_verbatim (name url : String) : (verbatim name url).lines =
    ["  \x1b[36m" ++ name ++ "\x1b[39m",
      "    \x1b[2m" ++ url ++ "\x1b[0m \x1b[2m(verbatim)\x1b[0m"] := by
  simp [lines, Style.paint_eq, ← String.toList_inj]

theorem lines_candidates (name : String) (urls : List String) : (candidates name urls).lines =
    ("  \x1b[36m" ++ name ++ "\x1b[39m") ::
      urls.map fun url => "    \x1b[2m" ++ url ++ "\x1b[0m" := by
  have hName : "  " ++ Style.cyan.paint name = "  \x1b[36m" ++ name ++ "\x1b[39m" := by
    simp [Style.paint_eq, ← String.toList_inj]
  have hUrl (url : String) :
      "    " ++ Style.dim.paint url = "    \x1b[2m" ++ url ++ "\x1b[0m" := by
    simp [Style.paint_eq, ← String.toList_inj]
  simp only [lines, hName, hUrl]

end Finding

/-- The lines on the members of a group, under its heading. Nothing is said of a group without
    members. -/
def grouped (title : String) : List (List String) → List String
  | [] => []
  | members => ("\x1b[33m" ++ title ++ ":\x1b[39m") :: members.flatten

/-- The lines on all three groups. -/
def printed (tools modules dynamic : List (List String)) : List String :=
  grouped "tools" tools ++ grouped "modules" modules ++ grouped "dynamic modules" dynamic

theorem Section.lines_eq_grouped (title : String) (findings : List Finding) :
    (⟨title, findings⟩ : Section).lines = grouped title (findings.map Finding.lines) := by
  cases findings with
  | nil => rfl
  | cons f findings =>
    have hHeading : Style.yellow.paint (title ++ ":") = "\x1b[33m" ++ title ++ ":\x1b[39m" := by
      simp [Style.paint_eq, ← String.toList_inj]
    show Style.yellow.paint (title ++ ":") :: (f :: findings).flatMap Finding.lines = _
    rw [hHeading]
    rfl

theorem Survey.lines_eq_printed (tools modules dynamic : List Finding) :
    Survey.lines ⟨[⟨"tools", tools⟩, ⟨"modules", modules⟩, ⟨"dynamic modules", dynamic⟩]⟩ =
      printed (tools.map Finding.lines) (modules.map Finding.lines)
        (dynamic.map Finding.lines) := by
  simp [Survey.lines, printed, Section.lines_eq_grouped]

/-! ## Section 3: Subjects -/

/-- What a survey asks after: a dependency that is declared, or a name. -/
inductive Subject where
  | dependency (d : Descriptor)
  | name (name : String)

namespace Subject

/-- What the subject is called. -/
def called : Subject → String
  | dependency d => d.name
  | name n => n

/-- How the URL of the subject is found: that of a name under the first rule that covers it, if one
    does. -/
def search? (l : Loader) : Subject → Option (Attempt String)
  | dependency d => some (resolve l d)
  | name n => (l.rules.find? (·.covers n)).map fun r => resolveIcon l r n (r.icon n)

theorem search?_dependency (l : Loader) (d : Descriptor) :
    search? l (.dependency d) = some (resolve l d) := rfl

theorem search?_name (l : Loader) (n : String) : search? l (.name n) =
    (l.rules.find? (·.covers n)).map fun r => resolveIcon l r n (r.icon n) := rfl

/-- The lines of a listing on a subject agree with a search for it. -/
inductive Lists (l : Loader) : Subject → List String → Prop
  /-- The URL that is given, which a search takes at once. -/
  | verbatim {d : Descriptor} {url : String} (hGiven : d.url = some url) (hSome : url ≠ "")
      (hTaken : (resolve l d).run = .done (.ok url)) :
      Lists l (.dependency d) ["  \x1b[36m" ++ d.name ++ "\x1b[39m",
        "    \x1b[2m" ++ url ++ "\x1b[0m \x1b[2m(verbatim)\x1b[0m"]
  /-- What a search in vain has tried; and it can be in vain. -/
  | candidates {s : Subject} {p : Attempt String} {urls : List String}
      (hSearch : s.search? l = some p)
      (hTried : ∀ hist e, p.run.Came hist (.done (.error e)) → ∃ name, e = .unresolved name urls)
      (hFails : ∃ hist name, p.run.Came hist (.done (.error (.unresolved name urls)))) :
      Lists l s (("  \x1b[36m" ++ s.called ++ "\x1b[39m") ::
        urls.map fun url => "    \x1b[2m" ++ url ++ "\x1b[0m")
  | noRule {s : Subject} (hNone : s.search? l = none) :
      Lists l s ["  \x1b[31m✗\x1b[39m " ++ s.called ++ ": no matching rule"]

variable {l : Loader}

theorem lists_resolveAmong {s : Subject} {o : ProbeOptions} {name : String} {urls : List String}
    (hSearch : s.search? l = some (Load.resolveAmong o name urls)) :
    s.Lists l (Finding.candidates s.called urls).lines := by
  obtain ⟨hist, hFails⟩ := Load.exists_came_resolveAmong o name urls
  rw [Finding.lines_candidates]
  exact .candidates hSearch (fun _ _ hCame => ⟨name, Load.of_came_resolveAmong hCame⟩)
    ⟨hist, name, hFails⟩

/-- What is listed of a subject. -/
def listing (l : Loader) : Subject → Finding
  | dependency d => Survey.list l d
  | name n =>
    match l.rules.find? (·.covers n) with
    | some r => .candidates n (l.providers.ruleCandidates r (r.icon n))
    | none => .noRule n

/-- **A listing agrees with a search**, for every subject. -/
theorem lists_listing (l : Loader) (s : Subject) : s.Lists l (s.listing l).lines := by
  cases s with
  | dependency d =>
    show Lists l (.dependency d) (Survey.list l d).lines
    unfold Survey.list
    cases hGiven : d.verbatimUrl? with
    | some url =>
      obtain ⟨hUrl, hSome⟩ := Option.filter_eq_some_iff.mp hGiven
      have hTaken : (resolve l d).run = .done (.ok url) := by
        unfold resolve
        rw [hGiven]
        rfl
      show Lists l (.dependency d) (Finding.verbatim d.name url).lines
      rw [Finding.lines_verbatim]
      exact .verbatim hUrl (by simpa using hSome) hTaken
    | none =>
      have hSearch : search? l (.dependency d) = some (Load.resolveAmong l.probe
          (if d.name = "" then Load.unnamed else d.name) (l.providers.candidates d)) := by
        rw [search?_dependency, resolve, hGiven]
      exact lists_resolveAmong hSearch
  | name n =>
    unfold listing
    dsimp only
    cases hRule : l.rules.find? (·.covers n) with
    | some r =>
      have hSearch : search? l (.name n) = some (resolveIcon l r n (r.icon n)) := by
        rw [search?_name, hRule]
        rfl
      exact lists_resolveAmong hSearch
    | none =>
      rw [Finding.lines_noRule]
      refine .noRule (s := .name n) ?_
      rw [search?_name, hRule]
      rfl

/-- A search that fails has tried something, or there was nothing to try. -/
theorem unresolved_of_came {s : Subject} {p : Attempt String} {hist : History} {e : Failure}
    (hSearch : s.search? l = some p) (hCame : p.run.Came hist (.done (.error e))) :
    ∃ name tried, e = .unresolved name tried := by
  cases s with
  | dependency d =>
    obtain rfl : resolve l d = p := Option.some.inj hSearch
    obtain ⟨-, -, hIs⟩ := Load.of_came_resolve hCame
    exact ⟨_, _, hIs⟩
  | name n =>
    obtain ⟨r, -, rfl⟩ := Option.map_eq_some_iff.mp hSearch
    exact ⟨_, _, Load.of_came_resolveAmong hCame⟩

end Subject

/-! ## Section 4: What a survey has been at -/

/-- What has become of a subject. -/
inductive Upshot where
  /-- It is found at a URL. -/
  | found (url : String)
  /-- The search was in vain, and has tried all these. -/
  | inVain (asked : String) (tried : List String)
  /-- No rule covers it, so that there is no way to search. -/
  | uncovered

/-- A subject that a survey has been at: what was carried out for it, and what has become of it. -/
abbrev Visit := Round Subject Upshot

namespace Visit

/-- The subject was searched for from the beginning to the end, if there is any way to do that. -/
inductive IsThorough (l : Loader) : Visit → Prop
  | found {s : Subject} {p : Attempt String} {hist : History} {url : String}
      (hSearch : s.search? l = some p) (hCame : p.run.Came hist (.done (.ok url))) :
      IsThorough l ⟨s, hist, .found url⟩
  | inVain {s : Subject} {p : Attempt String} {hist : History} {asked : String}
      {tried : List String} (hSearch : s.search? l = some p)
      (hCame : p.run.Came hist (.done (.error (.unresolved asked tried)))) :
      IsThorough l ⟨s, hist, .inVain asked tried⟩
  | uncovered {s : Subject} (hNone : s.search? l = none) : IsThorough l ⟨s, [], .uncovered⟩

/-- The subject was not found. -/
def fails (v : Visit) : Bool :=
  match v.result with
  | .found _ => false
  | .inVain .. | .uncovered => true

/-- The line on the subject. -/
def line (v : Visit) : String :=
  match v.result with
  | .found url =>
    "  \x1b[32m✓\x1b[39m " ++ v.member.called ++ " -> \x1b[36m" ++ url ++ "\x1b[39m"
  | .inVain asked tried =>
    "  \x1b[31m✗\x1b[39m " ++ v.member.called ++ ": Unable to resolve URL for module " ++ asked ++
      " (tried: " ++ ", ".intercalate tried ++ ")"
  | .uncovered => "  \x1b[31m✗\x1b[39m " ++ v.member.called ++ ": no matching rule"

/-- What is reported of the subject. -/
def finding (v : Visit) : Finding :=
  match v.result with
  | .found url => .resolved v.member.called url
  | .inVain asked tried => .failed v.member.called (.unresolved asked tried)
  | .uncovered => .noRule v.member.called

theorem isFailure_finding (v : Visit) : v.finding.isFailure = v.fails := by
  unfold finding fails
  split <;> rfl

theorem countP_findings (visits : List Visit) :
    (visits.map finding).countP Finding.isFailure = visits.countP fails := by
  rw [List.countP_map]
  exact List.countP_congr fun v _ => by rw [Function.comp_apply, isFailure_finding]

theorem lines_finding (v : Visit) : v.finding.lines = [v.line] := by
  unfold finding line
  split
  · exact Finding.lines_resolved _ _
  · exact Finding.lines_failed _ _ _
  · exact Finding.lines_noRule _

theorem lines_findings (visits : List Visit) :
    (visits.map finding).map Finding.lines = visits.map fun v => [v.line] := by
  rw [List.map_map]
  exact List.map_congr_left fun v _ => v.lines_finding

end Visit

/-- The program visits the subject and reports what has become of it. -/
def Subject.IsVisitedBy (l : Loader) (s : Subject) (p : Load Finding) : Prop :=
  ∀ hist f, p.Came hist (.done f) →
    ∃ v : Visit, v.IsThorough l ∧ v.member = s ∧ v.hist = hist ∧ v.finding = f

namespace Survey

variable {l : Loader}

theorem visited_found {s : Subject} {p : Attempt String} (hSearch : s.search? l = some p) :
    s.IsVisitedBy l (found s.called p) := by
  intro hist f hCame
  obtain ⟨r, before, after, rfl, hFirst, hThen⟩ := Load.Came.of_bind hCame
  cases r with
  | ok url =>
    obtain ⟨rfl, rfl⟩ := Load.Came.answer_of_done (a := Finding.resolved s.called url) hThen
    exact ⟨⟨s, before, .found url⟩, .found hSearch hFirst, rfl, rfl, rfl⟩
  | error e =>
    obtain ⟨asked, tried, rfl⟩ := Subject.unresolved_of_came hSearch hFirst
    obtain ⟨rfl, rfl⟩ := Load.Came.answer_of_done
      (a := Finding.failed s.called (.unresolved asked tried)) hThen
    exact ⟨⟨s, before, .inVain asked tried⟩, .inVain hSearch hFirst, rfl, rfl, rfl⟩

theorem visited_ofDescriptor (d : Descriptor) :
    Subject.IsVisitedBy l (.dependency d) (ofDescriptor l false d) :=
  visited_found (s := .dependency d) rfl

theorem visited_ofName (n : String) : Subject.IsVisitedBy l (.name n) (ofName l false n) := by
  unfold ofName Rule.find?
  cases hRule : l.rules.find? (·.covers n) with
  | some r =>
    have hSearch : Subject.search? l (.name n) = some (resolveIcon l r n (r.icon n)) := by
      rw [Subject.search?_name, hRule]
      rfl
    exact visited_found hSearch
  | none =>
    intro hist f hCame
    obtain ⟨rfl, rfl⟩ := Load.Came.answer_of_done (a := Finding.noRule n) hCame
    have hNone : Subject.search? l (.name n) = none := by
      rw [Subject.search?_name, hRule]
      rfl
    exact ⟨⟨.name n, [], .uncovered⟩, .uncovered hNone, rfl, rfl, rfl⟩

/-- What visits every member of a list goes through it in its order, and no failure ends it. -/
theorem visits_of_came {α : Type} {subject : α → Subject} {visit : α → Load Finding}
    (hVisits : ∀ a, (subject a).IsVisitedBy l (visit a)) {xs : List α} {hist : History}
    {findings : List Finding} (hCame : (xs.mapM visit).Came hist (.done findings)) :
    ∃ visits : List Visit, (∀ v ∈ visits, v.IsThorough l) ∧
      visits.map (·.member) = xs.map subject ∧ hist = Round.written visits ∧
      findings = visits.map Visit.finding := by
  obtain ⟨rounds, rfl, rfl, hComplete, rfl⟩ := Load.came_mapM hCame
  clear hCame
  induction rounds with
  | nil => exact ⟨[], by simp, rfl, rfl, rfl⟩
  | cons x rounds ih =>
    obtain ⟨hFirst, hRest⟩ := List.forall_mem_cons.mp hComplete
    obtain ⟨v, hThorough, hMember, hHist, hFinding⟩ := hVisits x.member x.hist x.result hFirst
    obtain ⟨visits, hAll, hMembers, hWritten, hFindings⟩ := ih hRest
    refine ⟨v :: visits, List.forall_mem_cons.mpr ⟨hThorough, hAll⟩, ?_, ?_, ?_⟩
    · rw [List.map_cons, hMember, hMembers]
      rfl
    · rw [Round.written_cons, Round.written_cons, hWritten, hHist]
    · rw [List.map_cons, List.map_cons, hFinding, hFindings]

/-! ## Section 5: Surveys that resolve -/

/-- A survey that has searched for everything: for all tools, then all library modules, then all
    names, by these visits and nothing else. -/
structure Resolves (l : Loader) (c : Config) (names : List String) (hist : History)
    (tools modules dynamic : List Visit) : Prop where
  allTools : tools.map (·.member) = c.tools.map .dependency
  allModules : modules.map (·.member) = c.modules.map .dependency
  allNames : dynamic.map (·.member) = names.map .name
  thorough : ∀ v ∈ tools ++ modules ++ dynamic, v.IsThorough l
  history : hist = Round.written (tools ++ modules ++ dynamic)

/-- **A survey that resolves has searched for everything**, and its findings are those of its
    visits. -/
theorem resolves_of_came {c : Config} {names : List String} {hist : History} {s : Survey}
    (hCame : (make l false c names).Came hist (.done s)) :
    ∃ tools modules dynamic, Resolves l c names hist tools modules dynamic ∧
      s = ⟨[⟨"tools", tools.map Visit.finding⟩, ⟨"modules", modules.map Visit.finding⟩,
        ⟨"dynamic modules", dynamic.map Visit.finding⟩]⟩ := by
  obtain ⟨_, _, _, rfl, hTools, hCame⟩ := hCame.of_bind
  obtain ⟨tools, hThorough, hMembers, rfl, rfl⟩ := visits_of_came visited_ofDescriptor hTools
  obtain ⟨_, _, _, rfl, hModules, hCame⟩ := hCame.of_bind
  obtain ⟨modules, hThorough', hMembers', rfl, rfl⟩ := visits_of_came visited_ofDescriptor hModules
  obtain ⟨_, _, _, rfl, hDynamic, hCame⟩ := hCame.of_bind
  obtain ⟨dynamic, hThorough'', hMembers'', rfl, rfl⟩ := visits_of_came visited_ofName hDynamic
  obtain ⟨rfl, rfl⟩ := Load.Came.answer_of_done hCame
  refine ⟨tools, modules, dynamic, ⟨hMembers, hMembers', hMembers'', ?_, ?_⟩, rfl⟩
  · simp only [List.forall_mem_append]
    exact ⟨⟨hThorough, hThorough'⟩, hThorough''⟩
  · simp [Round.written_append]

/-! ## Section 6: Surveys that list -/

/-- These are the lines of a listing of everything: of all tools, then all library modules, then all
    names. What is listed agrees with a search. -/
structure IsListing (l : Loader) (c : Config) (names : List String)
    (tools modules dynamic : List (List String)) : Prop where
  allTools : List.Forall₂ (Subject.Lists l) (c.tools.map .dependency) tools
  allModules : List.Forall₂ (Subject.Lists l) (c.modules.map .dependency) modules
  allNames : List.Forall₂ (Subject.Lists l) (names.map .name) dynamic

theorem ofName_listing (n : String) :
    ofName l true n = pure (Subject.listing l (.name n)) := by
  unfold ofName Rule.find? Subject.listing
  cases hRule : l.rules.find? (·.covers n) <;> simp only [if_true, hRule]

/-- Listing asks for nothing. -/
theorem make_listing (l : Loader) (c : Config) (names : List String) : make l true c names = .done
    ⟨[⟨"tools", (c.tools.map .dependency).map (Subject.listing l)⟩,
      ⟨"modules", (c.modules.map .dependency).map (Subject.listing l)⟩,
      ⟨"dynamic modules", (names.map .name).map (Subject.listing l)⟩]⟩ := by
  have hDependency : ofDescriptor l true = fun d => pure (Subject.listing l (.dependency d)) := rfl
  have hName : ofName l true = fun n => pure (Subject.listing l (.name n)) :=
    funext ofName_listing
  unfold make
  rw [hDependency, hName, List.mapM_pure, List.mapM_pure, List.mapM_pure]
  simp only [List.map_map]
  rfl

theorem isFailure_listing_dependency (d : Descriptor) :
    (Subject.listing l (.dependency d)).isFailure = false := by
  show (list l d).isFailure = false
  unfold list
  split <;> rfl

theorem isFailure_listing_name (n : String) :
    (Subject.listing l (.name n)).isFailure = l.rules.all fun r => !r.covers n := by
  unfold Subject.listing
  dsimp only
  cases hRule : l.rules.find? (·.covers n) with
  | some r =>
    have hCovers : r.covers n = true := List.find?_some (p := fun r : Rule => r.covers n) hRule
    have hSome : (l.rules.all fun r => !r.covers n) = false := by
      simpa using ⟨r, List.mem_of_find?_eq_some hRule, hCovers⟩
    rw [hSome]
    rfl
  | none =>
    have hAll : (l.rules.all fun r => !r.covers n) = true := by simpa using hRule
    rw [hAll]
    rfl

/-- **A survey that lists has listed everything**, and only names count as failures that no rule
    covers. -/
theorem isListing_make (l : Loader) (c : Config) (names : List String) :
    ∃ tools modules dynamic, make l true c names =
        .done ⟨[⟨"tools", tools⟩, ⟨"modules", modules⟩, ⟨"dynamic modules", dynamic⟩]⟩ ∧
      IsListing l c names (tools.map Finding.lines) (modules.map Finding.lines)
        (dynamic.map Finding.lines) ∧
      tools.countP Finding.isFailure + modules.countP Finding.isFailure +
        dynamic.countP Finding.isFailure =
          names.countP fun n => l.rules.all fun r => !r.covers n := by
  have hLists (subjects : List Subject) : List.Forall₂ (Subject.Lists l) subjects
      ((subjects.map (Subject.listing l)).map Finding.lines) := by
    rw [List.map_map]
    exact List.forall₂_map_right_iff.mpr
      (List.forall₂_same.mpr fun s _ => Subject.lists_listing l s)
  have hNone (ds : List Descriptor) :
      ((ds.map .dependency).map (Subject.listing l)).countP Finding.isFailure = 0 := by
    rw [List.countP_eq_zero]
    simp [isFailure_listing_dependency]
  refine ⟨_, _, _, make_listing l c names, ⟨hLists _, hLists _, hLists _⟩, ?_⟩
  rw [hNone, hNone, Nat.zero_add, List.map_map, List.countP_map]
  exact List.countP_congr fun n _ => by
    rw [Function.comp_apply, Function.comp_apply, isFailure_listing_name]

end Survey

/-! ## Section 7: How failures are counted -/

/-- The failures are counted as far as the numbers of 32 bits reach, and then from the least one
    on. -/
theorem Survey.failures_eq (s : Survey) :
    s.failures = Int32.ofNat (s.findings.countP Finding.isFailure) := by
  -- The count begins with any number of failures that were met before.
  have hFrom : ∀ (findings : List Finding) (before : Nat),
      findings.foldl (fun count f => if f.isFailure then count + 1 else count)
        (Int32.ofNat before) = Int32.ofNat (before + findings.countP Finding.isFailure) := by
    intro findings
    induction findings with
    | nil => exact fun _ => rfl
    | cons f findings ih =>
      intro before
      rw [List.foldl_cons]
      by_cases hFails : f.isFailure = true
      · rw [if_pos hFails, List.countP_cons_of_pos hFails, ← Nat.succ_add_eq_add_succ,
          ← ih (before + 1), Int32.ofNat_add]
        rfl
      · rw [if_neg hFails, List.countP_cons_of_neg hFails, ih]
  rw [failures, ← Nat.zero_add (s.findings.countP _)]
  exact hFrom s.findings 0

/-- The answer prints these lines, and it fails exactly if there are failures, with their number.
    Nothing is said of more failures than there are numbers for. -/
structure Answer.Says (a : Answer) (printed : List String) (failures : Nat) : Prop where
  lines : a.lines = printed
  exit : failures ≤ 2147483647 → ∀ before, Exit.ofAnswer before a =
    if failures = 0 then { code := 0, lines := before ++ printed }
    else { code := 1, lines := before ++ printed, errors :=
      "Error: " ++ toString failures ++ " dependency(ies) could not be resolved" }

/-- What is said in the end of a survey with these findings. -/
theorem Bench.Survey.says_answer (tools modules dynamic : List Finding) :
    (answer ⟨[⟨"tools", tools⟩, ⟨"modules", modules⟩, ⟨"dynamic modules", dynamic⟩]⟩).Says
      (printed (tools.map Finding.lines) (modules.map Finding.lines) (dynamic.map Finding.lines))
      (tools.countP Finding.isFailure + modules.countP Finding.isFailure +
        dynamic.countP Finding.isFailure) := by
  generalize hSurvey : (⟨[⟨"tools", tools⟩, ⟨"modules", modules⟩, ⟨"dynamic modules", dynamic⟩]⟩ :
    Survey) = s
  have hLines : s.lines = printed (tools.map Finding.lines) (modules.map Finding.lines)
      (dynamic.map Finding.lines) := by
    rw [← hSurvey]
    exact Survey.lines_eq_printed tools modules dynamic
  have hCount : s.findings.countP Finding.isFailure = tools.countP Finding.isFailure +
      modules.countP Finding.isFailure + dynamic.countP Finding.isFailure := by
    simp [← hSurvey, Survey.findings, List.countP_append, Nat.add_assoc]
  rw [← hCount, ← hLines]
  refine ⟨rfl, ?_⟩
  intro hFits before
  have hInt : s.failures.toInt = s.findings.countP Finding.isFailure := by
    rw [s.failures_eq]
    exact Int32.toInt_ofNat_of_lt (by omega)
  have hPositive : 0 < s.failures ↔ s.findings.countP Finding.isFailure ≠ 0 := by
    rw [Int32.lt_iff_toInt_lt, hInt]
    show (0 : Int) < _ ↔ _
    omega
  by_cases hNone : s.findings.countP Finding.isFailure = 0
  · have hNot : ¬0 < s.failures := fun hPos => hPositive.mp hPos hNone
    simp [Exit.ofAnswer, answer, hNone, hNot]
  · have hReport : (Complaint.unresolved s.failures).report = "Error: " ++
        toString (s.findings.countP Finding.isFailure) ++
          " dependency(ies) could not be resolved" := by
      show "Error: " ++ (toString s.failures.toInt ++ _) ++ "" = _
      rw [hInt, String.append_empty, String.append_assoc]
      rfl
    simp [Exit.ofAnswer, answer, hNone, hPositive.mpr hNone, hReport]

/-! ## Section 8: Inquiries after all dependencies -/

namespace Bench

/-- The text of a configuration, or why there is none: what was fetched if its source begins as a
    URL of the web does, else the file. -/
inductive Provides (source : String) (file : Except FileFault String) :
    History → Except Complaint String → Prop
  | file (hLocal : ¬Text.BeginsAsUrl source) :
      Provides source file [] (file.mapError (.unreadable source))
  | fetched {hist : History} {r : Except Failure String} (hRemote : Text.BeginsAsUrl source)
      (hFetched : (Load.fetchText source).run.Came hist (.done r)) :
      Provides source file hist (r.mapError .loader)

/-- The configuration that is written in the text, or why there is none. -/
inductive Configures (source : String) (file : Except FileFault String) :
    History → Except Complaint Config → Prop
  | noText {hist : History} {x : Complaint} (hNone : Provides source file hist (.error x)) :
      Configures source file hist (.error x)
  | text {hist : History} {text : String} (hText : Provides source file hist (.ok text)) :
      Configures source file hist ((Config.read text).mapError .loader)

/-- What an inquiry after all dependencies of a configuration has carried out, and what it has come
    to. -/
inductive Reports (b : Bench) (source : String) (file : Except FileFault String)
    (names : List String) : (listing : Bool) → History → Except Complaint Outcome → Prop
  /-- The configuration could not be read. -/
  | unread {listing : Bool} {hist : History} {x : Complaint}
      (hConfig : Configures source file hist (.error x)) :
      Reports b source file names listing hist (.error x)
  /-- Everything was searched for. There is a line on each search, and the inquiry fails if any of
      them was in vain, with the number of these. -/
  | resolved {c : Config} {before after : History} {a : Answer} {tools modules dynamic : List Visit}
      (hConfig : Configures source file before (.ok c))
      (hResolves : Survey.Resolves (b.loader c) c names after tools modules dynamic)
      (hSays : a.Says
        (printed (tools.map ([·.line])) (modules.map ([·.line])) (dynamic.map ([·.line])))
        (tools.countP Visit.fails + modules.countP Visit.fails + dynamic.countP Visit.fails)) :
      Reports b source file names false (after ++ before) (.ok (.answer a))
  /-- Everything was listed, and nothing was carried out after the configuration was read. The
      inquiry fails if no rule covers one of the names, with the number of these. -/
  | listed {c : Config} {hist : History} {a : Answer} {tools modules dynamic : List (List String)}
      (hConfig : Configures source file hist (.ok c))
      (hListing : Survey.IsListing (b.loader c) c names tools modules dynamic)
      (hSays : a.Says (printed tools modules dynamic)
        (names.countP fun n => c.dynamicModules.all fun r => !r.covers n)) :
      Reports b source file names true hist (.ok (.answer a))

variable {b : Bench} {source : String} {file : Except FileFault String} {names : List String}
  {listing : Bool} {hist : History} {r : Except Complaint Outcome}

/-- A part that cannot fail does what it does by itself. -/
theorem of_came_lift {ε α : Type} {p : Load α} {r : Except ε α}
    (hCame : (ExceptT.lift p : ExceptT ε Load α).run.Came hist (.done r)) :
    ∃ a, r = .ok a ∧ p.Came hist (.done a) := by
  obtain ⟨a, before, after, rfl, hFirst, hThen⟩ :=
    Load.Came.of_bind (p := p) (f := fun a => .done (Except.ok a)) hCame
  obtain ⟨rfl, rfl⟩ := hThen.answer_of_done
  exact ⟨a, rfl, hFirst⟩

/-- A part whose failures are complained of fails where it does by itself. -/
theorem of_came_adapt {ε ε' α : Type} {f : ε → ε'} {p : ExceptT ε Load α} {r : Except ε' α}
    (hCame : (ExceptT.adapt f p).run.Came hist (.done r)) :
    ∃ r', r = r'.mapError f ∧ p.run.Came hist (.done r') := by
  obtain ⟨r', before, after, rfl, hFirst, hThen⟩ :=
    Load.Came.of_bind (p := p.run) (f := fun r => .done (r.mapError f)) hCame
  obtain ⟨rfl, rfl⟩ := hThen.answer_of_done
  exact ⟨r', rfl, hFirst⟩

/-- The text of a configuration. -/
def configText (source : String) (file : Except FileFault String) : ExceptT Complaint Load String :=
  if isRemote source then ExceptT.adapt Complaint.loader (Load.fetchText source)
  else ExceptT.adapt (Complaint.unreadable source) (ExceptT.mk (pure file))

theorem config_eq (source : String) (file : Except FileFault String) :
    config source file = configText source file >>= fun text =>
      ExceptT.adapt Complaint.loader (Attempt.ofExcept (Config.read text)) := by
  unfold config configText
  split <;> rfl

theorem provides_of_came {r : Except Complaint String}
    (hCame : (configText source file).run.Came hist (.done r)) : Provides source file hist r := by
  have hRemote : isRemote source = true ↔ Text.BeginsAsUrl source := Text.startsWith_or_iff
  unfold configText at hCame
  by_cases hIs : isRemote source = true
  · rw [if_pos hIs] at hCame
    obtain ⟨r', rfl, hFetched⟩ := of_came_adapt hCame
    exact .fetched (hRemote.mp hIs) hFetched
  · rw [if_neg hIs] at hCame
    obtain ⟨r', rfl, hFile⟩ := of_came_adapt hCame
    obtain ⟨rfl, rfl⟩ := Load.Came.answer_of_done (a := file) hFile
    exact .file (mt hRemote.mpr hIs)

theorem configures_of_came {r : Except Complaint Config}
    (hCame : (config source file).run.Came hist (.done r)) : Configures source file hist r := by
  rw [config_eq] at hCame
  rcases Attempt.of_came_bind hCame with ⟨x, rfl, hNone⟩ | ⟨text, before, after, rfl, hText, hRest⟩
  · exact .noText (provides_of_came hNone)
  · -- Once there is a text nothing more is carried out.
    obtain ⟨_, rfl, hRead⟩ := of_came_adapt hRest
    obtain ⟨rfl, rfl⟩ := Load.Came.answer_of_done (a := Config.read text) hRead
    exact .text (provides_of_came hText)

theorem reports_of_came
    (hCame : (b.inquire file (.resolve source listing names)).run.Came hist (.done r)) :
    b.Reports source file names listing hist r := by
  rcases Attempt.of_came_bind hCame with ⟨x, rfl, hConfig⟩ | ⟨c, before, after, rfl, hConfig, hRest⟩
  · exact .unread (configures_of_came hConfig)
  have hConfig := configures_of_came hConfig
  rcases Attempt.of_came_bind hRest with ⟨x, -, hFails⟩ | ⟨s, own, last, rfl, hLift, hReturn⟩
  · obtain ⟨_, hIs, -⟩ := of_came_lift hFails
    cases hIs
  obtain ⟨_, hIs, hMake⟩ := of_came_lift hLift
  obtain rfl := Except.ok.inj hIs
  obtain ⟨rfl, rfl⟩ :=
    Load.Came.answer_of_done (a := Except.ok (Outcome.answer (Survey.answer s))) hReturn
  rw [List.nil_append]
  cases listing with
  | false =>
    obtain ⟨tools, modules, dynamic, hResolves, rfl⟩ := Survey.resolves_of_came hMake
    have hSays := Survey.says_answer (tools.map Visit.finding) (modules.map Visit.finding)
      (dynamic.map Visit.finding)
    simp only [Visit.lines_findings, Visit.countP_findings] at hSays
    exact .resolved hConfig hResolves hSays
  | true =>
    obtain ⟨tools, modules, dynamic, hIs, hListing, hFailures⟩ :=
      Survey.isListing_make (b.loader c) c names
    rw [hIs] at hMake
    obtain ⟨rfl, rfl⟩ := hMake.answer_of_done
    have hSays := Survey.says_answer tools modules dynamic
    rw [hFailures] at hSays
    exact .listed hConfig hListing hSays

/-! ### Every inquiry comes to its end -/

theorem searches_bind {ε α β : Type} {p : ExceptT ε Load α} {f : α → ExceptT ε Load β}
    (hFirst : p.run.Searches) (hThen : ∀ a, (f a).run.Searches) : (p >>= f).run.Searches := by
  refine Load.Only.bind hFirst fun r => ?_
  cases r with
  | ok a => exact hThen a
  | error e => exact .done _

theorem searches_adapt {ε ε' α : Type} {p : ExceptT ε Load α} (f : ε → ε')
    (hSearches : p.run.Searches) : (ExceptT.adapt f p).run.Searches :=
  Load.Only.bind hSearches fun _ => .done _

theorem searches_mapM {α β : Type} {f : α → Load β} (hEach : ∀ a, (f a).Searches) (xs : List α) :
    (xs.mapM f).Searches := by
  induction xs with
  | nil => exact .done []
  | cons x xs ih =>
    rw [List.mapM_cons]
    exact (hEach x).bind fun y => ih.bind fun ys => .done _

theorem searches_found (name : String) {p : Attempt String} (hSearches : p.Searches) :
    (Survey.found name p).Searches := by
  refine Load.Only.bind hSearches fun r => ?_
  cases r <;> exact .done _

theorem searches_ofDescriptor (l : Loader) (listing : Bool) (d : Descriptor) :
    (Survey.ofDescriptor l listing d).Searches := by
  unfold Survey.ofDescriptor
  split
  · exact .done _
  · exact searches_found _ (Load.searches_resolve l d)

theorem searches_ofName (l : Loader) (listing : Bool) (n : String) :
    (Survey.ofName l listing n).Searches := by
  unfold Survey.ofName
  split
  · exact .done _
  · dsimp only
    split
    · exact .done _
    · exact searches_found _ (Load.searches_resolveIcon l _ n _)

theorem searches_config (source : String) (file : Except FileFault String) :
    (config source file).run.Searches := by
  rw [config_eq]
  refine searches_bind ?_ fun _ => searches_adapt _ (.done _)
  unfold configText
  split
  · refine searches_adapt _ ((Load.searches_request .get source).bind fun r => ?_)
    split
    · exact Attempt.only_pure _
    · exact Attempt.only_throw _
  · exact searches_adapt _ (.done _)

theorem searches_make (l : Loader) (listing : Bool) (c : Config) (names : List String) :
    (Survey.make l listing c names).Searches := by
  have hEach := searches_ofDescriptor l listing
  refine (searches_mapM hEach c.tools).bind fun _ => (searches_mapM hEach c.modules).bind fun _ =>
    (searches_mapM (searches_ofName l listing) names).bind fun _ => .done _

theorem searches_inquire (b : Bench) (source : String) (file : Except FileFault String)
    (names : List String) (listing : Bool) :
    (b.inquire file (.resolve source listing names)).run.Searches :=
  searches_bind (searches_config source file) fun c =>
    searches_bind (Load.Only.bind (searches_make (b.loader c) _ c _) fun _ => .done _)
      fun _ => .done _

/-- **An inquiry after all dependencies reports every one of them, and counts the failures.** Once
    the configuration is read, everything is gone through in order whatever is answered, with a line
    on each, and a failure ends nothing; a listing agrees with the searches that it stands for, and
    asks for nothing. In the end the command fails exactly if there were failures, with their
    number. With every transport the inquiry comes to its end. -/
theorem reports_everything (b : Bench) (source : String) (file : Except FileFault String)
    (names : List String) (listing : Bool) :
    (∀ hist r, (b.inquire file (.resolve source listing names)).run.Came hist (.done r) →
      b.Reports source file names listing hist r) ∧
    ∀ τ : Transport, ∃ hist r,
      (b.inquire file (.resolve source listing names)).run.Came hist (.done r) ∧ τ.Gave hist :=
  ⟨fun _ _ hCame => reports_of_came hCame,
    Load.Only.exists_came (searches_inquire b source file names listing)⟩

/-- The bench of a page without settings of its own. -/
def unconfigured : Bench := ⟨Replay.pageAt [""], {}, false⟩

/-- A configuration with a tool that is given by its URL and a library to be looked for. -/
def surveyed : Config where
  tools := [{ name := "babel", url := some "https://e.test/babel.js" }]
  modules := [{ name := "react", provider := some "cdn.test" }]

/-- The same as it is written. -/
def surveyedText : String :=
  "\x7b\"tools\": [\x7b\"name\": \"babel\", \"url\": \"https://e.test/babel.js\"\x7d], " ++
    "\"modules\": [\x7b\"name\": \"react\", \"provider\": \"cdn.test\"\x7d]\x7d"

/-- Where the library may be. -/
def surveyedUrls : List String :=
  ["https://cdn.test/react", "https://cdn.jsdelivr.net/npm/react", "https://unpkg.com/react"]

/-- The configuration is read from the file, and nothing is carried out for that. -/
theorem config_eq_done {source text : String} {c : Config} (hLocal : isRemote source = false)
    (hRead : Config.read text = .ok c) : (config source (.ok text)).run = .done (.ok c) := by
  rw [config_eq, configText, hLocal]
  show (ExceptT.adapt _ (Attempt.ofExcept (Config.read text))).run = _
  rw [hRead]
  rfl

/-- An inquiry is answered with its survey. -/
theorem came_inquire {b : Bench} {source : String} {file : Except FileFault String}
    {names : List String} {listing : Bool} {c : Config} {hist : History} {s : Survey} {a : Answer}
    (hConfig : (config source file).run = .done (.ok c))
    (hMake : (Survey.make (b.loader c) listing c names).Came hist (.done s))
    (hAnswer : Survey.answer s = a) :
    (b.inquire file (.resolve source listing names)).run.Came hist (.done (.ok (.answer a))) := by
  subst hAnswer
  unfold inquire
  dsimp only
  rw [ExceptT.run_bind, hConfig]
  show (ExceptT.lift (Survey.make _ listing _ names) >>= _).run.Came hist _
  rw [ExceptT.run_bind, ExceptT.run_lift]
  exact (hMake.before _).before _

/-- A library that is looked for in vain, beside a tool that is given by its URL and a name that no
    rule covers; and the listing of these. -/
theorem reports_everything_listed :
    (∃ hist, Reports unconfigured "config.json" (.ok surveyedText) ["icons/Home"] false hist
      (.ok (.answer ⟨[
        "\x1b[33mtools:\x1b[39m",
        "  \x1b[32m✓\x1b[39m babel -> \x1b[36mhttps://e.test/babel.js\x1b[39m",
        "\x1b[33mmodules:\x1b[39m",
        "  \x1b[31m✗\x1b[39m react: Unable to resolve URL for module react (tried: " ++
          "https://cdn.test/react, https://cdn.jsdelivr.net/npm/react, https://unpkg.com/react)",
        "\x1b[33mdynamic modules:\x1b[39m",
        "  \x1b[31m✗\x1b[39m icons/Home: no matching rule"], some (.unresolved 2)⟩))) ∧
    Reports unconfigured "config.json" (.ok surveyedText) ["icons/Home"] true []
      (.ok (.answer ⟨[
        "\x1b[33mtools:\x1b[39m",
        "  \x1b[36mbabel\x1b[39m",
        "    \x1b[2mhttps://e.test/babel.js\x1b[0m \x1b[2m(verbatim)\x1b[0m",
        "\x1b[33mmodules:\x1b[39m",
        "  \x1b[36mreact\x1b[39m",
        "    \x1b[2mhttps://cdn.test/react\x1b[0m",
        "    \x1b[2mhttps://cdn.jsdelivr.net/npm/react\x1b[0m",
        "    \x1b[2mhttps://unpkg.com/react\x1b[0m",
        "\x1b[33mdynamic modules:\x1b[39m",
        "  \x1b[31m✗\x1b[39m icons/Home: no matching rule"], some (.unresolved 1)⟩)) := by
  have hConfig : (config "config.json" (.ok surveyedText)).run = .done (.ok surveyed) :=
    config_eq_done (by decide) (by decide +kernel)
  have hReports := fun listing => (reports_everything unconfigured "config.json"
    (.ok surveyedText) ["icons/Home"] listing).1
  have hCandidates : (unconfigured.loader surveyed).providers.candidates
      { name := "react", provider := some "cdn.test" } = surveyedUrls := by decide
  constructor
  · obtain ⟨hist, hSearch⟩ := Load.exists_came_resolveAmong
      (unconfigured.loader surveyed).probe "react" surveyedUrls
    have hMake : (Survey.make (unconfigured.loader surveyed) false surveyed
        ["icons/Home"]).Came hist (.done ⟨[
          ⟨"tools", [.resolved "babel" "https://e.test/babel.js"]⟩,
          ⟨"modules", [.failed "react" (.unresolved "react" surveyedUrls)]⟩,
          ⟨"dynamic modules", [.noRule "icons/Home"]⟩]⟩) := by
      -- Nothing has to be carried out for the tool, nor for the name.
      rw [← hCandidates] at hSearch ⊢
      exact ((hSearch.before _).before _).before _
    exact ⟨hist, hReports false hist _ (came_inquire hConfig hMake (by decide +kernel))⟩
  · have hMake : (Survey.make (unconfigured.loader surveyed) true surveyed
        ["icons/Home"]).Came [] (.done ⟨[
          ⟨"tools", [.verbatim "babel" "https://e.test/babel.js"]⟩,
          ⟨"modules", [.candidates "react" surveyedUrls]⟩,
          ⟨"dynamic modules", [.noRule "icons/Home"]⟩]⟩) := by
      rw [Survey.make_listing, ← hCandidates]
      exact .start
    exact hReports true [] _ (came_inquire hConfig hMake (by decide))

/-- The survey of names alone, none of which is covered by a rule. -/
def uncovered (names : List String) : Survey where
  sections := [⟨"tools", []⟩, ⟨"modules", []⟩, ⟨"dynamic modules", names.map .noRule⟩]

/-- Where there are no rules every name is a failure, and nothing is carried out. -/
theorem make_without_rules (b : Bench) (names : List String) :
    Survey.make (b.loader {}) false {} names = .done (uncovered names) := by
  have hName : Survey.ofName (b.loader {}) false = fun n => pure (.noRule n) := rfl
  unfold Survey.make
  rw [hName, List.mapM_pure]
  rfl

/-- The number of that many failures is negative, and so there is no complaint about them. -/
theorem code_of_many {names : List String} (hMany : names.length = 2147483648) :
    names.countP (fun n => ({} : Config).dynamicModules.all fun r => !r.covers n) = 2147483648 ∧
    ∃ a, (unconfigured.inquire (.ok "\x7b\x7d") (.resolve "config.json" false names)).run.Came []
        (.done (.ok (.answer a))) ∧ (Exit.ofAnswer [] a).code = 0 := by
  have hConfig : (config "config.json" (.ok "\x7b\x7d")).run = .done (.ok {}) :=
    config_eq_done (by decide) (by decide +kernel)
  have hMake : (Survey.make (unconfigured.loader {}) false {} names).Came []
      (.done (uncovered names)) := by
    rw [make_without_rules]
    exact .start
  have hCount : (uncovered names).findings.countP Finding.isFailure = 2147483648 := by
    rw [← hMany]
    simp [uncovered, Survey.findings, List.countP_map, Function.comp_def, Finding.isFailure]
  have hNegative : ¬0 < (uncovered names).failures := by
    rw [Survey.failures_eq, hCount]
    decide
  refine ⟨?_, _, came_inquire hConfig hMake rfl, ?_⟩
  · simpa using hMany
  · simp [Exit.ofAnswer, Survey.answer, hNegative]

/-- **An inquiry can fail without a failure, and come to a good end with very many.** Where the page
    is no URL, the command fails though its configuration names nothing that could. And where no
    rule covers any of 2147483648 names, the count is below zero in the end, and so the command does
    not fail. -/
theorem not_fails_exactly :
    (Config.read "\x7b\x7d" = .ok {} ∧
      Program.run [] ["--page", "nowhere", "resolve", "config.json"] .refusing
          ⟨[("config.json", "\x7b\x7d")]⟩ =
        (⟨1, [], "Error: invalid page URL: nowhere\n\nCaused by:\n    " ++
          "Invalid URL: relative URL without a base"⟩, ⟨[("config.json", "\x7b\x7d")]⟩)) ∧
    (List.replicate 2147483648 "icons/Home").countP
        (fun n => ({} : Config).dynamicModules.all fun r => !r.covers n) = 2147483648 ∧
    ∃ a, (unconfigured.inquire (.ok "\x7b\x7d") (.resolve "config.json" false
        (List.replicate 2147483648 "icons/Home"))).run.Came [] (.done (.ok (.answer a))) ∧
      (Exit.ofAnswer [] a).code = 0 :=
  ⟨⟨by decide +kernel, by decide +kernel⟩, code_of_many List.length_replicate⟩

end Bench

end Cli

end Bundleless
