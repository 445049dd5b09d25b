import Bundleless.Proofs.Bindings
import Bundleless.Proofs.Cutting
import Bundleless.Proofs.FirstReachable
import Bundleless.Proofs.SettlingCalls

/-! # Defaults that are published

    A library that is imported as a module can name a global under which its
    default export is published. The global is read and written as one name,
    whatever dots are in it. But everybody who wants a global looks it up as
    a path, and goes down into a value at every dot.

    So a default export that is published is found there if there is no dot
    in the name. With a dot in it nothing is found at any path that was not
    found before (`publishes_default_iff`).
-/

namespace Bundleless

open Load (Calls)

namespace Globals

variable {name path : String} {default value : Json} {before after : Globals}

/-! ## Section 1: Names and paths -/

/-- No part of a path has a dot in it. -/
theorem not_mem_of_mem_segments {part : String} (hMem : part ∈ segments path) :
    '.' ∉ part.toList := by
  obtain ⟨piece, hPiece, rfl⟩ := List.mem_map.mp (List.mem_filter.mp hMem).1
  intro hDot
  have hNot := Chars.not_mem_splitAt hPiece '.' (by simpa using hDot)
  simp at hNot

theorem segments_of_undotted (hName : name ≠ "") (hDot : '.' ∉ name.toList) :
    segments name = [name] := by
  have hWhole : Chars.splitAt (· == '.') name.toList = [name.toList] :=
    Chars.splitAt_of_none fun c hMem => beq_eq_false_iff_ne.mpr fun hIs => hDot (hIs ▸ hMem)
  simp [segments, Text.splitAt, hWhole, hName]

/-- A name without a dot is a path of one part. -/
theorem lookup_of_undotted (hName : name ≠ "") (hDot : '.' ∉ name.toList) :
    lookup before name = (Fields.get? name before).filter fun v => !v.isNull := by
  have hWhole : descend [] = some := rfl
  simp [lookup, segments_of_undotted hName hDot, hWhole]

/-- What is found at a path depends on the global alone that is named by its first part. -/
theorem lookup_congr (hSame : ∀ part, (segments path).head? = some part →
    Fields.get? part after = Fields.get? part before) : lookup after path = lookup before path := by
  unfold lookup
  cases hParts : segments path with
  | nil => rfl
  | cons part rest =>
    rw [hParts] at hSame
    dsimp only
    rw [hSame part rfl]

/-! ## Section 2: Publishing -/

/-- The globals after a default export is published under a name. -/
def publish (name : String) (default : Json) (globals : Globals) : Globals :=
  match Fields.get? name globals with
  | some existing =>
    if existing.isNull ∨ existing = default then Fields.insert name default globals else globals
  | none => Fields.insert name default globals

/-- What was there and was something else is there still, and all other globals are the same,
    whether they are read by name or looked up as a path. -/
structure Spares (name : String) (default : Json) (before after : Globals) : Prop where
  held : ∀ value, Fields.get? name before = some value → value.isNull = false → value ≠ default →
    Fields.get? name after = some value
  found : ∀ value, lookup before name = some value → value ≠ default →
    lookup after name = some value
  others : ∀ other, other ≠ name → Fields.get? other after = Fields.get? other before
  elsewhere : ∀ path, (segments path).head? ≠ some name → lookup after path = lookup before path

/-- Where nothing was found under the name, the default export is found, unless it is null; and
    everything else is spared. -/
structure Publishes (name : String) (default : Json) (before after : Globals) : Prop
    extends Spares name default before after where
  fresh : lookup before name = none → default.isNull = false → lookup after name = some default

theorem get?_publish_of_ne {other : String} (hOther : other ≠ name) :
    Fields.get? other (publish name default before) = Fields.get? other before := by
  have hInsert :
      Fields.get? other (Fields.insert name default before) = Fields.get? other before := by
    rw [Fields.get?_insert, if_neg (Ne.symm hOther)]
  unfold publish
  split
  · split
    · exact hInsert
    · rfl
  · exact hInsert

theorem lookup_publish_of_head (hHead : (segments path).head? ≠ some name) :
    lookup (publish name default before) path = lookup before path :=
  lookup_congr fun _ hPart =>
    get?_publish_of_ne fun hIs => hHead (hPart.trans (congrArg some hIs))

/-- Whatever is published under a name with a dot is found at no path. -/
theorem lookup_publish_of_dotted (hDot : '.' ∈ name.toList) (path : String) :
    lookup (publish name default before) path = lookup before path :=
  lookup_publish_of_head fun hHead =>
    not_mem_of_mem_segments (List.mem_of_head? hHead) hDot

theorem publish_of_held (hHeld : Fields.get? name before = some value) (hNull : value.isNull = false)
    (hOther : value ≠ default) : publish name default before = before := by
  simp [publish, hHeld, hNull, hOther]

theorem lookup_publish_of_found (hFound : lookup before name = some value)
    (hOther : value ≠ default) : lookup (publish name default before) name = some value := by
  by_cases hDot : '.' ∈ name.toList
  · rw [lookup_publish_of_dotted hDot, hFound]
  · have hName : name ≠ "" := by
      rintro rfl
      cases hFound
    obtain ⟨hHeld, hNull⟩ : Fields.get? name before = some value ∧ value.isNull = false := by
      simpa [lookup_of_undotted hName hDot, Option.filter_eq_some_iff] using hFound
    rw [publish_of_held hHeld hNull hOther, hFound]

theorem spares_publish (name : String) (default : Json) (before : Globals) :
    Spares name default before (publish name default before) where
  held value hHeld hNull hOther := by rw [publish_of_held hHeld hNull hOther, hHeld]
  found value hFound hOther := lookup_publish_of_found hFound hOther
  others other hOther := get?_publish_of_ne hOther
  elsewhere path hHead := lookup_publish_of_head hHead

/-- Where nothing but a null was found under a name without a dot, the default is found. -/
theorem lookup_publish_of_undotted (hName : name ≠ "") (hDot : '.' ∉ name.toList)
    (hFresh : lookup before name = none) (hSome : default.isNull = false) :
    lookup (publish name default before) name = some default := by
  have hInsert : publish name default before = Fields.insert name default before := by
    rw [lookup_of_undotted hName hDot] at hFresh
    unfold publish
    split
    · next existing hHeld =>
      rw [if_pos]
      left
      simpa [hHeld] using hFresh
    · rfl
  rw [lookup_of_undotted hName hDot, hInsert, Fields.get?_insert, if_pos rfl]
  simp [hSome]

/-- **What is published is found exactly where there is no dot in the name.** -/
theorem publishes_publish_iff (hName : name ≠ "") (default : Json) (before : Globals) :
    Publishes name default before (publish name default before) ↔
      (lookup before name = none → default.isNull = false → '.' ∉ name.toList) := by
  constructor
  · intro hPublishes hFresh hSome hDot
    have hFound := hPublishes.fresh hFresh hSome
    rw [lookup_publish_of_dotted hDot, hFresh] at hFound
    cases hFound
  · exact fun hCondition => ⟨spares_publish name default before, fun hFresh hSome =>
      lookup_publish_of_undotted hName (hCondition hFresh hSome) hFresh hSome⟩

end Globals

/-! ## Section 3: Calls beside idle tasks -/

variable {h : Host} {l : Loader} {w w₁ w' : World} {α : Type} {hist : History}

/-- The operation writes a global, or has the page run what may write some. -/
def Op.touchesGlobals : Op → Bool
  | .store (.setGlobal ..) | .host (.inject _) | .host (.importModule _) => true
  | _ => false

theorem Op.Answers.globals_eq {o : Op} {r : o.Reply} (hAnswer : o.Answers h w r w')
    (hNot : o.touchesGlobals = false) : w'.store.globals = w.store.globals := by
  cases hAnswer.becomes with
  | store o =>
    cases o with
    | setGlobal name value => cases hNot
    | _ => rfl
  | host o =>
    cases o with
    | inject url => cases hNot
    | importModule url => cases hNot
    | compile path source => unfold HostOp.perform; dsimp only; split <;> rfl
    | render config app => unfold HostOp.perform; dsimp only; split <;> rfl
    | _ => rfl
  | log event detail level => rw [World.store_log]
  | _ => rfl

/-- Tasks that are done take no step. -/
theorem World.Idle.eq_of_leads (hIdle : w.Idle) (hLeads : World.Leads h nothing w w') : w' = w := by
  obtain ⟨past, hRun⟩ := hLeads
  induction hRun with
  | refl => rfl
  | tail _ hStep ih =>
    subst ih
    cases hStep with
    | act hTask _ =>
      obtain ⟨r, hDone⟩ := hIdle.done _ _ hTask
      cases hDone
    | start hAsked => exact hAsked.elim

namespace Load.Calls

variable {p q : Load α}

/-- Beside tasks that are done a program alone changes the world, by one operation after the other;
    if it starts no task, they stay done. -/
theorem keeps_of_idle {P : Op → Prop} {K : World → Prop} (hCalls : Calls h p w hist q w')
    (hIdle : w.Idle) (hOnly : p.Only P) (hQuiet : ∀ o, P o → o.isQuiet = true)
    (hStep : ∀ {o : Op} {r : o.Reply} {v v' : World}, P o → o.Answers h v r v' → K v → K v')
    (hStart : K w) : w'.Idle ∧ K w' := by
  induction hCalls with
  | refl => exact ⟨hIdle, hStart⟩
  | own hAnswer _ ih =>
    obtain - | ⟨hOp, hNext⟩ := hOnly
    exact ih (hIdle.of_quiet (hAnswer.quiet (hQuiet _ hOp))) (hNext _) (hStep hOp hAnswer hStart)
  | other hTask _ ih =>
    obtain rfl := hIdle.eq_of_leads (.of_step hTask)
    exact ih hIdle hOnly hStart

theorem idle (hCalls : Calls h p w hist q w') (hRemote : p.Remote) (hIdle : w.Idle) : w'.Idle :=
  (hCalls.keeps_of_idle (K := fun _ => True) hIdle hRemote
    (fun _ hOp => Op.isQuiet_of_isFree (Op.isFree_of_isRemote hOp)) (fun _ _ _ => trivial) trivial).1

/-- To find out where something is changes no global. -/
theorem globals_eq (hCalls : Calls h p w hist q w') (hSearches : p.Searches) (hIdle : w.Idle) :
    w'.store.globals = w.store.globals := by
  have hNot : ∀ {o : Op}, o.isSearch = true → o.touchesGlobals = false := by
    intro o hSearch
    cases o with
    | store | host => cases hSearch
    | _ => rfl
  have hQuiet : ∀ o : Op, o.isSearch = true → o.isQuiet = true := fun o hSearch =>
    Op.isQuiet_of_isFree (Op.isFree_of_isRemote (Op.isRemote_of_isLoading
      (Op.isLoading_of_isSearch hSearch)))
  exact (hCalls.keeps_of_idle (K := fun v => v.store.globals = w.store.globals) hIdle hSearches
    hQuiet (fun hOp hAnswer hKept => (hAnswer.globals_eq (hNot hOp)).trans hKept) rfl).2

/-- The next operation is answered at once. -/
theorem of_ask_of_idle {o : Op} {next : o.Reply → Load α} {a : α} (hIdle : w.Idle)
    (hQuiet : o.isQuiet = true) (hCalls : Calls h (.ask o next) w hist (.done a) w') :
    ∃ r w₁ rest, o.Answers h w r w₁ ∧ w₁.Idle ∧ Calls h (next r) w₁ rest (.done a) w' ∧
      hist = rest ++ [⟨o, r⟩] := by
  obtain ⟨w₀, r, w₁, rest, hLeads, hAnswer, hRest, hHist⟩ := hCalls.of_ask
  obtain rfl := hIdle.eq_of_leads hLeads
  exact ⟨r, w₁, rest, hAnswer, hIdle.of_quiet (hAnswer.quiet hQuiet), hRest, hHist⟩

theorem of_done_of_idle {a : α} (hIdle : w.Idle) (hCalls : Calls h (.done a) w hist q w') :
    q = .done a ∧ w' = w := by
  obtain ⟨-, hIs, hLeads⟩ := hCalls.of_done
  exact ⟨hIs, hIdle.eq_of_leads hLeads⟩

end Load.Calls

/-! ## Section 4: Loading a module that publishes its default -/

theorem Op.Answers.importModule {url : String} {r : Except Failure Json}
    (hAnswer : (Op.host (.importModule url)).Answers h w r w') :
    h.importModule url w.store.globals = (r, w'.store.globals) := by
  cases hAnswer with
  | perform hPerform =>
    obtain ⟨hReply, rfl⟩ := Prod.mk.inj (Option.some.inj hPerform)
    exact Prod.ext hReply rfl

namespace Load

/-- What is imported is what the page answers, and the globals are as the page leaves them. -/
theorem calls_importExports {url : String} {exports : Json} (hIdle : w.Idle)
    (hCalls : Calls h (importExports url).run w hist (.done (.ok exports)) w') :
    ⟨.host (.importModule url), .ok exports⟩ ∈ hist ∧
      h.importModule url w.store.globals = (.ok exports, w'.store.globals) := by
  unfold importExports at hCalls
  obtain ⟨r, w₁, rest, hImport, hIdle₁, hRest, rfl⟩ := Calls.of_ask_of_idle hIdle rfl hCalls
  cases r with
  | error e =>
    obtain ⟨_, w₂, _, -, hIdle₂, hThrow, -⟩ := Calls.of_ask_of_idle hIdle₁ rfl hRest
    cases (hThrow.of_done_of_idle hIdle₂).1
  | ok exports' =>
    obtain ⟨_, w₂, _, hLog, hIdle₂, hReturn, -⟩ := Calls.of_ask_of_idle hIdle₁ rfl hRest
    obtain ⟨hIs, rfl⟩ := hReturn.of_done_of_idle hIdle₂
    cases hIs
    exact ⟨by simp, by rw [hImport.importModule, hLog.globals_eq rfl]⟩

theorem calls_publishDefault {name : String} {n : Namespace} {u : Unit} (hIdle : w.Idle)
    (hName : name ≠ "") (hCalls : Calls h (publishDefault (some name) n) w hist (.done u) w') :
    w'.store.globals = Globals.publish name n.default w.store.globals := by
  have hIs : publishDefault (some name) n = .ask (.store (.getGlobal name)) fun
      | some existing =>
        if existing.isNull ∨ existing = n.default then store (.setGlobal name n.default)
        else .done ()
      | none => store (.setGlobal name n.default) := by
    unfold publishDefault
    split
    · next hNone => cases hNone
    · next hEmpty => exact absurd (Option.some.inj hEmpty) hName
    · next hSome =>
      obtain rfl := Option.some.inj hSome
      rfl
  rw [hIs] at hCalls
  obtain ⟨r, w₁, _, hGet, hIdle₁, hRest, -⟩ := Calls.of_ask_of_idle hIdle rfl hCalls
  obtain ⟨hRead, rfl⟩ := hGet.store
  have hRead : r = Fields.get? name w.store.globals := hRead
  -- The two ways to write the global end alike.
  have hSet : ∀ {hist : History}, Calls h (store (.setGlobal name n.default)) w hist (.done u) w' →
      w'.store.globals = Fields.insert name n.default w.store.globals := by
    intro hist hSet
    obtain ⟨_, w₂, _, hAnswer, hIdle₂, hDone, -⟩ := Calls.of_ask_of_idle hIdle rfl hSet
    obtain ⟨-, rfl⟩ := hAnswer.store
    rw [(hDone.of_done_of_idle hIdle₂).2]
    rfl
  unfold Globals.publish
  rw [← hRead]
  cases r with
  | none => exact hSet hRest
  | some existing =>
    dsimp only at hRest ⊢
    split
    · next hNothing =>
      rw [if_pos hNothing] at hRest
      exact hSet hRest
    · next hHeld =>
      rw [if_neg hHeld] at hRest
      rw [(hRest.of_done_of_idle hIdle₁).2]
      rfl

theorem calls_loadExports {d : Descriptor} {url name : String} {n : Namespace} (hIdle : w.Idle)
    (hFormat : d.format = .esm) (hGlobal : d.global = some name) (hName : name ≠ "")
    (hCalls : Calls h (loadExports d url).run w hist (.done (.ok n)) w') :
    ∃ exports, ⟨.host (.importModule url), .ok exports⟩ ∈ hist ∧ n = .ofValue exports ∧
      w'.store.globals =
        Globals.publish name n.default (h.importModule url w.store.globals).2 := by
  unfold loadExports at hCalls
  rw [hFormat, hGlobal] at hCalls
  rcases Attempt.of_calls_bind hCalls with ⟨e, hIs, -⟩ | ⟨exports, _, _, w₁, rfl, hImport, hRest⟩
  · cases hIs
  obtain ⟨hMem, hReply⟩ := calls_importExports hIdle hImport
  have hIdle₁ := hImport.idle (nameless_importExports url).remote hIdle
  dsimp only at hRest
  rw [Attempt.run_lift_bind] at hRest
  obtain ⟨u, _, _, w₂, rfl, hPublish, hReturn⟩ := hRest.of_bind
  have hIdle₂ := hPublish.idle (nameless_publishDefault _ _).remote hIdle₁
  obtain ⟨hIs, rfl⟩ := hReturn.of_done_of_idle hIdle₂
  cases hIs
  refine ⟨exports, by simp [hMem], rfl, ?_⟩
  rw [calls_publishDefault hIdle₁ hName hPublish, hReply]

/-- **A library that is imported publishes its default export**, and the globals are else as the page
    leaves them when it imports the module. -/
theorem calls_loadLibrary {d : Descriptor} {name : String} {m : Instance} (hIdle : w.Idle)
    (hFormat : d.format = .esm) (hGlobal : d.global = some name) (hName : name ≠ "")
    (hCalls : Calls h (loadLibrary l d).run w hist (.done (.ok m)) w') :
    ∃ url exports, ⟨.host (.importModule url), .ok exports⟩ ∈ hist ∧
      m.exposed = .ofValue exports ∧ w'.store.globals =
        Globals.publish name m.exposed.default (h.importModule url w.store.globals).2 := by
  rcases Attempt.of_calls_bind hCalls with ⟨e, hIs, -⟩ | ⟨url, _, _, w₁, rfl, hResolve, hRest⟩
  · cases hIs
  have hIdle₁ := hResolve.idle (searches_resolve l d).nameless.remote hIdle
  rcases Attempt.of_calls_bind hRest with ⟨e, hIs, -⟩ | ⟨n, _, _, w₂, rfl, hLoad, hThen⟩
  · cases hIs
  have hIdle₂ := hLoad.idle (nameless_loadExports d url).remote hIdle₁
  obtain ⟨exports, hMem, rfl, hGlobals⟩ := calls_loadExports hIdle₁ hFormat hGlobal hName hLoad
  -- Once its exports are there, the module is noted and gets its number.
  obtain ⟨_, w₃, _, hLog, hIdle₃, hNoted, rfl⟩ := Calls.of_ask_of_idle hIdle₂ rfl hThen
  obtain ⟨i, w₄, _, hCreate, hIdle₄, hDone, rfl⟩ := Calls.of_ask_of_idle hIdle₃ rfl hNoted
  obtain ⟨hIs, rfl⟩ := hDone.of_done_of_idle hIdle₄
  cases hIs
  have hExposed : m.exposed = .ofValue exports := congrArg Instance.exposed hCreate.store.1
  refine ⟨url, exports, by simp [hMem], hExposed, ?_⟩
  rw [hCreate.globals_eq rfl, hLog.globals_eq rfl, hGlobals, hExposed,
    hResolve.globals_eq (searches_resolve l d) hIdle]

/-! ## Section 5: Libraries of a page -/

/-- To load two lists of libraries is to load the first and then the second. -/
theorem loadLibraries_append (l : Loader) (ds es : List Descriptor) :
    loadLibraries l (ds ++ es) = (loadLibraries l ds >>= fun _ => loadLibraries l es) := by
  induction ds with
  | nil => rfl
  | cons d ds ih => simp [loadLibraries, ih]

/-- In a call that loads libraries this one was loaded between two worlds: those before it first, then
    the library, imported from the URL with these exports, and then it was registered, and those after
    it were loaded. -/
structure Imports (h : Host) (l : Loader) (before : List Descriptor) (d : Descriptor)
    (after : List Descriptor) (w w₁ : World) (url : String) (exports : Json) (m : Instance)
    (w₂ w' : World) : Prop where
  first : ∃ own, Calls h (loadLibraries l before).run w own (.done (.ok ())) w₁
  imported : ∃ own, Calls h (loadLibrary l d).run w₁ own (.done (.ok m)) w₂ ∧
    ⟨.host (.importModule url), .ok exports⟩ ∈ own
  exposed : m.exposed = .ofValue exports
  rest : ∃ own, Calls h (do store (.register d.name m); loadLibraries l after : Attempt Unit).run w₂
    own (.done (.ok ())) w'

/-- **The default export of a library is found under its global exactly if there is no dot in the
    name.** Of every call that loads libraries, and of every library among them that is imported and
    names a global: if the import itself leaves the globals alone, all but what is published is
    spared. -/
theorem publishes_default_iff {before after : List Descriptor} {d : Descriptor} {name : String}
    (hCalls : Calls h (loadLibraries l (before ++ d :: after)).run w hist (.done (.ok ())) w')
    (hIdle : w.Idle) (hFormat : d.format = .esm) (hGlobal : d.global = some name)
    (hName : name ≠ "") :
    ∃ w₁ url exports m w₂, Imports h l before d after w w₁ url exports m w₂ w' ∧
      ((h.importModule url w₁.store.globals).2 = w₁.store.globals →
        Globals.Spares name m.exposed.default w₁.store.globals w₂.store.globals ∧
        (Globals.Publishes name m.exposed.default w₁.store.globals w₂.store.globals ↔
          (Globals.lookup w₁.store.globals name = none → m.exposed.default.isNull = false →
            '.' ∉ name.toList))) := by
  rw [loadLibraries_append] at hCalls
  rcases Attempt.of_calls_bind hCalls with ⟨e, hIs, -⟩ | ⟨u, _, _, w₁, rfl, hBefore, hRest⟩
  · cases hIs
  have hIdle₁ := hBefore.idle (remote_loadLibraries l before) hIdle
  rcases Attempt.of_calls_bind hRest with ⟨e, hIs, -⟩ | ⟨m, _, _, w₂, rfl, hLoad, hAfter⟩
  · cases hIs
  obtain ⟨url, exports, hMem, hExposed, hGlobals⟩ :=
    calls_loadLibrary hIdle₁ hFormat hGlobal hName hLoad
  refine ⟨w₁, url, exports, m, w₂, ⟨⟨_, hBefore⟩, ⟨_, hLoad, hMem⟩, hExposed, ⟨_, hAfter⟩⟩, ?_⟩
  intro hImport
  rw [hGlobals, hImport]
  exact ⟨Globals.spares_publish .., Globals.publishes_publish_iff hName _ _⟩

end Load

/-! ## Section 6: A name with a dot -/

/-- On a scripted page an import leaves the globals alone. -/
theorem Site.globals_importModule (s : Site) (url : String) (globals : Globals) :
    (s.host.importModule url globals).2 = globals := by
  show (s.importModule url globals).2 = globals
  unfold importModule
  split <;> rfl

namespace Replay

/-- A library that publishes its default export under a global. -/
def publishing (global : String) : Descriptor := {
  name := "dayjs"
  url := some "https://e.test/dayjs.js"
  global := some global
  format := .esm }

/-- A page with two libraries. -/
def libraryHost : Host := Site.host {
  modules := [("https://e.test/react.js", .string "the library"),
    ("https://e.test/dayjs.js", .object [("default", .string "the days")])] }

end Replay

/-- A library after another one publishes its default under a name without a dot. -/
theorem Load.publishes_default_iff_dayjs : ∃ hist w',
    Calls Replay.libraryHost
      (loadLibraries Replay.loader ([Replay.library] ++ [Replay.publishing "dayjs"])).run {} hist
      (.done (.ok ())) w' ∧ World.Idle {} ∧ (Replay.publishing "dayjs").format = .esm ∧
    (Replay.publishing "dayjs").global = some "dayjs" ∧ "dayjs" ≠ "" ∧
    ∃ w₁ url exports m w₂,
      Imports Replay.libraryHost Replay.loader [Replay.library] (Replay.publishing "dayjs") [] {}
        w₁ url exports m w₂ w' ∧
      ((Replay.libraryHost.importModule url w₁.store.globals).2 = w₁.store.globals →
        Globals.Spares "dayjs" m.exposed.default w₁.store.globals w₂.store.globals ∧
        (Globals.Publishes "dayjs" m.exposed.default w₁.store.globals w₂.store.globals ↔
          (Globals.lookup w₁.store.globals "dayjs" = none → m.exposed.default.isNull = false →
            '.' ∉ "dayjs".toList))) := by
  obtain ⟨hist, hCalls⟩ := Replay.exists_calls (h := Replay.libraryHost) (w := {})
    (p := loadLibraries Replay.loader ([Replay.library] ++ [Replay.publishing "dayjs"]))
    (by decide +kernel)
  exact ⟨hist, _, hCalls, World.idle_empty, rfl, rfl, by decide,
    publishes_default_iff hCalls World.idle_empty rfl rfl (by decide)⟩

/-- Whenever a library is loaded alone that is imported and names a global, and the import leaves the
    globals alone, its default is published and all else is spared. -/
def Loader.PublishesDefaults (h : Host) (l : Loader) : Prop :=
  ∀ d name w hist w' m, w.Idle → d.format = .esm → d.global = some name → name ≠ "" →
    (∀ url globals, (h.importModule url globals).2 = globals) →
    Calls h (Load.loadLibraries l [d]).run w hist (.done (.ok ())) w' →
    w'.store.registry.get? d.name = some m →
    Globals.Publishes name m.exposed.default w.store.globals w'.store.globals

/-- **A default under a name with a dot is found nowhere.** -/
theorem Loader.not_publishesDefaults : ¬ Replay.loader.PublishesDefaults Replay.libraryHost := by
  intro hPublishes
  let d := Replay.publishing "Lib.dayjs"
  let last := ((Load.loadLibraries Replay.loader [d]).run.drive Replay.libraryHost {}).2
  obtain ⟨hist, hCalls⟩ := Replay.exists_calls (h := Replay.libraryHost) (w := {})
    (p := Load.loadLibraries Replay.loader [d]) (by decide +kernel)
  obtain ⟨m, hModule, hDefault⟩ : ∃ m, last.store.registry.get? d.name = some m ∧
      m.exposed.default.isNull = false := by
    have hSome : (last.store.registry.get? d.name).any (!·.exposed.default.isNull) = true := by
      decide +kernel
    simpa [Option.any_eq_true] using hSome
  have hFound := (hPublishes d "Lib.dayjs" {} hist last m World.idle_empty rfl rfl (by decide)
    (Site.globals_importModule _) hCalls hModule).fresh (by decide) hDefault
  have hNone : Globals.lookup last.store.globals "Lib.dayjs" = none := by decide +kernel
  rw [hNone] at hFound
  cases hFound

end Bundleless
