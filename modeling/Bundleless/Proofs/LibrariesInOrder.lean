import Bundleless.Proofs.Bindings
import Bundleless.Proofs.FirstReachable
import Mathlib.Data.List.Induction

/-! # Libraries one after the other

    The libraries of a page are loaded in the order in which they are
    declared, each to its end before the next one is begun, and the first
    failure ends the call. What a call has carried out is therefore a list of
    complete loads, each with its registration at the end, and a part of one
    more (`Load.Stands`). The registry is what these loads have made of it,
    and nobody else registers anything meanwhile if nothing but tools is
    under way.
-/

namespace Bundleless

open Load (Calls)

/-! ## Section 1: Registering in order -/

namespace Registry

variable {r : Registry} {entries : List (String × Instance)}

/-- Register these modules, one after the other. -/
def insertAll (r : Registry) (entries : List (String × Instance)) : Registry :=
  entries.foldl (fun r (key, m) => r.insert key m) r

theorem insertAll_append (r : Registry) (entries more : List (String × Instance)) :
    r.insertAll (entries ++ more) = (r.insertAll entries).insertAll more :=
  List.foldl_append

/-- The last module under a key is the one that is found, or what was there before. -/
theorem get?_insertAll (r : Registry) (entries : List (String × Instance)) (key : String) :
    (r.insertAll entries).get? key =
      ((entries.reverse.find? (·.1 = key)).map (·.2)).or (r.get? key) := by
  induction entries using List.reverseRecOn with
  | nil => rfl
  | append_singleton entries e ih =>
    rw [insertAll_append, List.reverse_append, List.reverse_singleton, List.singleton_append,
      List.find?_cons]
    show ((r.insertAll entries).insert e.1 e.2).get? key = _
    rw [get?_insert, ih]
    by_cases hKey : e.1 = key <;> simp [hKey]

theorem contains_insertAll (r : Registry) (entries : List (String × Instance)) (key : String) :
    (r.insertAll entries).contains key = true ↔
      key ∈ entries.map (·.1) ∨ r.contains key = true := by
  induction entries using List.reverseRecOn with
  | nil => simp [insertAll]
  | append_singleton entries e ih =>
    rw [insertAll_append, List.map_append, List.mem_append, or_right_comm, ← ih]
    show ((r.insertAll entries).insert e.1 e.2).contains key = true ↔ _
    rw [contains_insert, Bool.or_eq_true, decide_eq_true_eq, or_comm, List.map_singleton,
      List.mem_singleton, @eq_comm _ key]

/-- New keys come last, in the order in which they are registered first. -/
theorem keys_insertAll (r : Registry) (entries : List (String × Instance)) :
    (r.insertAll entries).keys =
      r.keys ++ Distinct.firsts ((entries.map (·.1)).filter (!r.contains ·)) := by
  induction entries using List.reverseRecOn with
  | nil => simp [insertAll, Distinct.firsts]
  | append_singleton entries e ih =>
    rw [insertAll_append, List.map_append, List.filter_append, Distinct.firsts_append]
    show ((r.insertAll entries).insert e.1 e.2).keys = _
    have hKeys : ((r.insertAll entries).insert e.1 e.2).keys =
        if (r.insertAll entries).contains e.1 then (r.insertAll entries).keys
        else (r.insertAll entries).keys ++ [e.1] := rfl
    rw [hKeys, ih]
    simp only [contains_insertAll]
    cases hOld : r.contains e.1 with
    | true => simp [hOld]
    | false =>
      have hThere : e.1 ∈ Distinct.firsts ((entries.map (·.1)).filter (!r.contains ·)) ↔
          e.1 ∈ entries.map (·.1) := by
        simp [Distinct.mem_firsts, hOld]
      by_cases hMem : e.1 ∈ entries.map (·.1)
      · simp [hOld, Distinct.add, hThere.mpr hMem, hMem]
      · simp [hOld, Distinct.add, mt hThere.mp hMem, hMem]

end Registry

/-! ## Section 2: What is carried out for one library -/

/-- A library that is loaded: what was carried out for it, the latest first, and its module. -/
structure LibraryLoad where
  descriptor : Descriptor
  hist : History
  module : Instance

namespace LibraryLoad

/-- The library was loaded from the beginning to the end. -/
def IsComplete (l : Loader) (x : LibraryLoad) : Prop :=
  (Load.loadLibrary l x.descriptor).run.Came x.hist (.done (.ok x.module))

/-- The name and the module that are registered when the library is loaded. -/
def entry (x : LibraryLoad) : String × Instance := (x.descriptor.name, x.module)

/-- What is carried out for the library, with its registration at the end. -/
def written (x : LibraryLoad) : History :=
  ⟨.store (.register x.descriptor.name x.module), ()⟩ :: x.hist

/-- What is carried out for these libraries, each to its end before the next one is begun. -/
def writtenAll (loads : List LibraryLoad) : History := loads.reverse.flatMap written

theorem writtenAll_cons (x : LibraryLoad) (loads : List LibraryLoad) :
    writtenAll (x :: loads) = writtenAll loads ++ x.written := by
  simp [writtenAll]

end LibraryLoad

/-- What has become of the exports of a library at a URL, by what the page has answered. -/
inductive Load.Exported (d : Descriptor) (url : String) (hist : History) :
    Except Failure Namespace → Prop
  | imported {exports : Json} (hFormat : d.format = .esm)
      (hAnswer : ⟨.host (.importModule url), .ok exports⟩ ∈ hist) :
      Exported d url hist (.ok (.ofValue exports))
  | importFailed {e : Failure} (hFormat : d.format = .esm)
      (hAnswer : ⟨.host (.importModule url), .error e⟩ ∈ hist) :
      Exported d url hist (.error (.scriptFailed url))
  | found {value : Json} (hFormat : d.format = .global)
      (hScript : ⟨.host (.inject url), .ok ()⟩ ∈ hist)
      (hLookup : ⟨.store (.lookup (globalOf d)), some value⟩ ∈ hist) :
      Exported d url hist (.ok (.ofValue value))
  | scriptFailed {e : Failure} (hFormat : d.format = .global)
      (hAnswer : ⟨.host (.inject url), .error e⟩ ∈ hist) :
      Exported d url hist (.error (.scriptFailed url))
  /-- The script has run, but its global is not there. -/
  | globalMissing (hFormat : d.format = .global)
      (hScript : ⟨.host (.inject url), .ok ()⟩ ∈ hist)
      (hLookup : ⟨.store (.lookup (globalOf d)), none⟩ ∈ hist) :
      Exported d url hist (.error (.globalMissing url (globalOf d)))

/-- The URL of a library was found first, and then its exports were loaded from there, or that has
    failed. -/
def Load.LoadedFrom (l : Loader) (d : Descriptor) (url : String) (hist : History)
    (r : Except Failure Namespace) : Prop :=
  ∃ before after, hist = after ++ before ∧ (resolve l d).run.Came before (.done (.ok url)) ∧
    Exported d url after r

/-- Why a library could not be loaded. -/
inductive Load.LibraryFails (l : Loader) (d : Descriptor) (hist : History) : Failure → Prop
  /-- None of the candidates could be reached, and nothing else was tried. -/
  | unresolved (hNone : d.verbatimUrl? = none) (hSearch : ∀ x ∈ hist, x.op.isSearch = true) :
      LibraryFails l d hist
        (.unresolved (if d.name = "" then unnamed else d.name) (l.providers.candidates d))
  /-- There are no exports at the URL that was found. -/
  | exports {url : String} {e : Failure} (hLoaded : LoadedFrom l d url hist (.error e)) :
      LibraryFails l d hist e

namespace Load

variable {l : Loader} {d : Descriptor} {hist : History} {url : String}

theorem of_came_importExports {r : Except Failure Json}
    (hCame : (importExports url).run.Came hist (.done r)) :
    (∃ exports, r = .ok exports ∧ ⟨.host (.importModule url), .ok exports⟩ ∈ hist) ∨
      ∃ e, r = .error (.scriptFailed url) ∧ ⟨.host (.importModule url), .error e⟩ ∈ hist := by
  unfold importExports at hCame
  obtain ⟨answer, _, rfl, hRest⟩ := Came.of_ask hCame
  cases answer with
  | ok exports =>
    obtain ⟨_, _, rfl, hReturn⟩ := Came.of_ask hRest
    exact Or.inl ⟨exports, Load.done.inj hReturn.of_done.1, by simp⟩
  | error e =>
    obtain ⟨_, _, rfl, hThrow⟩ := Came.of_ask hRest
    exact Or.inr ⟨e, Load.done.inj hThrow.of_done.1, by simp⟩

theorem of_came_runScript {r : Except Failure Unit}
    (hCame : (runScript url).run.Came hist (.done r)) :
    (r = .ok () ∧ ⟨.host (.inject url), .ok ()⟩ ∈ hist) ∨
      ∃ e, r = .error (.scriptFailed url) ∧ ⟨.host (.inject url), .error e⟩ ∈ hist := by
  unfold runScript at hCame
  obtain ⟨answer, _, rfl, hRest⟩ := Came.of_ask hCame
  cases answer with
  | ok u =>
    obtain ⟨_, _, rfl, hReturn⟩ := Came.of_ask hRest
    exact Or.inl ⟨Load.done.inj hReturn.of_done.1, by simp⟩
  | error e =>
    obtain ⟨_, _, rfl, hThrow⟩ := Came.of_ask hRest
    exact Or.inr ⟨e, Load.done.inj hThrow.of_done.1, by simp⟩

theorem of_came_published {global : String} {r : Except Failure Json}
    (hCame : (published url global).run.Came hist (.done r)) :
    (∃ value, r = .ok value ∧ ⟨.store (.lookup global), some value⟩ ∈ hist) ∨
      r = .error (.globalMissing url global) ∧ ⟨.store (.lookup global), none⟩ ∈ hist := by
  unfold published at hCame
  obtain ⟨answer, _, rfl, hRest⟩ := Came.of_ask hCame
  cases answer with
  | some value => exact Or.inl ⟨value, Load.done.inj hRest.of_done.1, by simp⟩
  | none => exact Or.inr ⟨Load.done.inj hRest.of_done.1, by simp⟩

theorem exported_of_came {r : Except Failure Namespace}
    (hCame : (loadExports d url).run.Came hist (.done r)) : Exported d url hist r := by
  unfold loadExports at hCame
  split at hCame
  · next hFormat =>
    rcases Attempt.of_came_bind hCame with ⟨e, rfl, hFails⟩ | ⟨exports, _, _, rfl, hImport, hRest⟩
    · rcases of_came_importExports hFails with ⟨_, hIs, -⟩ | ⟨e', hIs, hAnswer⟩ <;> cases hIs
      exact .importFailed hFormat hAnswer
    · rcases of_came_importExports hImport with ⟨_, hIs, hAnswer⟩ | ⟨_, hIs, -⟩ <;> cases hIs
      dsimp only at hRest
      rw [Attempt.run_lift_bind] at hRest
      obtain ⟨_, _, _, rfl, -, hReturn⟩ := hRest.of_bind
      cases hReturn.of_done.1
      exact .imported hFormat (List.mem_append_right _ hAnswer)
  · next hFormat =>
    rcases Attempt.of_came_bind hCame with ⟨e, rfl, hFails⟩ | ⟨u, _, after, rfl, hScript, hRest⟩
    · rcases of_came_runScript hFails with ⟨hIs, -⟩ | ⟨e', hIs, hAnswer⟩ <;> cases hIs
      exact .scriptFailed hFormat hAnswer
    · rcases of_came_runScript hScript with ⟨-, hAnswer⟩ | ⟨_, hIs, -⟩
      · have hRan := List.mem_append_right after hAnswer
        rcases Attempt.of_came_bind hRest with ⟨e, rfl, hFails⟩ | ⟨v, _, _, rfl, hFound, hReturn⟩
        · rcases of_came_published hFails with ⟨_, hIs, -⟩ | ⟨hIs, hLookup⟩ <;> cases hIs
          exact .globalMissing hFormat hRan (List.mem_append_left _ hLookup)
        · rcases of_came_published hFound with ⟨_, hIs, hLookup⟩ | ⟨hIs, -⟩ <;> cases hIs
          obtain ⟨hIs, rfl⟩ := Came.of_done hReturn
          cases hIs
          exact .found hFormat hRan (by simp [hLookup])
      · cases hIs

theorem Exported.mono {r : Except Failure Namespace} {hist' : History}
    (hExports : Exported d url hist r) (hSub : hist ⊆ hist') : Exported d url hist' r := by
  cases hExports with
  | imported hFormat hAnswer => exact .imported hFormat (hSub hAnswer)
  | importFailed hFormat hAnswer => exact .importFailed hFormat (hSub hAnswer)
  | found hFormat hScript hLookup => exact .found hFormat (hSub hScript) (hSub hLookup)
  | scriptFailed hFormat hAnswer => exact .scriptFailed hFormat (hSub hAnswer)
  | globalMissing hFormat hScript hLookup =>
    exact .globalMissing hFormat (hSub hScript) (hSub hLookup)

theorem libraryFails_of_came {e : Failure}
    (hCame : (loadLibrary l d).run.Came hist (.done (.error e))) : LibraryFails l d hist e := by
  rcases Attempt.of_came_bind hCame with ⟨_, hIs, hFails⟩ | ⟨url, _, _, rfl, hUrl, hRest⟩
  · cases hIs
    obtain ⟨hNone, hSearch, rfl⟩ := of_came_resolve hFails
    exact .unresolved hNone hSearch
  rcases Attempt.of_came_bind hRest with ⟨_, hIs, hFails⟩ | ⟨n, _, _, rfl, hLoad, hThen⟩
  · cases hIs
    exact .exports ⟨_, _, rfl, hUrl, exported_of_came hFails⟩
  · -- Once the exports are there nothing fails any more.
    obtain ⟨_, _, rfl, hCreate⟩ := Came.of_ask hThen
    obtain ⟨_, _, rfl, hDone⟩ := Came.of_ask hCreate
    cases hDone.of_done.1

/-- The module of a library is made of its exports. -/
theorem created_of_came {m : Instance}
    (hCame : (loadLibrary l d).run.Came hist (.done (.ok m))) :
    ∃ url n, LoadedFrom l d url hist (.ok n) ∧ ⟨.store (.create n), m⟩ ∈ hist := by
  rcases Attempt.of_came_bind hCame with ⟨_, hIs, -⟩ | ⟨url, _, _, rfl, hUrl, hRest⟩
  · cases hIs
  rcases Attempt.of_came_bind hRest with ⟨_, hIs, -⟩ | ⟨n, _, after, rfl, hLoad, hThen⟩
  · cases hIs
  refine ⟨url, n, ⟨_, _, rfl, hUrl, (exported_of_came hLoad).mono ?_⟩, ?_⟩
  · exact List.subset_append_right after _
  · obtain ⟨_, _, rfl, hCreate⟩ := Came.of_ask hThen
    obtain ⟨i, _, rfl, hDone⟩ := Came.of_ask hCreate
    obtain ⟨hIs, rfl⟩ := hDone.of_done
    cases hIs
    simp

/-! ## Section 3: One library after the other -/

/-- What a call that loads libraries has carried out, and what it has come to, once these are
    loaded: it is done, or it is at the next library, or that one has failed and the call with it.
    -/
inductive Stands (l : Loader) (ds : List Descriptor) (loads : List LibraryLoad) :
    History → Load (Except Failure Unit) → Prop
  | finished (hAll : ds = loads.map (·.descriptor)) :
      Stands l ds loads (LibraryLoad.writtenAll loads) (.done (.ok ()))
  /-- The next library is not loaded, or it is loaded and not registered. -/
  | underWay {d : Descriptor} {rest : List Descriptor} {part : History}
      {p : Load (Except Failure Instance)} {q : Load (Except Failure Unit)}
      (hNext : ds = loads.map (·.descriptor) ++ d :: rest)
      (hPart : (loadLibrary l d).run.Came part p) (hGoes : ∀ e, p ≠ .done (.error e))
      (hOpen : ∀ r, q ≠ .done r) : Stands l ds loads (part ++ LibraryLoad.writtenAll loads) q
  | failed {d : Descriptor} {rest : List Descriptor} {part : History} {e : Failure}
      (hNext : ds = loads.map (·.descriptor) ++ d :: rest)
      (hPart : (loadLibrary l d).run.Came part (.done (.error e)))
      (hFails : LibraryFails l d part e) :
      Stands l ds loads (part ++ LibraryLoad.writtenAll loads) (.done (.error e))

variable {ds : List Descriptor} {loads : List LibraryLoad} {own : History}
  {q : Load (Except Failure Unit)}

/-- A library that was loaded and registered goes before. -/
theorem Stands.cons (hStands : Stands l ds loads own q) (x : LibraryLoad) :
    Stands l (x.descriptor :: ds) (x :: loads) (own ++ x.written) q := by
  cases hStands with
  | finished hAll =>
    rw [← LibraryLoad.writtenAll_cons]
    exact .finished (congrArg (x.descriptor :: ·) hAll)
  | underWay hNext hPart hGoes hOpen =>
    rw [List.append_assoc, ← LibraryLoad.writtenAll_cons]
    exact .underWay (congrArg (x.descriptor :: ·) hNext) hPart hGoes hOpen
  | failed hNext hPart hFails =>
    rw [List.append_assoc, ← LibraryLoad.writtenAll_cons]
    exact .failed (congrArg (x.descriptor :: ·) hNext) hPart hFails

/-- The first library is being loaded, or is loaded and not registered. -/
theorem Stands.first {d : Descriptor} {p : Load (Except Failure Instance)}
    (hPart : (loadLibrary l d).run.Came own p) (hGoes : ∀ e, p ≠ .done (.error e))
    (hOpen : ∀ r, q ≠ .done r) : Stands l (d :: ds) [] own q := by
  have hStands : Stands l (d :: ds) [] (own ++ LibraryLoad.writtenAll []) q :=
    .underWay rfl hPart hGoes hOpen
  simpa [LibraryLoad.writtenAll] using hStands

theorem Stands.firstFails {d : Descriptor} {e : Failure}
    (hPart : (loadLibrary l d).run.Came own (.done (.error e))) :
    Stands l (d :: ds) [] own (.done (.error e)) := by
  have hStands : Stands l (d :: ds) [] (own ++ LibraryLoad.writtenAll []) (.done (.error e)) :=
    .failed rfl hPart (libraryFails_of_came hPart)
  simpa [LibraryLoad.writtenAll] using hStands

/-- **Whatever a call has carried out are complete loads, and a part of one more.** -/
theorem stands_of_came (hCame : (loadLibraries l ds).run.Came own q) :
    ∃ loads, (∀ x ∈ loads, x.IsComplete l) ∧ Stands l ds loads own q := by
  induction ds generalizing own with
  | nil =>
    obtain ⟨rfl, rfl⟩ := Came.of_done (a := Except.ok ()) hCame
    exact ⟨[], fun _ hMem => (by cases hMem), .finished rfl⟩
  | cons d ds ih =>
    have hNone : ∀ x ∈ ([] : List LibraryLoad), x.IsComplete l := fun _ hMem => by cases hMem
    rcases hCame.bind_cases with ⟨p, rfl, hPart⟩ | ⟨r, part, after, rfl, hPart, hThen⟩
    · cases p with
      | ask o next => exact ⟨[], hNone, .first hPart (by simp) (by simp)⟩
      | done r =>
        cases r with
        | ok m => exact ⟨[], hNone, .first hPart (by simp) fun r hIs => by cases hIs⟩
        | error e => exact ⟨[], hNone, .firstFails hPart⟩
    · cases r with
      | error e =>
        obtain ⟨rfl, rfl⟩ := Came.of_done (a := Except.error e) hThen
        exact ⟨[], hNone, .firstFails hPart⟩
      | ok m =>
        rcases Came.ask_cases hThen with ⟨rfl, rfl⟩ | ⟨u, after, rfl, hRest⟩
        · exact ⟨[], hNone, .first hPart (by simp) fun r hIs => by cases hIs⟩
        · -- It is registered, and what is left is the call for the others.
          obtain ⟨loads, hComplete, hStands⟩ := ih hRest
          let x : LibraryLoad := ⟨d, part, m⟩
          refine ⟨x :: loads, List.forall_mem_cons.mpr ⟨hPart, hComplete⟩, ?_⟩
          have hCons := hStands.cons x
          simpa [LibraryLoad.written] using hCons

end Load

/-! ## Section 4: What is registered -/

/-- What the operation has registered, and under which key. -/
def Answered.registered? (x : Answered) : Option (String × Instance) :=
  match x.op with
  | .store (.register key m) => some (key, m)
  | _ => none

/-- What was registered, in this order. -/
def History.registered (hist : History) : List (String × Instance) :=
  (hist.filterMap Answered.registered?).reverse

theorem History.registered_append (later earlier : History) :
    registered (later ++ earlier) = registered earlier ++ registered later := by
  simp [registered]

theorem History.registered_of_nameless {hist : History}
    (hNone : ∀ x ∈ hist, x.op.isLoading = true) : hist.registered = [] := by
  have hNothing : ∀ x ∈ hist, x.registered? = none := by
    rintro ⟨o, r⟩ hMem
    have hLoading := hNone _ hMem
    unfold Answered.registered?
    split
    · next hIs =>
      simp only at hIs
      subst hIs
      cases hLoading
    · rfl
  rw [registered, List.filterMap_eq_nil_iff.mpr hNothing]
  rfl

namespace LibraryLoad

variable {l : Loader} {loads : List LibraryLoad}

/-- A library registers its module under its name, and nothing else. -/
theorem registered_writtenAll (hComplete : ∀ x ∈ loads, x.IsComplete l) :
    (writtenAll loads).registered = loads.map entry := by
  induction loads with
  | nil => rfl
  | cons x loads ih =>
    obtain ⟨hFirst, hRest⟩ := List.forall_mem_cons.mp hComplete
    have hNone : x.hist.registered = [] := History.registered_of_nameless fun _ hMem =>
      (Load.nameless_loadLibrary l x.descriptor).of_mem hFirst hMem
    have hOne : x.written.registered = [x.entry] := by
      show History.registered ([_] ++ x.hist) = _
      rw [History.registered_append, hNone]
      rfl
    rw [writtenAll_cons, History.registered_append, hOne, ih hRest]
    rfl

end LibraryLoad

theorem Load.Stands.registered {l : Loader} {ds : List Descriptor} {loads : List LibraryLoad}
    {own : History} {q : Load (Except Failure Unit)} (hStands : Load.Stands l ds loads own q)
    (hComplete : ∀ x ∈ loads, x.IsComplete l) : own.registered = loads.map (·.entry) := by
  have hAll := LibraryLoad.registered_writtenAll hComplete
  have hPart : ∀ {d : Descriptor} {part : History} {p : Load (Except Failure Instance)},
      (loadLibrary l d).run.Came part p →
      (part ++ LibraryLoad.writtenAll loads).registered = loads.map (·.entry) := by
    intro d part p hCame
    rw [History.registered_append, hAll, History.registered_of_nameless fun _ hMem =>
      (Load.nameless_loadLibrary l d).of_mem hCame hMem, List.append_nil]
  cases hStands with
  | finished => exact hAll
  | underWay _ hCame => exact hPart hCame
  | failed _ hCame => exact hPart hCame

section World

variable {h : Host} {w w' : World} {α : Type} {p q : Load α} {hist : History}

/-- Whatever is carried out, the registry is what it registers, unless it is started afresh. -/
theorem Op.Answers.registry_insertAll {o : Op} {r : o.Reply} (hAnswer : o.Answers h w r w')
    (hNot : o ≠ .store .clear) :
    w'.store.registry = w.store.registry.insertAll (History.registered [⟨o, r⟩]) := by
  by_cases hStore : ∃ s, o = .store s
  · obtain ⟨s, rfl⟩ := hStore
    obtain ⟨-, rfl⟩ := hAnswer.store
    cases s with
    | clear => exact absurd rfl hNot
    | _ => rfl
  · have hNot : ∀ s, o ≠ .store s := fun s hIs => hStore ⟨s, hIs⟩
    have hNone : History.registered [⟨o, r⟩] = [] := by
      cases o with
      | store s => exact absurd rfl (hNot s)
      | _ => rfl
    rw [hNone, (hAnswer.registry_eq hNot).1]
    rfl

/-- **Beside tools the registry is what the call makes of it**, at every moment. -/
theorem Load.Calls.registry_insertAll (hCalls : Calls h p w hist q w') (hRemote : p.Remote)
    (hTools : w.OnlyTools) : w'.store.registry = w.store.registry.insertAll hist.registered := by
  induction hCalls with
  | refl => rfl
  | @own o _ _ _ _ _ _ _ hAnswer _ ih =>
    obtain - | ⟨hOp, hNext⟩ := hRemote
    have hQuiet := hAnswer.quiet (Op.isQuiet_of_isFree (Op.isFree_of_isRemote hOp))
    have hNot : o ≠ .store .clear := by
      rintro rfl
      cases hOp
    rw [ih (hNext _) (hTools.of_quiet hQuiet), hAnswer.registry_insertAll hNot,
      ← Registry.insertAll_append, ← History.registered_append]
  | other hStep _ ih =>
    obtain ⟨hTools', -, hSame⟩ := hTools.step hStep
    rw [ih hRemote hTools', hSame]

/-- A module exposes the exports that it was created from. -/
theorem Load.Calls.exposed_of_created (hCalls : Calls h p w hist q w') {n : Namespace}
    {m : Instance} (hMem : ⟨.store (.create n), m⟩ ∈ hist) : m.exposed = n := by
  induction hCalls with
  | refl => cases hMem
  | own hAnswer _ ih =>
    rcases List.mem_append.mp hMem with hMem | hMem
    · exact ih hMem
    · obtain ⟨rfl, hReply⟩ := Answered.mk.inj (List.mem_singleton.mp hMem)
      obtain rfl := eq_of_heq hReply
      rw [hAnswer.store.1]
      rfl
  | other _ _ ih => exact ih hMem

end World

/-! ## Section 5: Calls that load libraries -/

/-- A call that loads libraries in a world, and has carried out this and come to that: certain
    libraries were loaded, each completely and with the exports that the page gave for the URL that
    was found; the call stands at the next one or is at its end; and the registry has gained these
    modules, under a repeated name the last one, with the new names at the end in the order of their
    first registration. -/
structure Load.LoadsInOrder (l : Loader) (ds : List Descriptor) (w : World) (own : History)
    (q : Load (Except Failure Unit)) (w' : World) (loads : List LibraryLoad) : Prop where
  complete : ∀ x ∈ loads, x.IsComplete l
  exports : ∀ x ∈ loads, ∃ url, LoadedFrom l x.descriptor url x.hist (.ok x.module.exposed)
  stands : Stands l ds loads own q
  found : ∀ key, w'.store.registry.get? key =
    ((loads.reverse.find? (·.descriptor.name = key)).map (·.module)).or
      (w.store.registry.get? key)
  keys : w'.store.registry.keys = w.store.registry.keys ++
    Distinct.firsts ((loads.map (·.descriptor.name)).filter (!w.store.registry.contains ·))

theorem LibraryLoad.hist_subset_writtenAll {loads : List LibraryLoad} {x : LibraryLoad}
    (hMem : x ∈ loads) : x.hist ⊆ writtenAll loads := fun _ hAnswered =>
  List.mem_flatMap.mpr ⟨x, List.mem_reverse.mpr hMem, List.mem_cons_of_mem _ hAnswered⟩

theorem Load.Stands.hist_subset {l : Loader} {ds : List Descriptor} {loads : List LibraryLoad}
    {own : History} {q : Load (Except Failure Unit)} (hStands : Stands l ds loads own q)
    {x : LibraryLoad} (hMem : x ∈ loads) : x.hist ⊆ own := by
  have hSub := LibraryLoad.hist_subset_writtenAll hMem
  cases hStands with
  | finished => exact hSub
  | underWay => exact List.Subset.trans hSub (List.subset_append_right _ _)
  | failed => exact List.Subset.trans hSub (List.subset_append_right _ _)

/-- **Libraries are loaded one after the other, and the first failure ends the call.** At every
    moment of a call, while nothing but tools is under way beside it, complete loads were carried
    out in the order in which the libraries are declared, each with its registration; and whatever
    the network replies, the call comes to its end. -/
theorem Load.loads_in_order {h : Host} {w : World} (l : Loader) (ds : List Descriptor)
    (hTools : w.OnlyTools) :
    (∀ own q w', Calls h (loadLibraries l ds).run w own q w' →
      ∃ loads, LoadsInOrder l ds w own q w' loads) ∧
    ∀ τ : Transport, ∃ own r w', Calls h (loadLibraries l ds).run w own (.done r) w' ∧
      τ.Gave own := by
  have hRemote : (loadLibraries l ds).run.Remote := remote_loadLibraries l ds
  refine ⟨fun own q w' hCalls => ?_, hRemote.exists_calls h w⟩
  obtain ⟨loads, hComplete, hStands⟩ := stands_of_came hCalls.came
  have hRegistry := hCalls.registry_insertAll hRemote hTools
  rw [hStands.registered hComplete] at hRegistry
  refine ⟨loads, hComplete, fun x hMem => ?_, hStands, fun key => ?_, ?_⟩
  · obtain ⟨url, n, hExports, hCreated⟩ := created_of_came (hComplete x hMem)
    obtain rfl := hCalls.exposed_of_created (hStands.hist_subset hMem hCreated)
    exact ⟨url, hExports⟩
  · rw [hRegistry, Registry.get?_insertAll, ← List.map_reverse, List.find?_map, Option.map_map]
    rfl
  · rw [hRegistry, Registry.keys_insertAll, List.map_map]
    rfl

/-- A library is declared again after another one, which has to be looked for and whose script
    publishes nothing. -/
def Replay.declaredTwice : List Descriptor :=
  [library, { name := "dayjs", provider := some "cdn.test", allowFallback := some false }, library]

theorem Replay.onlyTools_withLibrary : withLibrary.OnlyTools := by
  have hNone : withLibrary.tasks.length = 0 := by decide +kernel
  intro t task hTask
  rw [List.eq_nil_of_length_eq_zero hNone] at hTask
  simp at hTask

/-- On a page that has the first of these libraries already, and with a network that has everything:
    the first one is imported again, the second one is found and its script fails, and the third one
    is not loaded. -/
theorem Load.loads_in_order_declaredTwice :
    Replay.withLibrary.OnlyTools ∧
    (∀ own q w', Calls Replay.iconHost (loadLibraries Replay.iconLoader Replay.declaredTwice).run
      Replay.withLibrary own q w' → ∃ loads, LoadsInOrder Replay.iconLoader Replay.declaredTwice
        Replay.withLibrary own q w' loads) ∧
    (∀ τ : Transport, ∃ own r w',
      Calls Replay.iconHost (loadLibraries Replay.iconLoader Replay.declaredTwice).run
        Replay.withLibrary own (.done r) w' ∧ τ.Gave own) ∧
    ∃ own w' loads, Calls Replay.iconHost
        (loadLibraries Replay.iconLoader Replay.declaredTwice).run Replay.withLibrary own
        (.done (.error (.scriptFailed "https://cdn.test/dayjs"))) w' ∧
      LoadsInOrder Replay.iconLoader Replay.declaredTwice Replay.withLibrary own
        (.done (.error (.scriptFailed "https://cdn.test/dayjs"))) w' loads ∧
      own.requests = [(.head, "https://cdn.test/dayjs")] ∧
      loads.map (·.descriptor.name) = ["react"] ∧ w'.store.registry.keys = ["react"] := by
  obtain ⟨hInOrder, hEnds⟩ := Load.loads_in_order Replay.iconLoader Replay.declaredTwice
    Replay.onlyTools_withLibrary (h := Replay.iconHost)
  refine ⟨Replay.onlyTools_withLibrary, hInOrder, hEnds, ?_⟩
  obtain ⟨r, own, w', hCalls, -, hHolds⟩ := exists_calls_of_serve?
    (h := Replay.iconHost) (τ := fun _ => Replay.found "") (w := Replay.withLibrary)
    (p := (loadLibraries Replay.iconLoader Replay.declaredTwice).run)
    (fun x => failure? x.1 = some (.scriptFailed "https://cdn.test/dayjs") ∧
      x.2.1.requests = [(.head, "https://cdn.test/dayjs")] ∧
      x.2.1.registered.map (·.1) = ["react"] ∧ x.2.2.store.registry.keys = ["react"])
    (by decide +kernel)
  obtain ⟨hFails, hRequests, hRegistered, hKeys⟩ := of_decide_eq_true hHolds
  obtain rfl := eq_error_of_failure? hFails
  obtain ⟨loads, hLoads⟩ := hInOrder own _ w' hCalls
  have hEntries := hLoads.stands.registered hLoads.complete
  refine ⟨own, w', loads, hCalls, hLoads, hRequests, ?_, hKeys⟩
  rw [← hRegistered, hEntries, List.map_map]
  rfl

end Bundleless
