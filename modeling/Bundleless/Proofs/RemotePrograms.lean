import Bundleless.Proofs.History
import Bundleless.Proofs.LocalDiscipline

/-! # Programs that leave local modules alone

    Everybody is free to carry out an operation that is quiet and executes no
    module. Probing, and loading tools and modules under rules consist of
    such operations only, and so they take nothing away from what a task
    knows, whatever it is. Of the free operations they use those alone that
    reach for something remote; whatever startup does beside that is not
    among them.
-/

namespace Bundleless

/-! ## Section 1: Free programs -/

/-- Everybody may carry out the operation at any time. -/
def Op.isFree : Op → Bool
  | .host (.execute _) => false
  | o => o.isQuiet

theorem Op.isQuiet_of_isFree {o : Op} (hFree : o.isFree = true) : o.isQuiet = true := by
  unfold isFree at hFree
  split at hFree
  · simp at hFree
  · exact hFree

theorem Op.isOwn_of_isFree {o : Op} (hFree : o.isFree = true) : o.isOwn = false := by
  have hQuiet := isQuiet_of_isFree hFree
  unfold isOwn
  split <;> simp_all [isQuiet]

theorem LocalMay.of_isFree {l : Loader} {work : Work} {t : TaskId} {o : Op} {m : Moment}
    (hFree : o.isFree = true) : LocalMay l work t o m := by
  unfold LocalMay
  split <;> simp_all [Op.isFree, Op.isQuiet]

namespace Load

variable {α β : Type}

/-- All operations of the program are free. -/
inductive Free : Load α → Prop
  | done (a : α) : Free (done a)
  | ask {o : Op} {next : o.Reply → Load α} (hFree : o.isFree = true) (hNext : ∀ r, Free (next r)) :
      Free (ask o next)

theorem free_op {o : Op} (hFree : o.isFree = true) : (op o).Free :=
  .ask hFree fun r => .done r

/-- A program that uses free operations only is free. -/
theorem Only.free {P : Op → Prop} {p : Load α} (hOnly : p.Only P)
    (hFree : ∀ o, P o → o.isFree = true) : p.Free := by
  induction hOnly with
  | done a => exact .done a
  | ask hOp _ ih => exact .ask (hFree _ hOp) ih

theorem Free.only {p : Load α} (hFree : p.Free) : p.Only (·.isFree = true) := by
  induction hFree with
  | done a => exact .done a
  | ask hOp _ ih => exact .ask hOp ih

theorem free_store {o : StoreOp} (hFree : (Op.store o).isFree = true) : (store o).Free :=
  free_op hFree

theorem free_info (event : String) (fields : List (String × Json)) : (info event fields).Free :=
  free_op rfl

theorem free_warn (event : String) (fields : List (String × Json)) : (warn event fields).Free :=
  free_op rfl

end Load

/-- All operations of the program are free. -/
def Attempt.Free {α : Type} (p : Attempt α) : Prop := p.run.Free

/-! ## Section 2: Probing -/

/-- The event by which a failed startup is noted. -/
def startupFailed : String := "bootstrap:error"

/-- The operation reaches for something remote, notes what came of it, or makes it known by name. A
    failed startup is noted otherwise. -/
def Op.isRemote : Op → Bool
  | .store (.registered _) | .store (.register ..) | .store (.create _) | .store (.lookup _)
  | .store (.getGlobal _) | .store (.setGlobal ..) | .host (.inject _) | .host (.importModule _)
  | .send .. | .reply .. | .sleep _ => true
  | .log event .. => event != startupFailed
  | _ => false

theorem Op.isFree_of_isRemote {o : Op} (hRemote : o.isRemote = true) : o.isFree = true := by
  unfold isRemote at hRemote
  split at hRemote <;> first | rfl | simp at hRemote

/-- The operation finds out where something remote is, or notes what came of it. -/
def Op.isSearch : Op → Bool
  | .send .. | .reply .. | .sleep _ => true
  | .log event .. => event != startupFailed
  | _ => false

/-- The operation asks what a name means, or gives a name its meaning. -/
def Op.isNaming : Op → Bool
  | .store (.registered _) | .store (.register ..) => true
  | _ => false

/-- The operation reaches for something remote and leaves all names alone. -/
def Op.isLoading (o : Op) : Bool := o.isRemote && !o.isNaming

theorem Op.isRemote_of_isLoading {o : Op} (hLoading : o.isLoading = true) : o.isRemote = true :=
  (Bool.and_eq_true_iff.mp hLoading).1

theorem Op.isLoading_of_isSearch {o : Op} (hSearch : o.isSearch = true) : o.isLoading = true := by
  cases o with
  | log event detail level => exact Bool.and_eq_true_iff.mpr ⟨hSearch, rfl⟩
  | send | reply | sleep => rfl
  | _ => cases hSearch

/-- The program uses remote operations only. -/
abbrev Load.Remote {α : Type} (p : Load α) : Prop := p.Only (·.isRemote = true)

/-- The program uses remote operations only. -/
abbrev Attempt.Remote {α : Type} (p : Attempt α) : Prop := p.Only (·.isRemote = true)

/-- The program only finds out where something is. -/
abbrev Load.Searches {α : Type} (p : Load α) : Prop := p.Only (·.isSearch = true)

/-- The program only finds out where something is. -/
abbrev Attempt.Searches {α : Type} (p : Attempt α) : Prop := p.Only (·.isSearch = true)

/-- The program leaves all names alone. -/
abbrev Load.Nameless {α : Type} (p : Load α) : Prop := p.Only (·.isLoading = true)

/-- The program leaves all names alone. -/
abbrev Attempt.Nameless {α : Type} (p : Attempt α) : Prop := p.Only (·.isLoading = true)

namespace Load.Only

variable {α : Type} {p : Load α}

theorem remote_free (hRemote : p.Remote) : p.Free := hRemote.free fun _ => Op.isFree_of_isRemote

theorem nameless (hSearches : p.Searches) : p.Nameless :=
  hSearches.imp fun _ => Op.isLoading_of_isSearch

theorem remote (hNameless : p.Nameless) : p.Remote :=
  hNameless.imp fun _ => Op.isRemote_of_isLoading

end Load.Only

namespace Attempt.Only

variable {α : Type} {p : Attempt α}

theorem free (hRemote : p.Remote) : p.Free := Load.Only.remote_free hRemote

theorem nameless (hSearches : p.Searches) : p.Nameless := Load.Only.nameless hSearches

theorem remote (hNameless : p.Nameless) : p.Remote := Load.Only.remote hNameless

end Attempt.Only

namespace Load

open Attempt (only_pure only_throw only_lift only_mk only_outcome)

theorem searches_info {event : String} (fields : List (String × Json))
    (hEvent : event ≠ startupFailed) : (info event fields).Searches :=
  only_op (bne_iff_ne.mpr hEvent)

theorem searches_warn {event : String} (fields : List (String × Json))
    (hEvent : event ≠ startupFailed) : (warn event fields).Searches :=
  only_op (bne_iff_ne.mpr hEvent)

section Probing

variable {P : Op → Prop} {url : String}

theorem only_request {method : Method} (hSend : P (.send method url))
    (hReply : P (.reply method url)) : (request method url).Only P :=
  Only.bind (only_op hSend) fun _ => only_op hReply

theorem only_check (o : ProbeOptions) (hSend : ∀ method, P (.send method url))
    (hReply : ∀ method, P (.reply method url)) : (check o url).Only P := by
  refine (only_request (hSend _) (hReply _)).bind fun head => ?_
  split
  · exact (only_request (hSend _) (hReply _)).bind fun get => only_pure _
  · exact only_pure _

theorem only_conclude (outcome : Except Failure Nat)
    (hLog : ∀ detail, P (.log "probe:fail" detail .info)) : (conclude url outcome).Only P := by
  cases outcome with
  | error e => exact (only_op (hLog _)).bind fun _ => .done _
  | ok status =>
    unfold conclude
    dsimp only
    split
    · exact .done _
    · exact (only_op (hLog _)).bind fun _ => .done _

/-- A probe sends requests for its URL, pauses between them, and notes what came of it. -/
theorem only_probeFrom (o : ProbeOptions) (left retry : Nat) (hSend : ∀ method, P (.send method url))
    (hReply : ∀ method, P (.reply method url)) (hSleep : ∀ ms, P (.sleep ms))
    (hLog : ∀ detail, P (.log "probe:fail" detail .info)) : (probeFrom o url left retry).Only P := by
  induction left generalizing retry with
  | zero =>
    exact Only.bind (only_check o hSend hReply) fun outcome => only_conclude outcome hLog
  | succ left ih =>
    refine Only.bind (only_check o hSend hReply) fun outcome => ?_
    split
    · exact (only_op (hSleep _)).bind fun _ => ih (retry + 1)
    · exact only_conclude outcome hLog

end Probing

theorem searches_request (method : Method) (url : String) : (request method url).Searches :=
  only_request rfl rfl

theorem searches_probeFrom (o : ProbeOptions) (url : String) (left retry : Nat) :
    (probeFrom o url left retry).Searches :=
  only_probeFrom o left retry (fun _ => rfl) (fun _ => rfl) (fun _ => rfl) fun _ => rfl

theorem searches_firstReachable (o : ProbeOptions) (name : String) (all rest : List String) :
    (firstReachable o name all rest).Searches := by
  induction rest with
  | nil => exact (only_lift (searches_info _ (by decide))).bind fun _ => only_throw _
  | cons url rest ih =>
    refine (only_lift (searches_probeFrom o url _ _)).bind fun result => ?_
    split
    · exact (only_lift (searches_info _ (by decide))).bind fun _ => only_pure _
    · exact ih

theorem searches_resolve (l : Loader) (d : Descriptor) : (resolve l d).Searches := by
  unfold resolve
  split
  · exact only_pure _
  · unfold resolveAmong
    exact searches_firstReachable ..

theorem searches_resolveIcon (l : Loader) (r : Rule) (name icon : String) :
    (resolveIcon l r name icon).Searches := by
  unfold resolveIcon resolveAmong
  exact searches_firstReachable ..

theorem searches_noteFailed (results : List (String × Except Failure Loaded)) :
    (noteFailed results).Searches := by
  induction results with
  | nil => exact .done _
  | cons result rest ih =>
    obtain ⟨spec, r⟩ := result
    cases r with
    | ok x => exact ih
    | error e => exact (searches_warn _ (by decide)).bind fun _ => ih

section Fanning

variable {P : Op → Prop} {l : Loader}

theorem only_spawnAll (hSpawn : ∀ job, P (.spawn ⟨l, job⟩)) (jobs : List Job) :
    (spawnAll l jobs).Only P := by
  induction jobs with
  | nil => exact .done _
  | cons job jobs ih => exact (only_op (hSpawn job)).bind fun t => ih.bind fun ts => .done _

theorem only_allSucceed (hSpawn : ∀ job, P (.spawn ⟨l, job⟩)) (hWait : ∀ ts, P (.allOk ts))
    (jobs : List Job) : (allSucceed l jobs).Only P :=
  only_mk ((only_spawnAll hSpawn jobs).bind fun ts => only_op (hWait ts))

theorem only_preloadDynamic (hSpawn : ∀ job, P (.spawn ⟨l, job⟩)) (hWait : ∀ ts, P (.allDone ts))
    (hNote : ∀ o, o.isSearch = true → P o) (source : String) :
    (preloadDynamic l source).Only P := by
  unfold preloadDynamic
  split
  · exact .done _
  · refine (only_spawnAll hSpawn _).bind fun ts => (only_op (hWait ts)).bind fun results => ?_
    exact (searches_noteFailed _).imp hNote

end Fanning

/-! ## Section 3: Scripts, modules and tools -/

theorem nameless_op {o : Op} (hLoading : o.isLoading = true) : (op o).Nameless := only_op hLoading

theorem nameless_info {event : String} (fields : List (String × Json))
    (hEvent : event ≠ startupFailed) : (info event fields).Nameless :=
  (searches_info fields hEvent).nameless

theorem nameless_runScript (url : String) : (runScript url).Nameless := by
  refine (only_outcome (only_mk (nameless_op rfl))).bind fun outcome => ?_
  cases outcome with
  | ok _ => exact only_lift (nameless_info _ (by decide))
  | error e => exact (only_lift (nameless_info _ (by decide))).bind fun _ => only_throw _

theorem nameless_importExports (url : String) : (importExports url).Nameless := by
  refine (only_outcome (only_mk (nameless_op rfl))).bind fun outcome => ?_
  cases outcome with
  | ok exports => exact (only_lift (nameless_info _ (by decide))).bind fun _ => only_pure _
  | error e => exact (only_lift (nameless_info _ (by decide))).bind fun _ => only_throw _

theorem nameless_published (url global : String) : (published url global).Nameless := by
  refine (only_lift (nameless_op rfl)).bind fun value => ?_
  cases value with
  | some value => exact only_pure _
  | none => exact only_throw _

theorem nameless_loadTool (l : Loader) (d : Descriptor) : (loadTool l d).Nameless :=
  (searches_resolve l d).nameless.bind fun _ => (nameless_runScript _).bind fun _ =>
    (nameless_published _ _).bind fun _ => only_lift (nameless_info _ (by decide))

theorem nameless_publishDefault (global : Option String) (n : Namespace) :
    (publishDefault global n).Nameless := by
  unfold publishDefault
  split
  · exact .done _
  · exact .done _
  · refine Only.bind (nameless_op rfl) fun existing => ?_
    split
    · split
      · exact nameless_op rfl
      · exact .done _
    · exact nameless_op rfl

theorem nameless_loadExports (d : Descriptor) (url : String) : (loadExports d url).Nameless := by
  unfold loadExports
  split
  · refine (nameless_importExports url).bind fun exports => ?_
    exact (only_lift (nameless_publishDefault _ _)).bind fun _ => only_pure _
  · exact (nameless_runScript url).bind fun _ => (nameless_published _ _).bind fun _ => only_pure _

theorem nameless_loadLibrary (l : Loader) (d : Descriptor) : (loadLibrary l d).Nameless :=
  (searches_resolve l d).nameless.bind fun url => (nameless_loadExports d url).bind fun _ =>
    (only_lift (nameless_info _ (by decide))).bind fun _ => only_lift (nameless_op rfl)

theorem nameless_loadIcon (r : Rule) (icon url : String) : (loadIcon r icon url).Nameless := by
  unfold loadIcon
  split
  · exact (nameless_importExports url).bind fun _ => only_pure _
  · exact (nameless_runScript url).bind fun _ => (nameless_published _ _).bind fun _ => only_pure _

/-! ### Programs that give names a meaning -/

theorem remote_op {o : Op} (hRemote : o.isRemote = true) : (op o).Remote := only_op hRemote

theorem remote_loadLibraries (l : Loader) (ds : List Descriptor) : (loadLibraries l ds).Remote := by
  induction ds with
  | nil => exact only_pure _
  | cons d ds ih =>
    exact (nameless_loadLibrary l d).remote.bind fun _ => (only_lift (remote_op rfl)).bind fun _ => ih

/-- To load a module under a rule registers it under its icon and under its name, and leaves all other
    names alone. -/
theorem only_loadWithRule (l : Loader) (name : String) (r : Rule) : (loadWithRule l name r).Only
    fun o => o.isLoading = true ∨ ∃ i, o = .store (.register (r.icon name) i) ∨
      o = .store (.register name i) := by
  have hLoading : ∀ {α : Type} {p : Attempt α}, p.Nameless → p.Only fun o => o.isLoading = true ∨
      ∃ i, o = .store (.register (r.icon name) i) ∨ o = .store (.register name i) :=
    fun hNameless => hNameless.imp fun _ => Or.inl
  unfold loadWithRule
  dsimp only
  split
  · exact only_throw _
  · refine (hLoading (searches_resolveIcon l r name _).nameless).bind fun url => ?_
    refine (hLoading (nameless_loadIcon r _ url)).bind fun (n, global) => ?_
    refine (hLoading (only_lift (nameless_op rfl))).bind fun i => ?_
    refine (only_lift (only_op (Or.inr ⟨i, Or.inl rfl⟩))).bind fun _ => ?_
    refine (only_lift (only_op (Or.inr ⟨i, Or.inr rfl⟩))).bind fun _ => ?_
    exact (hLoading (only_lift (nameless_info _ (by decide)))).bind fun _ => only_pure _

theorem remote_loadWithRule (l : Loader) (name : String) (r : Rule) :
    (loadWithRule l name r).Remote := by
  refine (only_loadWithRule l name r).imp fun o hOp => ?_
  rcases hOp with hLoading | ⟨i, rfl | rfl⟩
  · exact Op.isRemote_of_isLoading hLoading
  · rfl
  · rfl

end Load

/-! ## Section 4: What free programs leave known -/

section Free

variable {l : Loader} {h : Host} {work : Work} {t : TaskId} {K : Fact l.discipline t}
variable {α : Type}

/-- **An operation that gives nothing up** keeps what its task knows. It has to be allowed, and
    what is to be known after it has to hold then. -/
theorem adds_op {o : Op} {N : o.Reply → Fact l.discipline t} (hOwn : o.isOwn = false)
    (hMay : ∀ m, LocalInv l m → LocalLive work t m → K m → LocalMay l work t o m)
    (hAdds : ∀ m r w, l.discipline.Holds m → K m → LocalMay l work t o m →
      o.Answers h m.toWorld r w → N r (m.act t o r w)) :
    Adds h work K (Load.op o) N := by
  refine Adds.op fun m hHolds hLive hK => ?_
  have hLive : LocalLive work t m := hLive
  have hAllowed := hMay m hHolds.inv hLive hK
  refine ⟨hAllowed, fun r w hAnswer => ⟨?_, hAdds m r w hHolds hK hAllowed hAnswer⟩⟩
  -- The task counts on itself as on the others, as long as it gives nothing up.
  refine rely_act hAllowed hAnswer (World.lt_of_workOf? hLive.isWork) fun hIs => ?_
  simp [hOwn] at hIs

/-- A free operation is allowed. -/
theorem adds_free {o : Op} {N : o.Reply → Fact l.discipline t} (hFree : o.isFree = true)
    (hAdds : ∀ m r w, l.discipline.Holds m → K m → o.Answers h m.toWorld r w →
      N r (m.act t o r w)) : Adds h work K (Load.op o) N :=
  adds_op (Op.isOwn_of_isFree hFree) (fun _ _ _ _ => .of_isFree hFree)
    fun m r w hHolds hK _ hAnswer => hAdds m r w hHolds hK hAnswer

/-- What a free operation has read holds still when it is over. -/
theorem adds_read {o : Op} {N : o.Reply → Fact l.discipline t} (hFree : o.isFree = true)
    (hReads : ∀ m r w, l.discipline.Holds m → K m → o.Answers h m.toWorld r w → N r m) :
    Adds h work K (Load.op o) N := by
  refine Adds.op fun m hHolds hLive hK => ?_
  have hAllowed : LocalMay l work t o m := .of_isFree hFree
  have hLt := World.lt_of_workOf? (LocalLive.isWork hLive)
  refine ⟨hAllowed, fun r w hAnswer => ?_⟩
  have hRely : LocalRely t m (m.act t o r w) := rely_act hAllowed hAnswer hLt fun hIs => by
    simp [Op.isOwn_of_isFree hFree] at hIs
  exact ⟨hRely, (N r).stable hRely (hReads m r w hHolds hK hAnswer)⟩

/-- **A free program** keeps what is known. -/
theorem Load.Free.adds {p : Load α} (hFree : p.Free) :
    Adds h work K p fun _ => Fact.top := by
  induction hFree generalizing K with
  | done a => exact Adds.done fun _ _ => trivial
  | @ask o next hFree _ ih =>
    refine Adds.bind (f := next) (adds_free (N := fun _ => Fact.top) hFree ?_) fun r => ih r
    exact fun _ _ _ _ _ _ => trivial

theorem Attempt.Free.tries {p : Attempt α} (hFree : p.Free) :
    Tries h work K p fun _ => Fact.top :=
  Triple.conseq (Load.Free.adds hFree) (fun _ hK => hK) fun r m hK => by
    cases r with
    | ok a => exact hK
    | error e => exact hK.1

end Free

end Bundleless
