import Bundleless.Proofs.Overlay
import Bundleless.Proofs.Retries
import Mathlib.Order.Nat

/-! # The counter of retries

    A probe counts its retries twice: those that are left are counted down,
    in the unsigned numbers of 32 bits in which they are set, and those that
    were made are counted up, in the signed numbers of 32 bits from which the
    pauses are made. The sum of both is what was set, so that the second
    counter has room for half of the numbers that the first one can begin
    with. Beyond that it goes on from the least number of all.

    Section 1 has the loop of a probe with both counters, and finds that it
    is the probe. Section 2 goes by the moments at which the loop begins
    anew, whatever was answered; Section 3 says which of them are reached
    with a given transport.
-/

namespace Bundleless

/-! ## Section 1: A loop with two counters -/

/-- The operation is a pause. -/
def Op.isPause : Op → Bool
  | .sleep _ => true
  | _ => false

/-- How many retries were made: each of them has waited first, and nothing else waits. -/
def History.retries (hist : History) : Nat := hist.countP fun x => x.op.isPause

namespace History

@[simp] theorem retries_nil : retries [] = 0 := rfl

@[simp] theorem retries_sleep (ms : Nat) (hist : History) :
    retries (⟨.sleep ms, ()⟩ :: hist) = hist.retries + 1 := List.countP_cons_of_pos rfl

@[simp] theorem retries_append (later earlier : History) :
    retries (later ++ earlier) = retries later + retries earlier := List.countP_append

end History

namespace ProbeOptions

/-- The pause that is meant before a retry, whatever its number is. -/
def pauseBefore (o : ProbeOptions) (retry : Nat) : Nat :=
  (Binary64.mul (.ofNat o.backoffMs) (growth.pow retry)).truncate (UInt64.size - 1)

/-- A counter that tells the number gives the pause that is meant. -/
theorem delay_of_toInt {o : ProbeOptions} {attempt : Int32} {retry : Nat}
    (hTrue : attempt.toInt = retry) : o.delay attempt.toInt = o.pauseBefore retry := by
  have hFits : attempt.toInt.bmod UInt32.size = attempt.toInt := attempt.toInt_bmod
  rw [delay, hFits, hTrue, pauseBefore]

/-- The pauses of a probe go by such a counter. -/
theorem delay_ofNat (o : ProbeOptions) (retry : Nat) :
    o.delay (Int32.ofNat retry).toInt = o.delay retry := by
  rw [delay, delay, Int32.toInt_ofNat', Int.bmod_bmod]

end ProbeOptions

/-- The counter tells as many retries as there are signed numbers of 32 bits from zero on. -/
theorem toInt_counter (made : Nat) (hMade : made < UInt32.size) :
    (Int32.ofNat made).toInt =
      if (made : Int) ≤ Int32.maxValue.toInt then (made : Int) else made - UInt32.size := by
  have hGreatest : Int32.maxValue.toInt = 2147483647 := rfl
  rw [Int32.toInt_ofNat', hGreatest]
  simp only [Int.bmod_def, Int32.size, UInt32.size] at hMade ⊢
  omega

/-- One is taken from what is left. -/
theorem toNat_pred {left : UInt32} (hLeft : 0 < left) : (left - 1).toNat + 1 = left.toNat := by
  have hPos : 0 < left.toNat := UInt32.lt_iff_toNat_lt.mp hLeft
  have hOne : (1 : UInt32) ≤ left := UInt32.le_iff_toNat_le.mpr hPos
  rw [UInt32.toNat_sub_of_le _ _ hOne]
  exact Nat.sub_add_cancel hPos

namespace Load

variable {o : ProbeOptions} {url : String} {τ : Transport} {hist more : History} {left : UInt32}
  {attempt : Int32}

/-- The loop of a probe with its counters: how many retries are left, and how many were made. -/
def probeLoop (o : ProbeOptions) (url : String) (left : UInt32) (attempt : Int32) :
    Load ProbeResult := do
  let outcome ← (check o url).run
  if 0 < left ∧ isPassing outcome = true then
    op (.sleep (o.delay attempt.toInt))
    probeLoop o url (left - 1) (attempt + 1)
  else conclude url outcome
termination_by left.toNat
decreasing_by
  next hMore =>
  have hPred := toNat_pred hMore.1
  omega

/-- With any number of retries left that can be set, the loop is what a probe goes on with. -/
theorem probeFrom_eq_probeLoop {left : Nat} (hLeft : left < UInt32.size) (retry : Nat) :
    probeFrom o url left retry = probeLoop o url (.ofNat left) (.ofNat retry) := by
  induction left generalizing retry with
  | zero =>
    rw [probeLoop, probeFrom]
    simp
  | succ left ih =>
    have hPos : 0 < UInt32.ofNat (left + 1) := by
      rw [UInt32.lt_iff_toNat_lt, UInt32.toNat_ofNat_of_lt' hLeft]
      exact Nat.succ_pos left
    have hPred : UInt32.ofNat (left + 1) - 1 = .ofNat left := by
      rw [UInt32.ofNat_add]
      exact UInt32.add_sub_cancel _ 1
    rw [probeLoop, probeFrom, hPred, o.delay_ofNat, ih (by omega), Int32.ofNat_add]
    simp only [hPos, true_and]
    rfl

/-- **The loop with its counters is the probe.** -/
theorem probe_eq_probeLoop (hRetries : o.retries < UInt32.size) :
    probe o url = probeLoop o url (.ofNat o.retries) 0 := probeFrom_eq_probeLoop hRetries 0

/-! ## Section 2: Where the loop begins anew -/

/-- What a probe has carried out when its loop begins anew, and what its counters are then. -/
inductive AtHead (o : ProbeOptions) (url : String) : History → UInt32 → Int32 → Prop
  | first : AtHead o url [] (.ofNat o.retries) 0
  | again {hist more : History} {left : UInt32} {attempt : Int32} {outcome : Except Failure Nat}
      (hHead : AtHead o url hist left attempt) (hLeft : 0 < left)
      (hCheck : (check o url).run.Came more (.done outcome))
      (hPasses : isPassing outcome = true) :
      AtHead o url (⟨.sleep (o.delay attempt.toInt), ()⟩ :: (more ++ hist)) (left - 1)
        (attempt + 1)

/-- A program without pauses makes no retry. -/
theorem Only.retries_eq_zero {α : Type} {p q : Load α} (hOnly : p.Only fun o => o.isPause = false)
    (hCame : p.Came hist q) : hist.retries = 0 := by
  refine List.countP_eq_zero.mpr fun x hMem => ?_
  exact Bool.eq_false_iff.mp (hOnly.of_mem hCame hMem)

/-- An attempt does not wait. -/
theorem retries_of_check {q : Load (Except Failure Nat)}
    (hCame : (check o url).run.Came hist q) : hist.retries = 0 :=
  Load.Only.retries_eq_zero (only_check o (fun _ => rfl) fun _ => rfl) hCame

/-- A round makes one retry. -/
theorem retries_round {ms : Nat} {q : Load (Except Failure Nat)}
    (hCheck : (check o url).run.Came more q) (hist : History) :
    History.retries (⟨.sleep ms, ()⟩ :: (more ++ hist)) = hist.retries + 1 := by
  rw [History.retries_sleep, History.retries_append, retries_of_check hCheck, Nat.zero_add]

/-- One round of the loop: an attempt whose outcome passes is waited out. -/
theorem came_round {outcome : Except Failure Nat} (hLeft : 0 < left)
    (hCheck : (check o url).run.Came more (.done outcome)) (hPasses : isPassing outcome = true) :
    (probeLoop o url left attempt).Came (⟨.sleep (o.delay attempt.toInt), ()⟩ :: more)
      (probeLoop o url (left - 1) (attempt + 1)) := by
  rw [probeLoop, ← List.singleton_append]
  refine hCheck.bind ?_
  rw [if_pos ⟨hLeft, hPasses⟩]
  exact Came.ask (o := .sleep _) () .start

/-- What is left of the probe when the loop begins anew is the loop with its counters. -/
theorem AtHead.came (hRetries : o.retries < UInt32.size) (hHead : AtHead o url hist left attempt) :
    (probe o url).Came hist (probeLoop o url left attempt) := by
  induction hHead with
  | first => exact probe_eq_probeLoop hRetries ▸ .start
  | again _ hLeft hCheck hPasses ih => exact ih.trans (came_round hLeft hCheck hPasses)

/-- **What is left and what was made are together what was set**, and the counter has been increased
    once for each retry. -/
theorem AtHead.balance (hRetries : o.retries < UInt32.size)
    (hHead : AtHead o url hist left attempt) :
    left.toNat + hist.retries = o.retries ∧ attempt = .ofNat hist.retries := by
  induction hHead with
  | first => exact ⟨UInt32.toNat_ofNat_of_lt' hRetries, rfl⟩
  | @again hist more left attempt outcome _ hLeft hCheck _ ih =>
    obtain ⟨hSum, rfl⟩ := ih
    have hPred := toNat_pred hLeft
    rw [retries_round hCheck, Int32.ofNat_add]
    exact ⟨by omega, rfl⟩

/-- **Whenever a probe has waited, its loop has begun anew before that**, with one attempt between,
    and the pause is the one of the counter. -/
theorem AtHead.of_sleep {before : History} {ms : Nat} {q : Load ProbeResult}
    (hHead : AtHead o url before left attempt)
    (hCame : (probeLoop o url left attempt).Came (⟨.sleep ms, ()⟩ :: hist) q) :
    ∃ before' more left' attempt', hist ++ before = more ++ before' ∧ more.retries = 0 ∧
      AtHead o url before' left' attempt' ∧ ms = o.delay attempt'.toInt := by
  induction left, attempt using probeLoop.induct generalizing before hist with
  | case1 left attempt ih =>
    rw [probeLoop] at hCame
    rcases hCame.bind_cases with ⟨p, -, hCheck⟩ | ⟨outcome, first, after, hIs, hCheck, hRest⟩
    · -- Nothing waits within an attempt.
      have hNone := retries_of_check hCheck
      rw [History.retries_sleep] at hNone
      omega
    have hCount := congrArg History.retries hIs
    rw [History.retries_sleep, History.retries_append, retries_of_check hCheck] at hCount
    split at hRest
    · next hMore =>
      obtain ⟨hLeft, hPasses⟩ := hMore
      rcases Came.ask_cases hRest with ⟨rfl, -⟩ | ⟨_, rest, rfl, hLoop⟩
      · simp at hCount
      cases rest with
      | nil =>
        -- The pause is the one that ends this round.
        obtain ⟨hPause, rfl⟩ := List.cons.inj hIs
        cases hPause
        exact ⟨before, hist, left, attempt, rfl, retries_of_check hCheck, hHead, rfl⟩
      | cons x rest =>
        obtain ⟨rfl, rfl⟩ := List.cons.inj hIs
        obtain ⟨before', more, left', attempt', hParts, hMore⟩ :=
          ih outcome ⟨hLeft, hPasses⟩ (hHead.again hLeft hCheck hPasses) hLoop
        exact ⟨before', more, left', attempt', by simpa using hParts, hMore⟩
    · have hNone : after.retries = 0 :=
        (only_conclude outcome fun _ => rfl).retries_eq_zero hRest
      omega

/-- The moment before the attempt that a probe has waited after. -/
theorem exists_atHead_of_pause (hRetries : o.retries < UInt32.size) {ms : Nat}
    {q : Load ProbeResult} (hCame : (probe o url).Came (⟨.sleep ms, ()⟩ :: hist) q) :
    ∃ before more left attempt, hist = more ++ before ∧ hist.retries = before.retries ∧
      AtHead o url before left attempt ∧ ms = o.delay attempt.toInt := by
  rw [probe_eq_probeLoop hRetries] at hCame
  obtain ⟨before, more, left, attempt, hParts, hNone, hHead, hPause⟩ :=
    AtHead.first.of_sleep hCame
  rw [List.append_nil] at hParts
  have hSame : hist.retries = before.retries := by
    rw [hParts, History.retries_append, hNone, Nat.zero_add]
  exact ⟨before, more, left, attempt, hParts, hSame, hHead, hPause⟩

/-- Whatever was answered, a probe waits by its counter of retries. -/
theorem pause_eq (hRetries : o.retries < UInt32.size) {ms : Nat} {q : Load ProbeResult}
    (hCame : (probe o url).Came (⟨.sleep ms, ()⟩ :: hist) q) : ms = o.delay hist.retries := by
  obtain ⟨before, -, left, attempt, -, hSame, hHead, rfl⟩ := exists_atHead_of_pause hRetries hCame
  obtain ⟨-, rfl⟩ := hHead.balance hRetries
  rw [hSame, o.delay_ofNat]

end Load

/-! ## Section 3: Which retries are made -/

namespace Transport

variable {o : ProbeOptions} {url : String} {τ : Transport} {hist more : History}

/-- What was answered before the last operation. -/
theorem Gave.of_cons {x : Answered} (hGave : τ.Gave (x :: hist)) : τ.Gave hist := by
  rw [← List.singleton_append] at hGave
  exact hGave.of_append

/-- What was answered first, and then with the transport as that has left it. -/
theorem Gave.append (hFirst : τ.Gave hist) (hThen : (τ.after hist.requests).Gave more) :
    τ.Gave (more ++ hist) := by
  intro later earlier method url r hIs
  rcases List.append_eq_append_iff.mp hIs with ⟨between, -, hOld⟩ | ⟨between, hNew, hRest⟩
  · exact hFirst between earlier method url r hOld
  rcases List.cons_eq_append_iff.mp hRest with ⟨-, hOld⟩ | ⟨between, rfl, rfl⟩
  · exact hFirst [] earlier method url r hOld
  · rw [History.requests_append]
    exact hThen later between method url r hNew

/-- One attempt more has gone before. -/
theorem before_succ (i : Nat) (τ : Transport) :
    before o url (i + 1) τ = (before o url i τ).after ((before o url i τ).attempt o url) := by
  induction i generalizing τ with
  | zero => rfl
  | succ i ih => exact ih _

end Transport

namespace Load

variable {o : ProbeOptions} {url : String} {τ : Transport} {hist more : History} {left : UInt32}
  {attempt : Int32}

/-- An attempt has the outcome of its number. -/
theorem check_follows {i : Nat} {outcome : Except Failure Nat}
    (hBefore : Transport.before o url i τ = τ.after hist.requests)
    (hCheck : (check o url).run.Came more (.done outcome))
    (hGave : (τ.after hist.requests).Gave more) :
    outcome = τ.outcome o url i ∧
      Transport.before o url (i + 1) τ = τ.after (more ++ hist).requests := by
  obtain ⟨rfl, hOps⟩ := came_check hCheck hGave
  have hRequests : more.requests = (τ.after hist.requests).attempt o url :=
    History.requests_of_exchange hOps
  refine ⟨?_, ?_⟩
  · rw [← hBefore]
    rfl
  · rw [Transport.before_succ, hBefore, History.requests_append, hRequests]
    funext later
    simp [Transport.after]

/-- **When the loop begins anew**, the transport is as the attempts so far have left it, and none of
    their outcomes was final. -/
theorem AtHead.follows (hHead : AtHead o url hist left attempt) (hGave : τ.Gave hist) :
    Transport.before o url hist.retries τ = τ.after hist.requests ∧
      ∀ i < hist.retries, ProbeOptions.isFinal (τ.outcome o url i) = false := by
  induction hHead with
  | first => exact ⟨rfl, fun i hNone => absurd hNone (Nat.not_lt_zero i)⟩
  | @again hist more left attempt outcome _ _ hCheck hPasses ih =>
    have hBoth : τ.Gave (more ++ hist) := hGave.of_cons
    obtain ⟨hBefore, hEarlier⟩ := ih hBoth.of_append
    obtain ⟨hOutcome, hNext⟩ := check_follows hBefore hCheck hBoth.afterwards
    rw [retries_round hCheck]
    refine ⟨hNext, fun i hi => ?_⟩
    rcases Nat.lt_succ_iff_lt_or_eq.mp hi with hLess | rfl
    · exact hEarlier i hLess
    · rw [← hOutcome, isFinal_eq, hPasses, Bool.not_true]

/-- No retry is made after the last attempt. -/
theorem AtHead.retries_le (hRetries : o.retries < UInt32.size)
    (hHead : AtHead o url hist left attempt) (hGave : τ.Gave hist) {last : Nat}
    (hLast : ProbeOptions.isFinal (τ.outcome o url last) = true ∨ last = o.retries) :
    hist.retries ≤ last := by
  obtain ⟨hSum, -⟩ := hHead.balance hRetries
  obtain ⟨-, hPasses⟩ := hHead.follows hGave
  rcases hLast with hFinal | rfl
  · by_contra hMore
    have hNot := hPasses last (by omega)
    rw [hFinal] at hNot
    cases hNot
  · omega

/-- **Every retry is made** that follows on outcomes which are not final, as long as any is left. -/
theorem exists_atHead (hRetries : o.retries < UInt32.size) (url : String) (τ : Transport)
    (made : Nat) (hWithin : made ≤ o.retries)
    (hPasses : ∀ i < made, ProbeOptions.isFinal (τ.outcome o url i) = false) :
    ∃ hist left attempt, AtHead o url hist left attempt ∧ τ.Gave hist ∧ hist.retries = made := by
  induction made with
  | zero => exact ⟨[], _, _, .first, Transport.gave_nil, rfl⟩
  | succ made ih =>
    obtain ⟨hist, left, attempt, hHead, hGave, rfl⟩ :=
      ih (by omega) fun i hi => hPasses i (by omega)
    have hSearches : (check o url).Searches := only_check o (fun _ => rfl) fun _ => rfl
    obtain ⟨more, outcome, hCheck, hGaveMore⟩ :=
      Load.Only.exists_came hSearches (τ.after hist.requests)
    obtain ⟨hBefore, -⟩ := hHead.follows hGave
    obtain ⟨hOutcome, -⟩ := check_follows hBefore hCheck hGaveMore
    have hAgain : isPassing outcome = true := by
      have hNot := hPasses hist.retries (Nat.lt_succ_self _)
      rwa [← hOutcome, isFinal_eq, Bool.not_eq_false'] at hNot
    have hLeft : 0 < left := by
      obtain ⟨hSum, -⟩ := hHead.balance hRetries
      rw [UInt32.lt_iff_toNat_lt]
      show 0 < left.toNat
      omega
    refine ⟨_, _, _, hHead.again hLeft hCheck hAgain, ?_, retries_round hCheck hist⟩
    exact (hGave.append hGaveMore).cons fun _ _ _ hIs => by cases hIs

/-- So there is a pause before every such retry. -/
theorem exists_pause (hRetries : o.retries < UInt32.size) (url : String) (τ : Transport)
    (made : Nat) (hWithin : made < o.retries)
    (hPasses : ∀ i ≤ made, ProbeOptions.isFinal (τ.outcome o url i) = false) :
    ∃ (hist : History) (q : Load ProbeResult),
      (probe o url).Came (⟨.sleep (o.delay made), ()⟩ :: hist) q ∧ τ.Gave hist ∧
      hist.retries = made := by
  obtain ⟨hist, left, attempt, hHead, hGave, hMade⟩ :=
    exists_atHead hRetries url τ _ hWithin fun i hi => hPasses i (Nat.le_of_lt_succ hi)
  have hCame := hHead.came hRetries
  cases hHead with
  | first => simp at hMade
  | @again hist more left attempt outcome hHead hLeft hCheck hPasses =>
    have hRetry : (more ++ hist).retries = made := by simpa using hMade
    rw [pause_eq hRetries hCame, hRetry] at hCame
    exact ⟨_, _, hCame, hGave.of_cons, hRetry⟩

end Load

/-! ## Section 4: The exact condition -/

/-- Retries are counted right in everything that a probe can do with this transport. -/
structure ProbeOptions.CountsRetries (o : ProbeOptions) (url : String) (τ : Transport) : Prop where
  /-- Whenever the loop begins anew, also after the last increment, the counter is the number of
      retries that were made. -/
  counter : ∀ (hist : History) left attempt, Load.AtHead o url hist left attempt →
    τ.Gave hist → attempt.toInt = hist.retries
  /-- Each pause is the one before the retry of that number. -/
  pauses : ∀ (hist : History) ms q, (Load.probe o url).Came (⟨.sleep ms, ()⟩ :: hist) q →
    τ.Gave hist → ms = o.pauseBefore hist.retries

namespace ProbeOptions

variable {o : ProbeOptions} {url : String} {τ : Transport} {last : Nat}

/-- Retries are counted right exactly if there are no more of them than the counter can tell. -/
theorem countsRetries_iff_last (hRetries : o.retries < UInt32.size)
    (hLast : IsLeast {i | isFinal (τ.outcome o url i) = true ∨ i = o.retries} last) :
    o.CountsRetries url τ ↔ (last : Int) ≤ Int32.maxValue.toInt := by
  obtain ⟨hEnds, hLeast⟩ := hLast
  constructor
  · intro hCounts
    have hPasses : ∀ i < last, isFinal (τ.outcome o url i) = false := fun i hi =>
      Bool.eq_false_iff.mpr fun hFinal => Nat.not_le_of_lt hi (hLeast (Or.inl hFinal))
    obtain ⟨hist, left, attempt, hHead, hGave, rfl⟩ :=
      Load.exists_atHead hRetries url τ _ (hLeast (Or.inr rfl)) hPasses
    exact hCounts.counter hist left attempt hHead hGave ▸ attempt.toInt_le
  · intro hFits
    have hCounter : ∀ hist left attempt, Load.AtHead o url hist left attempt → τ.Gave hist →
        attempt.toInt = hist.retries := by
      intro hist left attempt hHead hGave
      have hMade : hist.retries ≤ last := hHead.retries_le hRetries hGave hEnds
      obtain ⟨hSum, rfl⟩ := hHead.balance hRetries
      rw [toInt_counter hist.retries (by omega), if_pos (by omega)]
    refine ⟨hCounter, fun hist ms q hCame hGave => ?_⟩
    obtain ⟨before, more, left, attempt, rfl, hSame, hHead, rfl⟩ :=
      Load.exists_atHead_of_pause hRetries hCame
    rw [hSame]
    exact delay_of_toInt (hCounter before left attempt hHead hGave.of_append)

end ProbeOptions

/-- A server that is overloaded for good. -/
def Replay.overloaded : Transport := fun _ => .ok ⟨503, ""⟩

/-- Such a server is asked until all retries are used up. -/
theorem Replay.isFinal_overloaded (o : ProbeOptions) (url : String) (i : Nat) :
    ProbeOptions.isFinal (Replay.overloaded.outcome o url i) = false := by
  -- An attempt leaves the server as it is.
  have hOutcome : Replay.overloaded.outcome o url i = .ok 503 := by
    induction i with
    | zero => rfl
    | succ i ih => exact ih
  rw [hOutcome]
  rfl

namespace Settings

/-- A number that was read is within its bounds. -/
theorem number?_lt {bound n : Nat} {text : String} (hRead : number? bound text = some n) :
    n < bound := by
  simp only [number?, Option.ite_none_left_eq_some, Option.ite_none_right_eq_some,
    Option.some.injEq] at hRead
  obtain ⟨-, hLess, rfl⟩ := hRead
  exact hLess

/-- What a variable sets for the retries is an unsigned number of 32 bits. -/
theorem probeRetries_setVariable_lt {s : Settings} (hLess : s.probeRetries < UInt32.size)
    (name value : String) : (s.setVariable name value).probeRetries < UInt32.size := by
  have hSet : (s.setVariable name value).probeRetries =
      if variableKey? name = some Field.probeRetries.key then
        (number? UInt32.size value).getD s.probeRetries
      else s.probeRetries := Field.probeRetries.get_setVariable s name value
  rw [hSet]
  split
  · cases hRead : number? UInt32.size value with
    | none => exact hLess
    | some n => exact number?_lt hRead
  · exact hLess

/-- So are the retries under every environment. -/
theorem probeRetries_ofEnvironment_lt (env : List (String × String)) :
    (ofEnvironment env).probeRetries < UInt32.size := by
  unfold ofEnvironment
  refine List.foldlRecOn (motive := fun s : Settings => s.probeRetries < UInt32.size) env _
    (by decide) ?_
  intro s hLess x _
  exact probeRetries_setVariable_lt hLess x.1 x.2

end Settings

namespace ProbeOptions

/-- **Retries are counted right exactly as far as the signed numbers of 32 bits go.** With one
    transport it depends on the last attempt, and with all of them on the retries that are set. In
    every case what is left and what was made are together what was set, the counter goes on from
    the least number after the greatest one, and the pauses are those of the counter. -/
theorem countsRetries_iff (o : ProbeOptions) (hRetries : o.retries < UInt32.size) :
    (∀ url τ, ∃ last, IsLeast {i | isFinal (τ.outcome o url i) = true ∨ i = o.retries} last ∧
      (o.CountsRetries url τ ↔ (last : Int) ≤ Int32.maxValue.toInt)) ∧
    (∀ url, (∀ τ, o.CountsRetries url τ) ↔ (o.retries : Int) ≤ Int32.maxValue.toInt) ∧
    (∀ url hist left attempt, Load.AtHead o url hist left attempt →
      left.toNat + hist.retries = o.retries ∧
      attempt.toInt = if (hist.retries : Int) ≤ Int32.maxValue.toInt then (hist.retries : Int)
        else hist.retries - UInt32.size) ∧
    ∀ url (hist : History) ms q, (Load.probe o url).Came (⟨.sleep ms, ()⟩ :: hist) q →
      ms = o.delay hist.retries := by
  have hEach (url : String) (τ : Transport) :
      ∃ last, IsLeast {i | isFinal (τ.outcome o url i) = true ∨ i = o.retries} last ∧
        (o.CountsRetries url τ ↔ (last : Int) ≤ Int32.maxValue.toInt) := by
    have hSome : ∃ i, isFinal (τ.outcome o url i) = true ∨ i = o.retries := ⟨_, Or.inr rfl⟩
    exact ⟨_, Nat.isLeast_find hSome, countsRetries_iff_last hRetries (Nat.isLeast_find hSome)⟩
  refine ⟨hEach, fun url => ⟨fun hAll => ?_, fun hFits τ => ?_⟩, ?_, ?_⟩
  · -- With a server that never gets better the last attempt uses up all retries.
    obtain ⟨last, hLast, hCounts⟩ := hEach url Replay.overloaded
    have hUsedUp : last = o.retries :=
      hLast.1.resolve_left (Bool.eq_false_iff.mp (Replay.isFinal_overloaded o url last))
    exact hUsedUp ▸ hCounts.mp (hAll Replay.overloaded)
  · obtain ⟨last, hLast, hCounts⟩ := hEach url τ
    have hWithin : last ≤ o.retries := hLast.2 (Or.inr rfl)
    exact hCounts.mpr (by omega)
  · intro url hist left attempt hHead
    obtain ⟨hSum, rfl⟩ := hHead.balance hRetries
    exact ⟨hSum, toInt_counter hist.retries (by omega)⟩
  · exact fun url hist ms q hCame => Load.pause_eq hRetries hCame

/-- The policy under an environment that sets the retries alone. -/
def withRetries (text : String) : ProbeOptions :=
  .ofSettings (.ofEnvironment [("SPACEY_BOOT_PROBE_RETRIES", text)])

/-- With this many retries all of them are counted right, whatever the server does. -/
theorem countsRetries_iff_greatest :
    (withRetries "2147483647").retries < UInt32.size ∧
      ∀ url τ, (withRetries "2147483647").CountsRetries url τ := by
  have hRetries : (withRetries "2147483647").retries < UInt32.size :=
    Settings.probeRetries_ofEnvironment_lt _
  obtain ⟨-, hAll, -⟩ := countsRetries_iff (withRetries "2147483647") hRetries
  exact ⟨hRetries, fun url => (hAll url).mpr (by decide)⟩

/-- With two retries more there is an increment that leads to the least number of all, and the pause
    after that is none, where the longest one is meant. -/
theorem not_countsRetries :
    ¬(withRetries "2147483649").CountsRetries "https://e.test/x.js" Replay.overloaded ∧
    (∃ hist left, Load.AtHead (withRetries "2147483649") "https://e.test/x.js" hist left
        Int32.minValue ∧ Replay.overloaded.Gave hist ∧ hist.retries = 2147483648) ∧
    ∃ (hist : History) (q : Load ProbeResult),
      (Load.probe (withRetries "2147483649") "https://e.test/x.js").Came
        (⟨.sleep 0, ()⟩ :: hist) q ∧
      Replay.overloaded.Gave hist ∧ hist.retries = 2147483648 ∧
      (withRetries "2147483649").pauseBefore 2147483648 = 18446744073709551615 := by
  have hRetries : (withRetries "2147483649").retries < UInt32.size :=
    Settings.probeRetries_ofEnvironment_lt _
  generalize hOptions : withRetries "2147483649" = o at hRetries ⊢
  have hSet : o.retries = 2147483649 := by
    rw [← hOptions]
    decide
  have hPause : o.delay (2147483648 : Nat) = 0 := by
    rw [← hOptions]
    decide +kernel
  have hMeant : o.pauseBefore 2147483648 = 18446744073709551615 := by
    rw [← hOptions]
    decide +kernel
  have hPasses := Replay.isFinal_overloaded o "https://e.test/x.js"
  obtain ⟨early, left, attempt, hHead, hGaveEarly, hEarly⟩ :=
    Load.exists_atHead hRetries "https://e.test/x.js" Replay.overloaded 2147483648 (by omega)
      fun i _ => hPasses i
  obtain ⟨hist, q, hCame, hGave, hMade⟩ :=
    Load.exists_pause hRetries "https://e.test/x.js" Replay.overloaded 2147483648 (by omega)
      fun i _ => hPasses i
  rw [hPause] at hCame
  have hLeast : attempt = Int32.minValue := by
    rw [(hHead.balance hRetries).2, hEarly]
    decide
  refine ⟨fun hCounts => ?_, ⟨early, left, hLeast ▸ hHead, hGaveEarly, hEarly⟩,
    hist, q, hCame, hGave, hMade, hMeant⟩
  have hRight := hCounts.counter early left attempt hHead hGaveEarly
  rw [hLeast, hEarly] at hRight
  cases hRight

end ProbeOptions

end Bundleless
