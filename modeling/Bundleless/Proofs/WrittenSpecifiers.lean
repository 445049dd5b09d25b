import Bundleless.Source
import Bundleless.Proofs.Trimming
import Mathlib.Data.List.TakeDrop
import Mathlib.Data.List.TakeWhile

/-! # Written specifiers

    A source is written as a list of statements with any text between them
    that has no quotation mark (`Source.Script`). Of such a source the
    specifiers that are found are the written ones.

    Whether a statement leads up to a quotation mark is decided by the words
    right before that mark. The last character there that is not blank tells
    the two forms apart, and no specifier has room for the words of either. So
    a mark that closes one specifier is never taken for the one that opens
    the next.
-/

namespace Bundleless

namespace Source

/-! ## Section 1: Written statements -/

/-- The text has no quotation mark. -/
def IsPlain (cs : List Char) : Prop := ∀ c ∈ cs, isQuote c = false

instance : DecidablePred IsPlain := List.decidableBAll _

/-- A text without a quotation mark. -/
structure Plain where
  text : List Char
  isPlain : IsPlain text

/-- Blanks, perhaps none. -/
structure Blanks where
  text : List Char
  isBlank : ∀ c ∈ text, isBlank c = true

/-- One blank or more. -/
structure Gap extends Blanks where
  ne_nil : text ≠ []

/-- What an import statement binds. -/
structure Clause extends Plain where
  ne_nil : text ≠ []

/-- A specifier between two quotation marks. The marks may be of different kinds. -/
structure Quoted where
  opening : Char
  closing : Char
  spec : List Char
  isQuote_opening : isQuote opening = true
  isQuote_closing : isQuote closing = true
  ne_nil : spec ≠ []
  isPlain : IsPlain spec
  not_blank : ∀ c ∈ spec, isBlank c = false
  not_parenthesis : '(' ∉ spec ∧ ')' ∉ spec

/-- A statement that names a module. -/
inductive Statement where
  /-- The import of something from a module. -/
  | importFrom (gap : Gap) (clause : Clause) (gap' : Gap) (quoted : Quoted)
  /-- The import of a module alone. -/
  | importAlone (gap : Gap) (quoted : Quoted)
  /-- The call of `require`. -/
  | require (before : Blanks) (quoted : Quoted) (after : Blanks)

namespace Statement

/-- What is written before the specifier. -/
def lead : Statement → List Char
  | importFrom gap clause gap' _ => importWord ++ gap.text ++ clause.text ++ fromWord ++ gap'.text
  | importAlone gap _ => importWord ++ gap.text
  | require before _ _ => requireCall ++ before.text

/-- The specifier with its marks. -/
def quoted : Statement → Quoted
  | importFrom _ _ _ quoted => quoted
  | importAlone _ quoted => quoted
  | require _ quoted _ => quoted

/-- What is written after the specifier. -/
def tail : Statement → List Char
  | importFrom .. => []
  | importAlone .. => []
  | require _ _ after => after.text ++ [')']

/-- The statement as it is written. -/
def text (s : Statement) : List Char :=
  s.lead ++ s.quoted.opening :: (s.quoted.spec ++ s.quoted.closing :: s.tail)

/-- The statement is an import, and no call. -/
def isImport : Statement → Bool
  | importFrom .. => true
  | importAlone .. => true
  | require .. => false

end Statement

/-- A source as it is written: statements, each with the text that follows it, and the text before the
    first one. -/
structure Script where
  start : Plain
  statements : List (Statement × Plain)

namespace Script

/-- The text of statements and of what follows them. -/
def written (ss : List (Statement × Plain)) : List Char := ss.flatMap fun s => s.1.text ++ s.2.text

/-- The specifiers of the statements that `keep` selects, in their order. -/
def named (keep : Statement → Bool) (ss : List (Statement × Plain)) : List (List Char) :=
  (ss.filter fun s => keep s.1).map fun s => s.1.quoted.spec

/-- The source. -/
def source (w : Script) : String := String.ofList (w.start.text ++ written w.statements)

/-- The specifiers of its imports. -/
def imports (w : Script) : List String := (named (·.isImport) w.statements).map String.ofList

/-- The specifiers of its calls of `require`. -/
def requires (w : Script) : List String := (named (!·.isImport) w.statements).map String.ofList

end Script

/-! ## Section 2: Words and marks -/

variable {x u more spec rest : List Char} {q : Char}

theorem IsPlain.append {a b : List Char} (ha : IsPlain a) (hb : IsPlain b) : IsPlain (a ++ b) := by
  intro c hMem
  exact (List.mem_append.mp hMem).elim (ha c) (hb c)

theorem IsPlain.of_suffix (hPlain : IsPlain u) (hSuffix : x <:+ u) : IsPlain x :=
  fun c hMem => hPlain c (hSuffix.mem hMem)

theorem isBlank_of_isQuote {c : Char} (hMark : isQuote c = true) : isBlank c = false := by
  simp only [isQuote, Bool.or_eq_true, beq_iff_eq] at hMark
  rcases hMark with rfl | rfl <;> decide

theorem isPlain_of_blank (hBlank : ∀ c ∈ u, isBlank c = true) : IsPlain u := by
  intro c hMem
  by_contra hMark
  have hNot := isBlank_of_isQuote (Bool.not_eq_false _ ▸ hMark)
  rw [hBlank c hMem] at hNot
  cases hNot

/-- A text without marks is taken off up to the first one. -/
theorem span_plain (hPlain : IsPlain x) (hMark : isQuote q = true) (more : List Char) :
    (x ++ q :: more).span (!isQuote ·) = (x, q :: more) := by
  have hAll : ∀ c ∈ x, (!isQuote c) = true := fun c hMem => by simp [hPlain c hMem]
  rw [List.span_eq_takeWhile_dropWhile, List.takeWhile_append_of_pos hAll,
    List.dropWhile_append_of_pos hAll]
  simp [hMark]

theorem quoted?_quoted (s : Quoted) :
    quoted? (s.opening :: (s.spec ++ s.closing :: rest)) = some (s.spec, rest) := by
  rw [quoted?, if_pos s.isQuote_opening, span_plain s.isPlain s.isQuote_closing]
  cases hSpec : s.spec with
  | nil => exact absurd hSpec s.ne_nil
  | cons c cs => rfl

theorem quoted?_plain (hPlain : IsPlain x) : quoted? x = none := by
  cases x with
  | nil => rfl
  | cons c cs => rw [quoted?, hPlain c List.mem_cons_self]; rfl

theorem IsPlain.of_stripPrefix? {w : List Char} (hPlain : IsPlain x)
    (hStrip : Chars.stripPrefix? w x = some rest) : IsPlain rest :=
  hPlain.of_suffix ⟨w, (Chars.stripPrefix?_eq_some_iff.mp hStrip).symm⟩

/-- Whether a word without marks stands at the start is decided before the first mark. -/
theorem stripPrefix?_append {w : List Char} (hWord : IsPlain w) (hMark : isQuote q = true) :
    Chars.stripPrefix? w (x ++ q :: more) =
      (Chars.stripPrefix? w x).map (· ++ q :: more) := by
  induction w generalizing x with
  | nil => rfl
  | cons y w ih =>
    obtain ⟨hHead, hTail⟩ := List.forall_mem_cons.mp hWord
    cases x with
    | nil =>
      have hNe : y ≠ q := by
        rintro rfl
        rw [hMark] at hHead
        exact absurd hHead (by decide)
      simp [Chars.stripPrefix?, hNe]
    | cons c x =>
      by_cases hEq : y = c
      · simp [Chars.stripPrefix?, hEq, ih hTail]
      · simp [Chars.stripPrefix?, hEq]

/-! ## Section 3: Forms of statements -/

/-- The text is what an import has before its specifier. -/
def opensImport (x : List Char) : Bool := (Chars.stripPrefix? importWord x).any isClause

/-- The text is what a call of `require` has before its specifier. -/
def opensCall (x : List Char) : Bool := (Chars.stripPrefix? requireCall x).any (·.all isBlank)

/-- The specifier of a call of `require` at the start of the text, and what follows the call. -/
def closeCall? (cs : List Char) : Option (List Char × List Char) := do
  let (spec, rest) ← quoted? cs
  match rest.dropWhile isBlank with
  | ')' :: rest => some (spec, rest)
  | _ => none

/-- Statements of a form are read from the first quotation mark on: `opens` decides on what stands
    before it, and `close?` reads the rest. -/
structure IsForm (at? : List Char → Option (List Char × List Char)) (opens : List Char → Bool)
    (close? : List Char → Option (List Char × List Char)) : Prop where
  empty : opens [] = false
  plain : ∀ {x}, IsPlain x → at? x = none
  quoted : ∀ {x q}, IsPlain x → isQuote q = true → ∀ more,
    at? (x ++ q :: more) = if opens x = true then close? (q :: more) else none

theorem isForm_import : IsForm importAt? opensImport quoted? where
  empty := rfl
  plain {x} hPlain := by
    cases hWord : Chars.stripPrefix? importWord x with
    | none => simp [importAt?, hWord]
    | some clause =>
      have hClause := hPlain.of_stripPrefix? hWord
      simp [importAt?, hWord, quoted?_plain (hClause.of_suffix (List.dropWhile_suffix _))]
  quoted {x q} hPlain hMark more := by
    unfold importAt? opensImport
    rw [stripPrefix?_append (by decide) hMark]
    cases hWord : Chars.stripPrefix? importWord x with
    | none => rfl
    | some clause =>
      have hClause := hPlain.of_stripPrefix? hWord
      have hSpan := span_plain hClause hMark more
      simp only [Option.map_some, Option.bind_eq_bind, Option.bind_some, Option.any_some, hSpan]

theorem isForm_require : IsForm requireAt? opensCall closeCall? where
  empty := rfl
  plain {x} hPlain := by
    cases hWord : Chars.stripPrefix? requireCall x with
    | none => simp [requireAt?, hWord]
    | some gap =>
      have hGap := hPlain.of_stripPrefix? hWord
      simp [requireAt?, hWord, quoted?_plain (hGap.of_suffix (List.dropWhile_suffix _))]
  quoted {x q} hPlain hMark more := by
    unfold requireAt? opensCall
    rw [stripPrefix?_append (by decide) hMark]
    cases hWord : Chars.stripPrefix? requireCall x with
    | none => rfl
    | some gap =>
      have hGap := hPlain.of_stripPrefix? hWord
      have hMarkFirst : (q :: more).dropWhile isBlank = q :: more := by
        simp [isBlank_of_isQuote hMark]
      change closeCall? ((gap ++ q :: more).dropWhile isBlank) = _
      rw [Option.any_some]
      cases hRest : gap.dropWhile isBlank with
      | nil =>
        have hAll := List.dropWhile_eq_nil_iff.mp hRest
        rw [List.dropWhile_append_of_pos hAll, hMarkFirst, if_pos (List.all_eq_true.mpr hAll)]
      | cons c cs =>
        -- What follows the blanks is no mark.
        have hNot : ¬gap.all isBlank = true := by
          rw [List.all_eq_true, ← List.dropWhile_eq_nil_iff, hRest]
          exact List.cons_ne_nil c cs
        have hPlainRest : IsPlain (c :: cs) := hRest ▸ hGap.of_suffix (List.dropWhile_suffix isBlank)
        rw [if_neg hNot, List.dropWhile_append, hRest]
        simp [closeCall?, quoted?, hPlainRest c List.mem_cons_self]

/-! ## Section 4: Scanning up to a quotation mark -/

theorem scan_length_append (at? : List Char → Option (List Char × List Char)) (a b : List Char) :
    scan at? a.length (a ++ b) = scan at? 0 b := by
  induction a with
  | nil => rfl
  | cons c a ih => exact ih

namespace IsForm

variable {at? close? : List Char → Option (List Char × List Char)} {opens : List Char → Bool}

theorem scan_plain (hForm : IsForm at? opens close?) (hPlain : IsPlain u) : scan at? 0 u = [] := by
  induction u with
  | nil => rfl
  | cons c u ih =>
    rw [scan, hForm.plain hPlain]
    exact ih (hPlain.of_suffix (List.suffix_cons c u))

/-- Where no end of the text before the mark opens a statement, the search goes on after the mark. -/
theorem scan_skip (hForm : IsForm at? opens close?) (hPlain : IsPlain u) (hMark : isQuote q = true)
    (hNone : ∀ x, x <:+ u → opens x = false) :
    scan at? 0 (u ++ q :: more) = scan at? 0 more := by
  induction u with
  | nil =>
    have hAt := hForm.quoted hPlain hMark more
    rw [hForm.empty, if_neg Bool.false_ne_true, List.nil_append] at hAt
    rw [List.nil_append, scan, hAt]
  | cons c u ih =>
    have hAt := hForm.quoted hPlain hMark more
    rw [hNone _ (List.suffix_refl _), if_neg Bool.false_ne_true, List.cons_append] at hAt
    have hTail := List.suffix_cons c u
    rw [List.cons_append, scan, hAt]
    exact ih (hPlain.of_suffix hTail) fun x hSuffix => hNone x (hSuffix.trans hTail)

/-- Where one does, what is read from the mark on is found, no matter which of the ends it was that
    opens first. -/
theorem scan_find (hForm : IsForm at? opens close?) (hPlain : IsPlain u) (hMark : isQuote q = true)
    (hOpens : ∃ x, x <:+ u ∧ opens x = true) (hClose : close? (q :: more) = some (spec, rest))
    (hRest : rest <:+ more) : scan at? 0 (u ++ q :: more) = spec :: scan at? 0 rest := by
  obtain ⟨x, hSuffix, hIs⟩ := hOpens
  induction u with
  | nil =>
    rw [List.suffix_nil.mp hSuffix, hForm.empty] at hIs
    cases hIs
  | cons c u ih =>
    have hAt := hForm.quoted hPlain hMark more
    rw [List.cons_append] at hAt
    rw [List.cons_append, scan, hAt]
    by_cases hHere : opens (c :: u) = true
    · obtain ⟨gone, hGone⟩ := hRest
      have hCut : u ++ q :: more = (u ++ q :: gone) ++ rest := by simp [← hGone]
      have hLength : (u ++ q :: more).length - rest.length = (u ++ q :: gone).length := by
        rw [hCut, List.length_append, Nat.add_sub_cancel]
      rw [if_pos hHere, hClose]
      dsimp only
      rw [hLength, hCut, scan_length_append]
    · rw [if_neg hHere]
      rcases List.suffix_cons_iff.mp hSuffix with rfl | hSuffix
      · exact absurd hIs hHere
      · exact ih (hPlain.of_suffix (List.suffix_cons c u)) hSuffix

end IsForm

/-! ## Section 5: The words that open a statement -/

/-- The last character that is not blank. -/
def lastSolid (cs : List Char) : Option Char := (cs.filter (!isBlank ·)).getLast?

theorem lastSolid_append (a b : List Char) :
    lastSolid (a ++ b) = (lastSolid b).or (lastSolid a) := by
  rw [lastSolid, List.filter_append, List.getLast?_append]
  rfl

theorem lastSolid_of_blank (hBlank : ∀ c ∈ u, isBlank c = true) : lastSolid u = none := by
  rw [lastSolid, List.getLast?_eq_none_iff, List.filter_eq_nil_iff]
  exact fun c hMem => by simp [hBlank c hMem]

theorem lastSolid_of_suffix {c : Char} (hSuffix : x <:+ u) (hLast : lastSolid x = some c) :
    lastSolid u = some c := by
  obtain ⟨a, rfl⟩ := hSuffix
  rw [lastSolid_append, hLast, Option.some_or]

/-- What stands between the word of an import and its specifier, read forwards. -/
theorem isClause_iff {text : List Char} : isClause text = true ↔
    ∃ c rest, text = c :: rest ∧ isBlank c = true ∧ ((∀ d ∈ rest, isBlank d = true) ∨
      ∃ clause gap, rest = clause ++ fromWord ++ gap ∧ clause ≠ [] ∧ gap ≠ [] ∧
        ∀ d ∈ gap, isBlank d = true) := by
  cases text with
  | nil => simp [isClause]
  | cons c rest =>
    rw [isClause, Bool.and_eq_true, Bool.or_eq_true, List.all_eq_true,
      List.span_eq_takeWhile_dropWhile]
    constructor
    · rintro ⟨hFirst, hBlank | hFrom⟩
      · exact ⟨c, rest, rfl, hFirst, Or.inl hBlank⟩
      refine ⟨c, rest, rfl, hFirst, Or.inr ?_⟩
      -- From the end: the blanks, the word, and what is left.
      have hCut := List.takeWhile_append_dropWhile (p := isBlank) (l := rest.reverse)
      have hAll : ∀ d ∈ rest.reverse.takeWhile isBlank, isBlank d = true :=
        List.all_eq_true.mp List.all_takeWhile
      generalize rest.reverse.takeWhile isBlank = gap at hFrom hCut hAll
      generalize rest.reverse.dropWhile isBlank = front at hFrom hCut
      cases gap with
      | nil => cases hFrom
      | cons b gap =>
        cases hStrip : Chars.stripPrefix? fromWord.reverse front with
        | none => simp [hStrip] at hFrom
        | some clause =>
          have hClause : clause ≠ [] := by simpa [hStrip] using hFrom
          rw [Chars.stripPrefix?_eq_some_iff] at hStrip
          refine ⟨clause.reverse, (b :: gap).reverse, ?_, by simpa using hClause, by simp, ?_⟩
          · rw [← List.reverse_inj, ← hCut, hStrip]
            simp
          · exact fun d hMem => hAll d (List.mem_reverse.mp hMem)
    · rintro ⟨_, _, hEq, hFirst, hBlank | ⟨clause, gap, hRest, hClause, hGap, hAll⟩⟩
      · cases hEq
        exact ⟨hFirst, Or.inl hBlank⟩
      · cases hEq
        obtain ⟨b, bs, hBlanks⟩ := List.exists_cons_of_ne_nil (mt List.reverse_eq_nil_iff.mp hGap)
        have hBack : ∀ d ∈ b :: bs, isBlank d = true := by
          rw [← hBlanks]
          exact fun d hMem => hAll d (List.mem_reverse.mp hMem)
        have hReverse : rest.reverse = (b :: bs) ++ (fromWord.reverse ++ clause.reverse) := by
          rw [hRest, ← hBlanks]
          simp
        have hWord : (fromWord.reverse ++ clause.reverse).takeWhile isBlank = [] := rfl
        have hKept : (fromWord.reverse ++ clause.reverse).dropWhile isBlank =
            fromWord.reverse ++ clause.reverse := rfl
        refine ⟨hFirst, Or.inr ?_⟩
        rw [hReverse, List.takeWhile_append_of_pos hBack, List.dropWhile_append_of_pos hBack, hWord,
          hKept, List.append_nil]
        simp [Chars.stripPrefix?_eq_some_iff.mpr, hClause]

theorem isClause_blank (gap : Gap) : isClause gap.text = true := by
  obtain ⟨⟨text, hBlank⟩, hSome⟩ := gap
  obtain ⟨c, rest, rfl⟩ := List.exists_cons_of_ne_nil hSome
  obtain ⟨hHead, hTail⟩ := List.forall_mem_cons.mp hBlank
  exact isClause_iff.mpr ⟨c, rest, rfl, hHead, Or.inl hTail⟩

theorem isClause_from (gap gap' : Gap) (clause : Clause) :
    isClause (gap.text ++ clause.text ++ fromWord ++ gap'.text) = true := by
  obtain ⟨⟨text, hBlank⟩, hSome⟩ := gap
  obtain ⟨c, rest, rfl⟩ := List.exists_cons_of_ne_nil hSome
  refine isClause_iff.mpr ⟨c, rest ++ clause.text ++ fromWord ++ gap'.text, by simp,
    hBlank c List.mem_cons_self,
    Or.inr ⟨rest ++ clause.text, gap'.text, rfl, ?_, gap'.ne_nil, gap'.isBlank⟩⟩
  exact List.append_ne_nil_of_right_ne_nil rest clause.ne_nil

theorem opensImport_iff :
    opensImport x = true ↔ ∃ text, x = importWord ++ text ∧ isClause text = true := by
  simp [opensImport, Option.any_eq_true, Chars.stripPrefix?_eq_some_iff]

theorem opensCall_iff :
    opensCall x = true ↔ ∃ gap, x = requireCall ++ gap ∧ ∀ c ∈ gap, isBlank c = true := by
  simp [opensCall, Option.any_eq_true, Chars.stripPrefix?_eq_some_iff]

/-- Before the specifier of an import stands the end of one of its words. -/
theorem lastSolid_of_opensImport (hOpens : opensImport x = true) :
    lastSolid x = some 't' ∨ lastSolid x = some 'm' := by
  obtain ⟨text, hWord, hClause⟩ := opensImport_iff.mp hOpens
  obtain ⟨c, rest, rfl, hFirst, hBlank | ⟨clause, gap, rfl, -, -, hBlank⟩⟩ := isClause_iff.mp hClause
  · left
    rw [hWord, lastSolid_append, lastSolid_of_blank (List.forall_mem_cons.mpr ⟨hFirst, hBlank⟩)]
    rfl
  · right
    refine lastSolid_of_suffix (x := fromWord ++ gap) ⟨importWord ++ c :: clause, by simp [hWord]⟩ ?_
    rw [lastSolid_append, lastSolid_of_blank hBlank]
    rfl

/-- Before the one of a call of `require` stands its parenthesis. -/
theorem lastSolid_of_opensCall (hOpens : opensCall x = true) : lastSolid x = some '(' := by
  obtain ⟨gap, hWord, hBlank⟩ := opensCall_iff.mp hOpens
  rw [hWord, lastSolid_append, lastSolid_of_blank hBlank]
  rfl

/-- An import has a blank before its specifier. -/
theorem exists_blank_of_opensImport (hOpens : opensImport x = true) :
    ∃ c ∈ x, isBlank c = true := by
  obtain ⟨text, hWord, hClause⟩ := opensImport_iff.mp hOpens
  obtain ⟨c, rest, rfl, hFirst, -⟩ := isClause_iff.mp hClause
  exact ⟨c, by simp [hWord], hFirst⟩

theorem parenthesis_mem_of_opensCall (hOpens : opensCall x = true) : '(' ∈ x := by
  obtain ⟨gap, hWord, -⟩ := opensCall_iff.mp hOpens
  rw [hWord]
  exact List.mem_append_left _ (by decide)

namespace Statement

variable {s : Statement}

theorem opensImport_lead (hImport : s.isImport = true) : opensImport s.lead = true := by
  cases s with
  | importFrom gap clause gap' quoted =>
    exact opensImport_iff.mpr ⟨_, by simp [lead], isClause_from gap gap' clause⟩
  | importAlone gap quoted => exact opensImport_iff.mpr ⟨_, rfl, isClause_blank gap⟩
  | require before quoted after => cases hImport

theorem opensCall_lead (hCall : s.isImport = false) : opensCall s.lead = true := by
  cases s with
  | require before quoted after => exact opensCall_iff.mpr ⟨_, rfl, before.isBlank⟩
  | _ => cases hCall

theorem isPlain_lead (s : Statement) : IsPlain s.lead := by
  have hImport : IsPlain importWord := by decide
  have hFrom : IsPlain fromWord := by decide
  have hRequire : IsPlain requireCall := by decide
  cases s with
  | importFrom gap clause gap' quoted =>
    exact (((hImport.append (isPlain_of_blank gap.isBlank)).append clause.isPlain).append hFrom).append
      (isPlain_of_blank gap'.isBlank)
  | importAlone gap quoted => exact hImport.append (isPlain_of_blank gap.isBlank)
  | require before quoted after => exact hRequire.append (isPlain_of_blank before.isBlank)

theorem isPlain_tail (s : Statement) : IsPlain s.tail := by
  cases s with
  | require before quoted after => exact (isPlain_of_blank after.isBlank).append (by decide)
  | _ => exact fun _ hMem => by cases hMem

/-- No end of what stands before the specifier of an import opens a call. -/
theorem not_opensCall (hImport : s.isImport = true) (hSuffix : x <:+ u ++ s.lead) :
    opensCall x = false := by
  by_contra hNot
  have hCall := lastSolid_of_suffix hSuffix (lastSolid_of_opensCall (Bool.not_eq_false _ ▸ hNot))
  rcases lastSolid_of_opensImport (opensImport_lead hImport) with hLast | hLast <;>
    simp [lastSolid_append, hLast] at hCall

/-- No end of what stands before the specifier of a call opens an import. -/
theorem not_opensImport (hCall : s.isImport = false) (hSuffix : x <:+ u ++ s.lead) :
    opensImport x = false := by
  by_contra hNot
  have hLead := lastSolid_of_opensCall (opensCall_lead hCall)
  rcases lastSolid_of_opensImport (Bool.not_eq_false _ ▸ hNot) with hLast | hLast <;>
    simpa [lastSolid_append, hLead] using lastSolid_of_suffix hSuffix hLast

end Statement

/-! ## Section 6: What is found in a source -/

/-- The form finds the statements that `keep` selects, and no others: they open before their
    specifier and close after it, and neither the words of another statement nor a specifier open
    one. -/
structure Finds (keep : Statement → Bool) (at? : List Char → Option (List Char × List Char))
    (opens : List Char → Bool) (close? : List Char → Option (List Char × List Char)) : Prop
    extends IsForm at? opens close? where
  lead : ∀ s, keep s = true → opens s.lead = true
  close : ∀ s, keep s = true → ∀ after, IsPlain after → ∃ left, IsPlain left ∧ left <:+ s.tail ++ after ∧
    ∀ more, close? (s.quoted.opening ::
      (s.quoted.spec ++ s.quoted.closing :: (s.tail ++ after ++ more))) =
        some (s.quoted.spec, left ++ more)
  other : ∀ s, keep s = false → ∀ u x, x <:+ u ++ s.lead → opens x = false
  spec : ∀ s : Quoted, ∀ x, x <:+ s.spec → opens x = false

theorem finds_imports : Finds (·.isImport) importAt? opensImport quoted? where
  toIsForm := isForm_import
  lead _ := Statement.opensImport_lead
  close s _ after hAfter := ⟨s.tail ++ after, s.isPlain_tail.append hAfter, List.suffix_refl _,
    fun _ => quoted?_quoted s.quoted⟩
  other _ hCall _ _ := Statement.not_opensImport hCall
  spec s x hSuffix := by
    by_contra hNot
    obtain ⟨c, hMem, hBlank⟩ := exists_blank_of_opensImport (Bool.not_eq_false _ ▸ hNot)
    rw [s.not_blank c (hSuffix.mem hMem)] at hBlank
    cases hBlank

theorem finds_requires : Finds (!·.isImport) requireAt? opensCall closeCall? where
  toIsForm := isForm_require
  lead s hCall := Statement.opensCall_lead (Bool.not_eq_true' _ ▸ hCall)
  close s hCall after hAfter := by
    cases s with
    | require before quoted gap =>
      refine ⟨after, hAfter, List.suffix_append _ _, fun more => ?_⟩
      have hGap : (Statement.tail (.require before quoted gap) ++ after ++ more).dropWhile isBlank =
          ')' :: (after ++ more) := by
        rw [Statement.tail, List.append_assoc, List.append_assoc,
          List.dropWhile_append_of_pos gap.isBlank]
        rfl
      rw [closeCall?, quoted?_quoted]
      simp only [Option.bind_eq_bind, Option.bind_some, hGap]
    | _ => cases hCall
  other _ hImport _ _ := Statement.not_opensCall (Bool.not_eq_false' _ ▸ hImport)
  spec s x hSuffix := by
    by_contra hNot
    exact s.not_parenthesis.1 (hSuffix.mem (parenthesis_mem_of_opensCall (Bool.not_eq_false _ ▸ hNot)))

/-- A form that finds its statements finds them all in a source, and nothing else. -/
theorem Finds.scan_written {keep : Statement → Bool} {opens : List Char → Bool}
    {at? close? : List Char → Option (List Char × List Char)} (hFinds : Finds keep at? opens close?)
    (hPlain : IsPlain u) (ss : List (Statement × Plain)) :
    scan at? 0 (u ++ Script.written ss) = Script.named keep ss := by
  -- What a statement leaves behind is plain text before the next one.
  induction ss generalizing u with
  | nil =>
    rw [Script.written, List.flatMap_nil, List.append_nil]
    exact hFinds.scan_plain hPlain
  | cons step ss ih =>
    obtain ⟨s, after⟩ := step
    have hBefore : IsPlain (u ++ s.lead) := hPlain.append s.isPlain_lead
    have hWritten : u ++ Script.written ((s, after) :: ss) =
        u ++ s.lead ++ s.quoted.opening ::
          (s.quoted.spec ++ s.quoted.closing :: (s.tail ++ after.text ++ Script.written ss)) := by
      simp [Script.written, Statement.text]
    rw [hWritten]
    cases hKeep : keep s with
    | true =>
      obtain ⟨left, hLeft, ⟨gone, hGone⟩, hClose⟩ := hFinds.close s hKeep after.text after.isPlain
      have hRest : left ++ Script.written ss <:+
          s.quoted.spec ++ s.quoted.closing :: (s.tail ++ after.text ++ Script.written ss) :=
        ⟨s.quoted.spec ++ s.quoted.closing :: gone, by simp [← hGone]⟩
      rw [hFinds.scan_find hBefore s.quoted.isQuote_opening
        ⟨s.lead, List.suffix_append _ _, hFinds.lead s hKeep⟩ (hClose _) hRest, ih hLeft]
      simp [Script.named, hKeep]
    | false =>
      have hTail : IsPlain (s.tail ++ after.text) := s.isPlain_tail.append after.isPlain
      rw [hFinds.scan_skip hBefore s.quoted.isQuote_opening (hFinds.other s hKeep u),
        hFinds.scan_skip s.quoted.isPlain s.quoted.isQuote_closing (hFinds.spec s.quoted), ih hTail]
      simp [Script.named, hKeep]

/-- **The specifiers of a source are the written ones**, each once: those of its imports in their order,
    then those of its calls of `require` in theirs. -/
theorem specifiers_source (w : Script) :
    specifiers w.source = (w.imports ++ w.requires).eraseDups := by
  rw [specifiers, Script.source, String.toList_ofList, finds_imports.scan_written w.start.isPlain,
    finds_requires.scan_written w.start.isPlain, List.map_append, Distinct.firsts_eq_eraseDups]
  rfl

/-- A statement may begin inside of a word, and the opening of a call in a clause opens none. -/
example : specifiers "reimport require( from 'a'; require( \"b\" )import\n'a'" = ["a", "b"] := by
  decide +kernel

end Source

end Bundleless
