import Bundleless.Proofs.Rounds

/-! # Import maps

    The import map of a page is made in rounds, one library after the other:
    each is resolved to its end before the next one is begun, and the first
    that cannot be resolved ends the call. The map is the union of what the
    libraries claim; of several that claim one specifier the last has it.
-/

namespace Bundleless

open Load (resolve importMap)

/-! ## Section 1: What is claimed -/

/-- The dependency is imported under the specifier: it declares it, or it declares none and is
    called so. Nothing is imported under an empty text. -/
def Descriptor.Claims (d : Descriptor) (spec : String) : Prop :=
  spec ≠ "" ∧ (spec ∈ d.importSpecifiers ∨ d.importSpecifiers = [] ∧ spec = d.name)

theorem Descriptor.mem_specifiers {d : Descriptor} {spec : String} :
    spec ∈ d.specifiers ↔ d.Claims spec := by
  unfold specifiers Claims
  rw [List.mem_filter, and_comm, bne_iff_ne]
  cases d.importSpecifiers <;> simp

namespace Table

variable {α : Type}

/-- Several names that get one value. -/
theorem get?_foldl_insert (names : List String) (value : α) (key : String) (t : Table α) :
    get? key (names.foldl (fun t name => insert name value t) t) =
      if key ∈ names then some value else get? key t := by
  induction names generalizing t with
  | nil => simp
  | cons name names ih =>
    rw [List.foldl_cons, ih, get?_insert]
    by_cases hMem : key ∈ names
    · simp [hMem]
    · by_cases hName : name = key
      · simp [hName]
      · simp [hMem, hName, Ne.symm hName]

theorem keys_foldl_insert (names : List String) (value : α) (t : Table α) :
    keys (names.foldl (fun t name => insert name value t) t) =
      names.foldl Distinct.add (keys t) := by
  induction names generalizing t with
  | nil => rfl
  | cons name names ih => rw [List.foldl_cons, ih, keys_insert, List.foldl_cons]

end Table

/-! ## Section 2: Unions -/

namespace ImportMap

/-- The map is the union of what these libraries claim, which were found in this order: each claimed
    specifier is there once, and leads to where the last library was found that claims it. -/
structure IsUnion (m : ImportMap) (found : List (Round Descriptor String)) : Prop where
  nodup : m.imports.keys.Nodup
  mem_keys : ∀ spec, spec ∈ m.imports.keys ↔ ∃ x ∈ found, x.member.Claims spec
  last_wins : ∀ earlier x later spec, found = earlier ++ x :: later → x.member.Claims spec →
    (∀ y ∈ later, ¬y.member.Claims spec) → m.get? spec = some x.result

variable {m : ImportMap} {found : List (Round Descriptor String)}

theorem isUnion_empty : IsUnion {} [] where
  nodup := List.nodup_nil
  mem_keys spec := by simp [Table.keys]
  last_wins earlier x later spec hIs := by simp at hIs

theorem get?_insert (m : ImportMap) (d : Descriptor) (url spec : String) :
    (m.insert d url).get? spec = if spec ∈ d.specifiers then some url else m.get? spec :=
  Table.get?_foldl_insert d.specifiers url spec m.imports

/-- **One more library**: it takes what it claims, and leaves the rest to the others. -/
theorem IsUnion.insert (hUnion : m.IsUnion found) (x : Round Descriptor String) :
    (m.insert x.member x.result).IsUnion (found ++ [x]) := by
  have hKeys : (m.insert x.member x.result).imports.keys =
      x.member.specifiers.foldl Distinct.add m.imports.keys := Table.keys_foldl_insert _ _ _
  refine ⟨?_, ?_, ?_⟩
  · rw [hKeys]
    exact Distinct.nodup_foldl_add hUnion.nodup
  · intro spec
    rw [hKeys, Distinct.mem_foldl_add, hUnion.mem_keys, Descriptor.mem_specifiers]
    simp only [List.mem_append, List.mem_singleton, or_and_right, exists_or, exists_eq_left]
  · intro earlier y later spec hIs hClaims hLater
    rw [get?_insert]
    rcases List.eq_nil_or_concat later with rfl | ⟨later, z, rfl⟩
    · -- The new library is the last one that claims the specifier.
      obtain ⟨-, hLast⟩ := List.append_inj' hIs rfl
      obtain rfl : x = y := List.singleton_inj.mp hLast
      rw [if_pos (Descriptor.mem_specifiers.mpr hClaims)]
    · rw [List.concat_eq_append] at hIs hLater
      rw [← List.cons_append, ← List.append_assoc] at hIs
      obtain ⟨hFound, hLast⟩ := List.append_inj' hIs rfl
      obtain rfl : x = z := List.singleton_inj.mp hLast
      have hNot : x.member.specifiers.contains spec = false := by
        simpa [Descriptor.mem_specifiers] using hLater x (by simp)
      rw [if_neg (by simpa using hNot)]
      exact hUnion.last_wins earlier y later spec hFound hClaims fun w hMem =>
        hLater w (List.mem_append_left _ hMem)

end ImportMap

/-! ## Section 3: One library after the other -/

/-- What a call that makes an import map has carried out, and what it has come to. -/
inductive Load.MapsInOrder (l : Loader) (ds : List Descriptor) (hist : History) :
    Except Failure ImportMap → Prop
  /-- All libraries were resolved, one after the other, and the map is the union of what they
      claim. -/
  | mapped {found : List (Round Descriptor String)} {m : ImportMap}
      (hFound : ∀ x ∈ found, x.Succeeds (resolve l)) (hAll : ds = found.map (·.member))
      (hHist : hist = Round.written found)
      (hRequests : hist.requests = found.flatMap (·.hist.requests)) (hUnion : m.IsUnion found) :
      MapsInOrder l ds hist (.ok m)
  /-- A library could not be resolved after all those before it. Of the others nothing was done, and
      nothing was asked. -/
  | stopped {found : List (Round Descriptor String)} {d : Descriptor} {rest : List Descriptor}
      {last : History} {e : Failure} (hFound : ∀ x ∈ found, x.Succeeds (resolve l))
      (hNext : ds = found.map (·.member) ++ d :: rest)
      (hFails : (resolve l d).run.Came last (.done (.error e)))
      (hHist : hist = last ++ Round.written found)
      (hRequests : hist.requests = found.flatMap (·.hist.requests) ++ last.requests) :
      MapsInOrder l ds hist (.error e)

namespace Load

variable {l : Loader} {ds : List Descriptor} {hist : History} {m : ImportMap}
  {r : Except Failure ImportMap}

/-- Of a call that has libraries in its map already, what it carries out for the others. -/
theorem came_importMap {before : List (Round Descriptor String)} (hUnion : m.IsUnion before)
    (hCame : (importMap l m ds).run.Came hist (.done r)) :
    ∃ found : List (Round Descriptor String), (∀ x ∈ found, x.Succeeds (resolve l)) ∧
      ((∃ m', r = .ok m' ∧ ds = found.map (·.member) ∧ hist = Round.written found ∧
          m'.IsUnion (before ++ found)) ∨
        ∃ d rest last e, r = .error e ∧ ds = found.map (·.member) ++ d :: rest ∧
          (resolve l d).run.Came last (.done (.error e)) ∧
          hist = last ++ Round.written found) := by
  induction ds generalizing m before hist with
  | nil =>
    obtain ⟨rfl, rfl⟩ := Came.answer_of_done (a := Except.ok m) hCame
    exact ⟨[], by simp, Or.inl ⟨m, rfl, rfl, rfl, by simpa using hUnion⟩⟩
  | cons d ds ih =>
    rcases Attempt.of_came_bind hCame with ⟨e, rfl, hFails⟩ | ⟨url, first, rest, rfl, hFirst, hRest⟩
    · exact ⟨[], by simp, Or.inr ⟨d, ds, hist, e, rfl, rfl, hFails, by simp⟩⟩
    · let x : Round Descriptor String := ⟨d, first, url⟩
      obtain ⟨found, hFound, hEnds⟩ := ih (hUnion.insert x) hRest
      refine ⟨x :: found, List.forall_mem_cons.mpr ⟨hFirst, hFound⟩, ?_⟩
      rw [Round.written_cons]
      rcases hEnds with ⟨m', rfl, rfl, rfl, hUnion'⟩ | ⟨d', rest', last, e, rfl, rfl, hFails, rfl⟩
      · refine Or.inl ⟨m', rfl, rfl, rfl, ?_⟩
        simpa using hUnion'
      · refine Or.inr ⟨d', rest', last, e, rfl, rfl, hFails, ?_⟩
        exact List.append_assoc _ _ _

theorem searches_importMap (l : Loader) (m : ImportMap) (ds : List Descriptor) :
    (importMap l m ds).Searches := by
  induction ds generalizing m with
  | nil => exact Attempt.only_pure _
  | cons d ds ih => exact (searches_resolve l d).bind fun url => ih _

/-- **An import map is the union of what the libraries claim, and the last one wins.** Whatever is
    answered, the libraries are resolved one after the other, and the first that cannot be resolved
    ends the call with its failure; and with every transport the call comes to its end. -/
theorem importMap_is_union (l : Loader) (ds : List Descriptor) :
    (∀ hist r, (importMap l {} ds).run.Came hist (.done r) → MapsInOrder l ds hist r) ∧
      ∀ τ : Transport, ∃ hist r, (importMap l {} ds).run.Came hist (.done r) ∧ τ.Gave hist := by
  refine ⟨?_, Only.exists_came (searches_importMap l {} ds)⟩
  intro hist r hCame
  obtain ⟨found, hFound, hEnds⟩ := came_importMap ImportMap.isUnion_empty hCame
  have hRequests := Round.requests_written found
  rcases hEnds with ⟨m, rfl, hAll, rfl, hUnion⟩ | ⟨d, rest, last, e, rfl, hNext, hFails, rfl⟩
  · exact .mapped hFound hAll rfl hRequests hUnion
  · refine .stopped hFound hNext hFails rfl ?_
    rw [History.requests_append, hRequests]

end Load

/-- Two libraries that are both imported as `react`, and one under its name. -/
def Replay.overlapping : List Descriptor :=
  [{ name := "react", url := some "https://a.test/react.js",
     importSpecifiers := ["react", "", "react/jsx"] },
   { name := "preact", url := some "https://b.test/compat.js",
     importSpecifiers := ["react", "react"] },
   { name := "dayjs", url := some "https://c.test/dayjs.js" }]

/-- The later one has it, and the other one keeps the rest. -/
theorem Load.importMap_is_union_overlapping :
    ∃ hist m, (importMap Replay.loader {} Replay.overlapping).run.Came hist (.done (.ok m)) ∧
      MapsInOrder Replay.loader Replay.overlapping hist (.ok m) ∧
      m.imports = [("react", "https://b.test/compat.js"), ("react/jsx", "https://a.test/react.js"),
        ("dayjs", "https://c.test/dayjs.js")] := by
  have hCame : (importMap Replay.loader {} Replay.overlapping).run.Came [] (.done (.ok ⟨_⟩)) :=
    .start
  exact ⟨_, _, hCame, (Load.importMap_is_union Replay.loader Replay.overlapping).1 _ _ hCame, by decide⟩

end Bundleless
