import CCNxFileRepo.Foundations.Fallible
import CCNxFileRepo.Repository.History

/-!
# Loads in any order

Saves are joins, so a directory depends on which loads were made, and neither on their order nor on
their number.  Together with the frame of a save, which changes no path but that of its object,
this settles the whole disk.
-/

namespace CCNxFileRepo.CCNxFileRepoCache

open Foundations

variable {lib : CCNxLibrary} {repo : CCNxFileRepoCache} {objects : Set CCNxMetaMessage}
  {fs : FileSystem} {progress : Progress} {path : CString}

/-! ## What a load leaves alone -/

/-- A save changes the path of its object only. -/
theorem saveToRepo_frame {message : CCNxMetaMessage} {outcome : WriteOutcome} {digest : Bytes}
    {saved : FileSystem} (h : saveToRepo lib repo fs message outcome = .ok (digest, saved))
    (hpath : path ≠ repo.objectPath lib message) : saved path = fs path := by
  unfold saveToRepo at h
  simp only [CCNxLibrary.reparse_eq] at h
  rw [← objectPath, FileSystem.createNewFile_guarded] at h
  split at h
  · cases h
  · rename_i raf hopen
    cases h
    rw [FileSystem.write, FileSystem.path_of_openRandomAccess hopen, Function.update_of_ne hpath]
    exact FileSystem.createNewFile_apply_of_ne fs hpath

theorem saveAll_frame {messages : List CCNxMetaMessage} {outcomes : ℕ → WriteOutcome}
    {saved : FileSystem} (h : saveAll lib repo fs messages outcomes = .ok saved)
    (hpath : ∀ message ∈ messages, path ≠ repo.objectPath lib message) : saved path = fs path := by
  induction messages generalizing fs outcomes with
  | nil =>
      cases h
      rfl
  | cons message messages ih =>
      obtain ⟨⟨digest, next⟩, hsave, hlater⟩ := Fallible.bind_eq_ok.mp h
      obtain ⟨hfirst, hrest⟩ := List.forall_mem_cons.mp hpath
      exact (ih hlater hrest).trans (saveToRepo_frame hsave hfirst)

theorem load_frame {request : LoadRequest} {outcomes : ℕ → WriteOutcome}
    {root : Option CCNxManifest} {saved : FileSystem}
    (h : load lib repo request fs outcomes = .ok (root, saved))
    (hpath : ∀ message ∈ request.messages lib, path ≠ repo.objectPath lib message) :
    saved path = fs path := saveAll_frame (saveAll_of_load h).2 hpath

/-- A history of loads changes the paths of its objects only. -/
theorem runLoads_frame {attempts : List (LoadRequest × (ℕ → WriteOutcome))}
    {roots : List (Option CCNxManifest)} {final : FileSystem}
    (h : runLoads lib repo attempts fs = .ok (roots, final))
    (hpath : ∀ attempt ∈ attempts, ∀ message ∈ attempt.1.messages lib,
      path ≠ repo.objectPath lib message) : final path = fs path := by
  induction attempts generalizing fs roots with
  | nil =>
      cases h
      rfl
  | cons attempt attempts ih =>
      obtain ⟨⟨root, saved⟩, hload, hlater⟩ := Fallible.bind_eq_ok.mp h
      obtain ⟨⟨later, last⟩, hruns, hend⟩ := Fallible.bind_eq_ok.mp hlater
      cases hend
      obtain ⟨hfirst, hrest⟩ := List.forall_mem_cons.mp hpath
      exact (ih hruns hrest).trans (load_frame hload hfirst)

/-! ## Loads in any order -/

/-- What a directory holds of the objects and what stands elsewhere make up the disk. -/
theorem Represents.unique {other : FileSystem} (h : Represents lib repo objects fs progress)
    (hother : Represents lib repo objects other progress)
    (hframe : ∀ path, (∀ object ∈ objects, path ≠ repo.objectPath lib object) →
      fs path = other path) : fs = other := by
  funext path
  by_cases hpath : ∃ object ∈ objects, path = repo.objectPath lib object
  · obtain ⟨object, hobject, rfl⟩ := hpath
    rw [h.files object hobject, hother.files object hobject]
  · apply hframe
    rintro object hobject rfl
    exact hpath ⟨object, hobject, rfl⟩

/-- Histories of the same loads, in any order and any number, leave one disk. -/
theorem Represents.runLoads_congr (hfree : lib.CollisionFreeOn objects)
    (h : Represents lib repo objects fs progress)
    {first second : List (LoadRequest × (ℕ → WriteOutcome))}
    (hmem : ∀ attempt, attempt ∈ first ↔ attempt ∈ second)
    (hfirst : ∀ attempt ∈ first, ∀ message ∈ attempt.1.messages lib, message ∈ objects) :
    ∃ final, CCNxFileRepoCache.runLoads lib repo first fs =
        .ok (first.map fun attempt ↦ some (attempt.1.root lib), final) ∧
      CCNxFileRepoCache.runLoads lib repo second fs =
        .ok (second.map fun attempt ↦ some (attempt.1.root lib), final) := by
  have hsecond : ∀ attempt ∈ second, ∀ message ∈ attempt.1.messages lib, message ∈ objects :=
    fun attempt hattempt ↦ hfirst attempt ((hmem attempt).mpr hattempt)
  obtain ⟨final, hruns, hfinal⟩ := h.runLoads_entries hfree hfirst
  obtain ⟨other, hothers, hother⟩ := h.runLoads_entries hfree hsecond
  have hentries : raiseAll progress (historyEntries lib first) =
      raiseAll progress (historyEntries lib second) := by
    apply raiseAll_congr
    intro entry
    simp only [mem_historyEntries, hmem]
  have hdisk : final = other := by
    apply hfinal.unique (hentries ▸ hother)
    intro path hpath
    calc
      final path = fs path := runLoads_frame hruns fun attempt hattempt message hmessage ↦
        hpath message (hfirst attempt hattempt message hmessage)
      _ = other path := (runLoads_frame hothers fun attempt hattempt message hmessage ↦
        hpath message (hsecond attempt hattempt message hmessage)).symm
  subst hdisk
  exact ⟨final, hruns, hothers⟩

/-- From any repository that earlier loads have left, two loads leave the same disk in either order
and return the same roots, and a load that is made twice leaves the disk and returns the root of
the first time. -/
theorem loads_commute (lib : CCNxLibrary) (repo : CCNxFileRepoCache) (fs : FileSystem)
    (hempty : EmptyRepository repo fs) (earlier : List (LoadRequest × (ℕ → WriteOutcome)))
    (first second : LoadRequest) (outcomes outcomes' : ℕ → WriteOutcome)
    (hfree : lib.CollisionFreeOn
      {object | object ∈ historyMessages lib (first :: second :: earlier.map Prod.fst)}) :
    ∃ roots start, runLoads lib repo earlier fs = .ok (roots, start) ∧
      (∃ final,
        runLoads lib repo [(first, outcomes), (second, outcomes')] start =
          .ok ([some (first.root lib), some (second.root lib)], final) ∧
        runLoads lib repo [(second, outcomes'), (first, outcomes)] start =
          .ok ([some (second.root lib), some (first.root lib)], final)) ∧
      ∃ final,
        runLoads lib repo [(first, outcomes)] start = .ok ([some (first.root lib)], final) ∧
        runLoads lib repo [(first, outcomes), (first, outcomes)] start =
          .ok ([some (first.root lib), some (first.root lib)], final) := by
  let requests := first :: second :: earlier.map Prod.fst
  have hfirst : ∀ message ∈ first.messages lib, message ∈ historyMessages lib requests :=
    mem_historyMessages (List.mem_cons_self ..)
  have hsecond : ∀ message ∈ second.messages lib, message ∈ historyMessages lib requests :=
    mem_historyMessages (List.mem_cons_of_mem _ (List.mem_cons_self ..))
  obtain ⟨roots, start, reached, hruns, hrepresents, -⟩ :=
    (hempty.represents _).runLoads hfree fun attempt hattempt ↦ mem_historyMessages
      (List.mem_cons_of_mem _ (List.mem_cons_of_mem _ (List.mem_map_of_mem hattempt)))
  refine ⟨roots, start, hruns, ?_, ?_⟩
  · have hswap : ∀ attempt, attempt ∈ [(first, outcomes), (second, outcomes')] ↔
        attempt ∈ [(second, outcomes'), (first, outcomes)] :=
      fun _ ↦ (List.Perm.swap _ _ _).mem_iff
    exact hrepresents.runLoads_congr hfree hswap (by simpa using ⟨hfirst, hsecond⟩)
  · have htwice : ∀ attempt, attempt ∈ [(first, outcomes)] ↔
        attempt ∈ [(first, outcomes), (first, outcomes)] := by simp
    exact hrepresents.runLoads_congr hfree htwice (by simpa using hfirst)

open ReferenceLibrary in
/-- Two files that share a chunk, after a load of which the second write stores nothing. -/
theorem loads_commute_shared :
    let repo : CCNxFileRepoCache := ⟨['r'], 1⟩
    let earlier : List (LoadRequest × (ℕ → WriteOutcome)) :=
      [(⟨[7, 9], ⟨[[1]]⟩, 1, 2⟩, fun index ↦ if index = 1 then .short 0 else .complete)]
    let first : LoadRequest := ⟨[7, 8], ⟨[[1]]⟩, 1, 2⟩
    let second : LoadRequest := ⟨[7], ⟨[[1]]⟩, 2, 2⟩
    ∃ roots start, runLoads referenceLibrary repo earlier repo.freshDisk = .ok (roots, start) ∧
      (∃ final,
        runLoads referenceLibrary repo [(first, noFailures), (second, noFailures)] start =
          .ok ([some (first.root referenceLibrary), some (second.root referenceLibrary)], final) ∧
        runLoads referenceLibrary repo [(second, noFailures), (first, noFailures)] start =
          .ok ([some (second.root referenceLibrary), some (first.root referenceLibrary)], final)) ∧
      ∃ final,
        runLoads referenceLibrary repo [(first, noFailures)] start =
          .ok ([some (first.root referenceLibrary)], final) ∧
        runLoads referenceLibrary repo [(first, noFailures), (first, noFailures)] start =
          .ok ([some (first.root referenceLibrary), some (first.root referenceLibrary)], final) :=
  loads_commute referenceLibrary ⟨['r'], 1⟩ _ (emptyRepository_freshDisk _) _ _ _ _ _
    (collisionFreeOn _)

end CCNxFileRepo.CCNxFileRepoCache
