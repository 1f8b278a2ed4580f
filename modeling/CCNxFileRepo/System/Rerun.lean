import CCNxFileRepo.Client.Interruption
import CCNxFileRepo.System.OutputFile

/-!
# Starting the client again

An operator whose client was killed starts it again with the same arguments.  However often this
happens, and whatever the clients met before they were killed, the first one that comes to its end
without a failure repairs the output file.  All that can survive is the end of a file that was
longer than the published one before the first of them was started.
-/

namespace CCNxFileRepo

open Foundations CCNxFileRepoManifestFetcher CCNxFileRepoClient

/-- A client that was killed: what came of its exchanges and of its writes, and how far it got. -/
structure Attempt where
  schedule : ℕ → FetchOutcome
  outcomes : ℕ → WriteOutcome
  fuel : ℕ
  rounds : ℕ
  messages : ℕ

def Attempt.leaves (respond : CCNxInterest → Option CCNxMetaMessage) (clientBufferSize : ℕ)
    (target : CCNxName) (outFile : CString) (fs : FileSystem) (attempt : Attempt) : FileSystem :=
  runUntil (scriptedPortal respond) clientBufferSize outFile attempt.fuel attempt.rounds
    attempt.messages target fs (.start attempt.schedule) attempt.outcomes

/-- From `before` to `after` nothing but the file at `outFile` has changed, and it has grown to
`limit` bytes at most. -/
structure GrowsWithin (outFile : CString) (limit : ℕ) (before after : FileSystem) : Prop where
  path : after outFile ≠ some .directory
  frame : ∀ path, path ≠ outFile → after path = before path
  le_length : (before.contentsAt outFile).length ≤ (after.contentsAt outFile).length
  length_le : (after.contentsAt outFile).length ≤ max (before.contentsAt outFile).length limit

variable {respond : CCNxInterest → Option CCNxMetaMessage} {limit : ℕ} {target : CCNxName}
  {outFile : CString} {before between after fs : FileSystem}

theorem GrowsWithin.refl (hpath : fs outFile ≠ some .directory) : GrowsWithin outFile limit fs fs :=
  ⟨hpath, fun _ _ ↦ rfl, le_rfl, le_max_left _ _⟩

theorem GrowsWithin.trans (h : GrowsWithin outFile limit before between)
    (hnext : GrowsWithin outFile limit between after) : GrowsWithin outFile limit before after where
  path := hnext.path
  frame path hother := (hnext.frame path hother).trans (h.frame path hother)
  le_length := h.le_length.trans hnext.le_length
  length_le := hnext.length_le.trans (max_le h.length_le (le_max_right _ _))

theorem GrowsWithin.of_offers {data : Bytes} (h : Offers outFile before 0 data after)
    (hdata : data.length ≤ limit) : GrowsWithin outFile limit before after where
  path := h.path
  frame := h.frame
  le_length := h.patched.le_length
  length_le := by
    have hlength := h.patched.length_le
    rw [Nat.zero_add] at hlength
    exact hlength.trans (max_le_max le_rfl hdata)

/-- Killed clients leave an output file no longer than it was, or than the data. -/
theorem growsWithin_attempts (clientBufferSize : ℕ) {root : CCNxManifest}
    {pointers : List CCNxManifestHashGroupPointer}
    (hresponds : respond ⟨target, none⟩ = some (.manifest root))
    (hroot : root.firstGroup = some pointers)
    (t : FirstGroupTree (resolver respond root.name) pointers)
    (hpath : fs outFile ≠ some .directory) (attempts : List Attempt) :
    GrowsWithin outFile t.leaves.flatten.length fs
      (attempts.foldl (Attempt.leaves respond clientBufferSize target outFile) fs) := by
  induction attempts generalizing fs with
  | nil => exact .refl hpath
  | cons attempt attempts ih =>
      obtain ⟨data, hdata, hoffers⟩ := runUntil_offers attempt.fuel attempt.rounds
        attempt.messages attempt.outcomes attempt.schedule hresponds hroot t hpath
      have hfirst := GrowsWithin.of_offers hoffers hdata
      exact hfirst.trans (ih hfirst.path)

/-- After any number of killed clients one that comes to its end leaves exactly the published file,
if and only if the file that was there before all of them, if any, was no longer. -/
theorem rerun_eq_file_iff (lib : CCNxLibrary) (repo : CCNxFileRepoCache)
    (serverFs : FileSystem) (hempty : repo.EmptyRepository serverFs) (request : LoadRequest)
    (hchunk : 1 ≤ request.chunkSize) (hcapacity : 2 ≤ request.capacity)
    (hfree : lib.CollisionFreeOn {object | object ∈ request.messages lib})
    (clientBufferSize : ℕ) (hbuffer : request.chunkSize ≤ clientBufferSize) (outFile : CString)
    (clientFs : FileSystem) (hpath : clientFs outFile ≠ some .directory)
    (attempts : List Attempt) :
    ∃ saved, repo.load lib request serverFs noFailures = .ok (some (request.root lib), saved) ∧
      ∃ rounds, ∀ fuel, rounds < fuel → ∃ result,
        run (scriptedPortal ((request.producer lib repo saved).respond lib)) clientBufferSize fuel
            request.name outFile (attempts.foldl (Attempt.leaves
              ((request.producer lib repo saved).respond lib) clientBufferSize request.name outFile)
              clientFs) (.start fun _ ↦ .arrives) noFailures = .ok result ∧
          result.ending = .downloaded ∧
          (∀ path, path ≠ outFile → result.fs path = clientFs path) ∧
          (result.fs outFile = some (.regular request.file) ↔
            (clientFs.contentsAt outFile).length ≤ request.file.length) := by
  obtain ⟨saved, hload, hserves⟩ := exists_complete_load request hempty hfree
  obtain ⟨pointers, hroot, t, -, hdata⟩ := exists_publishedTree hchunk hcapacity hserves
  have hresponds : (request.producer lib repo saved).respond lib ⟨request.name, none⟩ =
      some (.manifest (request.root lib)) := Producer.respond_root
  have hgrows := growsWithin_attempts clientBufferSize hresponds
    (CCNxManifest.firstGroup_of_onlyGroup hroot) t.toFirstGroups hpath attempts
  rw [ManifestTree.leaves_toFirstGroups, hdata] at hgrows
  obtain ⟨rounds, hrounds⟩ :=
    run_published _ outFile hchunk hcapacity hserves hbuffer hgrows.path
  refine ⟨saved, hload, rounds, fun fuel hfuel ↦ ?_⟩
  obtain ⟨result, hrun, hending, hfs⟩ := hrounds fuel hfuel
  refine ⟨result, hrun, hending, fun path hother ↦ ?_, ?_⟩
  · rw [hfs, Function.update_of_ne hother]
    exact hgrows.frame path hother
  · rw [hfs, update_overlay_apply_iff]
    have hle := hgrows.le_length
    have hlimit := hgrows.length_le
    omega

open ReferenceLibrary in
/-- Three published bytes, after a client whose first write stored one of them and one that got
nothing but an interest return. -/
theorem rerun_eq_file_iff_twice :
    let repo : CCNxFileRepoCache := ⟨['r'], 2⟩
    let request : LoadRequest := ⟨[1, 2, 3], ⟨[[1]]⟩, 2, 2⟩
    let refusal : OtherMessage := ⟨.interestReturn ⟨request.name, none⟩, rfl, rfl⟩
    let attempts : List Attempt := [⟨fun _ ↦ .arrives, fun _ ↦ .short 1, 9, 1, 1⟩,
      ⟨fun _ ↦ .answeredBy refusal, noFailures, 9, 9, 9⟩]
    ∃ saved, repo.load referenceLibrary request repo.freshDisk noFailures =
        .ok (some (request.root referenceLibrary), saved) ∧
      ∃ rounds, ∀ fuel, rounds < fuel → ∃ result,
        run (scriptedPortal ((request.producer referenceLibrary repo saved).respond
            referenceLibrary)) 2 fuel request.name ['o'] (attempts.foldl (Attempt.leaves
              ((request.producer referenceLibrary repo saved).respond referenceLibrary) 2
              request.name ['o']) fun _ ↦ none) (.start fun _ ↦ .arrives) noFailures =
            .ok result ∧
          result.ending = .downloaded ∧
          (∀ path, path ≠ ['o'] → result.fs path = none) ∧
          (result.fs ['o'] = some (.regular [1, 2, 3]) ↔
            (FileSystem.contentsAt (fun _ ↦ none) ['o']).length ≤ [1, 2, 3].length) :=
  rerun_eq_file_iff referenceLibrary ⟨['r'], 2⟩ _ (CCNxFileRepoCache.emptyRepository_freshDisk _)
    ⟨[1, 2, 3], ⟨[[1]]⟩, 2, 2⟩ (by decide) (by decide) (collisionFreeOn _) 2 (by decide) ['o']
    (fun _ ↦ none) (by simp) _

end CCNxFileRepo
