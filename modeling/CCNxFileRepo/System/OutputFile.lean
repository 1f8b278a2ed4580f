import CCNxFileRepo.CCNx.ReferenceLibrary
import CCNxFileRepo.System.RoundTrip

/-!
# What is left of an old output file

The client creates its output file only when there is none and never truncates it.  A download
writes the published bytes from the start of the file, and so does the branch that dumps a single
content object.  What was there before survives behind them.
-/

namespace CCNxFileRepo

open Foundations CCNxFileRepoManifestFetcher CCNxFileRepoClient

variable {respond : CCNxInterest → Option CCNxMetaMessage} {capacity fuel : ℕ}
  {target : CCNxName} {outFile : CString} {fs : FileSystem} {outcomes : ℕ → WriteOutcome}

/-- The network after the first interest was answered. -/
def firstAnswered (target : CCNxName) : ScriptedState :=
  (ScriptedState.start fun _ ↦ .arrives).after
    [{ name := target, contentObjectHashRestriction := none }]

theorem run_manifest {root : CCNxManifest} (h : respond ⟨target, none⟩ = some (.manifest root)) :
    run (scriptedPortal respond) capacity (fuel + 1) target outFile fs
        (.start fun _ ↦ .arrives) outcomes =
      (download (scriptedPortal respond) capacity outFile fuel root fs (firstAnswered target)
        outcomes).map fun final ↦ ⟨.downloaded, final.fs, final.network⟩ := by
  have hreceive : receiveLoop (scriptedPortal respond) capacity outFile fs outcomes (fuel + 1)
      { firstAnswered target with reply := some (.manifest root) } =
        (download (scriptedPortal respond) capacity outFile fuel root fs (firstAnswered target)
          outcomes).map fun final ↦ ⟨.downloaded, final.fs, final.network⟩ := by
    change (download _ _ _ _ _ _ (firstAnswered target) _).bind _ = _
    cases download (scriptedPortal respond) capacity outFile fuel root fs (firstAnswered target)
      outcomes <;> rfl
  rw [← hreceive, ← h]
  rfl

theorem run_contentObject {object : CCNxContentObject}
    (h : respond ⟨target, none⟩ = some (.contentObject object))
    (hpath : fs outFile ≠ some .directory) :
    run (scriptedPortal respond) capacity (fuel + 1) target outFile fs
        (.start fun _ ↦ .arrives) noFailures =
      .ok ⟨.dumped, Function.update fs outFile (some (.regular
        (Overlay.overlay 0 (fs.contentsAt outFile) 0 object.payload))), firstAnswered target⟩ := by
  have hreceive : receiveLoop (scriptedPortal respond) capacity outFile fs noFailures (fuel + 1)
      { firstAnswered target with reply := some (.contentObject object) } =
        .ok ⟨.dumped, Function.update fs outFile (some (.regular
          (Overlay.overlay 0 (fs.contentsAt outFile) 0 object.payload))),
            firstAnswered target⟩ := by
    have happend := appendBufferToFile_eq hpath object.payload 0 (noFailures 0)
    change (appendBufferToFile _ _ _ _ _).bind _ = _
    rw [happend]
    rfl
  rw [← hreceive, ← h]
  rfl

/-- Writing from the start over an old file leaves the data alone in it if and only if the old
file was no longer. -/
theorem update_overlay_apply_iff (fs : FileSystem) (outFile : CString) (data : Bytes) :
    Function.update fs outFile (some (.regular (Overlay.overlay 0 (fs.contentsAt outFile) 0 data)))
        outFile = some (.regular data) ↔ (fs.contentsAt outFile).length ≤ data.length := by
  rw [Function.update_self, Option.some.injEq, FileNode.regular.injEq,
    Overlay.overlay_zero_eq_iff]

/-- A client that asks the server for its name downloads the file over the old contents. -/
theorem run_published {lib : CCNxLibrary} {repo : CCNxFileRepoCache} {request : LoadRequest}
    {saved : FileSystem} (clientFs : FileSystem) (outFile : CString)
    (hchunk : 1 ≤ request.chunkSize) (hcapacity : 2 ≤ request.capacity)
    (hserves : (request.producer lib repo saved).Serves lib (request.messages lib))
    (hbuffer : request.chunkSize ≤ capacity) (hpath : clientFs outFile ≠ some .directory) :
    ∃ rounds, ∀ fuel, rounds < fuel → ∃ result,
      run (scriptedPortal ((request.producer lib repo saved).respond lib)) capacity fuel
          request.name outFile clientFs (.start fun _ ↦ .arrives) noFailures = .ok result ∧
        result.ending = .downloaded ∧
        result.fs = Function.update clientFs outFile (some (.regular
          (Overlay.overlay 0 (clientFs.contentsAt outFile) 0 request.file))) := by
  obtain ⟨rounds, hrounds⟩ := download_published hchunk hcapacity hserves hbuffer hpath
  refine ⟨rounds + 1, fun fuel hfuel ↦ ?_⟩
  obtain ⟨fuel, rfl⟩ := Nat.exists_eq_succ_of_ne_zero (Nat.ne_zero_of_lt hfuel)
  obtain ⟨final, hfinal, hfs⟩ :=
    hrounds fuel (by omega) (firstAnswered request.name) fun _ ↦ rfl
  have hroot : (request.producer lib repo saved).respond lib ⟨request.name, none⟩ =
      some (.manifest (request.root lib)) := Producer.respond_root
  exact ⟨⟨.downloaded, final.fs, final.network⟩, by rw [run_manifest hroot, hfinal]; rfl, rfl, hfs⟩

/-- After a download, or after a content object was dumped, the output file is exactly what was
published if and only if the file that was there before, if any, was no longer. -/
theorem run_output_eq_published_iff (lib : CCNxLibrary) (repo : CCNxFileRepoCache)
    (serverFs : FileSystem) (hempty : repo.EmptyRepository serverFs) (request : LoadRequest)
    (hchunk : 1 ≤ request.chunkSize) (hcapacity : 2 ≤ request.capacity)
    (hfree : lib.CollisionFreeOn {object | object ∈ request.messages lib})
    (clientBufferSize : ℕ) (hbuffer : request.chunkSize ≤ clientBufferSize) (outFile : CString)
    (clientFs : FileSystem) (hpath : clientFs outFile ≠ some .directory) :
    (∃ saved, repo.load lib request serverFs noFailures = .ok (some (request.root lib), saved) ∧
      ∃ rounds, ∀ fuel, rounds < fuel → ∃ result,
        run (scriptedPortal ((request.producer lib repo saved).respond lib)) clientBufferSize fuel
            request.name outFile clientFs (.start fun _ ↦ .arrives) noFailures = .ok result ∧
          result.ending = .downloaded ∧
          (result.fs outFile = some (.regular request.file) ↔
            (clientFs.contentsAt outFile).length ≤ request.file.length)) ∧
    ∀ (respond : CCNxInterest → Option CCNxMetaMessage) (target : CCNxName)
      (object : CCNxContentObject), respond ⟨target, none⟩ = some (.contentObject object) →
      ∀ fuel, 0 < fuel → ∃ result,
        run (scriptedPortal respond) clientBufferSize fuel target outFile clientFs
            (.start fun _ ↦ .arrives) noFailures = .ok result ∧
          result.ending = .dumped ∧
          (result.fs outFile = some (.regular object.payload) ↔
            (clientFs.contentsAt outFile).length ≤ object.payload.length) := by
  constructor
  · obtain ⟨saved, hload, hserves⟩ := exists_complete_load request hempty hfree
    obtain ⟨rounds, hrounds⟩ :=
      run_published clientFs outFile hchunk hcapacity hserves hbuffer hpath
    refine ⟨saved, hload, rounds, fun fuel hfuel ↦ ?_⟩
    obtain ⟨result, hrun, hending, hfs⟩ := hrounds fuel hfuel
    refine ⟨result, hrun, hending, ?_⟩
    rw [hfs]
    exact update_overlay_apply_iff clientFs outFile request.file
  · intro respond target object hobject fuel hfuel
    obtain ⟨fuel, rfl⟩ := Nat.exists_eq_succ_of_ne_zero hfuel.ne'
    exact ⟨_, run_contentObject hobject hpath, rfl,
      update_overlay_apply_iff clientFs outFile object.payload⟩

open ReferenceLibrary in
/-- Three published bytes over an old file of two. -/
theorem run_output_eq_published_iff_shorter :
    let repo : CCNxFileRepoCache := ⟨['r'], 2⟩
    let request : LoadRequest := ⟨[1, 2, 3], ⟨[[1]]⟩, 2, 2⟩
    ∃ saved, repo.load referenceLibrary request repo.freshDisk noFailures =
        .ok (some (request.root referenceLibrary), saved) ∧
      ∃ rounds, ∀ fuel, rounds < fuel → ∃ result,
        run (scriptedPortal ((request.producer referenceLibrary repo saved).respond
            referenceLibrary)) 3 fuel request.name ['o'] (fun _ ↦ some (.regular [8, 9]))
            (.start fun _ ↦ .arrives) noFailures = .ok result ∧
          result.ending = .downloaded ∧
          (result.fs ['o'] = some (.regular [1, 2, 3]) ↔ [8, 9].length ≤ [1, 2, 3].length) :=
  (run_output_eq_published_iff referenceLibrary ⟨['r'], 2⟩ _
    (CCNxFileRepoCache.emptyRepository_freshDisk _) ⟨[1, 2, 3], ⟨[[1]]⟩, 2, 2⟩ (by decide)
    (by decide) (collisionFreeOn _) 3 (by decide) ['o'] (fun _ ↦ some (.regular [8, 9]))
    (by decide)).1

open ReferenceLibrary in
/-- One published byte over an old file of three: the last two old bytes are still there. -/
theorem run_keeps_old_bytes :
    let repo : CCNxFileRepoCache := ⟨['r'], 1⟩
    let request : LoadRequest := ⟨[7], ⟨[[1]]⟩, 1, 2⟩
    ∃ saved, repo.load referenceLibrary request repo.freshDisk noFailures =
        .ok (some (request.root referenceLibrary), saved) ∧
      ∃ fuel result,
        run (scriptedPortal ((request.producer referenceLibrary repo saved).respond
            referenceLibrary)) 1 fuel request.name ['o'] (fun _ ↦ some (.regular [1, 2, 3]))
            (.start fun _ ↦ .arrives) noFailures = .ok result ∧
          result.ending = .downloaded ∧ result.fs ['o'] ≠ some (.regular [7]) := by
  intro repo request
  obtain ⟨saved, hload, hserves⟩ := exists_complete_load request
    (CCNxFileRepoCache.emptyRepository_freshDisk repo) (collisionFreeOn _)
  have hchunk : 1 ≤ request.chunkSize := le_rfl
  have hbuffer : request.chunkSize ≤ 1 := le_rfl
  obtain ⟨rounds, hrounds⟩ := run_published (fun _ ↦ some (.regular [1, 2, 3])) ['o'] hchunk
    (by decide) hserves hbuffer (by decide)
  obtain ⟨result, hrun, hending, hfs⟩ := hrounds (rounds + 1) (by omega)
  refine ⟨saved, hload, rounds + 1, result, hrun, hending, ?_⟩
  rw [hfs, ne_eq, update_overlay_apply_iff]
  decide

end CCNxFileRepo
