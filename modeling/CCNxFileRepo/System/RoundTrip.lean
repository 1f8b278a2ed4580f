import CCNxFileRepo.Client.Download
import CCNxFileRepo.Repository.SkewedTree
import CCNxFileRepo.Server.Producer

/-!
# From file to file

A file is loaded into a repository, the server answers from this repository, and the client
downloads from the server.  As every object of the build is found under its digest, the tree that
the fetcher walks is the tree that the builder made, and its payloads are the chunks of the file in
their order.  So the client writes the file, over whatever its output file held before.
-/

namespace CCNxFileRepo

open Foundations CCNxFileRepoManifestFetcher CCNxFileRepoClient

variable {lib : CCNxLibrary} {repo : CCNxFileRepoCache} {serverFs clientFs : FileSystem}
  {request : LoadRequest} {capacity fuel : ℕ} {outFile : CString}

/-- Behind the root that the server hands out lies the file. -/
theorem exists_publishedTree (hchunk : 1 ≤ request.chunkSize) (hcapacity : 2 ≤ request.capacity)
    {saved : FileSystem}
    (hserves : (request.producer lib repo saved).Serves lib (request.messages lib)) :
    ∃ pointers, (request.root lib).onlyGroup = some pointers ∧
      ∃ t : ManifestTree (resolver ((request.producer lib repo saved).respond lib)
          (request.root lib).name) pointers,
        (∀ payload ∈ t.leaves, payload.length ≤ request.chunkSize) ∧
        t.leaves.flatten = request.file := by
  have hresolves : Resolves lib
      (resolver ((request.producer lib repo saved).respond lib) (request.root lib).name)
      (request.messages lib) := hserves.resolves
  obtain ⟨pointers, hpointers, t, ht⟩ := ManifestBuilder.exists_rootTree hcapacity hresolves
  refine ⟨pointers, hpointers, t, ?_, ?_⟩
  · intro payload hpayload
    rw [ht, List.mem_reverse] at hpayload
    exact lib.reverseChunks_length_le _ _ payload hpayload
  · rw [ht]
    exact lib.reverseChunks_flatten _ _ hchunk

theorem download_published (hchunk : 1 ≤ request.chunkSize) (hcapacity : 2 ≤ request.capacity)
    {saved : FileSystem}
    (hserves : (request.producer lib repo saved).Serves lib (request.messages lib))
    (hbuffer : request.chunkSize ≤ capacity) (hpath : clientFs outFile ≠ some .directory) :
    ∃ rounds, ∀ fuel, rounds < fuel → ∀ network : ScriptedState,
      (∀ index, (network.outcomes index).isArrival = true) →
      ∃ final, download (scriptedPortal ((request.producer lib repo saved).respond lib)) capacity
          outFile fuel (request.root lib) clientFs network noFailures = .ok final ∧
        final.fs = Function.update clientFs outFile (some (.regular
          (Overlay.overlay 0 (clientFs.contentsAt outFile) 0 request.file))) := by
  obtain ⟨pointers, hroot, t, hsizes, hdata⟩ := exists_publishedTree hchunk hcapacity hserves
  refine ⟨2 * t.preorder.length + 1, fun fuel hfuel network harrives ↦ ?_⟩
  have hdelivered : ((t.toFirstGroups.visits network.schedule).filterMap
      Visit.delivered).flatten = request.file := by
    have hschedule : network.schedule = fun _ ↦ true := by
      funext index
      exact harrives index
    calc
      ((t.toFirstGroups.visits network.schedule).filterMap Visit.delivered).flatten =
          t.toFirstGroups.leaves.flatten := by
        rw [hschedule, Unfolding.filterMap_delivered_visits]
      _ = t.leaves.flatten := by rw [ManifestTree.leaves_toFirstGroups]
      _ = request.file := hdata
  obtain ⟨final, hfinal, -, hfs⟩ := download_writes network
    (CCNxManifest.firstGroup_of_onlyGroup hroot) t.toFirstGroups (by omega : 0 < capacity)
    (by simpa using fun payload hpayload ↦ (hsizes payload hpayload).trans hbuffer) hpath
    (by simpa using hfuel)
  rw [hdelivered] at hfs
  exact ⟨final, hfinal, hfs⟩

/-- A file that is loaded into an empty repository and downloaded from it to a new path arrives
byte for byte. -/
theorem download_eq_file (lib : CCNxLibrary) (repo : CCNxFileRepoCache) (serverFs : FileSystem)
    (hempty : repo.EmptyRepository serverFs) (request : LoadRequest)
    (hchunk : 1 ≤ request.chunkSize) (hcapacity : 2 ≤ request.capacity)
    (hfree : lib.CollisionFreeOn {object | object ∈ request.messages lib})
    (clientBufferSize : ℕ) (hbuffer : request.chunkSize ≤ clientBufferSize) (outFile : CString)
    (clientFs : FileSystem) (hout : clientFs outFile = none) :
    ∃ root saved, repo.load lib request serverFs noFailures = .ok (some root, saved) ∧
      ∃ rounds, ∀ fuel, rounds < fuel → ∃ final,
        download (scriptedPortal ((request.producer lib repo saved).respond lib)) clientBufferSize
          outFile fuel root clientFs (.start fun _ ↦ .arrives) noFailures = .ok final ∧
        final.fs outFile = some (.regular request.file) := by
  obtain ⟨saved, hload, hserves⟩ := exists_complete_load request hempty hfree
  obtain ⟨rounds, hrounds⟩ := download_published hchunk hcapacity hserves hbuffer
    (FileSystem.ne_directory_of_none hout)
  refine ⟨request.root lib, saved, hload, rounds, fun fuel hfuel ↦ ?_⟩
  obtain ⟨final, hfinal, hfs⟩ := hrounds fuel hfuel (.start fun _ ↦ .arrives) fun _ ↦ rfl
  refine ⟨final, hfinal, ?_⟩
  calc
    final.fs outFile = some (.regular
        (Overlay.overlay 0 (clientFs.contentsAt outFile) 0 request.file)) := by
      rw [hfs, Function.update_self]
    _ = some (.regular request.file) := by
      rw [FileSystem.contentsAt_none hout, Overlay.overlay_zero, List.drop_nil, List.append_nil]

open ReferenceLibrary in
/-- Five bytes in chunks of two, hash groups of two pointers and a buffer of three bytes. -/
theorem download_eq_file_sample :
    let repo : CCNxFileRepoCache := ⟨['r'], 2⟩
    let request : LoadRequest := ⟨[1, 2, 3, 4, 5], ⟨[[1]]⟩, 2, 2⟩
    ∃ root saved, repo.load referenceLibrary request repo.freshDisk noFailures =
        .ok (some root, saved) ∧
      ∃ rounds, ∀ fuel, rounds < fuel → ∃ final,
        download (scriptedPortal ((request.producer referenceLibrary repo saved).respond
          referenceLibrary)) 3 ['o'] fuel root (fun _ ↦ none) (.start fun _ ↦ .arrives)
          noFailures = .ok final ∧
        final.fs ['o'] = some (.regular [1, 2, 3, 4, 5]) :=
  download_eq_file referenceLibrary ⟨['r'], 2⟩ _ (CCNxFileRepoCache.emptyRepository_freshDisk _) _
    (by decide) (by decide) (collisionFreeOn _) 3 (by decide) _ _ rfl

end CCNxFileRepo
