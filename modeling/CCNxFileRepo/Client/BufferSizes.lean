import CCNxFileRepo.Client.ShortWrites

/-!
# The size of the buffer

A payload that does not fit into the rest of the buffer is carried over, so where one buffer ends
and the next one begins depends on its size.  Nothing else does: whatever arrives and whatever
fails, clients with buffers of different sizes send the same interests and write the same file.
-/

namespace CCNxFileRepo.CCNxFileRepoClient

open Foundations CCNxFileRepoManifestFetcher

/-- On any network that publishes a finite tree, and for every pattern of failures, two downloads
whose buffers have room for every payload come to the same end. -/
theorem download_same_for_buffers (respond : CCNxInterest → Option CCNxMetaMessage)
    (root : CCNxManifest) (pointers : List CCNxManifestHashGroupPointer)
    (hroot : root.firstGroup = some pointers)
    (t : FirstGroupTree (resolver respond root.name) pointers) (first second : ℕ)
    (hfirst : 0 < first) (hsecond : 0 < second)
    (hfirstFits : ∀ payload ∈ t.leaves, payload.length ≤ first)
    (hsecondFits : ∀ payload ∈ t.leaves, payload.length ≤ second) (outFile : CString)
    (fs : FileSystem) (hpath : fs outFile ≠ some .directory) (network : ScriptedState) :
    ∃ rounds, ∀ fuel, rounds < fuel → ∃ final other,
      download (scriptedPortal respond) first outFile fuel root fs network noFailures =
        .ok final ∧
      download (scriptedPortal respond) second outFile fuel root fs network noFailures =
        .ok other ∧
      final.fs = other.fs ∧ final.fileOffset = other.fileOffset ∧
      final.network.requested = other.network.requested := by
  refine ⟨2 * t.preorder.length + 1, fun fuel hfuel ↦ ?_⟩
  have hends (capacity : ℕ) (hcapacity : 0 < capacity)
      (hfits : ∀ payload ∈ t.leaves, payload.length ≤ capacity) :
      ∃ final, download (scriptedPortal respond) capacity outFile fuel root fs network noFailures =
          .ok final ∧
        final.fs = Function.update fs outFile (some (.regular (Overlay.overlay 0
          (fs.contentsAt outFile) 0
          ((t.visits network.schedule).filterMap Visit.delivered).flatten))) ∧
        final.fileOffset =
          ((t.visits network.schedule).filterMap Visit.delivered).flatten.length ∧
        final.network.requested = network.requested ++
          (t.visits network.schedule).map fun visit ↦ pointerInterest root.name visit.item := by
    obtain ⟨final, hfinal, hoffset, hfs⟩ :=
      download_writes network hroot t hcapacity hfits hpath hfuel
    obtain ⟨same, hsame, -, hrequested⟩ :=
      download_offers network noFailures hroot t hcapacity hfits hpath hfuel
    obtain rfl : final = same := Except.ok.inj (hfinal.symm.trans hsame)
    exact ⟨final, hfinal, hfs, hoffset, hrequested⟩
  obtain ⟨final, hfinal, hfs, hoffset, hrequested⟩ := hends first hfirst hfirstFits
  obtain ⟨other, hother, hfs', hoffset', hrequested'⟩ := hends second hsecond hsecondFits
  exact ⟨final, other, hfinal, hother, hfs.trans hfs'.symm, hoffset.trans hoffset'.symm,
    hrequested.trans hrequested'.symm⟩

/-- On the sample network, with every other exchange failing. -/
theorem download_same_for_buffers_sample :
    let network := ScriptedState.start fun index ↦ if index % 2 = 0 then .arrives else .sendFails
    ∃ rounds, ∀ fuel, rounds < fuel → ∃ final other,
      download (scriptedPortal sampleRespond) 2 ['o'] fuel
          (sampleManifest [[manifestPointer, dataPointer]]) (fun _ ↦ none) network noFailures =
        .ok final ∧
      download (scriptedPortal sampleRespond) 5 ['o'] fuel
          (sampleManifest [[manifestPointer, dataPointer]]) (fun _ ↦ none) network noFailures =
        .ok other ∧
      final.fs = other.fs ∧ final.fileOffset = other.fileOffset ∧
      final.network.requested = other.network.requested :=
  download_same_for_buffers sampleRespond (sampleManifest [[manifestPointer, dataPointer]])
    [manifestPointer, dataPointer] rfl sampleTree.toFirstGroups 2 5 (by decide) (by decide)
    (by decide) (by decide) ['o'] (fun _ ↦ none) (by simp) _

end CCNxFileRepo.CCNxFileRepoClient
