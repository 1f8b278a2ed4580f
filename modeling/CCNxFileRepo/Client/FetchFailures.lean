import CCNxFileRepo.Client.Download

/-!
# Failed fetches

By the time a fetch fails the iterator has moved past the pointer, and the loop of the fetcher goes
on with the next one.  So the object is never asked for again, and the end of the pointers is
reported as the end of the data.  The download is complete if and only if what was out of reach
through failed fetches held no bytes.
-/

namespace CCNxFileRepo.CCNxFileRepoClient

open Foundations CCNxFileRepoManifestFetcher

/-- A download that ends has written all the data if and only if no failed fetch was for a pointer
with a byte of data at it or below it.  With a buffer of any size it does end. -/
theorem download_complete_iff (respond : CCNxInterest → Option CCNxMetaMessage)
    (root : CCNxManifest) (pointers : List CCNxManifestHashGroupPointer)
    (hroot : root.onlyGroup = some pointers)
    (t : ManifestTree (resolver respond root.name) pointers) (clientBufferSize : ℕ)
    (hfits : ∀ payload ∈ t.leaves, payload.length ≤ clientBufferSize)
    (outcomes : ℕ → FetchOutcome) (outFile : CString) (fs : FileSystem)
    (hpath : fs outFile ≠ some .directory) :
    (∀ fuel final, download (scriptedPortal respond) clientBufferSize outFile fuel root fs
        (.start outcomes) noFailures = .ok final →
      (final.written outFile = t.leaves.flatten ↔
        ∀ visit ∈ t.visits fun index ↦ (outcomes index).isArrival,
          ∀ payload ∈ visit.lost, payload = [])) ∧
    (0 < clientBufferSize → ∀ fuel, 2 * t.preorder.length + 1 < fuel →
      ∃ final, download (scriptedPortal respond) clientBufferSize outFile fuel root fs
        (.start outcomes) noFailures = .ok final) := by
  have hfirst := CCNxManifest.firstGroup_of_onlyGroup hroot
  have hvisits : t.toFirstGroups.visits (ScriptedState.start outcomes).schedule =
      t.visits fun index ↦ (outcomes index).isArrival := Unfolding.visits_mono _ t _
  have hdownload (hcapacity : 0 < clientBufferSize) (fuel : ℕ)
      (hfuel : 2 * t.preorder.length + 1 < fuel) :=
    download_writes (.start outcomes) hfirst t.toFirstGroups hcapacity (by simpa using hfits) hpath
      (by simpa using hfuel)
  constructor
  · intro fuel final hfinal
    rcases Nat.eq_zero_or_pos clientBufferSize with rfl | hcapacity
    · obtain ⟨fetcher, hcreate, hloop⟩ := Fallible.bind_eq_ok.mp hfinal
      have htracks := tracks_create hfirst hcreate t.toFirstGroups (.start outcomes)
      exact absurd hloop (downloadLoop_zero htracks.held_eq)
    · obtain ⟨same, hsame, hoffset, hfs⟩ :=
        hdownload hcapacity (2 * t.preorder.length + 2) (by omega)
      obtain rfl := download_unique hfinal hsame
      rw [hvisits] at hoffset hfs
      have hwritten : final.written outFile = ((t.visits fun index ↦
          (outcomes index).isArrival).filterMap Visit.delivered).flatten := by
        have hcontents : final.fs.contentsAt outFile = _ :=
          FileSystem.contentsAt_regular (by rw [hfs]; exact Function.update_self ..)
        calc
          final.written outFile = (final.fs.contentsAt outFile).take final.fileOffset := rfl
          _ = _ := by rw [hcontents, hoffset, Overlay.overlay_zero, List.take_left]
      rw [hwritten]
      exact t.flatten_delivered_eq_iff _
  · intro hcapacity fuel hfuel
    obtain ⟨final, hfinal, -⟩ := hdownload hcapacity fuel hfuel
    exact ⟨final, hfinal⟩

/-- On the sample network, with the first of the fetches failing. -/
theorem download_complete_iff_sample :
    ∃ final, download (scriptedPortal sampleRespond) 2 ['o'] 8
      (sampleManifest [[manifestPointer, dataPointer]]) (fun _ ↦ none)
      (.start fun index ↦ if index = 0 then .sendFails else .arrives) noFailures = .ok final :=
  (download_complete_iff sampleRespond (sampleManifest [[manifestPointer, dataPointer]])
    [manifestPointer, dataPointer] rfl sampleTree 2 (by decide)
    (fun index ↦ if index = 0 then .sendFails else .arrives) ['o'] (fun _ ↦ none)
    (by simp)).2
    (by decide) 8 (by decide)

/-- The only fetch of a download brings `NULL`: the loop ends, and the file is empty. -/
theorem download_null_loses_data :
    ∃ final, download (scriptedPortal sampleRespond) 2 ['o'] 3 (sampleManifest [[dataPointer]])
        (fun _ ↦ none) (.start fun _ ↦ .receivesNull) noFailures = .ok final ∧
      final.written ['o'] ≠ [5, 6] :=
  ⟨_, rfl, by decide⟩

end CCNxFileRepo.CCNxFileRepoClient
