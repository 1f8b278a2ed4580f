import CCNxFileRepo.CCNx.ReferenceLibrary
import CCNxFileRepo.Client.ShortWrites
import CCNxFileRepo.Client.StackGrowth
import CCNxFileRepo.Repository.FetchOrder
import CCNxFileRepo.System.RoundTrip

/-!
# What a run on a published file asks for and writes

A client asks for the root by its name, and then for the objects of the build from the one that was
saved last to the one that was saved first.  Where fetches fail it leaves some of them out, and
never asks out of this order.  The writes have no part in this.  They decide alone which bytes of
the file reach the disk, and every byte that does is where it belongs.
-/

namespace CCNxFileRepo

open Foundations CCNxFileRepoManifestFetcher CCNxFileRepoClient

def objectInterest (lib : CCNxLibrary) (name : CCNxName) (object : CCNxMetaMessage) :
    CCNxInterest :=
  { name := name, contentObjectHashRestriction := some (lib.computeContentObjectHash object) }

/-- What a client asks for behind the root, when `comes` says what of it arrives. -/
def LoadRequest.asked (lib : CCNxLibrary) (request : LoadRequest) (comes : ℕ → Bool) :
    List (CCNxMetaMessage × Bool) :=
  ManifestBuilder.askInTurn (request.messages lib).dropLast.reverse comes

/-- The interests of a client that misses nothing. -/
def LoadRequest.interests (lib : CCNxLibrary) (request : LoadRequest) : List CCNxInterest :=
  { name := request.name, contentObjectHashRestriction := none } ::
    (request.messages lib).dropLast.reverse.map (objectInterest lib request.name)

theorem LoadRequest.messages_eq (lib : CCNxLibrary) (request : LoadRequest) :
    request.messages lib =
      (request.messages lib).dropLast ++ .manifest (request.root lib) :: [] := by
  simp [LoadRequest.messages, ManifestBuilder.buildSkewedManifest, LoadRequest.root]

section Run

variable {respond : CCNxInterest → Option CCNxMetaMessage} {capacity fuel : ℕ}
  {target : CCNxName} {outFile : CString} {fs : FileSystem} {outcomes : ℕ → WriteOutcome}
  {root : CCNxManifest}

/-- A client whose first message is a manifest downloads what is below it. -/
theorem run_eq_download (network : ScriptedState) (harrives : network.outcomes 0 = .arrives)
    (h : respond ⟨target, none⟩ = some (.manifest root)) :
    run (scriptedPortal respond) capacity (fuel + 1) target outFile fs network outcomes =
      (download (scriptedPortal respond) capacity outFile fuel root fs
        (network.after [⟨target, none⟩]) outcomes).map fun final ↦
          ⟨.downloaded, final.fs, final.network⟩ := by
  simp only [run, scriptedPortal, harrives, h]
  change (download _ _ _ _ _ _ (network.after [⟨target, none⟩]) _).bind _ = _
  cases download (scriptedPortal respond) capacity outFile fuel root fs
    (network.after [⟨target, none⟩]) outcomes <;> rfl

end Run

variable {lib : CCNxLibrary} {repo : CCNxFileRepoCache} {request : LoadRequest}
  {saved clientFs : FileSystem} {outFile : CString} {clientBufferSize : ℕ}

/-- Where the objects of a build are found by their digests the file lies behind the root.  What a
resolution asks for and is given is what comes of asking for the objects before the root, the last
one first. -/
theorem exists_requestTree {respond : CCNxInterest → Option CCNxMetaMessage}
    (hchunk : 1 ≤ request.chunkSize) (hcapacity : 2 ≤ request.capacity)
    (hresolves : Resolves lib (resolver respond (request.root lib).name) (request.messages lib)) :
    ∃ pointers, (request.root lib).firstGroup = some pointers ∧
      ∃ t : FirstGroupTree (resolver respond (request.root lib).name) pointers,
        (∀ payload ∈ t.leaves, payload.length ≤ request.chunkSize) ∧
        t.leaves.flatten = request.file ∧
        ∀ comes, (t.visits comes).map Visit.item =
            (request.asked lib comes).map (ManifestBuilder.pointerTo lib ·.1) ∧
          (t.visits comes).filterMap Visit.delivered =
            (request.asked lib comes).filterMap ManifestBuilder.payloadOf := by
  obtain ⟨pointers, hroot, t, ht⟩ := ManifestBuilder.exists_rootTree hcapacity hresolves
  obtain ⟨same, hsame, s, hs, hlast⟩ :=
    ManifestBuilder.exists_tree_pointersBack hcapacity hresolves (request.messages_eq lib)
  obtain rfl : same = pointers := Option.some.inj (hsame.symm.trans hroot)
  obtain rfl := t.eq_of_items s
  refine ⟨same, CCNxManifest.firstGroup_of_onlyGroup hroot, t.toFirstGroups, ?_, ?_, ?_⟩
  · intro payload hpayload
    rw [ManifestTree.leaves_toFirstGroups, ht, List.mem_reverse] at hpayload
    exact lib.reverseChunks_length_le _ _ payload hpayload
  · rw [ManifestTree.leaves_toFirstGroups, ht]
    exact lib.reverseChunks_flatten _ _ hchunk
  · intro comes
    have hback : Resolves lib (resolver respond (request.root lib).name)
        (request.messages lib).dropLast.reverse := hresolves.mono
      fun object hobject ↦ List.mem_of_mem_dropLast (List.mem_reverse.mp hobject)
    have hwalk : (t.toFirstGroups.visits comes).map (fun visit ↦ (visit.item, visit.delivered)) =
        (request.asked lib comes).map fun asked ↦
          (ManifestBuilder.pointerTo lib asked.1, ManifestBuilder.payloadOf asked) := by
      calc
        _ = (t.visits comes).map fun visit ↦ (visit.item, visit.delivered) := by
          rw [ManifestTree.toFirstGroups, Unfolding.visits_mono]
        _ = Unfolding.walk (expandWith CCNxManifest.onlyGroup _)
            ((request.messages lib).dropLast.reverse.map (ManifestBuilder.pointerTo lib))
            comes := by
          rw [t.map_visits_eq_walk hlast, hs, ManifestBuilder.pointersBack, List.map_reverse]
        _ = _ := ManifestBuilder.walk_map_pointerTo _ hback comes
    constructor
    · simpa [Function.comp_def] using congrArg (List.map Prod.fst) hwalk
    · simpa [List.filterMap_map, Function.comp_def] using congrArg (List.filterMap Prod.snd) hwalk

theorem resolves_of_serves
    (hserves : (request.producer lib repo saved).Serves lib (request.messages lib)) :
    Resolves lib (resolver ((request.producer lib repo saved).respond lib) (request.root lib).name)
      (request.messages lib) := hserves.resolves

/-- A client that receives the root asks for the objects in turn and offers to its file what it is
given. -/
theorem run_walks (hchunk : 1 ≤ request.chunkSize) (hcapacity : 2 ≤ request.capacity)
    (hserves : (request.producer lib repo saved).Serves lib (request.messages lib))
    (hbuffer : request.chunkSize ≤ clientBufferSize) (hpath : clientFs outFile ≠ some .directory) :
    ∃ rounds, ∀ fuel, rounds < fuel → ∀ (schedule : ℕ → FetchOutcome) (outcomes : ℕ → WriteOutcome),
      schedule 0 = .arrives → ∃ result,
        run (scriptedPortal ((request.producer lib repo saved).respond lib)) clientBufferSize fuel
            request.name outFile clientFs (.start schedule) outcomes = .ok result ∧
          result.ending = .downloaded ∧
          result.network.requested = ⟨request.name, none⟩ :: (request.asked lib fun index ↦
            (schedule (index + 1)).isArrival).map (objectInterest lib request.name ·.1) ∧
          Offers outFile clientFs 0 ((request.asked lib fun index ↦
            (schedule (index + 1)).isArrival).filterMap ManifestBuilder.payloadOf).flatten
              result.fs ∧
          (outcomes = noFailures → result.fs = Function.update clientFs outFile (some (.regular
            (Overlay.overlay 0 (clientFs.contentsAt outFile) 0 ((request.asked lib fun index ↦
              (schedule (index + 1)).isArrival).filterMap
                ManifestBuilder.payloadOf).flatten)))) := by
  obtain ⟨pointers, hroot, t, hsizes, -, hvisits⟩ :=
    exists_requestTree hchunk hcapacity (resolves_of_serves hserves)
  refine ⟨2 * t.preorder.length + 2, fun fuel hfuel schedule outcomes harrives ↦ ?_⟩
  obtain ⟨fuel, rfl⟩ := Nat.exists_eq_succ_of_ne_zero (Nat.ne_zero_of_lt hfuel)
  have hresponds : (request.producer lib repo saved).respond lib ⟨request.name, none⟩ =
      some (.manifest (request.root lib)) := Producer.respond_root
  let network := (ScriptedState.start schedule).after [⟨request.name, none⟩]
  have hfits : ∀ payload ∈ t.leaves, payload.length ≤ clientBufferSize :=
    fun payload hpayload ↦ (hsizes payload hpayload).trans hbuffer
  have hcalls : 2 * t.preorder.length + 1 < fuel := by omega
  obtain ⟨final, hfinal, hoffers, hrequested⟩ := download_offers network outcomes hroot t
    (hchunk.trans hbuffer) hfits hpath hcalls
  refine ⟨⟨.downloaded, final.fs, final.network⟩, ?_, rfl, ?_, ?_, ?_⟩
  · rw [run_eq_download (.start schedule) harrives hresponds, hfinal]
    rfl
  · have hasked := congrArg (List.map (pointerInterest (request.root lib).name))
      (hvisits network.schedule).1
    rw [List.map_map, List.map_map] at hasked
    rw [hrequested]
    exact congrArg (⟨request.name, none⟩ :: ·) hasked
  · rw [← (hvisits fun index ↦ (schedule (index + 1)).isArrival).2]
    exact hoffers
  · rintro rfl
    obtain ⟨same, hsame, -, hfs⟩ :=
      download_writes network hroot t (hchunk.trans hbuffer) hfits hpath hcalls
    obtain rfl : final = same := Except.ok.inj (hfinal.symm.trans hsame)
    rw [← (hvisits fun index ↦ (schedule (index + 1)).isArrival).2]
    exact hfs

/-- Where everything comes the payloads are the file. -/
theorem payloads_asked (hchunk : 1 ≤ request.chunkSize) (hcapacity : 2 ≤ request.capacity)
    (hserves : (request.producer lib repo saved).Serves lib (request.messages lib)) :
    ((request.asked lib fun _ ↦ true).filterMap ManifestBuilder.payloadOf).flatten =
      request.file := by
  obtain ⟨pointers, -, t, -, hdata, hvisits⟩ :=
    exists_requestTree hchunk hcapacity (resolves_of_serves hserves)
  rw [← (hvisits fun _ ↦ true).2, Unfolding.filterMap_delivered_visits, hdata]

theorem map_asked_prefix (lib : CCNxLibrary) (request : LoadRequest) (comes : ℕ → Bool) :
    (⟨request.name, none⟩ :: (request.asked lib comes).map (objectInterest lib request.name ·.1))
      <+: request.interests lib := by
  have hfront := (ManifestBuilder.askInTurn_prefix (request.messages lib).dropLast.reverse
    comes).map (objectInterest lib request.name)
  rw [List.map_map] at hfront
  exact List.cons_prefix_cons.mpr ⟨rfl, hfront⟩

theorem map_asked_of_manifests {comes : ℕ → Bool}
    (h : ∀ index object, (request.messages lib).dropLast.reverse[index]? = some object →
      object.isContentObject = false → comes index = true) :
    (⟨request.name, none⟩ :: (request.asked lib comes).map (objectInterest lib request.name ·.1)) =
      request.interests lib := by
  have hasked := congrArg (List.map (objectInterest lib request.name))
    (ManifestBuilder.askInTurn_of_manifests h)
  rw [List.map_map] at hasked
  exact congrArg (⟨request.name, none⟩ :: ·) hasked

/-- A client of a published file asks for the root and then for the objects in the reverse of the
order in which they were saved.  Whatever fails after the root has arrived, it asks for the first of
them and for nothing else, and for all of them if every manifest arrives. -/
theorem requests_reverse_saves (lib : CCNxLibrary) (repo : CCNxFileRepoCache)
    (serverFs : FileSystem) (hempty : repo.EmptyRepository serverFs) (request : LoadRequest)
    (hchunk : 1 ≤ request.chunkSize) (hcapacity : 2 ≤ request.capacity)
    (hfree : lib.CollisionFreeOn {object | object ∈ request.messages lib})
    (clientBufferSize : ℕ) (hbuffer : request.chunkSize ≤ clientBufferSize) (outFile : CString)
    (clientFs : FileSystem) (hpath : clientFs outFile ≠ some .directory) :
    ∃ saved, repo.load lib request serverFs noFailures = .ok (some (request.root lib), saved) ∧
      ∃ rounds, ∀ fuel, rounds < fuel → ∀ (schedule : ℕ → FetchOutcome)
        (outcomes : ℕ → WriteOutcome), schedule 0 = .arrives → ∃ result,
        run (scriptedPortal ((request.producer lib repo saved).respond lib)) clientBufferSize fuel
            request.name outFile clientFs (.start schedule) outcomes = .ok result ∧
          result.network.requested <+: request.interests lib ∧
          ((∀ index object, (request.messages lib).dropLast.reverse[index]? = some object →
            object.isContentObject = false → (schedule (index + 1)).isArrival = true) →
            result.network.requested = request.interests lib) := by
  obtain ⟨saved, hload, hserves⟩ := exists_complete_load request hempty hfree
  obtain ⟨rounds, hrounds⟩ := run_walks hchunk hcapacity hserves hbuffer hpath
  refine ⟨saved, hload, rounds, fun fuel hfuel schedule outcomes harrives ↦ ?_⟩
  obtain ⟨result, hrun, -, hrequested, -⟩ := hrounds fuel hfuel schedule outcomes harrives
  refine ⟨result, hrun, ?_, fun hmanifests ↦ ?_⟩
  · rw [hrequested]
    exact map_asked_prefix lib request _
  · rw [hrequested]
    exact map_asked_of_manifests hmanifests

open ReferenceLibrary in
/-- Five bytes in chunks of two, hash groups of two pointers and a buffer of three bytes. -/
theorem requests_reverse_saves_sample :
    let repo : CCNxFileRepoCache := ⟨['r'], 2⟩
    let request : LoadRequest := ⟨[1, 2, 3, 4, 5], ⟨[[1]]⟩, 2, 2⟩
    ∃ saved, repo.load referenceLibrary request repo.freshDisk noFailures =
        .ok (some (request.root referenceLibrary), saved) ∧
      ∃ rounds, ∀ fuel, rounds < fuel → ∀ (schedule : ℕ → FetchOutcome)
        (outcomes : ℕ → WriteOutcome), schedule 0 = .arrives → ∃ result,
        run (scriptedPortal ((request.producer referenceLibrary repo saved).respond
            referenceLibrary)) 3 fuel request.name ['o'] (fun _ ↦ none) (.start schedule)
            outcomes = .ok result ∧
          result.network.requested <+: request.interests referenceLibrary ∧
          ((∀ index object, (request.messages referenceLibrary).dropLast.reverse[index]? =
              some object → object.isContentObject = false →
              (schedule (index + 1)).isArrival = true) →
            result.network.requested = request.interests referenceLibrary) :=
  requests_reverse_saves referenceLibrary ⟨['r'], 2⟩ _
    (CCNxFileRepoCache.emptyRepository_freshDisk _) _ (by decide) (by decide) (collisionFreeOn _) 3
    (by decide) _ _ (by simp)

/-- A chunk that does not arrive is missing from the output file, which closes up behind it.  A
manifest that does not arrive ends the download, and with it all of the file is missing that was not
asked for before.  The client takes the one and the other for the whole file. -/
theorem download_of_lost_objects (lib : CCNxLibrary) (repo : CCNxFileRepoCache)
    (serverFs : FileSystem) (hempty : repo.EmptyRepository serverFs) (request : LoadRequest)
    (hchunk : 1 ≤ request.chunkSize) (hcapacity : 2 ≤ request.capacity)
    (hfree : lib.CollisionFreeOn {object | object ∈ request.messages lib})
    (clientBufferSize : ℕ) (hbuffer : request.chunkSize ≤ clientBufferSize) (outFile : CString)
    (clientFs : FileSystem) (hpath : clientFs outFile ≠ some .directory) :
    ∃ saved, repo.load lib request serverFs noFailures = .ok (some (request.root lib), saved) ∧
      ∃ rounds, ∀ fuel, rounds < fuel → ∀ schedule : ℕ → FetchOutcome, schedule 0 = .arrives →
        ∃ result,
        run (scriptedPortal ((request.producer lib repo saved).respond lib)) clientBufferSize fuel
            request.name outFile clientFs (.start schedule) noFailures = .ok result ∧
          result.ending = .downloaded ∧
          result.network.requested = ⟨request.name, none⟩ :: (request.asked lib fun index ↦
            (schedule (index + 1)).isArrival).map (objectInterest lib request.name ·.1) ∧
          result.fs = Function.update clientFs outFile (some (.regular
            (Overlay.overlay 0 (clientFs.contentsAt outFile) 0 ((request.asked lib fun index ↦
              (schedule (index + 1)).isArrival).filterMap
                ManifestBuilder.payloadOf).flatten))) := by
  obtain ⟨saved, hload, hserves⟩ := exists_complete_load request hempty hfree
  obtain ⟨rounds, hrounds⟩ := run_walks hchunk hcapacity hserves hbuffer hpath
  refine ⟨saved, hload, rounds, fun fuel hfuel schedule harrives ↦ ?_⟩
  obtain ⟨result, hrun, hending, hrequested, -, hfs⟩ :=
    hrounds fuel hfuel schedule noFailures harrives
  exact ⟨result, hrun, hending, hrequested, hfs rfl⟩

open ReferenceLibrary in
/-- Five bytes in chunks of two, hash groups of two pointers and a buffer of three bytes. -/
theorem download_of_lost_objects_sample :
    let repo : CCNxFileRepoCache := ⟨['r'], 2⟩
    let request : LoadRequest := ⟨[1, 2, 3, 4, 5], ⟨[[1]]⟩, 2, 2⟩
    let clientFs : FileSystem := fun _ ↦ none
    ∃ saved, repo.load referenceLibrary request repo.freshDisk noFailures =
        .ok (some (request.root referenceLibrary), saved) ∧
      ∃ rounds, ∀ fuel, rounds < fuel → ∀ schedule : ℕ → FetchOutcome, schedule 0 = .arrives →
        ∃ result,
        run (scriptedPortal ((request.producer referenceLibrary repo saved).respond
            referenceLibrary)) 3 fuel request.name ['o'] clientFs (.start schedule) noFailures =
            .ok result ∧
          result.ending = .downloaded ∧
          result.network.requested = ⟨request.name, none⟩ ::
            (request.asked referenceLibrary fun index ↦
              (schedule (index + 1)).isArrival).map
                (objectInterest referenceLibrary request.name ·.1) ∧
          result.fs = Function.update clientFs ['o'] (some (.regular
            (Overlay.overlay 0 [] 0 ((request.asked referenceLibrary fun index ↦
              (schedule (index + 1)).isArrival).filterMap ManifestBuilder.payloadOf).flatten))) :=
  download_of_lost_objects referenceLibrary ⟨['r'], 2⟩ _
    (CCNxFileRepoCache.emptyRepository_freshDisk _) ⟨[1, 2, 3, 4, 5], ⟨[[1]]⟩, 2, 2⟩ (by decide)
    (by decide) (collisionFreeOn _) 3 (by decide) ['o'] (fun _ ↦ none) (by simp)

/-- Whatever the writes of a client store, it ends as one whose writes are complete and asks for
the same.  Only its output file changes, and every byte of this file is the byte of the published
file that belongs there, or what was there before, which is zero where there was nothing. -/
theorem short_writes_in_place (lib : CCNxLibrary) (repo : CCNxFileRepoCache)
    (serverFs : FileSystem) (hempty : repo.EmptyRepository serverFs) (request : LoadRequest)
    (hchunk : 1 ≤ request.chunkSize) (hcapacity : 2 ≤ request.capacity)
    (hfree : lib.CollisionFreeOn {object | object ∈ request.messages lib})
    (clientBufferSize : ℕ) (hbuffer : request.chunkSize ≤ clientBufferSize) (outFile : CString)
    (clientFs : FileSystem) (hpath : clientFs outFile ≠ some .directory) :
    ∃ saved, repo.load lib request serverFs noFailures = .ok (some (request.root lib), saved) ∧
      ∃ rounds, ∀ fuel, rounds < fuel → ∀ outcomes : ℕ → WriteOutcome, ∃ result,
        run (scriptedPortal ((request.producer lib repo saved).respond lib)) clientBufferSize fuel
            request.name outFile clientFs (.start fun _ ↦ .arrives) outcomes = .ok result ∧
          result.ending = .downloaded ∧
          result.network.requested = request.interests lib ∧
          (∀ path, path ≠ outFile → result.fs path = clientFs path) ∧
          (clientFs.contentsAt outFile).length ≤ (result.fs.contentsAt outFile).length ∧
          (result.fs.contentsAt outFile).length ≤
            max (clientFs.contentsAt outFile).length request.file.length ∧
          ∀ index, (result.fs.contentsAt outFile).getD index 0 =
              (clientFs.contentsAt outFile).getD index 0 ∨
            request.file[index]? = some ((result.fs.contentsAt outFile).getD index 0) := by
  obtain ⟨saved, hload, hserves⟩ := exists_complete_load request hempty hfree
  obtain ⟨rounds, hrounds⟩ := run_walks hchunk hcapacity hserves hbuffer hpath
  refine ⟨saved, hload, rounds, fun fuel hfuel outcomes ↦ ?_⟩
  obtain ⟨result, hrun, hending, hrequested, hoffers, -⟩ :=
    hrounds fuel hfuel (fun _ ↦ .arrives) outcomes rfl
  obtain ⟨-, hframe, hpatched⟩ : Offers outFile clientFs 0 request.file result.fs := by
    rw [← payloads_asked hchunk hcapacity hserves]
    exact hoffers
  refine ⟨result, hrun, hending, ?_, hframe, hpatched.le_length, ?_, fun index ↦ ?_⟩
  · rw [hrequested]
    exact map_asked_of_manifests fun _ _ _ _ ↦ rfl
  · simpa using hpatched.length_le
  · exact (hpatched.getD_eq index).imp_right And.right

open ReferenceLibrary in
/-- Three published bytes over an old file of two. -/
theorem short_writes_in_place_shorter :
    let repo : CCNxFileRepoCache := ⟨['r'], 2⟩
    let request : LoadRequest := ⟨[1, 2, 3], ⟨[[1]]⟩, 2, 2⟩
    let clientFs : FileSystem := fun _ ↦ some (.regular [8, 9])
    ∃ saved, repo.load referenceLibrary request repo.freshDisk noFailures =
        .ok (some (request.root referenceLibrary), saved) ∧
      ∃ rounds, ∀ fuel, rounds < fuel → ∀ outcomes : ℕ → WriteOutcome, ∃ result,
        run (scriptedPortal ((request.producer referenceLibrary repo saved).respond
            referenceLibrary)) 3 fuel request.name ['o'] clientFs (.start fun _ ↦ .arrives)
            outcomes = .ok result ∧
          result.ending = .downloaded ∧
          result.network.requested = request.interests referenceLibrary ∧
          (∀ path, path ≠ ['o'] → result.fs path = clientFs path) ∧
          [8, 9].length ≤ (result.fs.contentsAt ['o']).length ∧
          (result.fs.contentsAt ['o']).length ≤ max [8, 9].length [1, 2, 3].length ∧
          ∀ index, (result.fs.contentsAt ['o']).getD index 0 = [8, 9].getD index 0 ∨
            [1, 2, 3][index]? = some ((result.fs.contentsAt ['o']).getD index 0) :=
  short_writes_in_place referenceLibrary ⟨['r'], 2⟩ _
    (CCNxFileRepoCache.emptyRepository_freshDisk _) ⟨[1, 2, 3], ⟨[[1]]⟩, 2, 2⟩ (by decide)
    (by decide) (collisionFreeOn _) 3 (by decide) ['o'] (fun _ ↦ some (.regular [8, 9]))
    (by decide)

/-! ## The stack of the fetcher -/

/-- Where everything arrives, the interests of a client bring all manifests of the build. -/
theorem manifestsReceived_interests
    (hserves : (request.producer lib repo saved).Serves lib (request.messages lib))
    {schedule : ℕ → FetchOutcome} (harrives : ∀ index, schedule index = .arrives) :
    manifestsReceived ((request.producer lib repo saved).respond lib) schedule
        (request.interests lib) = (request.messages lib).countP (·.isManifest) := by
  let respond := (request.producer lib repo saved).respond lib
  have hroot : respond ⟨request.name, none⟩ = some (.manifest (request.root lib)) :=
    Producer.respond_root
  have hobjects : (request.messages lib).dropLast.reverse.countP
      (fun object ↦ (respond (objectInterest lib request.name object)).any (·.isManifest)) =
        (request.messages lib).dropLast.countP (·.isManifest) := by
    rw [List.countP_reverse]
    refine List.countP_congr fun object hobject ↦ ?_
    have hfound : respond (objectInterest lib request.name object) = some object :=
      hserves.resolves object (List.mem_of_mem_dropLast hobject)
    rw [hfound]
    rfl
  calc
    manifestsReceived respond schedule (request.interests lib) =
        (request.interests lib).countP fun interest ↦ (respond interest).any (·.isManifest) :=
      manifestsReceived_of_arrives harrives _
    _ = (request.messages lib).dropLast.countP (·.isManifest) + 1 := by
      rw [LoadRequest.interests, List.countP_cons, hroot, List.countP_map, ← hobjects]
      rfl
    _ = (request.messages lib).countP (·.isManifest) := by
      conv_rhs => rw [request.messages_eq lib, List.countP_append]
      rfl

/-- While a client downloads a published file its fetcher keeps a level for every manifest received,
whatever fails on the way and however its buffers are filled.  At the end, when everything has
arrived, these are all manifests of the build. -/
theorem stack_holds_received (lib : CCNxLibrary) (repo : CCNxFileRepoCache)
    (serverFs : FileSystem) (hempty : repo.EmptyRepository serverFs) (request : LoadRequest)
    (hcapacity : 2 ≤ request.capacity)
    (hfree : lib.CollisionFreeOn {object | object ∈ request.messages lib}) :
    ∃ saved, repo.load lib request serverFs noFailures = .ok (some (request.root lib), saved) ∧
      ∀ schedule : ℕ → FetchOutcome, schedule 0 = .arrives → ∀ place fetcher network,
        Reached (scriptedPortal ((request.producer lib repo saved).respond lib))
            (request.root lib) ((ScriptedState.start schedule).after [⟨request.name, none⟩]) place
            fetcher network →
          fetcher.stateList ≠ [] →
          fetcher.stateList.length = manifestsReceived
            ((request.producer lib repo saved).respond lib) schedule network.requested ∧
          (network.requested = request.interests lib → (∀ index, schedule index = .arrives) →
            fetcher.stateList.length = (request.messages lib).countP (·.isManifest)) := by
  obtain ⟨saved, hload, hserves⟩ := exists_complete_load request hempty hfree
  refine ⟨saved, hload, fun schedule hfirst place fetcher network hreached hlevels ↦ ?_⟩
  obtain ⟨pointers, hroot, t, -, hlast⟩ := ManifestBuilder.exists_tree_pointersBack hcapacity
    (resolves_of_serves hserves) (request.messages_eq lib)
  obtain ⟨sent, rfl, hgrown⟩ := hreached.grown hroot t hlast Producer.respond_root hfirst
  have hlength := hgrown.length_eq hlevels
  exact ⟨hlength, fun hall harrives ↦
    hlength.trans ((congrArg _ hall).trans (manifestsReceived_interests hserves harrives))⟩

open ReferenceLibrary in
/-- Five bytes in chunks of one, with two pointers in a hash group. -/
theorem stack_holds_received_sample :
    let repo : CCNxFileRepoCache := ⟨['r'], 1⟩
    let request : LoadRequest := ⟨[1, 2, 3, 4, 5], ⟨[[1]]⟩, 1, 2⟩
    ∃ saved, repo.load referenceLibrary request repo.freshDisk noFailures =
        .ok (some (request.root referenceLibrary), saved) ∧
      ∀ schedule : ℕ → FetchOutcome, schedule 0 = .arrives → ∀ place fetcher network,
        Reached (scriptedPortal ((request.producer referenceLibrary repo saved).respond
              referenceLibrary)) (request.root referenceLibrary)
            ((ScriptedState.start schedule).after [⟨request.name, none⟩]) place fetcher network →
          fetcher.stateList ≠ [] →
          fetcher.stateList.length = manifestsReceived
            ((request.producer referenceLibrary repo saved).respond referenceLibrary) schedule
              network.requested ∧
          (network.requested = request.interests referenceLibrary →
            (∀ index, schedule index = .arrives) →
            fetcher.stateList.length =
              (request.messages referenceLibrary).countP (·.isManifest)) :=
  stack_holds_received referenceLibrary ⟨['r'], 1⟩ _
    (CCNxFileRepoCache.emptyRepository_freshDisk _) ⟨[1, 2, 3, 4, 5], ⟨[[1]]⟩, 1, 2⟩ (by decide)
    (collisionFreeOn _)

end CCNxFileRepo
