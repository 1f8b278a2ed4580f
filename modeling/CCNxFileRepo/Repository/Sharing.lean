import CCNxFileRepo.Repository.Commutation
import CCNxFileRepo.Repository.SkewedShape

/-!
# Publishing a changed file again

The builder starts from the end of a file, and what it makes of the last chunks does not depend on
the chunks before them.  So two builds under one name and with the same sizes begin with the same
objects, as far as the files end in the same chunks.  A repository that holds one of the files has
these objects already, and a load of the other one changes nothing but the files of the rest.
-/

namespace CCNxFileRepo

open Foundations

namespace ManifestBuilder

variable {lib : CCNxLibrary} {capacity blockSize : ℕ} {name : CCNxName}

theorem chunkList_buildRound (state : BuildState) (chunk : Bytes) :
    state.chunkList <+: (buildRound lib capacity blockSize name state chunk).chunkList := by
  have hadded : state.chunkList <+: (addChunk lib capacity name state chunk).chunkList :=
    List.prefix_append _ _
  rw [buildRound]
  cases hfull : (addChunk lib capacity name state chunk).group.isFull capacity with
  | false => rwa [rollOver_of_not_full hfull]
  | true =>
      rw [rollOver_chunkList hfull]
      exact hadded.trans (List.prefix_append _ _)

variable (lib capacity blockSize name) in
/-- What the loop has made of the first chunks stays at the front of its list. -/
theorem chunkList_buildLoop_append (first second : List Bytes) :
    (buildLoop lib capacity blockSize name first).chunkList <+:
      (buildLoop lib capacity blockSize name (first ++ second)).chunkList := by
  unfold buildLoop
  rw [List.foldl_append]
  generalize first.foldl (buildRound lib capacity blockSize name) .initial = state
  induction second generalizing state with
  | nil => exact List.prefix_rfl
  | cons chunk second ih => exact (chunkList_buildRound state chunk).trans (ih _)

/-- How many objects the builder makes of some chunks, before the root. -/
def objectCount (capacity chunks : ℕ) : ℕ :=
  chunks + if chunks = 0 then 0 else (chunks - 1) / (capacity - 1)

variable (lib blockSize name) in
theorem length_chunkList_buildLoop (hcapacity : 2 ≤ capacity) (chunks : List Bytes) :
    (buildLoop lib capacity blockSize name chunks).chunkList.length =
      objectCount capacity chunks.length := by
  obtain ⟨hshape, hroom⟩ := buildLoop_shapeInvariant lib blockSize name hcapacity chunks
  rw [hshape.length, objectCount, ← rollOvers_eq hcapacity hshape.count hroom fun hchunks ↦ by
    simpa using hshape.pending (by simpa using hchunks)]

end ManifestBuilder

/-- The objects that the builder makes of the last chunks of a file. -/
def LoadRequest.tailMessages (lib : CCNxLibrary) (request : LoadRequest) (chunks : List Bytes) :
    List CCNxMetaMessage :=
  (ManifestBuilder.buildLoop lib request.capacity request.chunkSize request.name chunks).chunkList

variable {lib : CCNxLibrary} {request : LoadRequest} {shared : List Bytes}

/-- A build begins with the objects of the last chunks. -/
theorem LoadRequest.tailMessages_prefix
    (h : shared <+: lib.reverseChunks request.file request.chunkSize) :
    request.tailMessages lib shared <+: request.messages lib := by
  obtain ⟨rest, hrest⟩ := h
  have hloop := ManifestBuilder.chunkList_buildLoop_append lib request.capacity request.chunkSize
    request.name shared rest
  rw [hrest] at hloop
  exact hloop.trans (List.prefix_append _ _)

theorem LoadRequest.length_tailMessages (hcapacity : 2 ≤ request.capacity) :
    (request.tailMessages lib shared).length =
      ManifestBuilder.objectCount request.capacity shared.length :=
  ManifestBuilder.length_chunkList_buildLoop lib request.chunkSize request.name hcapacity shared

/-- A build makes one object more than those of its chunks. -/
theorem LoadRequest.length_messages (hcapacity : 2 ≤ request.capacity) :
    (request.messages lib).length = ManifestBuilder.objectCount request.capacity
      (lib.reverseChunks request.file request.chunkSize).length + 1 := by
  rw [← LoadRequest.length_tailMessages hcapacity]
  exact List.length_append

namespace CCNxFileRepoCache

variable {repo : CCNxFileRepoCache} {objects : Set CCNxMetaMessage} {fs : FileSystem}
  {progress : Progress}

/-- A load leaves the files of complete objects alone. -/
theorem Represents.load_unchanged (hfree : lib.CollisionFreeOn objects)
    (h : Represents lib repo objects fs progress)
    (hrequest : ∀ message ∈ request.messages lib, message ∈ objects)
    (outcomes : ℕ → WriteOutcome) :
    ∃ saved, CCNxFileRepoCache.load lib repo request fs outcomes =
        .ok (some (request.root lib), saved) ∧
      ∀ object ∈ objects, WithBot.some (wireLength lib object) ≤ progress object →
        saved (repo.objectPath lib object) = fs (repo.objectPath lib object) := by
  obtain ⟨saved, hload, hsaved⟩ := h.load hfree hrequest outcomes
  refine ⟨saved, hload, fun object hobject hcomplete ↦ ?_⟩
  rw [hsaved.files object hobject, h.files object hobject, storedFile_of_wireLength_le hcomplete]
  exact storedFile_of_wireLength_le (hcomplete.trans (le_raiseAll _ _ object))

/-- After any history in which a file was loaded completely, a load of another file under the same
name and with the same sizes changes only the files of the objects that it does not make of the
chunks with which both files end. -/
theorem load_changes_rest (lib : CCNxLibrary) (repo : CCNxFileRepoCache) (fs : FileSystem)
    (hempty : EmptyRepository repo fs) (earlier : List (LoadRequest × (ℕ → WriteOutcome)))
    (published request : LoadRequest) (outcomes : ℕ → WriteOutcome)
    (hpublished : (published, noFailures) ∈ earlier) (hname : published.name = request.name)
    (hchunkSize : published.chunkSize = request.chunkSize)
    (hgroups : published.capacity = request.capacity) (hcapacity : 2 ≤ request.capacity)
    (shared : List Bytes) (hold : shared <+: lib.reverseChunks published.file published.chunkSize)
    (hnew : shared <+: lib.reverseChunks request.file request.chunkSize)
    (hfree : lib.CollisionFreeOn
      {object | object ∈ historyMessages lib (request :: earlier.map Prod.fst)}) :
    ∃ roots start final, runLoads lib repo earlier fs = .ok (roots, start) ∧
      load lib repo request start outcomes = .ok (some (request.root lib), final) ∧
      ∃ rest, rest <:+ request.messages lib ∧
        rest.length + ManifestBuilder.objectCount request.capacity shared.length =
          ManifestBuilder.objectCount request.capacity
            (lib.reverseChunks request.file request.chunkSize).length + 1 ∧
        ∀ path, final path ≠ start path →
          ∃ message ∈ rest, path = repo.objectPath lib message := by
  have hrequest : ∀ message ∈ request.messages lib,
      message ∈ historyMessages lib (request :: earlier.map Prod.fst) :=
    mem_historyMessages (List.mem_cons_self ..)
  obtain ⟨start, hruns, hstart⟩ := (hempty.represents _).runLoads_entries hfree
    fun attempt hattempt ↦ mem_historyMessages
      (List.mem_cons_of_mem _ (List.mem_map_of_mem hattempt))
  obtain ⟨final, hload, hkept⟩ := hstart.load_unchanged hfree hrequest outcomes
  obtain ⟨rest, hrest⟩ := LoadRequest.tailMessages_prefix hnew
  refine ⟨_, start, final, hruns, hload, rest, ⟨_, hrest⟩, ?_, fun path hpath ↦ ?_⟩
  · rw [← LoadRequest.length_messages hcapacity, ← hrest, List.length_append,
      LoadRequest.length_tailMessages hcapacity, Nat.add_comm]
  · by_contra hnone
    have hother : ∀ message ∈ rest, path ≠ repo.objectPath lib message :=
      fun message hmessage heq ↦ hnone ⟨message, hmessage, heq⟩
    apply hpath
    by_cases hsame : ∃ message ∈ request.tailMessages lib shared,
        path = repo.objectPath lib message
    · obtain ⟨message, hmessage, rfl⟩ := hsame
      have htail : message ∈ published.tailMessages lib shared := by
        rwa [LoadRequest.tailMessages, hname, hchunkSize, hgroups]
      have hstored := (LoadRequest.tailMessages_prefix hold).subset htail
      exact hkept message (hrequest message (hrest ▸ List.mem_append_left _ hmessage))
        (wireLength_le_of_load hpublished hstored)
    · apply load_frame hload
      intro message hmessage
      rw [← hrest] at hmessage
      rcases List.mem_append.mp hmessage with htail | hlater
      · exact fun heq ↦ hsame ⟨message, htail, heq⟩
      · exact hother message hlater

open ReferenceLibrary in
/-- Two files of three bytes that differ in the first one, loaded with a load between them whose
writes store nothing. -/
theorem load_changes_rest_first_byte :
    let repo : CCNxFileRepoCache := ⟨['r'], 1⟩
    let published : LoadRequest := ⟨[7, 8, 9], ⟨[[1]]⟩, 1, 2⟩
    let request : LoadRequest := ⟨[6, 8, 9], ⟨[[1]]⟩, 1, 2⟩
    let earlier : List (LoadRequest × (ℕ → WriteOutcome)) :=
      [(published, noFailures), (request, fun _ ↦ .short 0)]
    ∃ roots start final,
      runLoads referenceLibrary repo earlier repo.freshDisk = .ok (roots, start) ∧
      load referenceLibrary repo request start noFailures =
        .ok (some (request.root referenceLibrary), final) ∧
      ∃ rest, rest <:+ request.messages referenceLibrary ∧
        rest.length + ManifestBuilder.objectCount 2 [[9], [8]].length =
          ManifestBuilder.objectCount 2 (referenceLibrary.reverseChunks [6, 8, 9] 1).length + 1 ∧
        ∀ path, final path ≠ start path →
          ∃ message ∈ rest, path = repo.objectPath referenceLibrary message :=
  load_changes_rest referenceLibrary ⟨['r'], 1⟩ _ (emptyRepository_freshDisk _) _
    ⟨[7, 8, 9], ⟨[[1]]⟩, 1, 2⟩ ⟨[6, 8, 9], ⟨[[1]]⟩, 1, 2⟩ noFailures (by simp) rfl rfl rfl
    (by decide) [[9], [8]] (by decide) (by decide) (collisionFreeOn _)

end CCNxFileRepoCache

end CCNxFileRepo
