import CCNxFileRepo.CCNx.ReferenceLibrary
import CCNxFileRepo.Repository.Cache

/-!
# The overall data digest of a root manifest

The hasher of the builder is updated in the loop that walks the chunks from the last to the first,
so the digest in the root is that of the chunks in this order.  It is the digest of the file when
the chunks read the same from both ends, and only then.
-/

namespace CCNxFileRepo.ManifestBuilder

variable {lib : CCNxLibrary} {capacity blockSize : ℕ} {name : CCNxName}

@[simp]
theorem rollOver_hasher (state : BuildState) :
    (rollOver lib capacity blockSize name state).hasher = state.hasher := by
  unfold rollOver
  split <;> rfl

variable (lib capacity blockSize name) in
/-- The loop feeds the hasher the chunks in the order of the reverse iterator. -/
theorem buildLoop_fed (chunks : List Bytes) :
    (buildLoop lib capacity blockSize name chunks).hasher.fed = chunks.flatten := by
  suffices h : ∀ state : BuildState,
      (chunks.foldl (buildRound lib capacity blockSize name) state).hasher.fed =
        state.hasher.fed ++ chunks.flatten from h .initial
  intro state
  induction chunks generalizing state with
  | nil => simp
  | cons chunk chunks ih =>
      calc
        ((chunk :: chunks).foldl (buildRound lib capacity blockSize name) state).hasher.fed =
            (buildRound lib capacity blockSize name state chunk).hasher.fed ++
              chunks.flatten := ih _
        _ = state.hasher.fed ++ chunk ++ chunks.flatten := by
          rw [buildRound, rollOver_hasher]
          rfl
        _ = state.hasher.fed ++ (chunk :: chunks).flatten := by
          rw [List.flatten_cons, List.append_assoc]

/-- The `OverallDataDigest` of a manifest's first hash group. -/
def overallDataDigest (manifest : CCNxManifest) : Option Bytes :=
  manifest.hashGroups.head?.bind (·.overallDataDigest)

theorem overallDataDigest_rootManifest (chunker : PARCChunker) :
    overallDataDigest (rootManifest lib capacity chunker name) =
      some (lib.sha256 chunker.reverseIterator.flatten) := by
  rw [← buildLoop_fed lib capacity chunker.chunkSize name]
  rfl

/-- The root carries the digest of the file if and only if the chunks from the last to the first
concatenate to the file too. -/
theorem overallDataDigest_eq_sha256_file_iff (lib : CCNxLibrary) (capacity : ℕ)
    (cache : CCNxFileRepoCache) (name : CCNxName) (file : Bytes)
    (hfree : Set.InjOn lib.sha256 {file, (lib.reverseChunks file cache.chunkSize).flatten}) :
    ∃ root, lastManifest (buildSkewedManifest lib capacity (cache.fileChunker lib file) name) =
        some root ∧
      (overallDataDigest root = some (lib.sha256 file) ↔
        (lib.reverseChunks file cache.chunkSize).flatten = file) := by
  refine ⟨_, lastManifest_buildSkewedManifest lib capacity _ name, ?_⟩
  rw [overallDataDigest_rootManifest, Option.some.injEq]
  constructor
  · intro h
    exact hfree (Set.mem_insert_of_mem _ rfl) (Set.mem_insert _ _) h
  · intro h
    rw [CCNxFileRepoCache.fileChunker, h]

/-- With the reference library, chunks of one byte and the file `[7, 7]`. -/
theorem overallDataDigest_eq_sha256_file_iff_repeated :
    ∃ root, lastManifest (buildSkewedManifest ReferenceLibrary.referenceLibrary 2
        (CCNxFileRepoCache.fileChunker ReferenceLibrary.referenceLibrary ⟨['r'], 1⟩ [7, 7])
        ⟨[[1]]⟩) = some root ∧
      (overallDataDigest root = some (ReferenceLibrary.referenceLibrary.sha256 [7, 7]) ↔
        (ReferenceLibrary.referenceLibrary.reverseChunks [7, 7] 1).flatten = [7, 7]) :=
  overallDataDigest_eq_sha256_file_iff ReferenceLibrary.referenceLibrary 2 ⟨['r'], 1⟩ ⟨[[1]]⟩ [7, 7]
    Function.injective_id.injOn

/-- The file `[1, 2]` in chunks of one byte is published with the digest of `[2, 1]`. -/
theorem overallDataDigest_ne_sha256_file :
    ∃ root, lastManifest (buildSkewedManifest ReferenceLibrary.referenceLibrary 2
        (CCNxFileRepoCache.fileChunker ReferenceLibrary.referenceLibrary ⟨['r'], 1⟩ [1, 2])
        ⟨[[1]]⟩) = some root ∧
      overallDataDigest root ≠ some (ReferenceLibrary.referenceLibrary.sha256 [1, 2]) := by
  refine ⟨_, lastManifest_buildSkewedManifest _ 2 _ _, ?_⟩
  rw [overallDataDigest_rootManifest]
  decide

end CCNxFileRepo.ManifestBuilder
