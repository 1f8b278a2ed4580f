import CCNxFileRepo.Repository.History

/-!
# What a manifest stands for

The list of a build is read back by looking up each digest in the list itself.  The root then
unfolds to the chunks in file order, with every pointer leading to an object of the kind it is
tagged with.  As the hash of a manifest determines its pointers, and these the objects below it, two
builds in which manifests of one hash occur have the same data below them.
-/

namespace CCNxFileRepo

open Foundations

namespace ManifestBuilder

variable {lib : CCNxLibrary} {capacity : ℕ} {chunker : PARCChunker} {name : CCNxName}

theorem exists_contentObject_of_pointerType {message : CCNxMetaMessage}
    (h : message.pointerType = some .data) : ∃ object, message = .contentObject object := by
  cases message <;> simp_all [CCNxMetaMessage.pointerType]

theorem exists_manifest_of_pointerType {message : CCNxMetaMessage}
    (h : message.pointerType = some .manifest) : ∃ manifest, message = .manifest manifest := by
  cases message <;> simp_all [CCNxMetaMessage.pointerType]

/-- The last manifest of a build reads back as the chunks in file order when digests are looked up
in the list, and every pointer of the list leads to an object of the kind it is tagged with. -/
theorem buildSkewedManifest_readsBack (lib : CCNxLibrary) (capacity : ℕ) (hcapacity : 2 ≤ capacity)
    (chunker : PARCChunker) (name : CCNxName)
    (hfree : lib.CollisionFreeOn
      {object | object ∈ buildSkewedManifest lib capacity chunker name}) :
    (∃ root pointers,
      lastManifest (buildSkewedManifest lib capacity chunker name) = some root ∧
      root.onlyGroup = some pointers ∧
      Nonempty (ManifestTree
        (findObject lib (buildSkewedManifest lib capacity chunker name)) pointers) ∧
      ∀ t : ManifestTree (findObject lib (buildSkewedManifest lib capacity chunker name)) pointers,
        t.leaves = chunker.reverseIterator.reverse) ∧
    ∀ message ∈ buildSkewedManifest lib capacity chunker name, ∀ pointer ∈ message.pointers,
      (pointer.pointerType = .data → ∃ object,
        findObject lib (buildSkewedManifest lib capacity chunker name) pointer.digest =
          some (.contentObject object)) ∧
      (pointer.pointerType = .manifest → ∃ manifest,
        findObject lib (buildSkewedManifest lib capacity chunker name) pointer.digest =
          some (.manifest manifest)) := by
  have hresolves := resolves_findObject hfree
  constructor
  · obtain ⟨pointers, hroot, t, ht⟩ := exists_rootTree hcapacity hresolves
    refine ⟨_, pointers, lastManifest_buildSkewedManifest lib capacity chunker name, hroot, ⟨t⟩,
      fun other ↦ ?_⟩
    rw [other.leaves_eq_leaves t, ht]
  · intro message hmessage pointer hpointer
    obtain ⟨object, hobject, htags⟩ :=
      (buildSkewedManifest_ordered lib capacity name chunker).closed message hmessage pointer
        hpointer
    have hfound := hresolves object hobject
    have hkind := htags.kind
    rw [htags.names] at hfound
    constructor
    · intro hdata
      obtain ⟨content, rfl⟩ := exists_contentObject_of_pointerType (hdata ▸ hkind)
      exact ⟨content, hfound⟩
    · intro hmanifest
      obtain ⟨manifest, rfl⟩ := exists_manifest_of_pointerType (hmanifest ▸ hkind)
      exact ⟨manifest, hfound⟩

open ReferenceLibrary in
/-- Four pieces, two of them equal and one empty, with hash groups of two pointers. -/
theorem buildSkewedManifest_readsBack_repeated :
    let chunker : PARCChunker := ⟨2, [[7], [], [8, 9], [7]]⟩
    let list := buildSkewedManifest referenceLibrary 2 chunker ⟨[[1]]⟩
    (∃ root pointers, lastManifest list = some root ∧ root.onlyGroup = some pointers ∧
      Nonempty (ManifestTree (findObject referenceLibrary list) pointers) ∧
      ∀ t : ManifestTree (findObject referenceLibrary list) pointers,
        t.leaves = chunker.reverseIterator.reverse) ∧
    ∀ message ∈ list, ∀ pointer ∈ message.pointers,
      (pointer.pointerType = .data → ∃ object,
        findObject referenceLibrary list pointer.digest = some (.contentObject object)) ∧
      (pointer.pointerType = .manifest → ∃ manifest,
        findObject referenceLibrary list pointer.digest = some (.manifest manifest)) :=
  buildSkewedManifest_readsBack referenceLibrary 2 (by decide) _ _ (collisionFreeOn _)

end ManifestBuilder

/-! ## Commitment -/

/-- Read depth first, the payloads below a manifest of the list make up `data`. -/
def Delivers (lib : CCNxLibrary) (objects : List CCNxMetaMessage) (manifest : CCNxManifest)
    (data : Bytes) : Prop :=
  ∃ pointers, manifest.onlyGroup = some pointers ∧
    ∃ t : ManifestTree (findObject lib objects) pointers, t.leaves.flatten = data

variable {lib : CCNxLibrary} {first second : List CCNxMetaMessage} {manifest : CCNxManifest}
  {data other : Bytes}

/-- Lists that agree on what they resolve deliver the same data below one manifest. -/
theorem Delivers.unique {resolve : Resolver} (hfirst : Resolves lib resolve first)
    (hsecond : Resolves lib resolve second) (h : Delivers lib first manifest data)
    (h' : Delivers lib second manifest other) : data = other := by
  obtain ⟨pointers, hpointers, t, rfl⟩ := h
  obtain ⟨same, hsame, t', rfl⟩ := h'
  obtain rfl : pointers = same := Option.some.inj (hpointers.symm.trans hsame)
  have hwide := t.leaves_mono (expandWith_mono hfirst.of_findObject)
  have hwide' := t'.leaves_mono (expandWith_mono hsecond.of_findObject)
  calc
    t.leaves.flatten = (t.mono (expandWith_mono hfirst.of_findObject)).leaves.flatten := by
      rw [hwide]
    _ = (t'.mono (expandWith_mono hsecond.of_findObject)).leaves.flatten := by
      rw [Unfolding.leaves_eq_leaves]
    _ = t'.leaves.flatten := by rw [hwide']

/-- Every manifest of a build delivers data. -/
theorem exists_delivers {request : LoadRequest} (hcapacity : 2 ≤ request.capacity)
    (hfree : lib.CollisionFreeOn {object | object ∈ request.messages lib})
    (hmanifest : .manifest manifest ∈ request.messages lib) :
    ∃ data, Delivers lib (request.messages lib) manifest data := by
  obtain ⟨pointers, hpointers, t, -⟩ :=
    ManifestBuilder.exists_manifestTree hcapacity (resolves_findObject hfree) hmanifest
  exact ⟨_, pointers, hpointers, t, rfl⟩

/-- The tree of a root has the chunks of its file as leaves. -/
theorem exists_chunkTree {request : LoadRequest} (hcapacity : 2 ≤ request.capacity)
    {resolve : Resolver} (hresolves : Resolves lib resolve (request.messages lib)) :
    ∃ pointers, (request.root lib).onlyGroup = some pointers ∧
      ∃ t : ManifestTree resolve pointers,
        t.leaves = (lib.reverseChunks request.file request.chunkSize).reverse :=
  ManifestBuilder.exists_rootTree hcapacity hresolves

/-- The root of a build delivers the file. -/
theorem delivers_root {request : LoadRequest} (hcapacity : 2 ≤ request.capacity)
    (hchunk : 1 ≤ request.chunkSize)
    (hfree : lib.CollisionFreeOn {object | object ∈ request.messages lib}) :
    Delivers lib (request.messages lib) (request.root lib) request.file := by
  obtain ⟨pointers, hpointers, t, ht⟩ := exists_chunkTree hcapacity (resolves_findObject hfree)
  refine ⟨pointers, hpointers, t, ?_⟩
  rw [ht]
  exact lib.reverseChunks_flatten _ _ hchunk

namespace CCNxFileRepoCache

/-- Whatever the two files, names, chunk sizes and capacities, manifests of one hash have one
concatenation of payloads below them, each looked up in the list of its own build.  Loads that
return roots of one hash are loads of one file. -/
theorem manifestHash_commits (lib : CCNxLibrary) (request request' : LoadRequest)
    (hcapacity : 2 ≤ request.capacity) (hcapacity' : 2 ≤ request'.capacity)
    (hfree : lib.CollisionFreeOn
      {object | object ∈ request.messages lib ++ request'.messages lib}) :
    (∀ manifest manifest' : CCNxManifest, .manifest manifest ∈ request.messages lib →
      .manifest manifest' ∈ request'.messages lib →
      lib.computeContentObjectHash (.manifest manifest) =
        lib.computeContentObjectHash (.manifest manifest') →
      ∃ data, ∀ other,
        (Delivers lib (request.messages lib) manifest other ↔ other = data) ∧
        (Delivers lib (request'.messages lib) manifest' other ↔ other = data)) ∧
    ∀ (repo repo' : CCNxFileRepoCache) (fs fs' saved saved' : FileSystem)
      (outcomes outcomes' : ℕ → WriteOutcome) (root root' : CCNxManifest),
      1 ≤ request.chunkSize → 1 ≤ request'.chunkSize →
      repo.load lib request fs outcomes = .ok (some root, saved) →
      repo'.load lib request' fs' outcomes' = .ok (some root', saved') →
      lib.computeContentObjectHash (.manifest root) =
        lib.computeContentObjectHash (.manifest root') →
      request.file = request'.file := by
  have hresolves := resolves_findObject hfree
  have hfirst := hresolves.mono (List.subset_append_left _ _)
  have hsecond := hresolves.mono (List.subset_append_right _ _)
  have hfree' {objects : List CCNxMetaMessage}
      (hobjects : objects ⊆ request.messages lib ++ request'.messages lib) :
      lib.CollisionFreeOn {object | object ∈ objects} :=
    hfree.mono fun object hobject ↦ hobjects hobject
  have hdata := hfree' (List.subset_append_left _ _)
  have hdata' := hfree' (List.subset_append_right _ _)
  constructor
  · intro manifest manifest' hmanifest hmanifest' hhash
    obtain rfl : manifest = manifest' := by
      have hmessages := hfree (List.mem_append_left _ hmanifest)
        (List.mem_append_right _ hmanifest') hhash
      exact CCNxMetaMessage.manifest.inj hmessages
    obtain ⟨data, hdelivers⟩ := exists_delivers hcapacity hdata hmanifest
    obtain ⟨data', hdelivers'⟩ := exists_delivers hcapacity' hdata' hmanifest'
    obtain rfl : data = data' := hdelivers.unique hfirst hsecond hdelivers'
    refine ⟨data, fun other ↦ ⟨⟨fun h ↦ ?_, fun h ↦ ?_⟩, ⟨fun h ↦ ?_, fun h ↦ ?_⟩⟩⟩
    · exact h.unique hfirst hsecond hdelivers'
    · rwa [h]
    · exact (hdelivers.unique hfirst hsecond h).symm
    · rwa [h]
  · intro repo repo' fs fs' saved saved' outcomes outcomes' root root' hchunk hchunk' hload hload'
      hhash
    obtain rfl := root_of_load hload
    obtain rfl := root_of_load hload'
    have hroots : request.root lib = request'.root lib := by
      have hmessages := hfree (List.mem_append_left _ ManifestBuilder.rootManifest_mem)
        (List.mem_append_right _ ManifestBuilder.rootManifest_mem) hhash
      exact CCNxMetaMessage.manifest.inj hmessages
    have hdelivers := delivers_root hcapacity hchunk hdata
    have hdelivers' := delivers_root hcapacity' hchunk' hdata'
    rw [hroots] at hdelivers
    exact hdelivers.unique hfirst hsecond hdelivers'

open ReferenceLibrary in
/-- Two files that differ in the first of three bytes, in chunks of one with hash groups of two
pointers: the manifest of the last two bytes is in both builds. -/
theorem manifestHash_commits_shared :
    let request : LoadRequest := ⟨[6, 8, 9], ⟨[[1]]⟩, 1, 2⟩
    let request' : LoadRequest := ⟨[7, 8, 9], ⟨[[1]]⟩, 1, 2⟩
    ((request.messages referenceLibrary).any fun message ↦
      message.isManifest && (request'.messages referenceLibrary).contains message) = true ∧
    (∀ manifest manifest' : CCNxManifest,
      .manifest manifest ∈ request.messages referenceLibrary →
      .manifest manifest' ∈ request'.messages referenceLibrary →
      referenceLibrary.computeContentObjectHash (.manifest manifest) =
        referenceLibrary.computeContentObjectHash (.manifest manifest') →
      ∃ data, ∀ other,
        (Delivers referenceLibrary (request.messages referenceLibrary) manifest other ↔
          other = data) ∧
        (Delivers referenceLibrary (request'.messages referenceLibrary) manifest' other ↔
          other = data)) ∧
    ∀ (repo repo' : CCNxFileRepoCache) (fs fs' saved saved' : FileSystem)
      (outcomes outcomes' : ℕ → WriteOutcome) (root root' : CCNxManifest),
      1 ≤ request.chunkSize → 1 ≤ request'.chunkSize →
      repo.load referenceLibrary request fs outcomes = .ok (some root, saved) →
      repo'.load referenceLibrary request' fs' outcomes' = .ok (some root', saved') →
      referenceLibrary.computeContentObjectHash (.manifest root) =
        referenceLibrary.computeContentObjectHash (.manifest root') →
      request.file = request'.file :=
  ⟨by decide, manifestHash_commits referenceLibrary _ _ (by decide) (by decide)
    (collisionFreeOn _)⟩

end CCNxFileRepoCache

end CCNxFileRepo
