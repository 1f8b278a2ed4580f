import CCNxFileRepo.Client.Requests
import CCNxFileRepo.Server.Replies

/-!
# The interests of an honest client

A fetcher that starts from the root manifest of a server asks, in the name of this root, for digests
of pointers in manifests that it got from the server.  The builder computed these digests, the
cache computed them once more when it saved the objects, and the server compares the name with the
one it published under.  As all three agree, a server that gets to such an interest answers it, and
by an object of the kind its pointer is tagged with.  It does not get to it when a request of
someone else has stopped it before.
-/

namespace CCNxFileRepo

open Foundations CCNxFileRepoManifestFetcher

variable {lib : CCNxLibrary} {request : LoadRequest}

/-- The pointer stands in a hash group of a manifest of the build. -/
def InBuild (lib : CCNxLibrary) (request : LoadRequest) (pointer : CCNxManifestHashGroupPointer) :
    Prop :=
  ∃ manifest, .manifest manifest ∈ request.messages lib ∧
    ∃ group ∈ manifest.hashGroups, pointer ∈ group.pointers

/-- A pointer of the build names an object of the build of the kind it is tagged with. -/
theorem InBuild.exists_tagged {pointer : CCNxManifestHashGroupPointer}
    (h : InBuild lib request pointer) :
    ∃ object ∈ request.messages lib, Tags lib pointer object := by
  obtain ⟨manifest, hmanifest, hgroups⟩ := h
  have hordered := ManifestBuilder.buildSkewedManifest_ordered lib request.capacity
    request.name (request.chunker lib)
  exact hordered.closed _ hmanifest pointer (CCNxMetaMessage.mem_pointers_manifest.mpr hgroups)

/-- Where the objects of the build are found, a tree over its root has pointers of the build
only. -/
theorem inBuild_of_mem_preorder {resolve : Resolver}
    (hresolves : Resolves lib resolve (request.messages lib))
    {pointers : List CCNxManifestHashGroupPointer}
    (hroot : (request.root lib).onlyGroup = some pointers) (t : ManifestTree resolve pointers) :
    ∀ pointer ∈ t.preorder, InBuild lib request pointer := by
  have hgroup {manifest : CCNxManifest} {children : List CCNxManifestHashGroupPointer}
      (hmanifest : .manifest manifest ∈ request.messages lib)
      (hchildren : manifest.onlyGroup = some children) :
      ∀ child ∈ children, InBuild lib request child := by
    intro child hchild
    obtain ⟨group, hgroups, rfl⟩ := CCNxManifest.exists_group_of_onlyGroup hchildren
    exact ⟨manifest, hmanifest, group, by simp [hgroups], hchild⟩
  apply t.forall_mem_preorder (hgroup ManifestBuilder.rootManifest_mem hroot)
  intro pointer children hpointer hexpand
  obtain ⟨manifest, hmanifest, hchildren⟩ := expandWith_node hexpand
  obtain ⟨object, hobject, htags⟩ := hpointer.exists_tagged
  have hfound := hresolves object hobject
  rw [htags.names, hmanifest, Option.some.injEq] at hfound
  exact hgroup (hfound ▸ hobject) hchildren

theorem exists_tree_of_root (hcapacity : 2 ≤ request.capacity) {resolve : Resolver}
    (hresolves : Resolves lib resolve (request.messages lib)) :
    ∃ pointers, (request.root lib).onlyGroup = some pointers ∧
      Nonempty (ManifestTree resolve pointers) := by
  obtain ⟨pointers, hroot, t, -⟩ := ManifestBuilder.exists_rootTree hcapacity hresolves
  exact ⟨pointers, hroot, ⟨t⟩⟩

/-- The server after a history that ends with a complete load: of every object of the history its
directory has the most that a write stored, and it answers with every object of the last build. -/
theorem exists_stocked_producer {repo : CCNxFileRepoCache} {fs : FileSystem}
    (hempty : repo.EmptyRepository fs) (earlier : List (LoadRequest × (ℕ → WriteOutcome)))
    (hfree : lib.CollisionFreeOn {object | object ∈ CCNxFileRepoCache.historyMessages lib
      ((earlier ++ [(request, noFailures)]).map Prod.fst)}) :
    ∃ roots saved, repo.runLoads lib (earlier ++ [(request, noFailures)]) fs =
        .ok (roots ++ [some (request.root lib)], saved) ∧
      CCNxFileRepoCache.Represents lib repo {object | object ∈
        CCNxFileRepoCache.historyMessages lib ((earlier ++ [(request, noFailures)]).map Prod.fst)}
        saved (CCNxFileRepoCache.historyProgress lib (earlier ++ [(request, noFailures)])) ∧
      ∀ object ∈ request.messages lib,
        (request.producer lib repo saved).handleRequest lib
          (.interest ⟨request.name, some (lib.computeContentObjectHash object)⟩) =
            .ok (some object) := by
  obtain ⟨saved, hruns, hrepresents⟩ := hempty.runLoads hfree
  refine ⟨earlier.map fun attempt ↦ some (attempt.1.root lib), saved, ?_, hrepresents,
    fun object hobject ↦ ?_⟩
  · rw [hruns, List.map_append]
    rfl
  · have hlast : (request, noFailures) ∈ earlier ++ [(request, noFailures)] :=
      List.mem_append_right _ (List.mem_singleton_self _)
    apply Producer.handleRequest_stored rfl rfl
    apply (hrepresents.lookup_eq_complete_iff (CCNxFileRepoCache.mem_historyMessages
      (List.mem_map_of_mem hlast) object hobject)).mpr
    exact CCNxFileRepoCache.wireLength_le_of_load hlast hobject

/-- Once a server has loaded its file, into a directory that any earlier loads have left, every
interest of a fetcher that starts from its root, over any sequence of calls that come back, asks for
a pointer of the build.  The request loop answers it with an object of the kind of the pointer if
and only if none of the requests before it was one that stops the server. -/
theorem honest_interest_answered_iff (lib : CCNxLibrary) (repo : CCNxFileRepoCache)
    (fs : FileSystem) (hempty : repo.EmptyRepository fs)
    (earlier : List (LoadRequest × (ℕ → WriteOutcome))) (request : LoadRequest)
    (hcapacity : 2 ≤ request.capacity)
    (hfree : lib.CollisionFreeOn {object | object ∈ CCNxFileRepoCache.historyMessages lib
      ((earlier ++ [(request, noFailures)]).map Prod.fst)}) :
    ∃ roots saved, repo.runLoads lib (earlier ++ [(request, noFailures)]) fs =
        .ok (roots ++ [some (request.root lib)], saved) ∧
      (request.producer lib repo saved).handleRequest lib (.interest ⟨request.name, none⟩) =
        .ok (some (.manifest (request.root lib))) ∧
      ∃ fetcher, create (request.root lib) = .ok fetcher ∧
        ∀ (network : ScriptedState) (buffers : List PARCBuffer) (fuel : ℕ)
            (calls : List (Call ScriptedState)),
          fillBuffers (scriptedPortal ((request.producer lib repo saved).respond lib)) fuel
            fetcher network buffers = .ok calls →
          ∀ interest ∈ calls.flatMap Call.requests, ∃ pointer, InBuild lib request pointer ∧
            interest = pointerInterest (request.root lib).name pointer ∧
            ∀ before after : List CCNxMetaMessage,
              (∃ message, ((request.producer lib repo saved).requestLoop lib
                  (before ++ .interest interest :: after)).replies[before.length]? =
                    some (some message) ∧ message.pointerType = some pointer.pointerType) ↔
                ∀ other ∈ before, ¬ Producer.StopsServer lib (earlier ++ [(request, noFailures)])
                  request.name other := by
  obtain ⟨roots, saved, hruns, hrepresents, hstored⟩ := exists_stocked_producer hempty earlier hfree
  have hresolves : Resolves lib
      (resolver ((request.producer lib repo saved).respond lib) (request.root lib).name)
      (request.messages lib) := by
    intro object hobject
    have hanswer := hstored object hobject
    simp only [resolver, Producer.respond]
    exact hanswer ▸ rfl
  obtain ⟨pointers, hroot, ⟨t⟩⟩ := exists_tree_of_root hcapacity hresolves
  have hfirst := CCNxManifest.firstGroup_of_onlyGroup hroot
  obtain ⟨fetcher, hcreate⟩ := exists_create hfirst
  refine ⟨roots, saved, hruns, Producer.handleRequest_root rfl rfl, fetcher, hcreate,
    fun network buffers fuel calls hcalls interest hinterest ↦ ?_⟩
  obtain ⟨pointer, hpointer, rfl⟩ :=
    exists_pointer_of_request hfirst t.toFirstGroups hcreate hcalls hinterest
  have hbuild := inBuild_of_mem_preorder hresolves hroot t pointer (by simpa using hpointer)
  obtain ⟨object, hobject, htags⟩ := hbuild.exists_tagged
  have hanswer : (request.producer lib repo saved).handleRequest lib
      (.interest (pointerInterest (request.root lib).name pointer)) = .ok (some object) := by
    rw [pointerInterest, ← htags.names]
    exact hstored object hobject
  refine ⟨pointer, hbuild, rfl, fun before after ↦ ?_⟩
  have hpassed : (∀ other ∈ before, ∃ answer,
      (request.producer lib repo saved).handleRequest lib other = .ok answer) ↔
        ∀ other ∈ before, ¬ Producer.StopsServer lib (earlier ++ [(request, noFailures)])
          request.name other :=
    forall₂_congr fun _ _ ↦ Producer.exists_reply_iff hrepresents
  rw [← hpassed]
  constructor
  · rintro ⟨message, hreply, -⟩
    exact ((Producer.requestLoop_reply_iff before after).mp hreply).1
  · intro hbefore
    exact ⟨object, (Producer.requestLoop_reply_iff before after).mpr ⟨hbefore, hanswer⟩,
      htags.kind⟩

open ReferenceLibrary in
/-- Three bytes in chunks of one with hash groups of two pointers, after a load whose writes stored
nothing. -/
theorem honest_interest_answered_iff_sample :
    let repo : CCNxFileRepoCache := ⟨['r'], 1⟩
    let request : LoadRequest := ⟨[7, 8, 9], ⟨[[1]]⟩, 1, 2⟩
    let attempts : List (LoadRequest × (ℕ → WriteOutcome)) :=
      [(request, fun _ ↦ .short 0), (request, noFailures)]
    ∃ roots saved, repo.runLoads referenceLibrary attempts repo.freshDisk =
        .ok (roots ++ [some (request.root referenceLibrary)], saved) ∧
      (request.producer referenceLibrary repo saved).handleRequest referenceLibrary
          (.interest ⟨request.name, none⟩) =
        .ok (some (.manifest (request.root referenceLibrary))) ∧
      ∃ fetcher, create (request.root referenceLibrary) = .ok fetcher ∧
        ∀ (network : ScriptedState) (buffers : List PARCBuffer) (fuel : ℕ)
            (calls : List (Call ScriptedState)),
          fillBuffers (scriptedPortal ((request.producer referenceLibrary repo saved).respond
            referenceLibrary)) fuel fetcher network buffers = .ok calls →
          ∀ interest ∈ calls.flatMap Call.requests,
            ∃ pointer, InBuild referenceLibrary request pointer ∧
            interest = pointerInterest (request.root referenceLibrary).name pointer ∧
            ∀ before after : List CCNxMetaMessage,
              (∃ message, ((request.producer referenceLibrary repo saved).requestLoop
                  referenceLibrary
                  (before ++ .interest interest :: after)).replies[before.length]? =
                    some (some message) ∧ message.pointerType = some pointer.pointerType) ↔
                ∀ other ∈ before,
                  ¬ Producer.StopsServer referenceLibrary attempts request.name other :=
  honest_interest_answered_iff referenceLibrary ⟨['r'], 1⟩ _
    (CCNxFileRepoCache.emptyRepository_freshDisk _) [_] ⟨[7, 8, 9], ⟨[[1]]⟩, 1, 2⟩ (by decide)
    (collisionFreeOn _)

open ReferenceLibrary in
/-- An interest in the name of the server for the digest without bytes stops it, and the first
interest of an honest client, which comes right after, stays without an answer. -/
theorem honest_interest_unanswered :
    let repo : CCNxFileRepoCache := ⟨['r'], 1⟩
    let request : LoadRequest := ⟨[7], ⟨[[1]]⟩, 1, 2⟩
    ∃ roots saved, repo.runLoads referenceLibrary ([request].map (·, noFailures)) repo.freshDisk =
        .ok (roots, saved) ∧
      ∃ fetcher calls, create (request.root referenceLibrary) = .ok fetcher ∧
        fillBuffers (scriptedPortal ((request.producer referenceLibrary repo saved).respond
          referenceLibrary)) 2 fetcher (.start fun _ ↦ .arrives) [.allocate 1] = .ok calls ∧
        ∃ interest ∈ calls.flatMap Call.requests,
          (request.producer referenceLibrary repo saved).requestLoop referenceLibrary
              [.interest ⟨request.name, some []⟩, .interest interest] =
            { replies := [], stop := some .nullFileHandle } := by
  intro repo request
  obtain ⟨saved, hruns, hrepresents⟩ := exists_history_producer
    (CCNxFileRepoCache.emptyRepository_freshDisk repo) [request] (collisionFreeOn _)
  let chunk : CCNxContentObject := ⟨request.name, [7]⟩
  let pointer : CCNxManifestHashGroupPointer :=
    ⟨.data, referenceLibrary.computeContentObjectHash (.contentObject chunk)⟩
  let producer := request.producer referenceLibrary repo saved
  have hchunk : .contentObject chunk ∈
      CCNxFileRepoCache.historyMessages referenceLibrary [request] := by
    decide
  have hlookup := (hrepresents.contentAddressed fun _ hobject ↦ hobject).lookups _ hchunk
  have hanswer : resolver (producer.respond referenceLibrary) request.name pointer.digest =
      some (.contentObject chunk) := by
    simp only [resolver, Producer.respond]
    rw [Producer.handleRequest_stored rfl rfl hlookup]
  -- the root points to the one chunk, so a buffer with room for it brings out this interest
  obtain ⟨fetcher, calls, hcreate, hcalls, -, hmirrors⟩ :=
    @exists_session (producer.respond referenceLibrary) (request.root referenceLibrary) [pointer]
      [.allocate 1] 2 rfl (.leaf [7] (expandWith_contentObject _ hanswer) .nil)
      (by simp [Unfolding.leaves, PARCBuffer.remaining, PARCBuffer.allocate]) Nat.one_lt_two
  have hstop : producer.handleRequest referenceLibrary (.interest ⟨request.name, some []⟩) =
      .error .nullFileHandle := Producer.handleRequest_stop rfl rfl hrepresents.lookup_nil
  refine ⟨_, saved, hruns, fetcher, calls, hcreate, hcalls,
    pointerInterest request.name pointer, ?_, Producer.requestLoop_cons_error hstop _⟩
  rw [flatMap_requests hmirrors]
  exact List.mem_singleton_self _

end CCNxFileRepo
