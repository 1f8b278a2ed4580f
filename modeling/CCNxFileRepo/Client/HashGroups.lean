import CCNxFileRepo.Client.Streaming

/-!
# Manifests with several hash groups

The fetcher keeps the index of a hash group beside the iterator over its pointers, but at the end
of a group it leaves the manifest and the index stays zero.  So it resolves the trees of first
groups only, and what the other groups point to is never asked for.
-/

namespace CCNxFileRepo

open Foundations

def CCNxManifest.laterPointers (manifest : CCNxManifest) : List CCNxManifestHashGroupPointer :=
  manifest.hashGroups.tail.flatMap (·.pointers)

/-- The pointers that first groups leave out of the manifest behind a pointer. -/
def skippedBelow (resolve : Resolver) (pointer : CCNxManifestHashGroupPointer) :
    List CCNxManifestHashGroupPointer :=
  (((resolve pointer.digest).bind CCNxMetaMessage.getManifest).map
    CCNxManifest.laterPointers).getD []

/-- The manifests that a tree resolves, in the order of their pointers. -/
def GroupTree.manifests {resolve : Resolver} {pointers : List CCNxManifestHashGroupPointer}
    (t : GroupTree resolve pointers) : List CCNxManifest :=
  t.preorder.filterMap fun pointer ↦ (resolve pointer.digest).bind CCNxMetaMessage.getManifest

theorem CCNxManifest.firstGroup_of_allGroups {manifest : CCNxManifest}
    {pointers : List CCNxManifestHashGroupPointer} (h : manifest.allGroups = some pointers) :
    ∃ kept, manifest.firstGroup = some kept ∧ pointers = kept ++ manifest.laterPointers := by
  unfold allGroups at h
  split at h
  · cases h
  · rename_i groups hgroups
    obtain ⟨group, groups, hcons⟩ := List.exists_cons_of_ne_nil hgroups
    refine ⟨group.pointers, by simp [firstGroup, hcons], ?_⟩
    rw [← Option.some.inj h, laterPointers, hcons]
    rfl

theorem trims_firstGroup (resolve : Resolver) :
    Unfolding.Trims (expandWith CCNxManifest.firstGroup resolve)
      (expandWith CCNxManifest.allGroups resolve) (skippedBelow resolve) where
  leaf pointer payload h := by
    obtain ⟨object, hobject, rfl⟩ := expandWith_leaf h
    exact ⟨expandWith_contentObject _ hobject, by
      simp [skippedBelow, hobject, CCNxMetaMessage.getManifest]⟩
  node pointer children h := by
    obtain ⟨manifest, hmanifest, hall⟩ := expandWith_node h
    obtain ⟨kept, hkept, rfl⟩ := CCNxManifest.firstGroup_of_allGroups hall
    refine ⟨kept, by rw [expandWith_manifest _ hmanifest, hkept]; rfl, ?_⟩
    simp [skippedBelow, hmanifest, CCNxMetaMessage.getManifest]

theorem laterPointers_eq_nil_iff (manifest : CCNxManifest) :
    manifest.laterPointers = [] ↔ ∀ group ∈ manifest.hashGroups.tail, group.pointers = [] := by
  simp [CCNxManifest.laterPointers, List.flatMap_eq_nil_iff]

theorem skippedBelow_eq_nil_iff {resolve : Resolver} {pointer : CCNxManifestHashGroupPointer} :
    skippedBelow resolve pointer = [] ↔
      ∀ manifest, (resolve pointer.digest).bind CCNxMetaMessage.getManifest = some manifest →
        manifest.laterPointers = [] := by
  unfold skippedBelow
  cases (resolve pointer.digest).bind CCNxMetaMessage.getManifest <;> simp

/-- The first groups of a tree of manifests make up a tree of their own.  It has as many pointers
if and only if every other group is empty. -/
theorem GroupTree.exists_firstGroupTree {resolve : Resolver} {root : CCNxManifest}
    {pointers : List CCNxManifestHashGroupPointer} (hroot : root.allGroups = some pointers)
    (t : GroupTree resolve pointers) :
    ∃ kept, root.firstGroup = some kept ∧ ∃ s : FirstGroupTree resolve kept,
      s.preorder.Sublist t.preorder ∧ s.leaves.Sublist t.leaves ∧
      (s.preorder.length = t.preorder.length ↔
        ∀ manifest ∈ root :: t.manifests, ∀ group ∈ manifest.hashGroups.tail,
          group.pointers = []) := by
  obtain ⟨kept, hkept, rfl⟩ := CCNxManifest.firstGroup_of_allGroups hroot
  obtain ⟨s, hpreorder, hleaves, hiff⟩ :=
    (trims_firstGroup resolve).exists_unfolding t kept root.laterPointers rfl
  refine ⟨kept, hkept, s, hpreorder, hleaves, hiff.trans ?_⟩
  simp only [← laterPointers_eq_nil_iff, List.forall_mem_cons, skippedBelow_eq_nil_iff,
    GroupTree.manifests, List.mem_filterMap]
  exact and_congr_right fun _ ↦
    ⟨fun h manifest ⟨pointer, hpointer, hmanifest⟩ ↦ h pointer hpointer manifest hmanifest,
      fun h pointer hpointer manifest hmanifest ↦ h manifest ⟨pointer, hpointer, hmanifest⟩⟩

namespace CCNxFileRepoManifestFetcher

/-- On a network that answers every request, the calls up to the first that returns `true` ask for
the pointers of all hash groups of all manifests, in order, if and only if in the root and in every
manifest below it all hash groups after the first are empty. -/
theorem requests_eq_allPointers_iff (respond : CCNxInterest → Option CCNxMetaMessage)
    (root : CCNxManifest) (pointers : List CCNxManifestHashGroupPointer)
    (hroot : root.allGroups = some pointers)
    (t : GroupTree (resolver respond root.name) pointers) (buffers : List PARCBuffer)
    (hroom : ∀ buffer ∈ buffers, 0 < buffer.remaining ∧
      ∀ payload ∈ t.leaves, payload.length ≤ buffer.remaining)
    (fuel : ℕ) (hfuel : t.preorder.length < fuel) :
    ∃ fetcher calls, create root = .ok fetcher ∧
      fillBuffers (scriptedPortal respond) fuel fetcher (.start fun _ ↦ .arrives) buffers =
        .ok calls ∧
      calls.map (·.before) = buffers ∧
      (∀ earlier call later, calls = earlier ++ call :: later → call.filled.done = true →
        ((earlier ++ [call]).flatMap Call.requests = t.preorder.map (pointerInterest root.name) ↔
          ∀ manifest ∈ root :: t.manifests, ∀ group ∈ manifest.hashGroups.tail,
            group.pointers = [])) ∧
      (2 * t.preorder.length < buffers.length → ∃ call ∈ calls, call.filled.done = true) := by
  obtain ⟨kept, hkept, s, hpreorder, hleaves, hiff⟩ := GroupTree.exists_firstGroupTree hroot t
  have hlength := hpreorder.length_le
  have hkeptFuel := hlength.trans_lt hfuel
  obtain ⟨fetcher, calls, hcreate, hcalls, hbefore, hmirrors⟩ :=
    exists_session buffers hkept s
      (fun buffer hbuffer payload hpayload ↦
        (hroom buffer hbuffer).2 payload (hleaves.subset hpayload)) hkeptFuel
  refine ⟨fetcher, calls, hcreate, hcalls, hbefore, ?_, fun hcount ↦
    exists_done_call hmirrors (fun buffer hbuffer ↦ (hroom buffer hbuffer).1) (by omega)⟩
  rintro earlier call later rfl hdone
  obtain ⟨first, refill, last, hrun, hearlier, hcall, -⟩ := exists_refill_of_call hmirrors
  rw [hcall.done_eq] at hdone
  have hdrained := Refill.drained_of_mem_refills (hrun ▸ List.mem_append_cons_self) hdone
  have htaken := Refill.flatMap_taken_append_rest hrun
  rw [hdrained.2, List.append_nil] at htaken
  have hrequests : (earlier ++ [call]).flatMap Call.requests =
      s.preorder.map (pointerInterest root.name) := by
    calc
      (earlier ++ [call]).flatMap Call.requests =
          ((first ++ [refill]).flatMap Refill.taken).map
            fun visit ↦ pointerInterest root.name visit.item :=
        flatMap_requests (List.rel_append hearlier (.cons hcall .nil))
      _ = ((s.visits fun _ ↦ true).map Visit.item).map (pointerInterest root.name) := by
        rw [htaken, List.map_map]
        rfl
      _ = s.preorder.map (pointerInterest root.name) := by rw [s.map_item_visits]
  rw [hrequests, ← hiff]
  constructor
  · intro hmap
    simpa using congrArg List.length hmap
  · intro hsame
    rw [hpreorder.eq_of_length hsame]

/-- Three calls on a manifest whose second hash group is empty. -/
theorem requests_eq_allPointers_iff_sample :
    ∃ fetcher calls, create (sampleManifest [[dataPointer], []]) = .ok fetcher ∧
      fillBuffers (scriptedPortal sampleRespond) 2 fetcher (.start fun _ ↦ .arrives)
        (List.replicate 3 (.allocate 2)) = .ok calls ∧
      ∃ call ∈ calls, call.filled.done = true := by
  obtain ⟨fetcher, calls, hcreate, hcalls, -, -, hdone⟩ := requests_eq_allPointers_iff
    sampleRespond (sampleManifest [[dataPointer], []]) [dataPointer] rfl
    (.leaf [5, 6] rfl .nil) (List.replicate 3 (.allocate 2))
    (by
      intro buffer hbuffer
      obtain rfl := (List.mem_replicate.mp hbuffer).2
      decide)
    2 (by decide)
  exact ⟨fetcher, calls, hcreate, hcalls, hdone (by decide)⟩

/-- A manifest with one pointer in each of two hash groups: the fetcher reports the end after the
first group. -/
theorem requests_skip_second_group :
    ∃ fetcher calls, create (sampleManifest [[dataPointer], [dataPointer]]) = .ok fetcher ∧
      fillBuffers (scriptedPortal sampleRespond) 3 fetcher (.start fun _ ↦ .arrives)
        [.allocate 3] = .ok calls ∧
      (∃ call ∈ calls, call.filled.done = true) ∧
      calls.flatMap Call.requests ≠
        [dataPointer, dataPointer].map (pointerInterest ⟨[]⟩) :=
  ⟨_, _, rfl, rfl, ⟨_, List.mem_singleton_self _, rfl⟩, by decide⟩

end CCNxFileRepoManifestFetcher

end CCNxFileRepo
