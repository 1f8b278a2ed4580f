import CCNxFileRepo.CCNx.Message
import CCNxFileRepo.Foundations.Unfolding

/-!
# Manifest trees

Objects are found by their digest through a resolver.  A pointer stands for the payload of a
content object or for the pointers of a manifest, so the finite trees of the protocol are the
finite unfoldings of a pointer list.  The three expansions differ in what they make of a
manifest: only manifests with one hash group, the first hash group, or all hash groups.
-/

namespace CCNxFileRepo

open Foundations

/-- Finds the published object with a digest. -/
abbrev Resolver := Bytes → Option CCNxMetaMessage

abbrev PointerExpansion := Expansion CCNxManifestHashGroupPointer Bytes

/-- Resolution of a pointer when `groups` says which pointers of a manifest count. -/
def expandWith (groups : CCNxManifest → Option (List CCNxManifestHashGroupPointer))
    (resolve : Resolver) (pointer : CCNxManifestHashGroupPointer) : Option PointerExpansion :=
  match resolve pointer.digest with
  | some (.contentObject object) => some (.leaf object.payload)
  | some (.manifest manifest) => (groups manifest).map .node
  | _ => none

namespace CCNxManifest

/-- The pointers of a manifest with exactly one hash group. -/
def onlyGroup (manifest : CCNxManifest) : Option (List CCNxManifestHashGroupPointer) :=
  match manifest.hashGroups with
  | [group] => some group.pointers
  | _ => none

def firstGroup (manifest : CCNxManifest) : Option (List CCNxManifestHashGroupPointer) :=
  manifest.hashGroups.head?.map (·.pointers)

/-- The pointers of all hash groups in order, of a manifest with at least one. -/
def allGroups (manifest : CCNxManifest) : Option (List CCNxManifestHashGroupPointer) :=
  match manifest.hashGroups with
  | [] => none
  | groups => some (groups.flatMap (·.pointers))

theorem exists_group_of_onlyGroup {manifest : CCNxManifest}
    {pointers : List CCNxManifestHashGroupPointer} (h : manifest.onlyGroup = some pointers) :
    ∃ group, manifest.hashGroups = [group] ∧ group.pointers = pointers := by
  unfold onlyGroup at h
  split at h
  · rename_i group hgroups
    exact ⟨group, hgroups, by simpa using h⟩
  · cases h

theorem firstGroup_of_onlyGroup {manifest : CCNxManifest}
    {pointers : List CCNxManifestHashGroupPointer} (h : manifest.onlyGroup = some pointers) :
    manifest.firstGroup = some pointers := by
  obtain ⟨group, hgroups, rfl⟩ := exists_group_of_onlyGroup h
  simp [firstGroup, hgroups]

theorem allGroups_of_onlyGroup {manifest : CCNxManifest}
    {pointers : List CCNxManifestHashGroupPointer} (h : manifest.onlyGroup = some pointers) :
    manifest.allGroups = some pointers := by
  obtain ⟨group, hgroups, rfl⟩ := exists_group_of_onlyGroup h
  simp [allGroups, hgroups]

end CCNxManifest

/-- The finite trees of manifests with one hash group each. -/
abbrev ManifestTree (resolve : Resolver) :=
  Unfolding (expandWith CCNxManifest.onlyGroup resolve)

/-- The finite trees seen through the first hash group of every manifest. -/
abbrev FirstGroupTree (resolve : Resolver) :=
  Unfolding (expandWith CCNxManifest.firstGroup resolve)

/-- The finite trees of manifests with any number of hash groups from one on. -/
abbrev GroupTree (resolve : Resolver) :=
  Unfolding (expandWith CCNxManifest.allGroups resolve)

theorem expandWith_leaf {groups : CCNxManifest → Option (List CCNxManifestHashGroupPointer)}
    {resolve : Resolver} {pointer : CCNxManifestHashGroupPointer} {payload : Bytes}
    (h : expandWith groups resolve pointer = some (.leaf payload)) :
    ∃ object, resolve pointer.digest = some (.contentObject object) ∧ object.payload = payload := by
  unfold expandWith at h
  split at h
  · rename_i object hobject
    exact ⟨object, hobject, by simpa using h⟩
  · simp [Option.map_eq_some_iff] at h
  · cases h

theorem expandWith_node {groups : CCNxManifest → Option (List CCNxManifestHashGroupPointer)}
    {resolve : Resolver} {pointer : CCNxManifestHashGroupPointer}
    {children : List CCNxManifestHashGroupPointer}
    (h : expandWith groups resolve pointer = some (.node children)) :
    ∃ manifest, resolve pointer.digest = some (.manifest manifest) ∧
      groups manifest = some children := by
  unfold expandWith at h
  split at h
  · cases h
  · rename_i manifest hmanifest
    exact ⟨manifest, hmanifest, by simpa using h⟩
  · cases h

theorem expandWith_contentObject
    (groups : CCNxManifest → Option (List CCNxManifestHashGroupPointer)) {resolve : Resolver}
    {pointer : CCNxManifestHashGroupPointer} {object : CCNxContentObject}
    (h : resolve pointer.digest = some (.contentObject object)) :
    expandWith groups resolve pointer = some (.leaf object.payload) := by
  simp [expandWith, h]

theorem expandWith_manifest
    (groups : CCNxManifest → Option (List CCNxManifestHashGroupPointer)) {resolve : Resolver}
    {pointer : CCNxManifestHashGroupPointer} {manifest : CCNxManifest}
    (h : resolve pointer.digest = some (.manifest manifest)) :
    expandWith groups resolve pointer = (groups manifest).map .node := by
  simp [expandWith, h]

/-- A resolver that finds more expands more. -/
theorem expandWith_mono {groups : CCNxManifest → Option (List CCNxManifestHashGroupPointer)}
    {resolve wider : Resolver}
    (h : ∀ digest object, resolve digest = some object → wider digest = some object)
    (pointer : CCNxManifestHashGroupPointer) (expansion : PointerExpansion)
    (hexpand : expandWith groups resolve pointer = some expansion) :
    expandWith groups wider pointer = some expansion := by
  cases expansion with
  | leaf payload =>
      obtain ⟨object, hobject, rfl⟩ := expandWith_leaf hexpand
      exact expandWith_contentObject groups (h _ _ hobject)
  | node children =>
      obtain ⟨manifest, hmanifest, hchildren⟩ := expandWith_node hexpand
      rw [expandWith_manifest groups (h _ _ hmanifest), hchildren]
      rfl

/-- Reading more manifests expands more. -/
theorem expandWith_of_groups
    {groups wider : CCNxManifest → Option (List CCNxManifestHashGroupPointer)}
    (h : ∀ manifest children, groups manifest = some children → wider manifest = some children)
    {resolve : Resolver} (pointer : CCNxManifestHashGroupPointer) (expansion : PointerExpansion)
    (hexpand : expandWith groups resolve pointer = some expansion) :
    expandWith wider resolve pointer = some expansion := by
  cases expansion with
  | leaf payload =>
      obtain ⟨object, hobject, rfl⟩ := expandWith_leaf hexpand
      exact expandWith_contentObject wider hobject
  | node children =>
      obtain ⟨manifest, hmanifest, hchildren⟩ := expandWith_node hexpand
      rw [expandWith_manifest wider hmanifest, h manifest children hchildren]
      rfl

def ManifestTree.toFirstGroups {resolve : Resolver} {pointers : List CCNxManifestHashGroupPointer}
    (t : ManifestTree resolve pointers) : FirstGroupTree resolve pointers :=
  t.mono (expandWith_of_groups fun _ _ ↦ CCNxManifest.firstGroup_of_onlyGroup)

@[simp]
theorem ManifestTree.leaves_toFirstGroups {resolve : Resolver}
    {pointers : List CCNxManifestHashGroupPointer} (t : ManifestTree resolve pointers) :
    t.toFirstGroups.leaves = t.leaves :=
  Unfolding.leaves_mono _ t

@[simp]
theorem ManifestTree.preorder_toFirstGroups {resolve : Resolver}
    {pointers : List CCNxManifestHashGroupPointer} (t : ManifestTree resolve pointers) :
    t.toFirstGroups.preorder = t.preorder :=
  Unfolding.preorder_mono _ t

/-- A tree of one-group manifests as one of manifests with any number of groups. -/
def ManifestTree.toAllGroups {resolve : Resolver} {pointers : List CCNxManifestHashGroupPointer}
    (t : ManifestTree resolve pointers) : GroupTree resolve pointers :=
  t.mono (expandWith_of_groups fun _ _ ↦ CCNxManifest.allGroups_of_onlyGroup)

/-- Every one of `objects` is found by its digest. -/
def Resolves (lib : CCNxLibrary) (resolve : Resolver) (objects : List CCNxMetaMessage) : Prop :=
  ∀ object ∈ objects, resolve (lib.computeContentObjectHash object) = some object

theorem Resolves.mono {lib : CCNxLibrary} {resolve : Resolver}
    {objects wider : List CCNxMetaMessage} (h : Resolves lib resolve wider)
    (hobjects : objects ⊆ wider) : Resolves lib resolve objects :=
  fun object hobject ↦ h object (hobjects hobject)

def findObject (lib : CCNxLibrary) (objects : List CCNxMetaMessage) : Resolver :=
  fun digest ↦ objects.find? fun object ↦ lib.computeContentObjectHash object == digest

theorem mem_of_findObject {lib : CCNxLibrary} {objects : List CCNxMetaMessage} {digest : Bytes}
    {object : CCNxMetaMessage} (h : findObject lib objects digest = some object) :
    object ∈ objects ∧ lib.computeContentObjectHash object = digest :=
  ⟨List.mem_of_find?_eq_some h, by simpa using List.find?_some h⟩

/-- A list finds its own elements. -/
theorem resolves_findObject {lib : CCNxLibrary} {objects : List CCNxMetaMessage}
    (hfree : lib.CollisionFreeOn {object | object ∈ objects}) :
    Resolves lib (findObject lib objects) objects := by
  intro object hobject
  cases hfound : findObject lib objects (lib.computeContentObjectHash object) with
  | none =>
      have hmissing := List.find?_eq_none.mp hfound object hobject
      simp at hmissing
  | some other =>
      obtain ⟨hother, hhash⟩ := mem_of_findObject hfound
      exact congrArg some (hfree hother hobject hhash)

/-- What a list finds is found wherever its elements are. -/
theorem Resolves.of_findObject {lib : CCNxLibrary} {resolve : Resolver}
    {objects : List CCNxMetaMessage} (h : Resolves lib resolve objects) (digest : Bytes)
    (object : CCNxMetaMessage) (hfound : findObject lib objects digest = some object) :
    resolve digest = some object := by
  obtain ⟨hobject, rfl⟩ := mem_of_findObject hfound
  exact h object hobject

/-- The digests that lie below a pointer list when manifests are looked up among `objects`. -/
inductive Below (lib : CCNxLibrary) (objects : List CCNxMetaMessage) :
    List CCNxManifestHashGroupPointer → Bytes → Prop where
  | pointer {pointers : List CCNxManifestHashGroupPointer} {pointer : CCNxManifestHashGroupPointer}
      (member : pointer ∈ pointers) : Below lib objects pointers pointer.digest
  | child {pointers : List CCNxManifestHashGroupPointer} {pointer : CCNxManifestHashGroupPointer}
      {manifest : CCNxManifest} {group : CCNxManifestHashGroup} {digest : Bytes}
      (member : pointer ∈ pointers) (found : .manifest manifest ∈ objects)
      (named : pointer.digest = lib.computeContentObjectHash (.manifest manifest))
      (inGroup : group ∈ manifest.hashGroups) (below : Below lib objects group.pointers digest) :
      Below lib objects pointers digest

/-- The digests reachable from a root manifest, its own included. -/
def Reachable (lib : CCNxLibrary) (objects : List CCNxMetaMessage) (root : CCNxManifest)
    (digest : Bytes) : Prop :=
  digest = lib.computeContentObjectHash (.manifest root) ∨
    ∃ group ∈ root.hashGroups, Below lib objects group.pointers digest

/-- Where every pointer names an object, so does every digest below. -/
theorem Below.exists_object {lib : CCNxLibrary} {objects : List CCNxMetaMessage}
    {pointers : List CCNxManifestHashGroupPointer} {digest : Bytes}
    (h : Below lib objects pointers digest)
    (hnamed : ∀ pointer ∈ pointers,
      ∃ object ∈ objects, lib.computeContentObjectHash object = pointer.digest)
    (hclosed : ∀ manifest, .manifest manifest ∈ objects → ∀ group ∈ manifest.hashGroups,
      ∀ pointer ∈ group.pointers,
        ∃ object ∈ objects, lib.computeContentObjectHash object = pointer.digest) :
    ∃ object ∈ objects, lib.computeContentObjectHash object = digest := by
  induction h with
  | pointer member => exact hnamed _ member
  | child _ found _ inGroup _ ih => exact ih (hclosed _ found _ inGroup)

end CCNxFileRepo
