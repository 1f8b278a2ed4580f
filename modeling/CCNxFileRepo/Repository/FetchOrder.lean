import CCNxFileRepo.Foundations.LastNodes
import CCNxFileRepo.Repository.SkewedTree

/-!
# The order of fetching

The builder works from the end of a file to its start, and puts every new pointer in front of its
group.  The link to the manifest before stands at the end of a group, so a depth-first resolution
comes to it after all chunks of this group.  Altogether the objects are asked for in exactly the
reverse of the order in which they were made, the root manifest apart: what was made last is
fetched first.  The same holds of what lies below every manifest that was made on the way.  As a
link is the last pointer of its group, a resolution is a walk along the list of objects: a chunk
that fails to come is left out, and a manifest that fails to come ends it.
-/

namespace CCNxFileRepo.ManifestBuilder

open Foundations

variable {lib : CCNxLibrary} {capacity blockSize : ℕ} {name : CCNxName}

/-- The pointer that a hash group has to an object. -/
def pointerTo (lib : CCNxLibrary) (object : CCNxMetaMessage) : CCNxManifestHashGroupPointer :=
  ⟨object.pointerType.getD .data, lib.computeContentObjectHash object⟩

/-- The pointers to some objects, the last one first. -/
def pointersBack (lib : CCNxLibrary) (objects : List CCNxMetaMessage) :
    List CCNxManifestHashGroupPointer := (objects.map (pointerTo lib)).reverse

theorem pointersBack_concat (objects : List CCNxMetaMessage) (object : CCNxMetaMessage) :
    pointersBack lib (objects ++ [object]) = pointerTo lib object :: pointersBack lib objects := by
  simp [pointersBack]

@[simp]
theorem length_pointersBack (objects : List CCNxMetaMessage) :
    (pointersBack lib objects).length = objects.length := by
  simp [pointersBack]

/-- What is asked for below the running group, and below every manifest made so far. -/
structure FetchInvariant (lib : CCNxLibrary) (state : BuildState) : Prop where
  group : ∀ resolve, Resolves lib resolve state.chunkList →
    ∃ t : ManifestTree resolve state.group.pointers,
      t.preorder = pointersBack lib state.chunkList ∧ t.NodesLast
  finished : ∀ resolve, Resolves lib resolve state.chunkList → ∀ earlier manifest later,
    state.chunkList = earlier ++ .manifest manifest :: later →
      ∃ pointers, manifest.onlyGroup = some pointers ∧
        ∃ t : ManifestTree resolve pointers,
          t.preorder = pointersBack lib earlier ∧ t.NodesLast

theorem FetchInvariant.initial : FetchInvariant lib .initial where
  group _ _ := ⟨.nil, rfl, trivial⟩
  finished _ _ earlier manifest later h := by simp [BuildState.initial] at h

/-- An object at the end of a list stands last, or before the last one. -/
theorem split_concat {list earlier later : List CCNxMetaMessage} {last object : CCNxMetaMessage}
    (h : list ++ [last] = earlier ++ object :: later) :
    (list = earlier ∧ last = object) ∨ ∃ between, list = earlier ++ object :: between := by
  rcases List.eq_nil_or_concat later with rfl | ⟨between, other, rfl⟩
  · obtain ⟨hlist, hlast⟩ := List.append_inj' h rfl
    exact Or.inl ⟨hlist, by simpa using hlast⟩
  · have hinit : list ++ [last] = (earlier ++ object :: between) ++ [other] := by simpa using h
    exact Or.inr ⟨between, (List.append_inj' hinit rfl).1⟩

theorem FetchInvariant.addChunk {state : BuildState} (h : FetchInvariant lib state)
    (hroom : state.group.pointers.length < capacity) (chunk : Bytes) :
    FetchInvariant lib (addChunk lib capacity name state chunk) where
  group resolve hresolve := by
    rw [addChunk_chunkList] at hresolve
    obtain ⟨t, ht, hlast⟩ := h.group resolve (hresolve.mono (List.subset_append_left _ _))
    have hobject : resolve (chunkPointer lib name chunk).digest =
        some (.contentObject ⟨name, chunk⟩) := hresolve (chunkObject name chunk) (by simp)
    have hleaf : expandWith CCNxManifest.onlyGroup resolve (chunkPointer lib name chunk) =
        some (.leaf chunk) := expandWith_contentObject _ hobject
    rw [addChunk_pointers hroom, addChunk_chunkList, pointersBack_concat]
    exact ⟨.leaf chunk hleaf t, by rw [Unfolding.preorder, ht]; rfl, hlast⟩
  finished resolve hresolve earlier manifest later hsplit := by
    rw [addChunk_chunkList] at hresolve hsplit
    rcases split_concat hsplit with ⟨-, hlast⟩ | ⟨between, hold⟩
    · cases hlast
    · exact h.finished resolve (hresolve.mono (List.subset_append_left _ _)) _ _ _ hold

theorem FetchInvariant.rollOver {state : BuildState} (h : FetchInvariant lib state)
    (hpos : 0 < capacity) : FetchInvariant lib (rollOver lib capacity blockSize name state) := by
  cases hfull : state.group.isFull capacity with
  | false => rwa [rollOver_of_not_full hfull]
  | true =>
      constructor
      case group =>
        intro resolve hresolve
        rw [rollOver_chunkList hfull] at hresolve
        rw [rollOver_pointers hpos hfull, rollOver_chunkList hfull, pointersBack_concat]
        obtain ⟨t, ht, hlast⟩ := h.group resolve (hresolve.mono (List.subset_append_left _ _))
        have hmanifest : resolve (rollOverPointer lib blockSize name state).digest =
            some (rollOverManifest blockSize name state) := hresolve _ (by simp)
        have hnode : expandWith CCNxManifest.onlyGroup resolve
            (rollOverPointer lib blockSize name state) = some (.node state.group.pointers) :=
          expandWith_manifest _ hmanifest
        refine ⟨.node state.group.pointers hnode t .nil, ?_, rfl, hlast⟩
        rw [Unfolding.preorder, ht, Unfolding.preorder, List.append_nil]
        rfl
      case finished =>
        intro resolve hresolve earlier manifest later hsplit
        rw [rollOver_chunkList hfull] at hresolve hsplit
        have hearlier : Resolves lib resolve state.chunkList :=
          hresolve.mono (List.subset_append_left _ _)
        rcases split_concat hsplit with ⟨rfl, hlast⟩ | ⟨between, hold⟩
        · cases hlast
          exact ⟨state.group.pointers, rfl, h.group resolve hearlier⟩
        · exact h.finished resolve hearlier _ _ _ hold

variable (lib blockSize name) in
theorem buildLoop_fetchInvariant (hcapacity : 2 ≤ capacity) (chunks : List Bytes) :
    FetchInvariant lib (buildLoop lib capacity blockSize name chunks) := by
  refine (buildLoop_induction_of_room lib blockSize name hcapacity
    (motive := fun _ state ↦ FetchInvariant lib state) .initial ?_ chunks).1
  intro seen chunk state hroom hinvariant
  exact (hinvariant.addChunk hroom chunk).rollOver (by omega)

section Lists

variable {chunker : PARCChunker} {resolve : Resolver}

/-- Below a manifest of the list lie the objects before it, and a depth-first resolution asks for
them from the last to the first. -/
theorem exists_tree_pointersBack (hcapacity : 2 ≤ capacity)
    (hresolve : Resolves lib resolve (buildSkewedManifest lib capacity chunker name))
    {earlier later : List CCNxMetaMessage} {manifest : CCNxManifest}
    (hsplit : buildSkewedManifest lib capacity chunker name =
      earlier ++ .manifest manifest :: later) :
    ∃ pointers, manifest.onlyGroup = some pointers ∧
      ∃ t : ManifestTree resolve pointers,
        t.preorder = pointersBack lib earlier ∧ t.NodesLast := by
  have hinvariant := buildLoop_fetchInvariant lib chunker.chunkSize name hcapacity
    chunker.reverseIterator
  have hloop := hresolve.mono (List.subset_append_left _ _)
  rcases split_concat hsplit with ⟨rfl, hlast⟩ | ⟨between, hold⟩
  · cases hlast
    exact ⟨_, onlyGroup_rootManifest, hinvariant.group resolve hloop⟩
  · exact hinvariant.finished resolve hloop _ _ _ hold

/-- The tree over a manifest of the list is smaller than the list. -/
theorem length_preorder_lt (hcapacity : 2 ≤ capacity)
    (hresolve : Resolves lib resolve (buildSkewedManifest lib capacity chunker name))
    {manifest : CCNxManifest}
    (hmanifest : .manifest manifest ∈ buildSkewedManifest lib capacity chunker name)
    {pointers : List CCNxManifestHashGroupPointer} (hpointers : manifest.onlyGroup = some pointers)
    (t : ManifestTree resolve pointers) :
    t.preorder.length < (buildSkewedManifest lib capacity chunker name).length := by
  obtain ⟨earlier, later, hsplit⟩ := List.append_of_mem hmanifest
  obtain ⟨same, hsame, s, hs, -⟩ := exists_tree_pointersBack hcapacity hresolve hsplit
  obtain rfl : same = pointers := Option.some.inj (hsame.symm.trans hpointers)
  rw [t.eq_of_items s, hs, hsplit, length_pointersBack, List.length_append, List.length_cons]
  omega

end Lists

/-! ## What is asked for where answers fail to come -/

/-- Objects that are asked for in turn, each with whether it comes.  Behind anything but a content
object that fails to come there is nothing to ask for. -/
def askInTurn : List CCNxMetaMessage → (ℕ → Bool) → List (CCNxMetaMessage × Bool)
  | [], _ => []
  | object :: later, comes =>
      (object, comes 0) ::
        if comes 0 || object.isContentObject then
          askInTurn later fun index ↦ comes (index + 1)
        else []

def payloadOf : CCNxMetaMessage × Bool → Option Bytes
  | (.contentObject object, true) => some object.payload
  | _ => none

theorem askInTurn_prefix (objects : List CCNxMetaMessage) (comes : ℕ → Bool) :
    (askInTurn objects comes).map Prod.fst <+: objects := by
  induction objects generalizing comes with
  | nil => exact List.nil_prefix
  | cons object objects ih =>
      rw [askInTurn, List.map_cons, List.cons_prefix_cons]
      refine ⟨rfl, ?_⟩
      split
      · exact ih _
      · exact List.nil_prefix

/-- Where every manifest comes, everything is asked for. -/
theorem askInTurn_of_manifests {objects : List CCNxMetaMessage} {comes : ℕ → Bool}
    (h : ∀ index object, objects[index]? = some object → object.isContentObject = false →
      comes index = true) : (askInTurn objects comes).map Prod.fst = objects := by
  induction objects generalizing comes with
  | nil => rfl
  | cons object objects ih =>
      have hgoes : (comes 0 || object.isContentObject) = true := by
        cases hobject : object.isContentObject with
        | true => exact Bool.or_true _
        | false => rw [h 0 object rfl hobject]; rfl
      rw [askInTurn, if_pos hgoes, List.map_cons, ih fun index ↦ h (index + 1)]

/-- Only a content object stands for a payload. -/
theorem expandWith_pointerTo_ne_leaf {resolve : Resolver}
    (groups : CCNxManifest → Option (List CCNxManifestHashGroupPointer))
    {object : CCNxMetaMessage} (hobject : object.isContentObject = false)
    (hfound : resolve (pointerTo lib object).digest = some object) (payload : Bytes) :
    expandWith groups resolve (pointerTo lib object) ≠ some (.leaf payload) := by
  intro hleaf
  obtain ⟨content, hcontent, -⟩ := expandWith_leaf hleaf
  rw [hfound, Option.some.injEq] at hcontent
  rw [hcontent] at hobject
  cases hobject

/-- A walk along the pointers to some objects asks for the objects in turn. -/
theorem walk_map_pointerTo {resolve : Resolver}
    (groups : CCNxManifest → Option (List CCNxManifestHashGroupPointer))
    {objects : List CCNxMetaMessage} (hresolve : Resolves lib resolve objects)
    (comes : ℕ → Bool) :
    Unfolding.walk (expandWith groups resolve) (objects.map (pointerTo lib)) comes =
      (askInTurn objects comes).map fun asked ↦ (pointerTo lib asked.1, payloadOf asked) := by
  induction objects generalizing comes with
  | nil => rfl
  | cons object objects ih =>
      have hfound : resolve (pointerTo lib object).digest = some object :=
        hresolve object (List.mem_cons_self ..)
      have hlater := ih (hresolve.mono (List.subset_cons_self ..)) (Unfolding.later comes 1)
      cases hobject : object.isContentObject with
      | true =>
          obtain ⟨content, rfl⟩ : ∃ content, object = .contentObject content := by
            cases object <;> simp_all [CCNxMetaMessage.isContentObject]
          rw [List.map_cons, Unfolding.walk_cons_leaf (expandWith_contentObject groups hfound),
            hlater, askInTurn, hobject, Bool.or_true, if_pos rfl, List.map_cons]
          cases comes 0 <;> rfl
      | false =>
          rw [List.map_cons, Unfolding.walk_cons_of_ne_leaf
            (expandWith_pointerTo_ne_leaf groups hobject hfound), hlater, askInTurn, hobject,
            Bool.or_false, List.map_cons]
          have hnothing : payloadOf (object, comes 0) = none := by
            cases object <;> first | rfl | cases hobject
          rw [hnothing]
          cases comes 0 <;> rfl

end CCNxFileRepo.ManifestBuilder
