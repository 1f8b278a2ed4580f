import CCNxFileRepo.Client.LazyTraversal

/-!
# How high the stack of the fetcher grows

Every manifest that arrives puts a level on the stack, and nothing takes a level away but the search
for the next pointer.  As a manifest only arrives for the pointer read last, from the level on top,
the levels above a level lie below it in the tree.  So the stack is never higher than manifests are
nested, whatever the tree, the buffers and the network are.
-/

namespace CCNxFileRepo.CCNxFileRepoManifestFetcher

open Foundations

variable {respond : CCNxInterest → Option CCNxMetaMessage} {locator : CCNxName} {resolve : Resolver}
  {bound height : ℕ} {states below : List FetcherState} {place : Place}
  {fetcher next : CCNxFileRepoManifestFetcher} {buffer between : PARCBuffer}
  {network : ScriptedState} {hashDigest : Bytes} {pointers : List CCNxManifestHashGroupPointer}

/-- The levels of a stack.  What the top level still has to read leads to trees of `height` at most,
and for every level further down it may be one more, up to `bound` at the bottom. -/
inductive Levels (resolve : Resolver) (bound : ℕ) : ℕ → List FetcherState → Prop where
  | nil : Levels resolve bound (bound + 1) []
  | cons {height : ℕ} {state : FetcherState} {below : List FetcherState}
      {pointers : List CCNxManifestHashGroupPointer} (reads : state.iterator = .ok pointers)
      (t : ManifestTree resolve pointers) (low : t.height ≤ height)
      (others : Levels resolve bound (height + 1) below) :
      Levels resolve bound height (state :: below)

theorem Levels.length (h : Levels resolve bound height states) :
    height + states.length = bound + 1 := by
  induction h with
  | nil => rfl
  | cons reads t low others ih =>
      rw [List.length_cons]
      omega

/-- The search for a pointer drops levels from the top, and the pointer is from the level on top of
the rest. -/
theorem Levels.getNextPointer {digest : Option Bytes} (h : Levels resolve bound height states)
    (hnext : CCNxFileRepoManifestFetcher.getNextPointer states = .ok (digest, below)) :
    ∃ height, Levels resolve bound height below ∧ ∀ hashDigest, digest = some hashDigest →
      ∃ pointer : CCNxManifestHashGroupPointer, pointer.digest = hashDigest ∧
        ∃ t : ManifestTree resolve [pointer], t.height ≤ height := by
  induction h with
  | nil =>
      cases hnext
      exact ⟨_, .nil, by simp⟩
  | @cons height state others pointers reads t low levels ih =>
      rw [CCNxFileRepoManifestFetcher.getNextPointer, reads] at hnext
      cases pointers with
      | nil => exact ih hnext
      | cons pointer pointers =>
          cases hnext
          refine ⟨height, .cons rfl t.tail (t.height_tail_le.trans low) levels, ?_⟩
          rintro hashDigest hdigest
          cases hdigest
          exact ⟨pointer, rfl, t.head, t.height_head_le.trans low⟩

/-- The stack at a place, and the pointer whose interest is outstanding there. -/
def Nested (resolve : Resolver) (bound : ℕ) (place : Place) (states : List FetcherState) : Prop :=
  ∃ height, Levels resolve bound height states ∧ ∀ hashDigest buffer,
    place = .waiting hashDigest buffer →
      ∃ pointer : CCNxManifestHashGroupPointer, pointer.digest = hashDigest ∧
        ∃ t : ManifestTree resolve [pointer], t.height ≤ height

theorem Levels.nested (h : Levels resolve bound height states)
    (hplace : ∀ hashDigest buffer, place ≠ .waiting hashDigest buffer) :
    Nested resolve bound place states :=
  ⟨height, h, fun hashDigest buffer heq ↦ absurd heq (hplace hashDigest buffer)⟩

theorem Nested.nextRequest (h : Nested resolve bound (.looping buffer) fetcher.stateList)
    {request : Request} (hnext : nextRequest fetcher buffer = .ok (request, next)) :
    ∃ height, Levels resolve bound height next.stateList ∧ ∀ hashDigest,
      request = .fetch hashDigest →
        ∃ pointer : CCNxManifestHashGroupPointer, pointer.digest = hashDigest ∧
          ∃ t : ManifestTree resolve [pointer], t.height ≤ height := by
  obtain ⟨height, hlevels, -⟩ := h
  rcases nextRequest_spec hnext with ⟨rfl, rfl⟩ | ⟨digest, below, hpointer, rfl, rfl⟩
  · exact ⟨height, hlevels, by simp⟩
  · obtain ⟨height, hbelow, hdigest⟩ := hlevels.getNextPointer hpointer
    refine ⟨height, hbelow, fun hashDigest hrequest ↦ hdigest hashDigest ?_⟩
    cases digest <;> simp_all

/-- A manifest that arrives lies one level below the pointer that was asked for. -/
theorem Nested.receive
    (h : Nested (resolver respond locator) bound (.waiting hashDigest buffer) fetcher.stateList)
    (hinvariant : StackInvariant respond locator (.waiting hashDigest buffer) fetcher)
    {response : Option CCNxMetaMessage} {sent : ScriptedState} {suspended : Bool}
    (hfetch : fetchData (scriptedPortal respond) fetcher hashDigest network = (response, sent))
    (hresponse : handleResponse fetcher buffer response = .ok (suspended, next, between)) :
    ∃ height, Levels (resolver respond locator) bound height next.stateList := by
  obtain ⟨height, hlevels, hwaits⟩ := h
  rcases handleResponse_cases (hinvariant.nothingHeld (by simp)) hresponse with
    ⟨child, rfl, rfl, rfl, rfl⟩ | ⟨-, hstack, -, -⟩
  · obtain ⟨pointer, rfl, t, hlow⟩ := hwaits hashDigest between rfl
    rw [fetchData_scripted, hinvariant.locator_eq] at hfetch
    have hchild : resolver respond locator pointer.digest = some (.manifest child) :=
      respond_of_answer (congrArg Prod.fst hfetch)
    cases t with
    | leaf value resolves _ =>
        obtain ⟨object, hobject, -⟩ := expandWith_leaf resolves
        rw [hchild] at hobject
        cases hobject
    | node children resolves under _ =>
        obtain ⟨manifest, hmanifest, hchildren⟩ := expandWith_node resolves
        rw [hchild] at hmanifest
        cases hmanifest
        have hunder : under.height + 1 ≤ height := (le_max_left _ _).trans hlow
        obtain ⟨height, rfl⟩ := Nat.exists_eq_succ_of_ne_zero (Nat.ne_zero_of_lt hunder)
        exact ⟨height, .cons (FetcherState.iterator_create
          (CCNxManifest.firstGroup_of_onlyGroup hchildren)) under
            (Nat.le_of_succ_le_succ hunder) hlevels⟩
  · exact ⟨height, hstack ▸ hlevels⟩

/-- The levels are nested in every state of a run. -/
theorem Reached.nested {root : CCNxManifest} {start : ScriptedState}
    (hroot : root.onlyGroup = some pointers)
    (t : ManifestTree (resolver respond root.name) pointers)
    (h : Reached (scriptedPortal respond) root start place fetcher network) :
    Nested (resolver respond root.name) t.height place fetcher.stateList := by
  induction h with
  | create created =>
      rw [eq_of_create created]
      have hread := FetcherState.iterator_create (CCNxManifest.firstGroup_of_onlyGroup hroot)
      exact (Levels.cons hread t le_rfl .nil).nested (by simp)
  | call _ put ih =>
      obtain ⟨height, hlevels, -⟩ := ih
      rw [putPrevState_eq put]
      exact hlevels.nested (by simp)
  | leave _ asked ends ih =>
      obtain ⟨height, hlevels, -⟩ := ih.nextRequest asked
      exact hlevels.nested (by simp)
  | fetch _ asked ih =>
      obtain ⟨height, hlevels, hfetch⟩ := ih.nextRequest asked
      refine ⟨height, hlevels, fun hashDigest buffer heq ↦ ?_⟩
      cases heq
      exact hfetch _ rfl
  | resume waiting fetched handled ih =>
      obtain ⟨height, hlevels⟩ := ih.receive (waiting.stackInvariant hroot t) fetched handled
      exact hlevels.nested (by simp)
  | suspend waiting fetched handled ih =>
      obtain ⟨height, hlevels⟩ := ih.receive (waiting.stackInvariant hroot t) fetched handled
      exact hlevels.nested (by simp)

/-- On any network that publishes a finite tree of one-group manifests, in every state that a run
of calls passes through, whatever its buffers are and whatever fails: the stack has no more levels
than manifests are nested in the tree, the root among them. -/
theorem stateList_length_le (respond : CCNxInterest → Option CCNxMetaMessage)
    (root : CCNxManifest) (pointers : List CCNxManifestHashGroupPointer)
    (hroot : root.onlyGroup = some pointers)
    (t : ManifestTree (resolver respond root.name) pointers) (start network : ScriptedState)
    (place : Place) (fetcher : CCNxFileRepoManifestFetcher)
    (hreached : Reached (scriptedPortal respond) root start place fetcher network) :
    fetcher.stateList.length ≤ t.height + 1 := by
  obtain ⟨height, hlevels, -⟩ := hreached.nested hroot t
  have hlength := hlevels.length
  omega

/-- After the nested manifest of the sample tree has arrived, the bound is met. -/
theorem stateList_length_le_sample :
    ∃ fetcher network, Reached (scriptedPortal sampleRespond)
        (sampleManifest [[manifestPointer, dataPointer]]) (.start fun _ ↦ .arrives)
        (.looping (.allocate 3)) fetcher network ∧
      fetcher.stateList.length = sampleTree.height + 1 ∧
      fetcher.stateList.length ≤ sampleTree.height + 1 := by
  let root := sampleManifest [[manifestPointer, dataPointer]]
  let child := sampleManifest [[dataPointer]]
  let fetcher : CCNxFileRepoManifestFetcher :=
    { stateList :=
        [.create child, { FetcherState.create root with digestIterator := some [dataPointer] }]
      locator := ⟨[]⟩
      prevState := none }
  let waiting : CCNxFileRepoManifestFetcher := { fetcher with stateList := fetcher.stateList.tail }
  let sent : ScriptedState := (ScriptedState.start fun _ ↦ .arrives).after [⟨⟨[]⟩, some [2]⟩]
  have hwaiting : Reached (scriptedPortal sampleRespond) root (.start fun _ ↦ .arrives)
      (.waiting [2] (.allocate 3)) waiting (.start fun _ ↦ .arrives) :=
    ((Reached.create rfl).call rfl).fetch rfl
  have hfetched : fetchData (scriptedPortal sampleRespond) waiting [2]
      (.start fun _ ↦ .arrives) = (some (.manifest child), sent) := rfl
  have hreached : Reached (scriptedPortal sampleRespond) root (.start fun _ ↦ .arrives)
      (.looping (.allocate 3)) fetcher sent := hwaiting.resume hfetched rfl
  exact ⟨fetcher, _, hreached, rfl,
    stateList_length_le sampleRespond root _ rfl sampleTree _ _ _ _ hreached⟩

end CCNxFileRepo.CCNxFileRepoManifestFetcher
