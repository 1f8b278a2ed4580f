import CCNxFileRepo.Client.BufferSafety

/-!
# The stack of the fetcher as a list of pointers

Levels of the stack get their iterator when they are first read, and a level that is read to its end
stays until the next call comes past it.  None of this can be seen in the pointers that remain, from
the top of the stack to its bottom: reading takes the first of them and pushing a manifest puts its
pointers in front.  This holds at every place of the code that a run of calls passes through, on any
network that publishes the tree.
-/

namespace CCNxFileRepo

open Foundations

/-- The pointers of a level that are still to be read, which are those of the whole group as long as
there is no iterator. -/
def FetcherState.unread (state : FetcherState) : List CCNxManifestHashGroupPointer :=
  match state.digestIterator with
  | some pointers => pointers
  | none => (state.root.hashGroups[state.hashGroupIndex]?).elim [] (·.pointers)

/-- The pointers of all levels, from the top of the stack to its bottom. -/
def remainingPointers (states : List FetcherState) : List CCNxManifestHashGroupPointer :=
  states.flatMap FetcherState.unread

theorem FetcherState.unread_of_iterator {state : FetcherState}
    {pointers : List CCNxManifestHashGroupPointer} (h : state.iterator = .ok pointers) :
    state.unread = pointers := by
  unfold iterator at h
  cases hiterator : state.digestIterator with
  | some left => simpa [unread, hiterator] using h
  | none =>
      cases hgroup : state.root.hashGroups[state.hashGroupIndex]? with
      | some group => simpa [unread, hiterator, hgroup] using h
      | none => simp [hiterator, hgroup] at h

theorem Pending.remainingPointers_eq {states : List FetcherState}
    {pointers : List CCNxManifestHashGroupPointer} (h : Pending states pointers) :
    remainingPointers states = pointers := by
  induction h with
  | nil => rfl
  | cons reads _ ih =>
      rw [remainingPointers, List.flatMap_cons, FetcherState.unread_of_iterator reads]
      exact congrArg (_ ++ ·) ih

namespace CCNxFileRepoManifestFetcher

/-! ## The places a run passes through -/

/-- Where the code of the fetcher stands. -/
inductive Place where
  /-- between two calls -/
  | idle
  /-- at the loop condition of a call -/
  | looping (buffer : PARCBuffer)
  /-- in a call, with the interest in a digest outstanding -/
  | waiting (hashDigest : Bytes) (buffer : PARCBuffer)

/-- The states that a new fetcher for `root` and its network pass through, over any number of calls
with any buffers. -/
inductive Reached {σ : Type} (portal : CCNxPortal σ) (root : CCNxManifest) (start : σ) :
    Place → CCNxFileRepoManifestFetcher → σ → Prop where
  | create {fetcher : CCNxFileRepoManifestFetcher} (created : create root = .ok fetcher) :
      Reached portal root start .idle fetcher start
  | call {fetcher next : CCNxFileRepoManifestFetcher} {network : σ} {buffer between : PARCBuffer}
      (idle : Reached portal root start .idle fetcher network)
      (put : putPrevState fetcher buffer = .ok (next, between)) :
      Reached portal root start (.looping between) next network
  | leave {fetcher next : CCNxFileRepoManifestFetcher} {network : σ} {buffer : PARCBuffer}
      {request : Request} (looping : Reached portal root start (.looping buffer) fetcher network)
      (asked : nextRequest fetcher buffer = .ok (request, next))
      (ends : request = .full ∨ request = .drained) :
      Reached portal root start .idle next network
  | fetch {fetcher next : CCNxFileRepoManifestFetcher} {network : σ} {buffer : PARCBuffer}
      {hashDigest : Bytes} (looping : Reached portal root start (.looping buffer) fetcher network)
      (asked : nextRequest fetcher buffer = .ok (.fetch hashDigest, next)) :
      Reached portal root start (.waiting hashDigest buffer) next network
  | resume {fetcher next : CCNxFileRepoManifestFetcher} {network sent : σ}
      {buffer between : PARCBuffer} {hashDigest : Bytes} {response : Option CCNxMetaMessage}
      (waiting : Reached portal root start (.waiting hashDigest buffer) fetcher network)
      (fetched : fetchData portal fetcher hashDigest network = (response, sent))
      (handled : handleResponse fetcher buffer response = .ok (false, next, between)) :
      Reached portal root start (.looping between) next sent
  | suspend {fetcher next : CCNxFileRepoManifestFetcher} {network sent : σ}
      {buffer between : PARCBuffer} {hashDigest : Bytes} {response : Option CCNxMetaMessage}
      (waiting : Reached portal root start (.waiting hashDigest buffer) fetcher network)
      (fetched : fetchData portal fetcher hashDigest network = (response, sent))
      (handled : handleResponse fetcher buffer response = .ok (true, next, between)) :
      Reached portal root start .idle next sent

section Runs

variable {σ : Type} {portal : CCNxPortal σ} {root : CCNxManifest} {start network : σ}
  {fetcher : CCNxFileRepoManifestFetcher} {buffer : PARCBuffer} {fuel : ℕ}

theorem Reached.fillBufferLoop {filled : Filled σ}
    (h : Reached portal root start (.looping buffer) fetcher network)
    (hloop : fillBufferLoop portal fuel fetcher buffer network = .ok filled) :
    Reached portal root start .idle filled.fetcher filled.network := by
  induction fuel generalizing fetcher buffer network with
  | zero => cases hloop
  | succ fuel ih =>
      rw [CCNxFileRepoManifestFetcher.fillBufferLoop] at hloop
      obtain ⟨⟨request, popped⟩, hnext, hloop⟩ := Fallible.bind_eq_ok.mp hloop
      cases request with
      | full =>
          cases hloop
          exact h.leave hnext (Or.inl rfl)
      | drained =>
          cases hloop
          exact h.leave hnext (Or.inr rfl)
      | fetch hashDigest =>
          obtain ⟨⟨suspended, next, between⟩, hresponse, hloop⟩ := Fallible.bind_eq_ok.mp hloop
          cases suspended with
          | true =>
              cases hloop
              exact (h.fetch hnext).suspend rfl hresponse
          | false => exact ih ((h.fetch hnext).resume rfl hresponse) hloop

theorem Reached.fillBuffer {filled : Filled σ} (h : Reached portal root start .idle fetcher network)
    (hcall : fillBuffer portal fuel fetcher buffer network = .ok filled) :
    Reached portal root start .idle filled.fetcher filled.network := by
  obtain ⟨⟨next, between⟩, hput, hloop⟩ := Fallible.bind_eq_ok.mp hcall
  exact (h.call hput).fillBufferLoop hloop

theorem Reached.fillBuffers {buffers : List PARCBuffer} {calls : List (Call σ)}
    (h : Reached portal root start .idle fetcher network)
    (hcalls : fillBuffers portal fuel fetcher network buffers = .ok calls) :
    ∀ call ∈ calls, Reached portal root start .idle call.filled.fetcher call.filled.network := by
  induction buffers generalizing fetcher network calls with
  | nil =>
      cases hcalls
      simp
  | cons buffer buffers ih =>
      obtain ⟨filled, hcall, hcalls⟩ := Fallible.bind_eq_ok.mp hcalls
      obtain ⟨later, hlater, hcalls⟩ := Fallible.bind_eq_ok.mp hcalls
      cases hcalls
      have hfilled := h.fillBuffer hcall
      exact List.forall_mem_cons.mpr ⟨hfilled, ih hfilled hlater⟩

end Runs

/-! ## What holds at every place -/

section Invariant

variable {respond : CCNxInterest → Option CCNxMetaMessage} {locator : CCNxName} {place : Place}
  {fetcher next : CCNxFileRepoManifestFetcher} {buffer between : PARCBuffer}
  {network : ScriptedState} {hashDigest : Bytes} {pointers : List CCNxManifestHashGroupPointer}

/-- The stack stands for pointers that lead to finitely many objects, and so does the pointer that
was taken last. -/
structure StackInvariant (respond : CCNxInterest → Option CCNxMetaMessage) (locator : CCNxName)
    (place : Place) (fetcher : CCNxFileRepoManifestFetcher) : Prop where
  locator_eq : fetcher.locator = locator
  upcoming : ∃ pointers, Pending fetcher.stateList pointers ∧
    Nonempty (ManifestTree (resolver respond locator) pointers)
  nothingHeld : place ≠ .idle → fetcher.prevState = none
  requested : ∀ hashDigest buffer, place = .waiting hashDigest buffer →
    ∃ pointer : CCNxManifestHashGroupPointer, pointer.digest = hashDigest ∧
      Nonempty (ManifestTree (resolver respond locator) [pointer])

theorem StackInvariant.create {root : CCNxManifest} (hroot : root.onlyGroup = some pointers)
    (t : ManifestTree (resolver respond root.name) pointers)
    (hcreate : CCNxFileRepoManifestFetcher.create root = .ok fetcher) :
    StackInvariant respond root.name .idle fetcher := by
  have hpending := Pending.root (CCNxManifest.firstGroup_of_onlyGroup hroot)
  rw [eq_of_create hcreate]
  exact ⟨rfl, ⟨pointers, hpending, ⟨t⟩⟩, fun _ ↦ rfl, by simp⟩

theorem putPrevState_eq (h : putPrevState fetcher buffer = .ok (next, between)) :
    next = { fetcher with prevState := none } := by
  unfold putPrevState at h
  split at h
  · obtain ⟨filled, -, h⟩ := Fallible.bind_eq_ok.mp h
    cases h
    rfl
  · rename_i hheld
    cases h
    rw [← hheld]

theorem StackInvariant.call (h : StackInvariant respond locator .idle fetcher)
    (hput : putPrevState fetcher buffer = .ok (next, between)) :
    StackInvariant respond locator (.looping between) next := by
  rw [putPrevState_eq hput]
  exact ⟨h.locator_eq, h.upcoming, fun _ ↦ rfl, by simp⟩

/-- What the head of the loop does to a stack that stands for `pointers`. -/
theorem nextRequest_cases (h : Pending fetcher.stateList pointers) {request : Request}
    (hnext : nextRequest fetcher buffer = .ok (request, next)) :
    (request = .full ∧ next = fetcher) ∨
      ∃ below, next = { fetcher with stateList := below } ∧ Pending below pointers.tail ∧
        request = match pointers.head? with
          | some pointer => .fetch pointer.digest
          | none => .drained := by
  rcases Nat.eq_zero_or_pos buffer.remaining with hroom | hroom
  · left
    simp only [nextRequest, hroom, if_true] at hnext
    cases hnext
    exact ⟨rfl, rfl⟩
  · right
    obtain ⟨below, hbelow, heq⟩ := nextRequest_eq hroom h
    rw [heq] at hnext
    cases hnext
    exact ⟨below, rfl, hbelow, rfl⟩

theorem StackInvariant.leave (h : StackInvariant respond locator (.looping buffer) fetcher)
    {request : Request} (hnext : nextRequest fetcher buffer = .ok (request, next))
    (hends : request = .full ∨ request = .drained) :
    StackInvariant respond locator .idle next := by
  obtain ⟨pointers, hpending, ⟨t⟩⟩ := h.upcoming
  rcases nextRequest_cases hpending hnext with ⟨-, rfl⟩ | ⟨below, rfl, hbelow, hrequest⟩
  · exact ⟨h.locator_eq, h.upcoming, by simp, by simp⟩
  · cases pointers with
    | nil => exact ⟨h.locator_eq, ⟨[], hbelow, ⟨t⟩⟩, by simp, by simp⟩
    | cons pointer pointers =>
        subst hrequest
        simp at hends

theorem StackInvariant.fetch (h : StackInvariant respond locator (.looping buffer) fetcher)
    (hnext : nextRequest fetcher buffer = .ok (.fetch hashDigest, next)) :
    StackInvariant respond locator (.waiting hashDigest buffer) next := by
  obtain ⟨pointers, hpending, ⟨t⟩⟩ := h.upcoming
  rcases nextRequest_cases hpending hnext with ⟨hfull, -⟩ | ⟨below, rfl, hbelow, hrequest⟩
  · cases hfull
  · cases pointers with
    | nil => cases hrequest
    | cons pointer pointers =>
        obtain rfl : hashDigest = pointer.digest := Request.fetch.inj hrequest
        refine ⟨h.locator_eq, ⟨pointers, hbelow, ⟨t.tail⟩⟩, fun _ ↦ h.nothingHeld (by simp), ?_⟩
        rintro digest other heq
        cases heq
        exact ⟨pointer, rfl, ⟨t.head⟩⟩

/-- What the loop does with an answer when nothing is held back. -/
theorem handleResponse_cases (hheld : fetcher.prevState = none)
    {response : Option CCNxMetaMessage} {suspended : Bool}
    (h : handleResponse fetcher buffer response = .ok (suspended, next, between)) :
    (∃ child, response = some (.manifest child) ∧ suspended = false ∧ between = buffer ∧
      next = { fetcher with stateList := .create child :: fetcher.stateList }) ∨
    ((∀ child, response ≠ some (.manifest child)) ∧ next.stateList = fetcher.stateList ∧
      next.locator = fetcher.locator ∧ (suspended = false → next.prevState = none)) := by
  cases response with
  | none =>
      cases h
      exact Or.inr ⟨by simp, rfl, rfl, fun _ ↦ hheld⟩
  | some message =>
      cases message with
      | interest _ | interestReturn _ =>
          cases h
          exact Or.inr ⟨by simp, rfl, rfl, fun _ ↦ hheld⟩
      | manifest child =>
          rw [handleResponse_manifest fetcher hheld buffer child] at h
          cases h
          exact Or.inl ⟨child, rfl, rfl, rfl, rfl⟩
      | contentObject object =>
          right
          by_cases hfits : object.payload.length ≤ buffer.remaining
          · obtain ⟨filled, hresponse, -⟩ := handleResponse_fits fetcher hfits
            rw [hresponse] at h
            cases h
            exact ⟨by simp, rfl, rfl, fun _ ↦ hheld⟩
          · rw [handleResponse_large fetcher hfits] at h
            cases h
            exact ⟨by simp, rfl, rfl, by simp⟩

theorem respond_of_answer {interest : CCNxInterest} {child : CCNxManifest}
    (h : answer respond network interest = some (.manifest child)) :
    respond interest = some (.manifest child) := by
  unfold answer at h
  cases houtcome : network.outcomes 0 with
  | arrives => simpa [houtcome] using h
  | sendFails => simp [houtcome] at h
  | receivesNull => simp [houtcome] at h
  | answeredBy message =>
      have hmessage : message.val = .manifest child := by simpa [houtcome] using h
      have hkind := message.property.1
      rw [hmessage] at hkind
      cases hkind

/-- A manifest that arrives is the one that was asked for, so its pointers lead to finitely many
objects too. -/
theorem StackInvariant.exists_children
    (h : StackInvariant respond locator (.waiting hashDigest buffer) fetcher) {child : CCNxManifest}
    {sent : ScriptedState} (hfetch : fetchData (scriptedPortal respond) fetcher hashDigest network =
      (some (.manifest child), sent)) :
    ∃ children, child.onlyGroup = some children ∧
      Nonempty (ManifestTree (resolver respond locator) children) := by
  obtain ⟨pointer, rfl, ⟨t⟩⟩ := h.requested hashDigest buffer rfl
  rw [fetchData_scripted, h.locator_eq] at hfetch
  have hchild : resolver respond locator pointer.digest = some (.manifest child) :=
    respond_of_answer (congrArg Prod.fst hfetch)
  cases t with
  | leaf value resolves _ =>
      obtain ⟨object, hobject, -⟩ := expandWith_leaf resolves
      rw [hchild] at hobject
      cases hobject
  | node children resolves below _ =>
      obtain ⟨manifest, hmanifest, hchildren⟩ := expandWith_node resolves
      rw [hchild] at hmanifest
      cases hmanifest
      exact ⟨children, hchildren, ⟨below⟩⟩

theorem StackInvariant.receive
    (h : StackInvariant respond locator (.waiting hashDigest buffer) fetcher)
    {response : Option CCNxMetaMessage} {sent : ScriptedState} {suspended : Bool}
    (hfetch : fetchData (scriptedPortal respond) fetcher hashDigest network = (response, sent))
    (hresponse : handleResponse fetcher buffer response = .ok (suspended, next, between)) :
    StackInvariant respond locator (if suspended then .idle else .looping between) next := by
  obtain ⟨pointers, hpending, ⟨t⟩⟩ := h.upcoming
  rcases handleResponse_cases (h.nothingHeld (by simp)) hresponse with
    ⟨child, rfl, rfl, rfl, rfl⟩ | ⟨-, hstack, hlocator, hheld⟩
  · obtain ⟨children, hchildren, ⟨below⟩⟩ := h.exists_children hfetch
    have hpushed := hpending.create (CCNxManifest.firstGroup_of_onlyGroup hchildren)
    exact ⟨h.locator_eq, ⟨_, hpushed, ⟨below.append t⟩⟩, fun _ ↦ h.nothingHeld (by simp), by simp⟩
  · refine ⟨hlocator.trans h.locator_eq, ⟨pointers, hstack ▸ hpending, ⟨t⟩⟩, ?_, ?_⟩
    · cases suspended with
      | true => simp
      | false => exact fun _ ↦ hheld rfl
    · cases suspended <;> simp

/-- The invariant holds in every state of a run. -/
theorem Reached.stackInvariant {root : CCNxManifest} {start : ScriptedState}
    (hroot : root.onlyGroup = some pointers)
    (t : ManifestTree (resolver respond root.name) pointers)
    (h : Reached (scriptedPortal respond) root start place fetcher network) :
    StackInvariant respond root.name place fetcher := by
  induction h with
  | create created => exact .create hroot t created
  | call _ put ih => exact ih.call put
  | leave _ asked ends ih => exact ih.leave asked ends
  | fetch _ asked ih => exact ih.fetch asked
  | resume _ fetched handled ih => exact ih.receive fetched handled
  | suspend _ fetched handled ih => exact ih.receive fetched handled

end Invariant

/-! ## The stack as a list of pointers -/

/-- `getNextPointer` gives up only when it has dropped every level. -/
theorem eq_nil_of_getNextPointer {states below : List FetcherState}
    (h : getNextPointer states = .ok (none, below)) : below = [] := by
  induction states with
  | nil =>
      cases h
      rfl
  | cons state states ih =>
      rw [getNextPointer] at h
      obtain ⟨pointers, -, h⟩ := Fallible.bind_eq_ok.mp h
      cases pointers with
      | nil => exact ih h
      | cons pointer pointers => cases h

/-- On any network that publishes a finite tree of one-group manifests, in every state that a run of
calls passes through: `getNextPointer` takes the first of the remaining pointers and leaves the
others, it returns `NULL` with an empty stack if and only if none remain, and a manifest that
arrives has its pointers put in front of them, with nothing else changed. -/
theorem remainingPointers_lazyPreorder (respond : CCNxInterest → Option CCNxMetaMessage)
    (root : CCNxManifest) (pointers : List CCNxManifestHashGroupPointer)
    (hroot : root.onlyGroup = some pointers)
    (t : ManifestTree (resolver respond root.name) pointers) (start network : ScriptedState)
    (place : Place) (fetcher : CCNxFileRepoManifestFetcher)
    (hreached : Reached (scriptedPortal respond) root start place fetcher network) :
    (∀ pointer rest, remainingPointers fetcher.stateList = pointer :: rest →
      ∃ below, getNextPointer fetcher.stateList = .ok (some pointer.digest, below) ∧
        remainingPointers below = rest) ∧
    (getNextPointer fetcher.stateList = .ok (none, []) ↔
      remainingPointers fetcher.stateList = []) ∧
    ∀ hashDigest buffer, place = .waiting hashDigest buffer → ∀ child sent,
      fetchData (scriptedPortal respond) fetcher hashDigest network =
        (some (.manifest child), sent) →
      ∃ children, child.onlyGroup = some children ∧
        handleResponse fetcher buffer (some (.manifest child)) =
          .ok (false, { fetcher with stateList := .create child :: fetcher.stateList }, buffer) ∧
        remainingPointers (.create child :: fetcher.stateList) =
          children ++ remainingPointers fetcher.stateList := by
  have hinvariant := hreached.stackInvariant hroot t
  obtain ⟨pending, hpending, -⟩ := hinvariant.upcoming
  obtain ⟨below, hnext, hbelow⟩ := hpending.getNextPointer
  rw [hpending.remainingPointers_eq]
  refine ⟨?_, ?_, ?_⟩
  · rintro pointer rest rfl
    exact ⟨below, hnext, hbelow.remainingPointers_eq⟩
  · constructor
    · intro hnull
      rw [hnext] at hnull
      cases pending with
      | nil => rfl
      | cons pointer pending => cases hnull
    · rintro rfl
      obtain rfl := eq_nil_of_getNextPointer hnext
      exact hnext
  · rintro hashDigest buffer rfl child sent hfetch
    obtain ⟨children, hchildren, -⟩ := hinvariant.exists_children hfetch
    refine ⟨children, hchildren, handleResponse_manifest fetcher (hinvariant.nothingHeld (by simp))
      buffer child, ?_⟩
    exact (hpending.create
      (CCNxManifest.firstGroup_of_onlyGroup hchildren)).remainingPointers_eq

/-- The state with the interest in the nested manifest of the sample tree outstanding. -/
theorem remainingPointers_lazyPreorder_sample :
    ∃ fetcher, Reached (scriptedPortal sampleRespond)
        (sampleManifest [[manifestPointer, dataPointer]]) (.start fun _ ↦ .arrives)
        (.waiting [2] (.allocate 3)) fetcher (.start fun _ ↦ .arrives) ∧
      remainingPointers fetcher.stateList = [dataPointer] ∧
      (∃ below, getNextPointer fetcher.stateList = .ok (some dataPointer.digest, below) ∧
        remainingPointers below = []) ∧
      handleResponse fetcher (.allocate 3) (some (.manifest (sampleManifest [[dataPointer]]))) =
        .ok (false, { fetcher with
          stateList := .create (sampleManifest [[dataPointer]]) :: fetcher.stateList },
          .allocate 3) ∧
      remainingPointers (.create (sampleManifest [[dataPointer]]) :: fetcher.stateList) =
        [dataPointer, dataPointer] := by
  let root := sampleManifest [[manifestPointer, dataPointer]]
  let fetcher : CCNxFileRepoManifestFetcher :=
    { stateList := [{ FetcherState.create root with digestIterator := some [dataPointer] }]
      locator := ⟨[]⟩
      prevState := none }
  have hreached : Reached (scriptedPortal sampleRespond) root (.start fun _ ↦ .arrives)
      (.waiting [2] (.allocate 3)) fetcher (.start fun _ ↦ .arrives) :=
    ((Reached.create rfl).call rfl).fetch rfl
  obtain ⟨hfirst, -, hpush⟩ := remainingPointers_lazyPreorder sampleRespond root _ rfl sampleTree
    _ _ _ _ hreached
  obtain ⟨children, hchildren, hhandled, hpushed⟩ := hpush [2] (.allocate 3) rfl _ _ rfl
  obtain rfl : [dataPointer] = children := Option.some.inj hchildren
  exact ⟨fetcher, hreached, rfl, hfirst dataPointer [] rfl, hhandled, hpushed⟩

end CCNxFileRepoManifestFetcher

end CCNxFileRepo
