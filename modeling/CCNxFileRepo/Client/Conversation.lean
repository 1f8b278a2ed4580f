import CCNxFileRepo.Client.AnyNetwork
import CCNxFileRepo.Client.LazyTraversal
import CCNxFileRepo.Foundations.Fallible

/-!
# What passes between a client and its network

The client does not look at hashes.  Whatever its network answers, forged objects included, it asks
only for digests that it has read in its root or in a manifest that came before, and only under the
name of the root.  Its file holds the payloads of the content objects that came, each of them once
and in the order in which they came.
-/

namespace CCNxFileRepo

open Foundations

variable {σ : Type}

/-- The payload of an answer that is a content object. -/
def payloadIn : Option CCNxMetaMessage → Option Bytes
  | some (.contentObject object) => some object.payload
  | _ => none

def bytesOf (answers : List (Option CCNxMetaMessage)) : Bytes :=
  (answers.filterMap payloadIn).flatten

theorem bytesOf_append (answers others : List (Option CCNxMetaMessage)) :
    bytesOf (answers ++ others) = bytesOf answers ++ bytesOf others := by
  simp [bytesOf]

/-- The manifests that are known after some answers. -/
def knownAfter (known : List CCNxManifest) (answers : List (Option CCNxMetaMessage)) :
    List CCNxManifest :=
  known ++ answers.filterMap fun answer ↦ answer.bind (·.getManifest)

@[simp]
theorem knownAfter_nil (known : List CCNxManifest) : knownAfter known [] = known := by
  simp [knownAfter]

theorem knownAfter_append (known : List CCNxManifest)
    (answers others : List (Option CCNxMetaMessage)) :
    knownAfter (knownAfter known answers) others = knownAfter known (answers ++ others) := by
  simp [knownAfter]

theorem subset_knownAfter (known : List CCNxManifest)
    (answers : List (Option CCNxMetaMessage)) : known ⊆ knownAfter known answers :=
  List.subset_append_left _ _

/-- Exchanges that take a network from one state to another.  Every interest is for a pointer in
the first hash group of a manifest that is known by then. -/
inductive Conversation (portal : CCNxPortal σ) (locator : CCNxName) :
    List CCNxManifest → σ → List (Option CCNxMetaMessage) → σ → Prop where
  | nil {known : List CCNxManifest} {state : σ} : Conversation portal locator known state [] state
  | ask {known : List CCNxManifest} {manifest : CCNxManifest}
      {pointers : List CCNxManifestHashGroupPointer} {pointer : CCNxManifestHashGroupPointer}
      {state next last : σ} {answer : Option CCNxMetaMessage}
      {answers : List (Option CCNxMetaMessage)} (knows : manifest ∈ known)
      (group : manifest.firstGroup = some pointers) (points : pointer ∈ pointers)
      (exchanged : portal.exchange (pointerInterest locator pointer) state = (answer, next))
      (later : Conversation portal locator (knownAfter known [answer]) next answers last) :
      Conversation portal locator known state (answer :: answers) last

theorem Conversation.append {portal : CCNxPortal σ} {locator : CCNxName}
    {known : List CCNxManifest} {state next last : σ}
    {answers others : List (Option CCNxMetaMessage)}
    (h : Conversation portal locator known state answers next)
    (hlater : Conversation portal locator (knownAfter known answers) next others last) :
    Conversation portal locator known state (answers ++ others) last := by
  induction h with
  | nil => simpa using hlater
  | ask knows group points exchanged _ ih =>
      rw [← List.singleton_append, ← knownAfter_append] at hlater
      exact .ask knows group points exchanged (ih hlater)

namespace CCNxFileRepoManifestFetcher

variable {portal : CCNxPortal σ} {known : List CCNxManifest} {states below : List FetcherState}
  {fetcher next : CCNxFileRepoManifestFetcher} {buffer between : PARCBuffer} {state : σ}
  {filled : Filled σ} {fuel : ℕ}

/-! ## The levels of the stack -/

/-- What the levels of a stack have left to read is in the first groups of known manifests. -/
def Reads (known : List CCNxManifest) (states : List FetcherState) : Prop :=
  ∀ level ∈ states, ∀ left, level.iterator = .ok left →
    ∃ manifest ∈ known, ∃ pointers, manifest.firstGroup = some pointers ∧ left ⊆ pointers

theorem Reads.mono (h : Reads known states) {wider : List CCNxManifest} (hknown : known ⊆ wider) :
    Reads wider states := by
  intro level hlevel left hleft
  obtain ⟨manifest, hmanifest, hpointers⟩ := h level hlevel left hleft
  exact ⟨manifest, hknown hmanifest, hpointers⟩

theorem Reads.create (h : Reads known states) {manifest : CCNxManifest}
    (hmanifest : manifest ∈ known) : Reads known (.create manifest :: states) := by
  refine List.forall_mem_cons.mpr ⟨fun left hleft ↦ ?_, h⟩
  cases hgroup : manifest.hashGroups[0]? with
  | none => simp [FetcherState.iterator, FetcherState.create, hgroup] at hleft
  | some group =>
      refine ⟨manifest, hmanifest, group.pointers, ?_, ?_⟩
      · rw [CCNxManifest.firstGroup, List.head?_eq_getElem?, hgroup]
        rfl
      · simp only [FetcherState.iterator, FetcherState.create, hgroup] at hleft
        cases hleft
        exact List.Subset.refl _

/-- A pointer that the search finds is in the first group of a known manifest. -/
theorem Reads.getNextPointer (h : Reads known states) {digest : Option Bytes}
    (hnext : CCNxFileRepoManifestFetcher.getNextPointer states = .ok (digest, below)) :
    Reads known below ∧ ∀ hashDigest, digest = some hashDigest →
      ∃ manifest ∈ known, ∃ pointers, manifest.firstGroup = some pointers ∧
        ∃ pointer ∈ pointers, pointer.digest = hashDigest := by
  induction states with
  | nil =>
      cases hnext
      exact ⟨h, by simp⟩
  | cons level others ih =>
      rw [CCNxFileRepoManifestFetcher.getNextPointer] at hnext
      obtain ⟨left, hleft, hnext⟩ := Fallible.bind_eq_ok.mp hnext
      have hothers : Reads known others :=
        fun other hother ↦ h other (List.mem_cons_of_mem _ hother)
      cases left with
      | nil => exact ih hothers hnext
      | cons pointer left =>
          cases hnext
          obtain ⟨manifest, hmanifest, pointers, hgroup, hsubset⟩ :=
            h level (List.mem_cons_self ..) _ hleft
          obtain ⟨hpointer, hrest⟩ := List.cons_subset.mp hsubset
          refine ⟨List.forall_mem_cons.mpr ⟨fun same hsame ↦ ?_, hothers⟩, ?_⟩
          · cases hsame
            exact ⟨manifest, hmanifest, pointers, hgroup, hrest⟩
          · rintro hashDigest hdigest
            cases hdigest
            exact ⟨manifest, hmanifest, pointers, hgroup, pointer, hpointer, rfl⟩

theorem Reads.nextRequest (h : Reads known fetcher.stateList) {request : Request}
    (hnext : nextRequest fetcher buffer = .ok (request, next)) :
    next.locator = fetcher.locator ∧ next.prevState = fetcher.prevState ∧
      Reads known next.stateList ∧ ∀ hashDigest, request = .fetch hashDigest →
        ∃ manifest ∈ known, ∃ pointers, manifest.firstGroup = some pointers ∧
          ∃ pointer ∈ pointers, pointer.digest = hashDigest := by
  rcases nextRequest_spec hnext with ⟨rfl, rfl⟩ | ⟨digest, below, hpointer, rfl, rfl⟩
  · exact ⟨rfl, rfl, h, by simp⟩
  · obtain ⟨hbelow, hdigest⟩ := h.getNextPointer hpointer
    refine ⟨rfl, rfl, hbelow, fun hashDigest hrequest ↦ hdigest hashDigest ?_⟩
    cases digest <;> simp_all

/-! ## Calls -/

def heldBytes (fetcher : CCNxFileRepoManifestFetcher) : Bytes := fetcher.prevState.getD []

theorem heldBytes_of_none (h : fetcher.prevState = none) : fetcher.heldBytes = [] := by
  rw [heldBytes, h, Option.getD_none]

/-- A call, or the rest of it from its loop on, that had the answers `answers`. -/
structure Calls (portal : CCNxPortal σ) (known : List CCNxManifest)
    (fetcher : CCNxFileRepoManifestFetcher) (buffer : PARCBuffer) (state : σ)
    (answers : List (Option CCNxMetaMessage)) (filled : Filled σ) : Prop where
  conversation : Conversation portal fetcher.locator known state answers filled.network
  locator_eq : filled.fetcher.locator = fetcher.locator
  reads : Reads (knownAfter known answers) filled.fetcher.stateList
  bytes_eq : filled.buffer.written ++ filled.fetcher.heldBytes =
    buffer.written ++ fetcher.heldBytes ++ bytesOf answers
  capacity_eq : filled.buffer.capacity = buffer.capacity
  drained : filled.done = true → filled.fetcher.prevState = none

/-- What the loop does with an answer. -/
theorem handleResponse_spec (hheld : fetcher.prevState = none) (h : Reads known fetcher.stateList)
    {answer : Option CCNxMetaMessage} {suspended : Bool}
    (hresponse : handleResponse fetcher buffer answer = .ok (suspended, next, between)) :
    next.locator = fetcher.locator ∧ Reads (knownAfter known [answer]) next.stateList ∧
      between.written ++ next.heldBytes = buffer.written ++ fetcher.heldBytes ++ bytesOf [answer] ∧
      between.capacity = buffer.capacity ∧ (suspended = false → next.prevState = none) := by
  have hreads := h.mono (subset_knownAfter known [answer])
  have hnothing := heldBytes_of_none hheld
  cases answer with
  | none =>
      cases hresponse
      exact ⟨rfl, hreads, by simp [bytesOf, payloadIn], rfl, fun _ ↦ hheld⟩
  | some message =>
      cases message with
      | interest _ | interestReturn _ =>
          cases hresponse
          exact ⟨rfl, hreads, by simp [bytesOf, payloadIn], rfl, fun _ ↦ hheld⟩
      | manifest child =>
          rw [handleResponse_manifest fetcher hheld buffer child] at hresponse
          cases hresponse
          refine ⟨rfl, hreads.create ?_, by simp [bytesOf, payloadIn, heldBytes], rfl,
            fun _ ↦ hheld⟩
          simp [knownAfter, CCNxMetaMessage.getManifest]
      | contentObject object =>
          by_cases hfits : object.payload.length ≤ buffer.remaining
          · obtain ⟨put, hput, hwritten, -, hcapacity⟩ := handleResponse_fits fetcher hfits
            rw [hput] at hresponse
            cases hresponse
            refine ⟨rfl, hreads, ?_, hcapacity, fun _ ↦ hheld⟩
            simp [hwritten, hnothing, bytesOf, payloadIn]
          · rw [handleResponse_large fetcher hfits] at hresponse
            cases hresponse
            refine ⟨rfl, hreads, ?_, rfl, by simp⟩
            rw [hnothing, List.append_nil]
            simp [heldBytes, bytesOf, payloadIn]

theorem calls_of_fillBufferLoop (hheld : fetcher.prevState = none)
    (hreads : Reads known fetcher.stateList)
    (h : fillBufferLoop portal fuel fetcher buffer state = .ok filled) :
    ∃ answers, Calls portal known fetcher buffer state answers filled := by
  induction fuel generalizing known fetcher buffer state with
  | zero => cases h
  | succ fuel ih =>
      rw [fillBufferLoop] at h
      obtain ⟨⟨request, popped⟩, hnext, h⟩ := Fallible.bind_eq_ok.mp h
      obtain ⟨hlocator, hprev, hpopped, hpointed⟩ := hreads.nextRequest hnext
      have hsame : popped.heldBytes = fetcher.heldBytes := by rw [heldBytes, hprev]; rfl
      cases request with
      | full =>
          cases h
          exact ⟨[], .nil, hlocator, by simpa using hpopped, by simp [hsame, bytesOf], rfl,
            by simp⟩
      | drained =>
          cases h
          exact ⟨[], .nil, hlocator, by simpa using hpopped, by simp [hsame, bytesOf], rfl,
            fun _ ↦ hprev.trans hheld⟩
      | fetch digest =>
          obtain ⟨manifest, hmanifest, pointers, hgroup, pointer, hpointer, rfl⟩ :=
            hpointed digest rfl
          obtain ⟨answer, sent, hexchange⟩ : ∃ answer sent, portal.exchange
              (pointerInterest fetcher.locator pointer) state = (answer, sent) := ⟨_, _, rfl⟩
          have hfetch : fetchData portal popped pointer.digest state = (answer, sent) := by
            rw [← hexchange, ← hlocator]
            rfl
          simp only [hfetch] at h
          obtain ⟨⟨suspended, handled, between⟩, hresponse, h⟩ := Fallible.bind_eq_ok.mp h
          obtain ⟨hkeeps, hhandled, hbytes, hcapacity, hresumes⟩ :=
            handleResponse_spec (hprev.trans hheld) hpopped hresponse
          rw [hsame] at hbytes
          cases suspended with
          | true =>
              cases h
              exact ⟨[answer], .ask hmanifest hgroup hpointer hexchange .nil,
                hkeeps.trans hlocator, hhandled, hbytes, hcapacity, by simp⟩
          | false =>
              obtain ⟨answers, hcalls⟩ := ih (hresumes rfl) hhandled h
              refine ⟨answer :: answers, ?_, hcalls.locator_eq.trans (hkeeps.trans hlocator),
                ?_, ?_, hcalls.capacity_eq.trans hcapacity, hcalls.drained⟩
              · have hlater := hcalls.conversation
                rw [hkeeps, hlocator] at hlater
                exact .ask hmanifest hgroup hpointer hexchange hlater
              · rw [← List.singleton_append, ← knownAfter_append]
                exact hcalls.reads
              · rw [hcalls.bytes_eq, hbytes, List.append_assoc, ← bytesOf_append]
                rfl

/-- A call starts by putting what is held back. -/
theorem putPrevState_bytes (h : putPrevState fetcher buffer = .ok (next, between)) :
    between.written = buffer.written ++ fetcher.heldBytes ∧ between.capacity = buffer.capacity := by
  unfold heldBytes
  unfold putPrevState at h
  split at h
  · rename_i payload hheld
    obtain ⟨filled, hput, h⟩ := Fallible.bind_eq_ok.mp h
    cases h
    rw [hheld]
    by_cases hfits : payload.length ≤ buffer.remaining
    · obtain ⟨same, hsame, hwritten, -, -, hcapacity⟩ := PARCBuffer.putBuffer_spec hfits
      obtain rfl := Except.ok.inj (hput.symm.trans hsame)
      exact ⟨hwritten, hcapacity⟩
    · rw [(buffer.putBuffer_eq_overflow_iff payload).mpr (by omega)] at hput
      cases hput
  · rename_i hheld
    cases h
    simp [hheld]

theorem calls_of_fillBuffer (hreads : Reads known fetcher.stateList)
    (h : fillBuffer portal fuel fetcher buffer state = .ok filled) :
    ∃ answers, Calls portal known fetcher buffer state answers filled := by
  obtain ⟨⟨next, between⟩, hput, h⟩ := Fallible.bind_eq_ok.mp h
  obtain ⟨hwritten, hcapacity⟩ := putPrevState_bytes hput
  have hnext := putPrevState_eq hput
  obtain ⟨answers, hcalls⟩ := calls_of_fillBufferLoop (by rw [hnext]) (by rwa [hnext]) h
  have hnothing : next.heldBytes = [] := heldBytes_of_none (by rw [hnext])
  have hbytes := hcalls.bytes_eq
  rw [hwritten, hnothing, List.append_nil] at hbytes
  have hlocator : next.locator = fetcher.locator := by rw [hnext]
  exact ⟨answers, hlocator ▸ hcalls.conversation, hcalls.locator_eq.trans hlocator, hcalls.reads,
    hbytes, hcalls.capacity_eq.trans hcapacity, hcalls.drained⟩

end CCNxFileRepoManifestFetcher

namespace CCNxFileRepoClient

open CCNxFileRepoManifestFetcher

variable {portal : CCNxPortal σ} {known : List CCNxManifest} {capacity fuel : ℕ}
  {outFile : CString} {state next final : DownloadState σ}

/-- Rounds that had the answers `answers` and wrote `data`, the rest of which is held back. -/
structure RoundsOf (portal : CCNxPortal σ) (known : List CCNxManifest) (outFile : CString)
    (state next : DownloadState σ) (answers : List (Option CCNxMetaMessage)) (data : Bytes) :
    Prop where
  conversation :
    Conversation portal state.fetcher.locator known state.network answers next.network
  locator_eq : next.fetcher.locator = state.fetcher.locator
  reads : Reads (knownAfter known answers) next.fetcher.stateList
  bytes_eq : data ++ next.fetcher.heldBytes = state.fetcher.heldBytes ++ bytesOf answers
  capacity_eq : next.chunkBuffer.capacity = state.chunkBuffer.capacity
  fileOffset_eq : next.fileOffset = state.fileOffset + data.length
  fs_eq : next.fs = Function.update state.fs outFile (some (.regular
    (Overlay.overlay 0 (state.fs.contentsAt outFile) state.fileOffset data)))

theorem roundsOf_downloadRound (hbuffer : state.chunkBuffer.capacity = capacity)
    (hpath : state.fs outFile ≠ some .directory) (hreads : Reads known state.fetcher.stateList)
    {done : Bool}
    (h : downloadRound portal capacity outFile fuel state .complete = .ok (done, next)) :
    ∃ answers data, RoundsOf portal known outFile state next answers data ∧
      (done = true → next.fetcher.prevState = none) := by
  obtain ⟨reset, hreset, hempty, -, hcapacity⟩ := state.chunkBuffer.setLimit_rewind
  rw [hbuffer] at hreset
  unfold downloadRound at h
  obtain ⟨same, hsame, h⟩ := Fallible.bind_eq_ok.mp h
  obtain rfl := Except.ok.inj (hreset.symm.trans hsame)
  obtain ⟨filled, hfill, h⟩ := Fallible.bind_eq_ok.mp h
  obtain ⟨written, happend, h⟩ := Fallible.bind_eq_ok.mp h
  cases h
  obtain ⟨answers, hcalls⟩ := calls_of_fillBuffer hreads hfill
  rw [PARCBuffer.contents_flip, appendBufferToFile_eq hpath] at happend
  refine ⟨answers, filled.buffer.written, ⟨hcalls.conversation, hcalls.locator_eq, hcalls.reads,
    ?_, hcalls.capacity_eq.trans hcapacity, ?_, (Except.ok.inj happend).symm⟩, hcalls.drained⟩
  · rw [hcalls.bytes_eq, hempty, List.nil_append]
  · rw [PARCBuffer.length_written, ← PARCBuffer.remaining_flip]

/-- A loop that comes to its end has written all that came. -/
theorem roundsOf_downloadLoop (hbuffer : state.chunkBuffer.capacity = capacity)
    (hpath : state.fs outFile ≠ some .directory) (hreads : Reads known state.fetcher.stateList)
    (hoffset : state.fileOffset ≤ (state.fs.contentsAt outFile).length)
    (h : downloadLoop portal capacity outFile fuel state noFailures = .ok final) :
    ∃ answers, RoundsOf portal known outFile state final answers
      (state.fetcher.heldBytes ++ bytesOf answers) := by
  induction fuel generalizing state known with
  | zero => cases h
  | succ fuel ih =>
      rw [downloadLoop] at h
      obtain ⟨⟨done, next⟩, hround, h⟩ := Fallible.bind_eq_ok.mp h
      obtain ⟨answers, data, hfirst, hdrained⟩ := roundsOf_downloadRound hbuffer hpath hreads hround
      cases done with
      | true =>
          cases h
          have hdata := hfirst.bytes_eq
          rw [heldBytes_of_none (hdrained rfl), List.append_nil] at hdata
          exact ⟨answers, hdata ▸ hfirst⟩
      | false =>
          have hcontents : next.fs.contentsAt outFile =
              Overlay.overlay 0 (state.fs.contentsAt outFile) state.fileOffset data := by
            rw [hfirst.fs_eq]
            exact FileSystem.contentsAt_regular (Function.update_self ..)
          obtain ⟨others, hrest⟩ := ih (hfirst.capacity_eq.trans hbuffer)
            (by rw [hfirst.fs_eq]; exact FileSystem.update_regular_ne_directory _ _ _)
            hfirst.reads
            (by rw [hcontents, Overlay.length_overlay 0 hoffset, hfirst.fileOffset_eq]; omega) h
          have hdata : data ++ (next.fetcher.heldBytes ++ bytesOf others) =
              state.fetcher.heldBytes ++ bytesOf (answers ++ others) := by
            rw [← List.append_assoc, hfirst.bytes_eq, List.append_assoc, bytesOf_append]
          refine ⟨answers ++ others, ?_, hrest.locator_eq.trans hfirst.locator_eq, ?_, ?_,
            hrest.capacity_eq.trans hfirst.capacity_eq, ?_, ?_⟩
          · have hlater := hrest.conversation
            rw [hfirst.locator_eq] at hlater
            exact hfirst.conversation.append hlater
          · rw [← knownAfter_append]
            exact hrest.reads
          · have hnothing : final.fetcher.heldBytes = [] := by simpa using hrest.bytes_eq
            rw [hnothing, List.append_nil]
          · rw [hrest.fileOffset_eq, hfirst.fileOffset_eq, ← hdata, Nat.add_assoc,
              ← List.length_append]
          · rw [hrest.fs_eq, hcontents, hfirst.fileOffset_eq, hfirst.fs_eq, Function.update_idem,
              Overlay.overlay_overlay 0 hoffset, hdata]

/-- Over any network at all, a download that comes to its end has asked only for digests that it
had read, under the name of its root.  Its file holds what the content objects brought that came,
each of them once and in the order in which they came, over what was there before. -/
theorem download_writes_received {σ : Type} (portal : CCNxPortal σ) (clientBufferSize fuel : ℕ)
    (root : CCNxManifest) (outFile : CString) (fs : FileSystem)
    (hpath : fs outFile ≠ some .directory) (network : σ) (final : DownloadState σ)
    (h : download portal clientBufferSize outFile fuel root fs network noFailures = .ok final) :
    ∃ answers, Conversation portal root.name [root] network answers final.network ∧
      final.fileOffset = (bytesOf answers).length ∧
      final.fs = Function.update fs outFile (some (.regular
        (Overlay.overlay 0 (fs.contentsAt outFile) 0 (bytesOf answers)))) := by
  obtain ⟨fetcher, hcreate, hloop⟩ := Fallible.bind_eq_ok.mp h
  obtain rfl := eq_of_create hcreate
  have hreads : Reads [root] [FetcherState.create root] :=
    Reads.create (fun _ hlevel ↦ absurd hlevel (List.not_mem_nil)) (List.mem_singleton_self root)
  obtain ⟨answers, hrounds⟩ := roundsOf_downloadLoop (PARCBuffer.capacity_allocate _) hpath hreads
    (Nat.zero_le _) hloop
  refine ⟨answers, hrounds.conversation, ?_, hrounds.fs_eq⟩
  rw [hrounds.fileOffset_eq, Nat.zero_add]
  rfl

/-- A network that answers every interest with an object of its own. -/
def forgingPortal : CCNxPortal ℕ where
  send _ sent := (true, sent + 1)
  receive sent := (some (.contentObject ⟨⟨[]⟩, [sent.toUInt8]⟩), sent)
  isError _ := false

/-- Two pointers are answered by two forged objects. -/
theorem download_writes_received_forged :
    ∃ final, download forgingPortal 3 ['o'] 5
        (sampleManifest [[manifestPointer, dataPointer]]) (fun _ ↦ none) 0 noFailures = .ok final ∧
      final.fileOffset = 2 ∧ ∃ answers,
        Conversation forgingPortal ⟨[]⟩ [sampleManifest [[manifestPointer, dataPointer]]] 0 answers
          final.network ∧
        final.fileOffset = (bytesOf answers).length ∧
        final.fs = Function.update (fun _ ↦ none) ['o'] (some (.regular
          (Overlay.overlay 0 [] 0 (bytesOf answers)))) :=
  ⟨_, rfl, rfl, download_writes_received forgingPortal 3 5
    (sampleManifest [[manifestPointer, dataPointer]]) ['o'] (fun _ ↦ none) (by simp) 0 _ rfl⟩

end CCNxFileRepoClient

end CCNxFileRepo
