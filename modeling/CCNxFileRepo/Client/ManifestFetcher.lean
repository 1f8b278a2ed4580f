import CCNxFileRepo.CCNx.ManifestTree
import CCNxFileRepo.CCNx.Portal
import CCNxFileRepo.Foundations.Fallible

/-!
# The manifest fetcher

The fetcher resolves a manifest depth first.  It keeps a list of half-consumed manifests, the last
of which is read next, and one payload that did not fit into the buffer of an earlier call.
`fillBuffer` requests one pointer after the other and puts the payloads into the caller's buffer.

The loop of `ccnxFileRepoManifestFetcher_FillBuffer` is cut at its blocking call: `nextRequest` is
what it does before a request and `handleResponse` what it does with the answer.
-/

namespace CCNxFileRepo

open Foundations

/-- `struct ccnx_manifest_fetcher_state`: a manifest and the pointers of its current hash group
that are still to be read, once there is an iterator. -/
structure FetcherState where
  root : CCNxManifest
  hashGroupIndex : ℕ
  digestIterator : Option (List CCNxManifestHashGroupPointer)
  deriving DecidableEq, Repr

namespace FetcherState

/-- `_ccnxFileRepoManifestFetcherState_Create`. -/
def create (manifest : CCNxManifest) : FetcherState where
  root := manifest
  hashGroupIndex := 0
  digestIterator := none

/-- The iterator of the state, created from the current hash group when there is none. -/
def iterator (state : FetcherState) : Except Stop (List CCNxManifestHashGroupPointer) :=
  match state.digestIterator with
  | some pointers => .ok pointers
  | none =>
      match state.root.hashGroups[state.hashGroupIndex]? with
      | some group => .ok group.pointers
      | none => .error .noSuchHashGroup

end FetcherState

/-- `struct ccnx_manifest_fetcher`, less its portal, block size and log.  The head of `stateList`
is the last element of the linked list. -/
structure CCNxFileRepoManifestFetcher where
  stateList : List FetcherState
  locator : CCNxName
  prevState : Option Bytes
  deriving DecidableEq, Repr

namespace CCNxFileRepoManifestFetcher

/-- `ccnxFileRepoManifestFetcher_Create`, which looks at the first hash group of the root. -/
def create (root : CCNxManifest) : Except Stop CCNxFileRepoManifestFetcher :=
  match root.hashGroups with
  | [] => .error .noSuchHashGroup
  | _ :: _ => .ok { stateList := [.create root], locator := root.name, prevState := none }

/-- `_ccnxFileRepoManifestFetcher_GetNextPointer`; a `none` digest is `NULL`. -/
def getNextPointer : List FetcherState → Except Stop (Option Bytes × List FetcherState)
  | [] => .ok (none, [])
  | state :: below => do
      match ← state.iterator with
      | pointer :: pointers =>
          return (some pointer.digest, { state with digestIterator := some pointers } :: below)
      | [] => getNextPointer below

/-- `_ccnxFileRepoManifestFetcher_FetchData`. -/
def fetchData {σ : Type} (portal : CCNxPortal σ) (fetcher : CCNxFileRepoManifestFetcher)
    (hashDigest : Bytes) (state : σ) : Option CCNxMetaMessage × σ :=
  let interest : CCNxInterest :=
    { name := fetcher.locator, contentObjectHashRestriction := some hashDigest }
  match portal.send (.interest interest) state with
  | (true, state) => portal.receive state
  | (false, state) => (none, state)

/-- The head of `ccnxFileRepoManifestFetcher_FillBuffer`: put the payload carried over. -/
def putPrevState (fetcher : CCNxFileRepoManifestFetcher) (buffer : PARCBuffer) :
    Except Stop (CCNxFileRepoManifestFetcher × PARCBuffer) :=
  match fetcher.prevState with
  | some payload => do
      let buffer ← buffer.putBuffer payload
      return ({ fetcher with prevState := none }, buffer)
  | none => .ok (fetcher, buffer)

/-- What the loop does next. -/
inductive Request where
  /-- the buffer has no room left -/
  | full
  /-- there is no pointer left -/
  | drained
  | fetch (hashDigest : Bytes)
  deriving DecidableEq, Repr

/-- The loop condition and `GetNextPointer`. -/
def nextRequest (fetcher : CCNxFileRepoManifestFetcher) (buffer : PARCBuffer) :
    Except Stop (Request × CCNxFileRepoManifestFetcher) :=
  if buffer.remaining = 0 then .ok (.full, fetcher)
  else do
    let (hashDigest, stateList) ← getNextPointer fetcher.stateList
    match hashDigest with
    | some hashDigest => return (.fetch hashDigest, { fetcher with stateList := stateList })
    | none => return (.drained, { fetcher with stateList := stateList })

/-- The body of the loop after `FetchData`.  The flag says that the call returns `false` with the
payload kept for later. -/
def handleResponse (fetcher : CCNxFileRepoManifestFetcher) (buffer : PARCBuffer) :
    Option CCNxMetaMessage → Except Stop (Bool × CCNxFileRepoManifestFetcher × PARCBuffer)
  | some (.manifest child) => do
      -- the recursive call starts by putting what is carried over
      let (fetcher, buffer) ←
        putPrevState { fetcher with stateList := .create child :: fetcher.stateList } buffer
      return (false, fetcher, buffer)
  | some (.contentObject contentObject) =>
      if contentObject.payload.length ≤ buffer.remaining then do
        let buffer ← buffer.putBuffer contentObject.payload
        return (false, fetcher, buffer)
      else .ok (true, { fetcher with prevState := some contentObject.payload }, buffer)
  | _ => .ok (false, fetcher, buffer)

/-- What a call of `fillBuffer` returns and leaves behind. -/
structure Filled (σ : Type) where
  done : Bool
  fetcher : CCNxFileRepoManifestFetcher
  buffer : PARCBuffer
  network : σ

/-- The loop of `ccnxFileRepoManifestFetcher_FillBuffer`, with a bound on its rounds. -/
def fillBufferLoop {σ : Type} (portal : CCNxPortal σ) :
    ℕ → CCNxFileRepoManifestFetcher → PARCBuffer → σ → Except Stop (Filled σ)
  | 0, _, _, _ => .error .outOfFuel
  | fuel + 1, fetcher, buffer, network => do
      let (request, fetcher) ← nextRequest fetcher buffer
      match request with
      | .full => return ⟨false, fetcher, buffer, network⟩
      | .drained => return ⟨true, fetcher, buffer, network⟩
      | .fetch hashDigest =>
          let (response, network) := fetchData portal fetcher hashDigest network
          let (suspended, fetcher, buffer) ← handleResponse fetcher buffer response
          if suspended then return ⟨false, fetcher, buffer, network⟩
          else fillBufferLoop portal fuel fetcher buffer network

/-- `ccnxFileRepoManifestFetcher_FillBuffer`. -/
def fillBuffer {σ : Type} (portal : CCNxPortal σ) (fuel : ℕ)
    (fetcher : CCNxFileRepoManifestFetcher) (buffer : PARCBuffer) (network : σ) :
    Except Stop (Filled σ) := do
  let (fetcher, buffer) ← putPrevState fetcher buffer
  fillBufferLoop portal fuel fetcher buffer network

theorem eq_of_create {root : CCNxManifest} {fetcher : CCNxFileRepoManifestFetcher}
    (h : create root = .ok fetcher) :
    fetcher = { stateList := [.create root], locator := root.name, prevState := none } := by
  unfold create at h
  split at h
  · cases h
  · exact (Except.ok.inj h).symm

/-- The head of the loop finds the buffer full or looks for the next pointer. -/
theorem nextRequest_spec {fetcher next : CCNxFileRepoManifestFetcher} {buffer : PARCBuffer}
    {request : Request} (h : nextRequest fetcher buffer = .ok (request, next)) :
    (request = .full ∧ next = fetcher) ∨ ∃ digest below,
      getNextPointer fetcher.stateList = .ok (digest, below) ∧
      next = { fetcher with stateList := below } ∧
      request = match digest with
        | some hashDigest => .fetch hashDigest
        | none => .drained := by
  unfold nextRequest at h
  split at h
  · cases h
    exact Or.inl ⟨rfl, rfl⟩
  · obtain ⟨⟨digest, below⟩, hpointer, h⟩ := Fallible.bind_eq_ok.mp h
    refine Or.inr ⟨digest, below, hpointer, ?_⟩
    cases digest with
    | none =>
        cases h
        exact ⟨rfl, rfl⟩
    | some hashDigest =>
        cases h
        exact ⟨rfl, rfl⟩

/-! ## The bound on the rounds -/

theorem fillBufferLoop_fetch {σ : Type} {portal : CCNxPortal σ} {fuel : ℕ}
    {fetcher popped next : CCNxFileRepoManifestFetcher} {buffer between : PARCBuffer}
    {network sent : σ} {digest : Bytes} {response : Option CCNxMetaMessage} {suspended : Bool}
    (hnext : nextRequest fetcher buffer = .ok (.fetch digest, popped))
    (hfetch : fetchData portal popped digest network = (response, sent))
    (hresponse : handleResponse popped buffer response = .ok (suspended, next, between)) :
    fillBufferLoop portal (fuel + 1) fetcher buffer network =
      if suspended then .ok ⟨false, next, between, sent⟩
      else fillBufferLoop portal fuel next between sent := by
  simp only [fillBufferLoop, hnext, hfetch, hresponse, bind, Except.bind]
  rfl

/-- A loop that comes to an end comes to the same end with more rounds to spare. -/
theorem fillBufferLoop_succ {σ : Type} {portal : CCNxPortal σ} {fuel : ℕ}
    {fetcher : CCNxFileRepoManifestFetcher} {buffer : PARCBuffer} {network : σ} {filled : Filled σ}
    (h : fillBufferLoop portal fuel fetcher buffer network = .ok filled) :
    fillBufferLoop portal (fuel + 1) fetcher buffer network = .ok filled := by
  induction fuel generalizing fetcher buffer network with
  | zero => cases h
  | succ fuel ih =>
      rw [fillBufferLoop] at h ⊢
      obtain ⟨⟨request, popped⟩, hnext, h⟩ := Fallible.bind_eq_ok.mp h
      refine Fallible.bind_eq_ok.mpr ⟨(request, popped), hnext, ?_⟩
      cases request with
      | full => exact h
      | drained => exact h
      | fetch digest =>
          obtain ⟨⟨suspended, next, between⟩, hresponse, h⟩ := Fallible.bind_eq_ok.mp h
          refine Fallible.bind_eq_ok.mpr ⟨(suspended, next, between), hresponse, ?_⟩
          cases suspended with
          | true => exact h
          | false => exact ih h

theorem fillBuffer_mono {σ : Type} {portal : CCNxPortal σ} {fuel more : ℕ} (hle : fuel ≤ more)
    {fetcher : CCNxFileRepoManifestFetcher} {buffer : PARCBuffer} {network : σ} {filled : Filled σ}
    (h : fillBuffer portal fuel fetcher buffer network = .ok filled) :
    fillBuffer portal more fetcher buffer network = .ok filled := by
  unfold fillBuffer at h ⊢
  obtain ⟨put, hput, hloop⟩ := Fallible.bind_eq_ok.mp h
  refine Fallible.bind_eq_ok.mpr ⟨put, hput, ?_⟩
  induction hle with
  | refl => exact hloop
  | step _ ih => exact fillBufferLoop_succ ih

end CCNxFileRepoManifestFetcher

end CCNxFileRepo
