import CCNxFileRepo.Client.ManifestFetcher
import CCNxFileRepo.Foundations.Refill

/-!
# The fetcher as a refill

The stack of half-consumed manifests stands for a list of pointers, and a finite unfolding of these
pointers for the queue of requests still to come.  Every round of the loop takes the first request
off this queue, so a call of `fillBuffer` on a scripted network is a refill from it.
-/

namespace CCNxFileRepo

open Foundations

/-- The pointers that a stack of fetcher states still has to read, next one first. -/
inductive Pending : List FetcherState → List CCNxManifestHashGroupPointer → Prop where
  | nil : Pending [] []
  | cons {state : FetcherState} {below : List FetcherState}
      {pointers rest : List CCNxManifestHashGroupPointer}
      (reads : state.iterator = .ok pointers) (others : Pending below rest) :
      Pending (state :: below) (pointers ++ rest)

theorem FetcherState.iterator_create {manifest : CCNxManifest}
    {pointers : List CCNxManifestHashGroupPointer} (h : manifest.firstGroup = some pointers) :
    (FetcherState.create manifest).iterator = .ok pointers := by
  obtain ⟨group, hgroup, rfl⟩ := Option.map_eq_some_iff.mp h
  have hindex : manifest.hashGroups[0]? = some group := by rw [← List.head?_eq_getElem?, hgroup]
  simp [FetcherState.iterator, FetcherState.create, hindex]

theorem Pending.create {states : List FetcherState} {manifest : CCNxManifest}
    {children pointers : List CCNxManifestHashGroupPointer}
    (hchildren : manifest.firstGroup = some children) (h : Pending states pointers) :
    Pending (.create manifest :: states) (children ++ pointers) :=
  .cons (FetcherState.iterator_create hchildren) h

theorem Pending.root {manifest : CCNxManifest} {pointers : List CCNxManifestHashGroupPointer}
    (h : manifest.firstGroup = some pointers) : Pending [.create manifest] pointers := by
  have hpending := Pending.create h .nil
  rwa [List.append_nil] at hpending

/-- `getNextPointer` takes the next pending pointer, through any number of finished manifests. -/
theorem Pending.getNextPointer {states : List FetcherState}
    {pointers : List CCNxManifestHashGroupPointer} (h : Pending states pointers) :
    ∃ below, CCNxFileRepoManifestFetcher.getNextPointer states =
        .ok (pointers.head?.map (·.digest), below) ∧ Pending below pointers.tail := by
  induction h with
  | nil => exact ⟨[], rfl, .nil⟩
  | @cons state below pointers rest reads others ih =>
      rw [CCNxFileRepoManifestFetcher.getNextPointer, reads]
      cases pointers with
      | nil => exact ih
      | cons pointer pointers => exact ⟨_, rfl, .cons rfl others⟩

/-- The objects a network finds for requests under a name. -/
def resolver (respond : CCNxInterest → Option CCNxMetaMessage) (locator : CCNxName) : Resolver :=
  fun digest ↦ respond { name := locator, contentObjectHashRestriction := some digest }

/-- The interest that asks for the object of a pointer. -/
def pointerInterest (locator : CCNxName) (pointer : CCNxManifestHashGroupPointer) : CCNxInterest :=
  { name := locator, contentObjectHashRestriction := some pointer.digest }

abbrev PointerVisit := Visit CCNxManifestHashGroupPointer Bytes

namespace CCNxFileRepoManifestFetcher

variable {respond : CCNxInterest → Option CCNxMetaMessage}

/-- The fetcher asks under `locator`, holds the payload `held` back, and `queue` is what it will
ask the network for and what will come of it. -/
structure Tracks (respond : CCNxInterest → Option CCNxMetaMessage) (locator : CCNxName)
    (fetcher : CCNxFileRepoManifestFetcher) (network : ScriptedState) (held : Option Bytes)
    (queue : List PointerVisit) : Prop where
  locator_eq : fetcher.locator = locator
  held_eq : fetcher.prevState = held
  upcoming : ∃ pointers, Pending fetcher.stateList pointers ∧
    ∃ t : FirstGroupTree (resolver respond locator) pointers, t.visits network.schedule = queue

/-- Only the outcomes to come matter of a network. -/
theorem Tracks.of_schedule_eq {locator : CCNxName} {fetcher : CCNxFileRepoManifestFetcher}
    {network other : ScriptedState} {held : Option Bytes} {queue : List PointerVisit}
    (h : Tracks respond locator fetcher network held queue)
    (hschedule : other.schedule = network.schedule) :
    Tracks respond locator fetcher other held queue where
  locator_eq := h.locator_eq
  held_eq := h.held_eq
  upcoming := by
    rw [hschedule]
    exact h.upcoming

def answer (respond : CCNxInterest → Option CCNxMetaMessage) (network : ScriptedState)
    (interest : CCNxInterest) : Option CCNxMetaMessage :=
  match network.outcomes 0 with
  | .arrives => respond interest
  | .sendFails => none
  | .receivesNull => none
  | .answeredBy message => some message.val

variable (respond) in
theorem fetchData_scripted (fetcher : CCNxFileRepoManifestFetcher)
    (pointer : CCNxManifestHashGroupPointer) (network : ScriptedState) :
    fetchData (scriptedPortal respond) fetcher pointer.digest network =
      (answer respond network (pointerInterest fetcher.locator pointer),
        network.after [pointerInterest fetcher.locator pointer]) := by
  cases houtcome : network.outcomes 0 <;>
    simp [fetchData, scriptedPortal, answer, houtcome, pointerInterest, ScriptedState.after]

theorem answer_of_arrival {network : ScriptedState} (h : network.schedule 0 = true)
    (interest : CCNxInterest) : answer respond network interest = respond interest := by
  unfold answer
  unfold ScriptedState.schedule at h
  cases houtcome : network.outcomes 0 <;> simp_all [FetchOutcome.isArrival]

/-- The loop does nothing with an answer that is no manifest and no content object. -/
theorem handleResponse_of_failure {network : ScriptedState} (h : network.schedule 0 = false)
    (interest : CCNxInterest) (fetcher : CCNxFileRepoManifestFetcher) (buffer : PARCBuffer) :
    handleResponse fetcher buffer (answer respond network interest) =
      .ok (false, fetcher, buffer) := by
  unfold answer
  unfold ScriptedState.schedule at h
  cases houtcome : network.outcomes 0 with
  | arrives => simp [houtcome, FetchOutcome.isArrival] at h
  | sendFails => rfl
  | receivesNull => rfl
  | answeredBy message =>
      obtain ⟨message, hmanifest, hobject⟩ := message
      cases message with
      | interest _ => rfl
      | interestReturn _ => rfl
      | contentObject _ => cases hobject
      | manifest _ => cases hmanifest

theorem handleResponse_manifest (fetcher : CCNxFileRepoManifestFetcher)
    (h : fetcher.prevState = none) (buffer : PARCBuffer) (child : CCNxManifest) :
    handleResponse fetcher buffer (some (.manifest child)) =
      .ok (false, { fetcher with stateList := .create child :: fetcher.stateList }, buffer) := by
  simp only [handleResponse, putPrevState, h]
  rfl

/-- A payload that fits is put, and the loop goes on. -/
theorem handleResponse_fits (fetcher : CCNxFileRepoManifestFetcher) {buffer : PARCBuffer}
    {object : CCNxContentObject} (hfits : object.payload.length ≤ buffer.remaining) :
    ∃ between, handleResponse fetcher buffer (some (.contentObject object)) =
        .ok (false, fetcher, between) ∧
      between.written = buffer.written ++ object.payload ∧
      between.remaining = buffer.remaining - object.payload.length ∧
      between.capacity = buffer.capacity := by
  obtain ⟨between, hput, hwritten, hremaining, -, hcapacity⟩ := PARCBuffer.putBuffer_spec hfits
  refine ⟨between, ?_, hwritten, hremaining, hcapacity⟩
  simp only [handleResponse, hfits, if_true, hput]
  rfl

/-- Any other payload is kept for later. -/
theorem handleResponse_large (fetcher : CCNxFileRepoManifestFetcher) {buffer : PARCBuffer}
    {object : CCNxContentObject} (hlarge : ¬ object.payload.length ≤ buffer.remaining) :
    handleResponse fetcher buffer (some (.contentObject object)) =
      .ok (true, { fetcher with prevState := some object.payload }, buffer) := by
  simp only [handleResponse, hlarge, if_false]

theorem schedule_after (network : ScriptedState) (interest : CCNxInterest) :
    (network.after [interest]).schedule = Unfolding.later network.schedule 1 := rfl

section Rounds

variable {locator : CCNxName} {fetcher : CCNxFileRepoManifestFetcher} {network : ScriptedState}
  {held : Option Bytes} {queue : List PointerVisit} {visit : PointerVisit} {buffer : PARCBuffer}

theorem nextRequest_eq (hroom : 0 < buffer.remaining)
    {pointers : List CCNxManifestHashGroupPointer} (h : Pending fetcher.stateList pointers) :
    ∃ below, Pending below pointers.tail ∧ nextRequest fetcher buffer =
      .ok (match pointers.head? with
        | some pointer => .fetch pointer.digest
        | none => .drained, { fetcher with stateList := below }) := by
  obtain ⟨below, hnext, hbelow⟩ := h.getNextPointer
  refine ⟨below, hbelow, ?_⟩
  simp only [nextRequest, hroom.ne', if_false, hnext]
  cases pointers <;> rfl

/-- With an empty queue the loop finds no pointer. -/
theorem Tracks.drained (h : Tracks respond locator fetcher network held [])
    (hroom : 0 < buffer.remaining) :
    ∃ next, nextRequest fetcher buffer = .ok (.drained, next) ∧
      Tracks respond locator next network held [] := by
  obtain ⟨pointers, hpending, t, ht⟩ := h.upcoming
  cases t with
  | nil =>
      obtain ⟨below, hbelow, hnext⟩ := nextRequest_eq hroom hpending
      exact ⟨_, hnext, h.locator_eq, h.held_eq, [], hbelow, .nil, rfl⟩
  | leaf value resolves rest => simp [Unfolding.visits] at ht
  | node children resolves below rest =>
      simp only [Unfolding.visits] at ht
      split at ht <;> cases ht

/-- With a queue that is not empty the loop asks for its first item.  A manifest goes on the
stack, a payload is left to the caller, and after any other answer nothing is left of the item. -/
theorem Tracks.round (h : Tracks respond locator fetcher network none (visit :: queue))
    (hroom : 0 < buffer.remaining) :
    ∃ popped, nextRequest fetcher buffer = .ok (.fetch visit.item.digest, popped) ∧
      popped.locator = locator ∧
      match visit.delivered with
      | none => ∃ next, handleResponse popped buffer
            (answer respond network (pointerInterest locator visit.item)) =
              .ok (false, next, buffer) ∧
          Tracks respond locator next (network.after [pointerInterest locator visit.item]) none
            queue
      | some payload => ∃ object : CCNxContentObject, object.payload = payload ∧
          answer respond network (pointerInterest locator visit.item) =
            some (.contentObject object) ∧
          Tracks respond locator popped (network.after [pointerInterest locator visit.item]) none
            queue := by
  obtain ⟨pointers, hpending, t, ht⟩ := h.upcoming
  cases t with
  | nil => cases ht
  | @leaf pointer pointers value resolves rest =>
      obtain ⟨below, hbelow, hnext⟩ := nextRequest_eq hroom hpending
      obtain ⟨object, hobject, hpayload⟩ := expandWith_leaf resolves
      obtain ⟨rfl, rfl⟩ := List.cons.inj ht
      cases hschedule : network.schedule 0 with
      | true =>
          refine ⟨_, hnext, h.locator_eq, object, hpayload, ?_, h.locator_eq, h.held_eq, _, hbelow,
            rest, rfl⟩
          rw [answer_of_arrival hschedule]
          exact hobject
      | false =>
          exact ⟨_, hnext, h.locator_eq, _, handleResponse_of_failure hschedule _ _ _,
            h.locator_eq, h.held_eq, _, hbelow, rest, rfl⟩
  | @node pointer pointers children resolves subtree rest =>
      obtain ⟨below, hbelow, hnext⟩ := nextRequest_eq hroom hpending
      obtain ⟨manifest, hmanifest, hchildren⟩ := expandWith_node resolves
      cases hschedule : network.schedule 0 with
      | true =>
          simp only [Unfolding.visits, hschedule, if_true] at ht
          obtain ⟨rfl, rfl⟩ := List.cons.inj ht
          have hrespond : respond (pointerInterest locator pointer) =
              some (.manifest manifest) := hmanifest
          refine ⟨_, hnext, h.locator_eq, { fetcher with stateList := .create manifest :: below },
            ?_, h.locator_eq, h.held_eq, children ++ pointers, hbelow.create hchildren,
            subtree.append rest, ?_⟩
          · rw [answer_of_arrival hschedule, Visit.item, hrespond]
            exact handleResponse_manifest { fetcher with stateList := below } h.held_eq buffer
              manifest
          · rw [Unfolding.visits_append, schedule_after, Unfolding.later_later]
      | false =>
          simp only [Unfolding.visits, hschedule, Bool.false_eq_true, if_false] at ht
          obtain ⟨rfl, rfl⟩ := List.cons.inj ht
          exact ⟨_, hnext, h.locator_eq, _, handleResponse_of_failure hschedule _ _ _,
            h.locator_eq, h.held_eq, _, hbelow, rest, rfl⟩

end Rounds

/-! ## The loop -/

/-- A call did what the refill `poured` does. -/
structure Performs (respond : CCNxInterest → Option CCNxMetaMessage) (locator : CCNxName)
    (buffer : PARCBuffer) (network : ScriptedState) (filled : Filled ScriptedState)
    (poured : Refill PointerVisit UInt8) : Prop where
  done_eq : filled.done = poured.done
  written_eq : filled.buffer.written = buffer.written ++ poured.put.flatten
  capacity_eq : filled.buffer.capacity = buffer.capacity
  requested_eq : filled.network.requested =
    network.requested ++ poured.taken.map fun visit ↦ pointerInterest locator visit.item
  tracks : Tracks respond locator filled.fetcher filled.network poured.held poured.rest

variable {locator : CCNxName} {fetcher : CCNxFileRepoManifestFetcher} {network : ScriptedState}
  {queue : List PointerVisit} {buffer : PARCBuffer}

/-- One more round in front of a call, which took `item` and put `payload`. -/
theorem Performs.prepend {item : PointerVisit} {payload : List Bytes} {between : PARCBuffer}
    {filled : Filled ScriptedState} {poured : Refill PointerVisit UInt8}
    (h : Performs respond locator between
      (network.after [pointerInterest locator item.item]) filled poured)
    (hwritten : between.written = buffer.written ++ payload.flatten)
    (hcapacity : between.capacity = buffer.capacity) :
    Performs respond locator buffer network filled (poured.prepend item payload) where
  done_eq := h.done_eq
  written_eq := by
    rw [h.written_eq, hwritten, List.append_assoc, ← List.flatten_append]
    rfl
  capacity_eq := h.capacity_eq.trans hcapacity
  requested_eq := by
    rw [h.requested_eq]
    simp [ScriptedState.after, Refill.prepend]
  tracks := h.tracks

/-- Without room the loop does nothing. -/
theorem fillBufferLoop_full (fuel : ℕ) (hroom : buffer.remaining = 0)
    (h : Tracks respond locator fetcher network none queue) :
    ∃ filled, fillBufferLoop (scriptedPortal respond) (fuel + 1) fetcher buffer network =
        .ok filled ∧
      Performs respond locator buffer network filled
        (Refill.pour Visit.delivered queue buffer.remaining) := by
  refine ⟨⟨false, fetcher, buffer, network⟩, ?_, ?_⟩
  · simp only [fillBufferLoop, nextRequest, hroom, if_true]
    rfl
  · rw [hroom, Refill.pour_zero]
    exact ⟨rfl, by simp, rfl, by simp, h⟩

/-- With nothing held back the loop is a pour.  Every round takes one item of the queue, so as
many rounds as there are items are enough, and one more to find the end. -/
theorem fillBufferLoop_performs (buffer : PARCBuffer) {fuel : ℕ} (hfuel : queue.length < fuel)
    (h : Tracks respond locator fetcher network none queue) :
    ∃ filled, fillBufferLoop (scriptedPortal respond) fuel fetcher buffer network = .ok filled ∧
      Performs respond locator buffer network filled
        (Refill.pour Visit.delivered queue buffer.remaining) := by
  induction queue generalizing fuel fetcher network buffer with
  | nil =>
      obtain ⟨fuel, rfl⟩ := Nat.exists_eq_succ_of_ne_zero (Nat.ne_zero_of_lt hfuel)
      rcases Nat.eq_zero_or_pos buffer.remaining with hroom | hroom
      · exact fillBufferLoop_full fuel hroom h
      · obtain ⟨next, hnext, htracks⟩ := h.drained hroom
        refine ⟨⟨true, next, buffer, network⟩, ?_, ?_⟩
        · simp only [fillBufferLoop, hnext]
          rfl
        · rw [Refill.pour_nil hroom]
          exact ⟨rfl, by simp, rfl, by simp, htracks⟩
  | cons visit queue ih =>
      obtain ⟨fuel, rfl⟩ := Nat.exists_eq_succ_of_ne_zero (Nat.ne_zero_of_lt hfuel)
      have hrest : queue.length < fuel := by simpa using hfuel
      rcases Nat.eq_zero_or_pos buffer.remaining with hroom | hroom
      · exact fillBufferLoop_full fuel hroom h
      obtain ⟨popped, hnext, hlocator, hround⟩ := h.round hroom
      have hfetch := fetchData_scripted respond popped visit.item network
      rw [hlocator] at hfetch
      cases hdelivered : visit.delivered with
      | none =>
          simp only [hdelivered] at hround
          obtain ⟨next, hresponse, htracks⟩ := hround
          obtain ⟨filled, hloop, hperforms⟩ := ih buffer hrest htracks
          refine ⟨filled, ?_, ?_⟩
          · rw [fillBufferLoop_fetch hnext hfetch hresponse]
            exact hloop
          · rw [Refill.pour_cons_none hdelivered queue hroom]
            apply hperforms.prepend _ rfl
            simp
      | some payload =>
          simp only [hdelivered] at hround
          obtain ⟨object, rfl, hanswer, htracks⟩ := hround
          rw [hanswer] at hfetch
          by_cases hfits : object.payload.length ≤ buffer.remaining
          · obtain ⟨between, hresponse, hwritten, hremaining, hcapacity⟩ :=
              handleResponse_fits popped hfits
            obtain ⟨filled, hloop, hperforms⟩ := ih between hrest htracks
            refine ⟨filled, ?_, ?_⟩
            · rw [fillBufferLoop_fetch hnext hfetch hresponse]
              exact hloop
            · rw [Refill.pour_cons_fits hdelivered queue hroom hfits, ← hremaining]
              apply hperforms.prepend _ hcapacity
              simpa using hwritten
          · have hresponse := handleResponse_large popped hfits
            refine ⟨_, fillBufferLoop_fetch hnext hfetch hresponse, ?_⟩
            rw [Refill.pour_cons_held hdelivered queue hroom hfits]
            exact ⟨rfl, by simp, rfl, rfl, htracks.locator_eq, rfl, htracks.upcoming⟩

/-- A call is a refill, provided the payload held back fits into the buffer. -/
theorem fillBuffer_performs {held : Option Bytes} {fuel : ℕ} (hfuel : queue.length < fuel)
    (hfits : ∀ payload ∈ held, payload.length ≤ buffer.remaining)
    (h : Tracks respond locator fetcher network held queue) :
    ∃ filled, fillBuffer (scriptedPortal respond) fuel fetcher buffer network = .ok filled ∧
      Performs respond locator buffer network filled
        (Refill.refill Visit.delivered held queue buffer.remaining) := by
  obtain ⟨hlocator, hheld, hupcoming⟩ := h
  cases held with
  | none =>
      simp only [fillBuffer, putPrevState, hheld]
      exact fillBufferLoop_performs buffer hfuel ⟨hlocator, hheld, hupcoming⟩
  | some payload =>
      obtain ⟨between, hput, hwritten, hremaining, -, hcapacity⟩ :=
        PARCBuffer.putBuffer_spec (hfits payload rfl)
      have htracks : Tracks respond locator { fetcher with prevState := none } network none queue :=
        ⟨hlocator, rfl, hupcoming⟩
      obtain ⟨filled, hloop, hperforms⟩ := fillBufferLoop_performs between hfuel htracks
      refine ⟨filled, ?_, ?_⟩
      · simp only [fillBuffer, putPrevState, hheld, hput]
        exact hloop
      · rw [hremaining] at hperforms
        refine ⟨hperforms.done_eq, ?_, hperforms.capacity_eq.trans hcapacity,
          hperforms.requested_eq, hperforms.tracks⟩
        rw [hperforms.written_eq, hwritten, List.append_assoc]
        rfl

end CCNxFileRepoManifestFetcher

end CCNxFileRepo
