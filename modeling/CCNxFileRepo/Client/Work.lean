import CCNxFileRepo.Client.Delivery

/-!
# The work that is left to a client

A download asks for one item of its queue after the other, and between two requests it may empty
the buffer into the file.  A buffer is emptied only after something was put into it, or for a
payload that did not fit.  So a client with room for every payload is done after three steps for
each request and two more at most, and none of these steps stops it.
-/

namespace CCNxFileRepo.CCNxFileRepoClient

open Foundations CCNxFileRepoManifestFetcher

variable {respond : CCNxInterest → Option CCNxMetaMessage} {locator : CCNxName}
  {config : ClientConfig} {fs : FileSystem} {download : Filling} {held : Option Bytes}
  {queue : List PointerVisit}

/-- A download that can write its file and has room for all that it still has to put. -/
structure Ready (respond : CCNxInterest → Option CCNxMetaMessage) (locator : CCNxName)
    (config : ClientConfig) (fs : FileSystem) (download : Filling) (held : Option Bytes)
    (queue : List PointerVisit) : Prop where
  path : fs config.outFile ≠ some .directory
  tracks : Tracks respond locator download.fetcher reliable held queue
  capacity_eq : download.chunkBuffer.capacity = config.clientBufferSize
  fits : ∀ payload ∈ Refill.pending Visit.delivered held queue,
    payload.length ≤ config.clientBufferSize

/-- A round begins with an empty buffer, but for the payload carried over. -/
theorem Ready.beginRound (h : Ready respond locator config fs download held queue) :
    ∃ begun, CCNxFileRepoClient.beginRound config download = .ok begun ∧
      Ready respond locator config fs begun none queue ∧
      (held = none → begun.chunkBuffer.remaining = config.clientBufferSize) := by
  obtain ⟨reset, hreset, -, hroom, hcapacity⟩ := download.chunkBuffer.setLimit_rewind
  rw [h.capacity_eq] at hreset hroom hcapacity
  have hlater : ∀ payload ∈ Refill.pending Visit.delivered none queue,
      payload.length ≤ config.clientBufferSize :=
    fun payload hpayload ↦ h.fits payload (List.mem_append_right _ hpayload)
  cases held with
  | none =>
      refine ⟨{ download with chunkBuffer := reset }, ?_, ⟨h.path, h.tracks, hcapacity, hlater⟩,
        fun _ ↦ hroom⟩
      simp only [CCNxFileRepoClient.beginRound, hreset, putPrevState, h.tracks.held_eq, bind,
        Except.bind]
      rfl
  | some payload =>
      have hfits : payload.length ≤ reset.remaining := by
        rw [hroom]
        exact h.fits payload (List.mem_append_left _ (List.mem_singleton_self _))
      obtain ⟨filled, hput, -, -, -, hsame⟩ := PARCBuffer.putBuffer_spec hfits
      refine ⟨{ download with
        fetcher := { download.fetcher with prevState := none }
        chunkBuffer := filled }, ?_, ⟨h.path, ⟨h.tracks.locator_eq, rfl, h.tracks.upcoming⟩,
          hsame.trans hcapacity, hlater⟩, by simp⟩
      simp only [CCNxFileRepoClient.beginRound, hreset, putPrevState, h.tracks.held_eq, hput, bind,
        Except.bind]
      rfl

/-- The end of a round can write the file, and leaves it a file. -/
theorem Ready.appendBuffer (h : Ready respond locator config fs download held queue) :
    ∃ written, appendBufferToFile fs config.outFile download.chunkBuffer.flip.contents
        download.fileOffset .complete = .ok written ∧
      written config.outFile ≠ some .directory :=
  ⟨_, appendBufferToFile_eq h.path _ _ _, FileSystem.update_regular_ne_directory _ _ _⟩

/-- A round that ends with more to come leads to the next one. -/
theorem Ready.endRound (h : Ready respond locator config fs download held queue) :
    ∃ begun written, CCNxFileRepoClient.endRound config fs download false =
        .ok (.filling begun, written) ∧
      Ready respond locator config written begun none queue ∧
      (held = none → begun.chunkBuffer.remaining = config.clientBufferSize) := by
  obtain ⟨written, happend, hpath⟩ := h.appendBuffer
  have hwritten : Ready respond locator config written { download with
      chunkBuffer := download.chunkBuffer.flip.flip
      fileOffset := download.fileOffset + download.chunkBuffer.flip.remaining } held queue :=
    ⟨hpath, h.tracks, h.capacity_eq, h.fits⟩
  obtain ⟨begun, hbegun, hready, hroom⟩ := hwritten.beginRound
  refine ⟨begun, written, ?_, hready, hroom⟩
  simp only [CCNxFileRepoClient.endRound, happend, bind, Except.bind, Bool.false_eq_true, if_false,
    hbegun]
  rfl

theorem Ready.finish (h : Ready respond locator config fs download held queue) :
    ∃ written, CCNxFileRepoClient.endRound config fs download true =
      .ok (.left .downloaded, written) := by
  obtain ⟨written, happend, -⟩ := h.appendBuffer
  refine ⟨written, ?_⟩
  simp only [CCNxFileRepoClient.endRound, happend, bind, Except.bind, if_true]
  rfl

/-- The most steps that are left to a client which has taken its first message. -/
inductive Busy (respond : CCNxInterest → Option CCNxMetaMessage) (locator : CCNxName)
    (config : ClientConfig) (fs : FileSystem) : Phase → ℕ → Prop where
  | filling {download : Filling} {queue : List PointerVisit}
      (ready : Ready respond locator config fs download none queue) :
      Busy respond locator config fs (.filling download)
        (3 * queue.length + if download.chunkBuffer.remaining = 0 then 2 else 1)
  | awaitingObject {download : Filling} {hashDigest : Bytes} {visit : PointerVisit}
      {queue : List PointerVisit} (fetcher : CCNxFileRepoManifestFetcher)
      (ready : Ready respond locator config fs { download with fetcher := fetcher } none
        (visit :: queue))
      (room : 0 < download.chunkBuffer.remaining)
      (asked : nextRequest fetcher download.chunkBuffer =
        .ok (.fetch hashDigest, download.fetcher)) :
      Busy respond locator config fs (.awaitingObject download hashDigest) (3 * queue.length + 3)
  | left {ending : Ending} : Busy respond locator config fs (.left ending) 0

/-- A step that comes back and takes from the work. -/
def Decreases (respond : CCNxInterest → Option CCNxMetaMessage) (locator : CCNxName)
    (config : ClientConfig) (work : ℕ) (result : Except Stop (Phase × FileSystem)) : Prop :=
  ∃ phase written less, result = .ok (phase, written) ∧ less < work ∧
    Busy respond locator config written phase less

theorem Decreases.filling {begun : Filling} {written : FileSystem} {work : ℕ}
    {result : Except Stop (Phase × FileSystem)} (hresult : result = .ok (.filling begun, written))
    (hready : Ready respond locator config written begun none queue)
    (hwork : 3 * queue.length + 2 < work) : Decreases respond locator config work result := by
  refine ⟨_, _, _, hresult, ?_, .filling hready⟩
  split <;> omega

/-- A local step comes back, with a request out, the buffer emptied or the file complete. -/
theorem Busy.advance (hcapacity : 0 < config.clientBufferSize) {work : ℕ}
    (h : Busy respond locator config fs (.filling download) work) :
    Decreases respond locator config work (CCNxFileRepoClient.advance config fs download) := by
  cases h with
  | @filling _ queue ready =>
      rcases Nat.eq_zero_or_pos download.chunkBuffer.remaining with hroom | hroom
      · obtain ⟨begun, written, hend, hready, hempty⟩ := ready.endRound
        refine ⟨_, _, _, ?_, ?_, .filling hready⟩
        · simp only [CCNxFileRepoClient.advance, nextRequest, hroom, if_true, bind, Except.bind]
          exact hend
        · rw [if_neg (by rw [hempty rfl]; exact hcapacity.ne'), if_pos hroom]
          omega
      · rw [if_neg hroom.ne']
        cases queue with
        | nil =>
            obtain ⟨next, hnext, hdrained⟩ := ready.tracks.drained hroom
            have hnow : Ready respond locator config fs { download with fetcher := next } none [] :=
              ⟨ready.path, hdrained, ready.capacity_eq, ready.fits⟩
            obtain ⟨written, hend⟩ := hnow.finish
            refine ⟨.left .downloaded, written, 0, ?_, Nat.succ_pos _, .left⟩
            simp only [CCNxFileRepoClient.advance, hnext, bind, Except.bind]
            exact hend
        | cons visit queue =>
            obtain ⟨popped, hnext, -⟩ := ready.tracks.round hroom
            refine ⟨.awaitingObject { download with fetcher := popped } visit.item.digest, fs, _,
              ?_, ?_, .awaitingObject download.fetcher ready hroom hnext⟩
            · simp only [CCNxFileRepoClient.advance, hnext, bind, Except.bind]
              rfl
            · rw [List.length_cons]
              omega

theorem Busy.resume {hashDigest : Bytes} {work : ℕ} {message : CCNxMetaMessage}
    (h : Busy respond locator config fs (.awaitingObject download hashDigest) work)
    (hmessage : respond { name := locator, contentObjectHashRestriction := some hashDigest } =
      some message) :
    Decreases respond locator config work
      (CCNxFileRepoClient.resume config fs download (some message)) := by
  cases h with
  | @awaitingObject _ _ visit queue fetcher ready room asked =>
      obtain ⟨popped, hnext, -, hround⟩ := ready.tracks.round room
      rw [asked] at hnext
      cases hnext
      have hanswer : answer respond reliable (pointerInterest locator visit.item) =
          some message := (answer_of_arrival rfl _).trans hmessage
      have hlater : ∀ payload ∈ Refill.pending Visit.delivered none queue,
          payload.length ≤ config.clientBufferSize := by
        intro payload hpayload
        apply ready.fits payload
        rw [Refill.pending_none] at hpayload ⊢
        exact ((List.sublist_cons_self visit queue).filterMap _).subset hpayload
      cases hdelivered : visit.delivered with
      | none =>
          simp only [hdelivered, hanswer] at hround
          obtain ⟨next, hresponse, hrest⟩ := hround
          have hready : Ready respond locator config fs
              ⟨next, download.chunkBuffer, download.fileOffset⟩ none queue :=
            ⟨ready.path, hrest.of_schedule_eq rfl, ready.capacity_eq, hlater⟩
          refine .filling ?_ hready (by omega)
          simp only [CCNxFileRepoClient.resume, hresponse, bind, Except.bind, Bool.false_eq_true,
            if_false]
          rfl
      | some payload =>
          simp only [hdelivered, hanswer] at hround
          obtain ⟨object, rfl, hobject, hrest⟩ := hround
          cases hobject
          by_cases hfits : object.payload.length ≤ download.chunkBuffer.remaining
          · obtain ⟨between, hresponse, -, -, hsame⟩ := handleResponse_fits download.fetcher hfits
            have hready : Ready respond locator config fs
                ⟨download.fetcher, between, download.fileOffset⟩ none queue :=
              ⟨ready.path, hrest.of_schedule_eq rfl, hsame.trans ready.capacity_eq, hlater⟩
            refine .filling ?_ hready (by omega)
            simp only [CCNxFileRepoClient.resume, hresponse, bind, Except.bind,
              Bool.false_eq_true, if_false]
            rfl
          · have hresponse := handleResponse_large download.fetcher hfits
            have hsuspended : Ready respond locator config fs { download with
                fetcher := { download.fetcher with prevState := some object.payload } }
                (some object.payload) queue := by
              refine ⟨ready.path, ⟨hrest.locator_eq, rfl, hrest.upcoming⟩, ready.capacity_eq, ?_⟩
              simpa [Refill.pending, List.filterMap_cons_some hdelivered] using ready.fits
            obtain ⟨begun, written, hend, hready, -⟩ := hsuspended.endRound
            refine .filling ?_ hready (by omega)
            simp only [CCNxFileRepoClient.resume, hresponse, bind, Except.bind, if_true]
            exact hend

/-- What a client waits for is on the network, under the name it asks with. -/
theorem Busy.exists_answer {hashDigest : Bytes} {work : ℕ}
    (h : Busy respond locator config fs (.awaitingObject download hashDigest) work) :
    download.fetcher.locator = locator ∧
      ∃ message, respond { name := locator, contentObjectHashRestriction := some hashDigest } =
        some message := by
  cases h with
  | @awaitingObject _ _ visit queue fetcher ready room asked =>
      obtain ⟨popped, hnext, hlocator, -⟩ := ready.tracks.round room
      rw [asked] at hnext
      cases hnext
      refine ⟨hlocator, ?_⟩
      obtain ⟨pointers, -, t, ht⟩ := ready.tracks.upcoming
      cases t with
      | nil => cases ht
      | leaf value resolves rest =>
          obtain ⟨object, hobject, -⟩ := expandWith_leaf resolves
          cases ht
          exact ⟨_, hobject⟩
      | node children resolves below rest =>
          obtain ⟨manifest, hmanifest, -⟩ := expandWith_node resolves
          cases ht
          exact ⟨_, hmanifest⟩

/-- A client that takes a manifest for its first message has three steps to make for each object
below it, and one more. -/
theorem Busy.accept_manifest (hcapacity : 0 < config.clientBufferSize) {root : CCNxManifest}
    {pointers : List CCNxManifestHashGroupPointer} (hroot : root.onlyGroup = some pointers)
    (hname : root.name = locator) (t : ManifestTree (resolver respond locator) pointers)
    (hfits : ∀ payload ∈ t.leaves, payload.length ≤ config.clientBufferSize)
    (hpath : fs config.outFile ≠ some .directory) :
    Decreases respond locator config (3 * t.preorder.length + 2)
      (accept config fs (some (.manifest root))) := by
  subst hname
  have hfirst := CCNxManifest.firstGroup_of_onlyGroup hroot
  obtain ⟨fetcher, hcreate⟩ := exists_create hfirst
  have htracks := tracks_create hfirst hcreate t.toFirstGroups reliable
  have hpending : Refill.pending Visit.delivered none
      (t.toFirstGroups.visits reliable.schedule) = t.leaves :=
    t.toFirstGroups.filterMap_delivered_visits.trans t.leaves_toFirstGroups
  have hlength : (t.toFirstGroups.visits reliable.schedule).length = t.preorder.length := by
    rw [← List.length_map Visit.item]
    exact congrArg List.length
      (t.toFirstGroups.map_item_visits.trans t.preorder_toFirstGroups)
  have hnew : Ready respond root.name config fs
      ⟨fetcher, .allocate config.clientBufferSize, 0⟩ none
      (t.toFirstGroups.visits reliable.schedule) :=
    ⟨hpath, htracks, PARCBuffer.capacity_allocate _, by rwa [hpending]⟩
  obtain ⟨begun, hbegun, hready, hempty⟩ := hnew.beginRound
  refine ⟨_, _, _, ?_, ?_, .filling hready⟩
  · simp only [accept, hcreate, hbegun, bind, Except.bind]
    rfl
  · rw [if_neg (by rw [hempty rfl]; exact hcapacity.ne'), hlength]
    omega

/-- A client that takes a content object for its first message is done with it. -/
theorem Busy.accept_contentObject {object : CCNxContentObject}
    (hpath : fs config.outFile ≠ some .directory) (work : ℕ) :
    Decreases respond locator config (work + 1)
      (accept config fs (some (.contentObject object))) := by
  obtain ⟨written, happend⟩ : ∃ written,
      appendBufferToFile fs config.outFile object.payload 0 .complete = .ok written :=
    ⟨_, appendBufferToFile_eq hpath _ _ _⟩
  refine ⟨.left .dumped, written, 0, ?_, Nat.succ_pos _, .left⟩
  simp only [accept, happend, bind, Except.bind]
  rfl

end CCNxFileRepo.CCNxFileRepoClient
