import CCNxFileRepo.Client.Machine

/-!
# What a client has downloaded at each step

A download divides its data into three parts: the bytes in the output file, those in the buffer and
those of the requests to come.  The steps of the machine move bytes from part to part, so whatever
else happens between them, the file is the whole data when the client leaves.
-/

namespace CCNxFileRepo.CCNxFileRepoClient

open Foundations CCNxFileRepoManifestFetcher

variable {respond : CCNxInterest → Option CCNxMetaMessage} {locator : CCNxName}
  {config : ClientConfig} {fs : FileSystem} {download : Filling} {held : Option Bytes}
  {data : Bytes}

/-- A network on which every request is answered. -/
abbrev reliable : ScriptedState := .start fun _ ↦ .arrives

/-- A download of `data` that stands at `download`, with `held` carried over. -/
structure Downloads (respond : CCNxInterest → Option CCNxMetaMessage) (locator : CCNxName)
    (outFile : CString) (fs : FileSystem) (download : Filling) (held : Option Bytes)
    (data : Bytes) : Prop where
  path : fs outFile ≠ some .directory
  offset_eq : download.fileOffset = (fs.contentsAt outFile).length
  upcoming : ∃ queue, Tracks respond locator download.fetcher reliable held queue ∧
    fs.contentsAt outFile ++ download.chunkBuffer.written ++
      (Refill.pending Visit.delivered held queue).flatten = data

theorem written_of_reset {buffer reset : PARCBuffer} {limit : ℕ}
    (h : buffer.rewind.setLimit limit = .ok reset) : reset.written = [] := by
  unfold PARCBuffer.setLimit at h
  split at h
  · cases h
    simp [PARCBuffer.written, PARCBuffer.rewind]
  · cases h

/-- The head of a round keeps the data, unless it stops. -/
theorem Downloads.beginRound {begun : Filling}
    (h : CCNxFileRepoClient.beginRound config download = .ok begun)
    (hpath : fs config.outFile ≠ some .directory)
    (hoffset : download.fileOffset = (fs.contentsAt config.outFile).length)
    {queue : List PointerVisit}
    (htracks : Tracks respond locator download.fetcher reliable held queue)
    (hdata : fs.contentsAt config.outFile ++
      (Refill.pending Visit.delivered held queue).flatten = data) :
    Downloads respond locator config.outFile fs begun none data := by
  obtain ⟨reset, hreset, h⟩ := Fallible.bind_eq_ok.mp h
  obtain ⟨⟨fetcher, filled⟩, hput, h⟩ := Fallible.bind_eq_ok.mp h
  cases h
  have hempty := written_of_reset hreset
  cases held with
  | none =>
      simp only [putPrevState, htracks.held_eq] at hput
      cases hput
      exact ⟨hpath, hoffset, queue, htracks, by simpa [hempty] using hdata⟩
  | some payload =>
      simp only [putPrevState, htracks.held_eq] at hput
      obtain ⟨filled, hfilled, hput⟩ := Fallible.bind_eq_ok.mp hput
      cases hput
      have hwritten : filled.written = payload := by
        rw [PARCBuffer.written_of_putBuffer hfilled, hempty, List.nil_append]
      refine ⟨hpath, hoffset, queue, ⟨htracks.locator_eq, rfl, htracks.upcoming⟩, ?_⟩
      rw [hwritten, ← hdata]
      simp [Refill.pending]

/-- The end of a round appends the buffer to the file. -/
theorem Downloads.appendBufferToFile
    (h : Downloads respond locator config.outFile fs download held data) :
    CCNxFileRepoClient.appendBufferToFile fs config.outFile download.chunkBuffer.flip.contents
        download.fileOffset .complete =
      .ok (Function.update fs config.outFile (some (.regular
        (fs.contentsAt config.outFile ++ download.chunkBuffer.written)))) := by
  rw [appendBufferToFile_eq h.path, h.offset_eq, PARCBuffer.contents_flip]
  simp only [WriteOutcome.stored, Overlay.overlay_length]

/-- A round that ends with more to come leads to the next one. -/
theorem Downloads.endRound {phase : Phase} {written : FileSystem}
    (h : Downloads respond locator config.outFile fs download held data)
    (hend : CCNxFileRepoClient.endRound config fs download false = .ok (phase, written)) :
    ∃ begun, phase = .filling begun ∧
      Downloads respond locator config.outFile written begun none data := by
  obtain ⟨appended, happend, hend⟩ := Fallible.bind_eq_ok.mp hend
  obtain ⟨begun, hbegun, hend⟩ := Fallible.bind_eq_ok.mp hend
  cases hend
  obtain rfl := Except.ok.inj (h.appendBufferToFile.symm.trans happend)
  obtain ⟨queue, htracks, hdata⟩ := h.upcoming
  have hcontents : FileSystem.contentsAt (Function.update fs config.outFile (some (.regular
      (fs.contentsAt config.outFile ++ download.chunkBuffer.written)))) config.outFile =
        fs.contentsAt config.outFile ++ download.chunkBuffer.written :=
    FileSystem.contentsAt_regular (Function.update_self ..)
  refine ⟨begun, rfl, .beginRound hbegun ?_ ?_ htracks ?_⟩
  · exact FileSystem.update_regular_ne_directory _ _ _
  · calc
      download.fileOffset + download.chunkBuffer.flip.remaining =
          (fs.contentsAt config.outFile).length + download.chunkBuffer.written.length := by
        rw [h.offset_eq, PARCBuffer.remaining_flip, PARCBuffer.length_written]
      _ = _ := by rw [hcontents, List.length_append]
  · rw [hcontents, hdata]

/-- A round that ends with nothing to come leaves the data in the file. -/
theorem Downloads.finish {phase : Phase} {written : FileSystem}
    (h : Downloads respond locator config.outFile fs download held data)
    (hdata : fs.contentsAt config.outFile ++ download.chunkBuffer.written = data)
    (hend : CCNxFileRepoClient.endRound config fs download true = .ok (phase, written)) :
    phase = .left .downloaded ∧ written config.outFile = some (.regular data) := by
  simp only [CCNxFileRepoClient.endRound, h.appendBufferToFile, bind, Except.bind, if_true] at hend
  cases hend
  exact ⟨rfl, by rw [Function.update_self, hdata]⟩

/-- Where a client stands that is on its way to have `data` in its file, or has it. -/
inductive Stands (respond : CCNxInterest → Option CCNxMetaMessage) (locator : CCNxName)
    (outFile : CString) (fs : FileSystem) (data : Bytes) : Phase → Prop where
  | filling {download : Filling}
      (downloads : Downloads respond locator outFile fs download none data) :
      Stands respond locator outFile fs data (.filling download)
  | awaitingObject {download : Filling} {hashDigest : Bytes}
      (fetcher : CCNxFileRepoManifestFetcher)
      (downloads :
        Downloads respond locator outFile fs { download with fetcher := fetcher } none data)
      (asked : nextRequest fetcher download.chunkBuffer =
        .ok (.fetch hashDigest, download.fetcher)) :
      Stands respond locator outFile fs data (.awaitingObject download hashDigest)
  | left {ending : Ending} (complete : fs outFile = some (.regular data)) :
      Stands respond locator outFile fs data (.left ending)

/-- Local steps keep a client on its way. -/
theorem Stands.advance {phase : Phase} {written : FileSystem}
    (h : Downloads respond locator config.outFile fs download none data)
    (hstep : CCNxFileRepoClient.advance config fs download = .ok (phase, written)) :
    Stands respond locator config.outFile written data phase := by
  obtain ⟨queue, htracks, hdata⟩ := h.upcoming
  rcases Nat.eq_zero_or_pos download.chunkBuffer.remaining with hroom | hroom
  · have hnext : nextRequest download.fetcher download.chunkBuffer =
        .ok (.full, download.fetcher) := by
      simp only [nextRequest, hroom, if_true]
    simp only [CCNxFileRepoClient.advance, hnext, bind, Except.bind] at hstep
    obtain ⟨begun, rfl, hbegun⟩ := h.endRound hstep
    exact .filling hbegun
  · cases queue with
    | nil =>
        obtain ⟨next, hnext, hdrained⟩ := htracks.drained hroom
        simp only [CCNxFileRepoClient.advance, hnext, bind, Except.bind] at hstep
        have hnow : Downloads respond locator config.outFile fs
            { download with fetcher := next } none data :=
          ⟨h.path, h.offset_eq, [], hdrained, hdata⟩
        obtain ⟨rfl, hcomplete⟩ := hnow.finish (by simpa using hdata) hstep
        exact .left hcomplete
    | cons visit queue =>
        obtain ⟨popped, hnext, -⟩ := htracks.round hroom
        simp only [CCNxFileRepoClient.advance, hnext, bind, Except.bind] at hstep
        cases hstep
        exact .awaitingObject download.fetcher h hnext

/-- The response the network has for a request moves a payload out of the queue, into the buffer
or, where it does not fit, out of the loop. -/
theorem Downloads.handleResponse {fetcher : CCNxFileRepoManifestFetcher} {hashDigest : Bytes}
    {message : CCNxMetaMessage}
    (h : Downloads respond locator config.outFile fs { download with fetcher := fetcher } none data)
    (hasked : nextRequest fetcher download.chunkBuffer =
      .ok (.fetch hashDigest, download.fetcher))
    (hmessage : respond { name := locator, contentObjectHashRestriction := some hashDigest } =
      some message) :
    ∃ held next between, CCNxFileRepoManifestFetcher.handleResponse download.fetcher
        download.chunkBuffer (some message) = .ok (held.isSome, next, between) ∧
      Downloads respond locator config.outFile fs ⟨next, between, download.fileOffset⟩ held
        data := by
  obtain ⟨queue, htracks, hdata⟩ := h.upcoming
  have hroom : 0 < download.chunkBuffer.remaining := by
    by_contra hroom
    simp only [nextRequest, Nat.eq_zero_of_not_pos hroom, if_true] at hasked
    cases hasked
  cases queue with
  | nil =>
      obtain ⟨next, hnext, -⟩ := htracks.drained hroom
      rw [hasked] at hnext
      cases hnext
  | cons visit queue =>
      obtain ⟨popped, hnext, -, hround⟩ := htracks.round hroom
      rw [hasked] at hnext
      cases hnext
      have hanswer : answer respond reliable (pointerInterest locator visit.item) =
          some message := (answer_of_arrival rfl _).trans hmessage
      cases hdelivered : visit.delivered with
      | none =>
          simp only [hdelivered, hanswer] at hround
          obtain ⟨next, hresponse, hrest⟩ := hround
          refine ⟨none, next, download.chunkBuffer, hresponse, h.path, h.offset_eq, queue,
            hrest.of_schedule_eq rfl, ?_⟩
          rw [← hdata]
          simp [List.filterMap_cons_none hdelivered]
      | some payload =>
          simp only [hdelivered, hanswer] at hround
          obtain ⟨object, rfl, hobject, hrest⟩ := hround
          cases hobject
          by_cases hfits : object.payload.length ≤ download.chunkBuffer.remaining
          · obtain ⟨between, hresponse, hwritten, -⟩ := handleResponse_fits download.fetcher hfits
            refine ⟨none, download.fetcher, between, hresponse, h.path, h.offset_eq, queue,
              hrest.of_schedule_eq rfl, ?_⟩
            rw [← hdata, hwritten]
            simp [List.filterMap_cons_some hdelivered]
          · refine ⟨some object.payload, _, download.chunkBuffer,
              handleResponse_large download.fetcher hfits, h.path, h.offset_eq, queue,
              ⟨hrest.locator_eq, rfl, hrest.upcoming⟩, ?_⟩
            rw [← hdata]
            simp [Refill.pending, List.filterMap_cons_some hdelivered]

theorem Stands.resume {phase : Phase} {written : FileSystem} {hashDigest : Bytes}
    {message : CCNxMetaMessage}
    (h : Stands respond locator config.outFile fs data (.awaitingObject download hashDigest))
    (hmessage : respond { name := locator, contentObjectHashRestriction := some hashDigest } =
      some message)
    (hstep : CCNxFileRepoClient.resume config fs download (some message) = .ok (phase, written)) :
    Stands respond locator config.outFile written data phase := by
  cases h with
  | awaitingObject fetcher downloads asked =>
      obtain ⟨held, next, between, hresponse, hnext⟩ := downloads.handleResponse asked hmessage
      cases held with
      | none =>
          simp only [CCNxFileRepoClient.resume, hresponse, bind, Except.bind, Option.isSome_none,
            Bool.false_eq_true, if_false] at hstep
          cases hstep
          exact .filling hnext
      | some payload =>
          simp only [CCNxFileRepoClient.resume, hresponse, bind, Except.bind, Option.isSome_some,
            if_true] at hstep
          obtain ⟨begun, rfl, hbegun⟩ := hnext.endRound hstep
          exact .filling hbegun

/-- A client that takes a manifest for its first message is on its way to the data below it. -/
theorem Stands.accept_manifest {phase : Phase} {written : FileSystem} {root : CCNxManifest}
    {pointers : List CCNxManifestHashGroupPointer} (hroot : root.onlyGroup = some pointers)
    (hname : root.name = locator) (t : ManifestTree (resolver respond locator) pointers)
    (hfresh : fs config.outFile = none)
    (hstep : accept config fs (some (.manifest root)) = .ok (phase, written)) :
    Stands respond locator config.outFile written t.leaves.flatten phase := by
  subst hname
  have hfirst := CCNxManifest.firstGroup_of_onlyGroup hroot
  obtain ⟨fetcher, hcreate, hstep⟩ := Fallible.bind_eq_ok.mp hstep
  obtain ⟨begun, hbegun, hstep⟩ := Fallible.bind_eq_ok.mp hstep
  cases hstep
  have htracks := tracks_create hfirst hcreate t.toFirstGroups reliable
  apply Stands.filling
  refine .beginRound hbegun ?_ ?_ htracks ?_
  · exact FileSystem.ne_directory_of_none hfresh
  · rw [FileSystem.contentsAt_none hfresh]
    rfl
  · rw [FileSystem.contentsAt_none hfresh, Refill.pending_none, List.nil_append]
    calc
      ((t.toFirstGroups.visits reliable.schedule).filterMap Visit.delivered).flatten =
          t.toFirstGroups.leaves.flatten :=
        congrArg List.flatten t.toFirstGroups.filterMap_delivered_visits
      _ = t.leaves.flatten := by rw [ManifestTree.leaves_toFirstGroups]

/-- A client that takes a content object for its first message has its payload. -/
theorem Stands.accept_contentObject {phase : Phase} {written : FileSystem}
    {object : CCNxContentObject} (hfresh : fs config.outFile = none)
    (hstep : accept config fs (some (.contentObject object)) = .ok (phase, written)) :
    Stands respond locator config.outFile written object.payload phase := by
  have happend :=
    appendBufferToFile_eq (FileSystem.ne_directory_of_none hfresh) object.payload 0 .complete
  simp only [accept, happend, bind, Except.bind] at hstep
  cases hstep
  apply Stands.left
  rw [Function.update_self, FileSystem.contentsAt_none hfresh]
  simp [WriteOutcome.stored, Overlay.overlay_zero]

end CCNxFileRepo.CCNxFileRepoClient
