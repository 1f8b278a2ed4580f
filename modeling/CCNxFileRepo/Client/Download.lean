import CCNxFileRepo.Client.Streaming
import CCNxFileRepo.Parc.File

/-!
# The client

The client asks for a name and waits for the first message that is a manifest or a content object.
The payload of a content object is written to the output file as it is.  A manifest is downloaded:
one buffer is filled again and again, and each time its bytes are written behind those written
before, until the fetcher reports the end.
-/

namespace CCNxFileRepo.CCNxFileRepoClient

open Foundations

/-- `_ccnxFileRepoClient_AppendBufferToFile`. -/
def appendBufferToFile (fs : FileSystem) (outFile : CString) (data : Bytes) (offset : ℕ)
    (outcome : WriteOutcome) : Except Stop FileSystem :=
  let fs := fs.createNewFile outFile
  match fs.openRandomAccess outFile with
  | none => .error .nullFileHandle
  | some fout => .ok (fs.write (fout.seek offset) outcome data)

/-- The local variables of the download loop, with the disk and the network. -/
structure DownloadState (σ : Type) where
  fetcher : CCNxFileRepoManifestFetcher
  chunkBuffer : PARCBuffer
  fileOffset : ℕ
  fs : FileSystem
  network : σ

/-- One round of the download loop: reset the buffer, fill it and write it to the file. -/
def downloadRound {σ : Type} (portal : CCNxPortal σ) (clientBufferSize : ℕ) (outFile : CString)
    (fuel : ℕ) (state : DownloadState σ) (outcome : WriteOutcome) :
    Except Stop (Bool × DownloadState σ) := do
  let chunkBuffer ← state.chunkBuffer.rewind.setLimit clientBufferSize
  let filled ← state.fetcher.fillBuffer portal fuel chunkBuffer state.network
  let chunkBuffer := filled.buffer.flip
  let totalSize := chunkBuffer.remaining
  let fs ← appendBufferToFile state.fs outFile chunkBuffer.contents state.fileOffset outcome
  return (filled.done, {
    fetcher := filled.fetcher
    chunkBuffer := chunkBuffer.flip
    fileOffset := state.fileOffset + totalSize
    fs := fs
    network := filled.network })

/-- `while (!done)`, with a bound on the rounds. -/
def downloadLoop {σ : Type} (portal : CCNxPortal σ) (clientBufferSize : ℕ) (outFile : CString) :
    ℕ → DownloadState σ → (ℕ → WriteOutcome) → Except Stop (DownloadState σ)
  | 0, _, _ => .error .outOfFuel
  | fuel + 1, state, outcomes => do
      let (done, state) ← downloadRound portal clientBufferSize outFile fuel state (outcomes 0)
      if done then return state
      else downloadLoop portal clientBufferSize outFile fuel state fun index ↦ outcomes (index + 1)

/-- What `_ccnxFileRepoClient_Run` does with a manifest. -/
def download {σ : Type} (portal : CCNxPortal σ) (clientBufferSize : ℕ) (outFile : CString)
    (fuel : ℕ) (root : CCNxManifest) (fs : FileSystem) (network : σ)
    (outcomes : ℕ → WriteOutcome) : Except Stop (DownloadState σ) := do
  let fetcher ← CCNxFileRepoManifestFetcher.create root
  downloadLoop portal clientBufferSize outFile fuel {
    fetcher := fetcher
    chunkBuffer := .allocate clientBufferSize
    fileOffset := 0
    fs := fs
    network := network } outcomes

def DownloadState.written {σ : Type} (state : DownloadState σ) (outFile : CString) : Bytes :=
  (state.fs.contentsAt outFile).take state.fileOffset

/-- How `_ccnxFileRepoClient_Run` comes to its end, which its result does not tell. -/
inductive Ending where
  | downloaded
  | dumped
  | portalError
  | notSent
  deriving DecidableEq, Repr

/-- The state in which `_ccnxFileRepoClient_Run` leaves the world. -/
structure RunResult (σ : Type) where
  ending : Ending
  fs : FileSystem
  network : σ

/-- The receive loop of `_ccnxFileRepoClient_Run`, with a bound on its rounds. -/
def receiveLoop {σ : Type} (portal : CCNxPortal σ) (clientBufferSize : ℕ) (outFile : CString)
    (fs : FileSystem) (outcomes : ℕ → WriteOutcome) : ℕ → σ → Except Stop (RunResult σ)
  | 0, _ => .error .outOfFuel
  | fuel + 1, network =>
      if portal.isError network then .ok ⟨.portalError, fs, network⟩
      else
        match portal.receive network with
        | (some (.manifest root), network) => do
            let final ← download portal clientBufferSize outFile fuel root fs network outcomes
            return ⟨.downloaded, final.fs, final.network⟩
        | (some (.contentObject contentObject), network) => do
            let fs ← appendBufferToFile fs outFile contentObject.payload 0 (outcomes 0)
            return ⟨.dumped, fs, network⟩
        -- the message is released whether there is one or not
        | (none, _) => .error .nullMessage
        | (some _, network) => receiveLoop portal clientBufferSize outFile fs outcomes fuel network

/-- `_ccnxFileRepoClient_Run`. -/
def run {σ : Type} (portal : CCNxPortal σ) (clientBufferSize : ℕ) (fuel : ℕ) (target : CCNxName)
    (outFile : CString) (fs : FileSystem) (network : σ) (outcomes : ℕ → WriteOutcome) :
    Except Stop (RunResult σ) :=
  let interest : CCNxInterest := { name := target, contentObjectHashRestriction := none }
  match portal.send (.interest interest) network with
  | (true, network) => receiveLoop portal clientBufferSize outFile fs outcomes fuel network
  | (false, network) => .ok ⟨.notSent, fs, network⟩

theorem appendBufferToFile_eq {fs : FileSystem} {outFile : CString}
    (h : fs outFile ≠ some .directory) (data : Bytes) (offset : ℕ) (outcome : WriteOutcome) :
    appendBufferToFile fs outFile data offset outcome = .ok (Function.update fs outFile
      (some (.regular (Overlay.overlay 0 (fs.contentsAt outFile) offset
        (outcome.stored data))))) := by
  have hopen := FileSystem.openRandomAccess_regular (FileSystem.createNewFile_apply h)
  simp only [appendBufferToFile, hopen]
  exact congrArg _ (FileSystem.write_createNewFile h offset outcome data)

/-! ## The bound on the rounds -/

theorem downloadRound_mono {σ : Type} {portal : CCNxPortal σ} {capacity fuel more : ℕ}
    {outFile : CString} (hle : fuel ≤ more) {state : DownloadState σ} {outcome : WriteOutcome}
    {result : Bool × DownloadState σ}
    (h : downloadRound portal capacity outFile fuel state outcome = .ok result) :
    downloadRound portal capacity outFile more state outcome = .ok result := by
  unfold downloadRound at h ⊢
  obtain ⟨reset, hreset, h⟩ := Fallible.bind_eq_ok.mp h
  obtain ⟨filled, hfill, h⟩ := Fallible.bind_eq_ok.mp h
  have hmore := CCNxFileRepoManifestFetcher.fillBuffer_mono hle hfill
  exact Fallible.bind_eq_ok.mpr ⟨reset, hreset, Fallible.bind_eq_ok.mpr ⟨filled, hmore, h⟩⟩

/-- A download that comes to an end comes to the same end with more rounds to spare. -/
theorem downloadLoop_mono {σ : Type} {portal : CCNxPortal σ} {capacity fuel more : ℕ}
    {outFile : CString} (hle : fuel ≤ more) {state final : DownloadState σ}
    {outcomes : ℕ → WriteOutcome}
    (h : downloadLoop portal capacity outFile fuel state outcomes = .ok final) :
    downloadLoop portal capacity outFile more state outcomes = .ok final := by
  induction fuel generalizing more state outcomes with
  | zero => cases h
  | succ fuel ih =>
      obtain ⟨more, rfl⟩ := Nat.exists_eq_succ_of_ne_zero (Nat.ne_zero_of_lt hle)
      have hle := Nat.le_of_succ_le_succ hle
      rw [downloadLoop] at h ⊢
      obtain ⟨⟨done, next⟩, hround, h⟩ := Fallible.bind_eq_ok.mp h
      refine Fallible.bind_eq_ok.mpr ⟨(done, next), downloadRound_mono hle hround, ?_⟩
      cases done with
      | true => exact h
      | false => exact ih hle h

theorem downloadRound_zero {σ : Type} {portal : CCNxPortal σ} {fuel : ℕ} {outFile : CString}
    {state next : DownloadState σ} {outcome : WriteOutcome} {done : Bool}
    (hheld : state.fetcher.prevState = none)
    (h : downloadRound portal 0 outFile fuel state outcome = .ok (done, next)) :
    done = false ∧ next.fetcher = state.fetcher := by
  obtain ⟨reset, hreset, hroom⟩ : ∃ reset, state.chunkBuffer.rewind.setLimit 0 = .ok reset ∧
      reset.remaining = 0 := ⟨_, dif_pos (Nat.zero_le _), Nat.zero_sub _⟩
  cases fuel with
  | zero =>
      simp only [downloadRound, hreset, CCNxFileRepoManifestFetcher.fillBuffer,
        CCNxFileRepoManifestFetcher.putPrevState, hheld, bind, Except.bind,
        CCNxFileRepoManifestFetcher.fillBufferLoop] at h
      cases h
  | succ fuel =>
      have hfill : state.fetcher.fillBuffer portal (fuel + 1) reset state.network =
          .ok ⟨false, state.fetcher, reset, state.network⟩ := by
        simp only [CCNxFileRepoManifestFetcher.fillBuffer,
          CCNxFileRepoManifestFetcher.putPrevState, hheld, bind, Except.bind,
          CCNxFileRepoManifestFetcher.fillBufferLoop, CCNxFileRepoManifestFetcher.nextRequest,
          hroom, if_true]
        rfl
      simp only [downloadRound, hreset, hfill, bind, Except.bind] at h
      split at h
      · cases h
      · cases h
        exact ⟨rfl, rfl⟩

/-- With a buffer of no size the loop never ends. -/
theorem downloadLoop_zero {σ : Type} {portal : CCNxPortal σ} {fuel : ℕ} {outFile : CString}
    {state final : DownloadState σ} {outcomes : ℕ → WriteOutcome}
    (hheld : state.fetcher.prevState = none) :
    downloadLoop portal 0 outFile fuel state outcomes ≠ .ok final := by
  induction fuel generalizing state outcomes with
  | zero =>
      intro h
      cases h
  | succ fuel ih =>
      intro h
      rw [downloadLoop] at h
      obtain ⟨⟨done, next⟩, hround, h⟩ := Fallible.bind_eq_ok.mp h
      obtain ⟨rfl, hfetcher⟩ := downloadRound_zero hheld hround
      apply ih _ h
      rw [hfetcher, hheld]

theorem download_unique {σ : Type} {portal : CCNxPortal σ} {capacity fuel more : ℕ}
    {outFile : CString} {root : CCNxManifest} {fs : FileSystem} {network : σ}
    {outcomes : ℕ → WriteOutcome} {first second : DownloadState σ}
    (hfirst : download portal capacity outFile fuel root fs network outcomes = .ok first)
    (hsecond : download portal capacity outFile more root fs network outcomes = .ok second) :
    first = second := by
  unfold download at hfirst hsecond
  obtain ⟨fetcher, hcreate, hfirst⟩ := Fallible.bind_eq_ok.mp hfirst
  obtain ⟨same, hsame, hsecond⟩ := Fallible.bind_eq_ok.mp hsecond
  obtain rfl : fetcher = same := Except.ok.inj (hcreate.symm.trans hsame)
  have hlarger := downloadLoop_mono (Nat.le_max_left fuel more) hfirst
  rw [downloadLoop_mono (Nat.le_max_right fuel more) hsecond] at hlarger
  exact (Except.ok.inj hlarger).symm

/-! ## What a download writes -/

section Writes

open CCNxFileRepoManifestFetcher

variable {respond : CCNxInterest → Option CCNxMetaMessage} {locator : CCNxName}
  {held : Option Bytes} {queue : List PointerVisit} {capacity fuel : ℕ} {outFile : CString}
  {state : DownloadState ScriptedState}

/-- One round offers to the file what one refill puts. -/
theorem downloadRound_offers (outcome : WriteOutcome) (hfuel : queue.length < fuel)
    (hfits : ∀ payload ∈ held, payload.length ≤ capacity)
    (hbuffer : state.chunkBuffer.capacity = capacity)
    (hpath : state.fs outFile ≠ some .directory)
    (h : Tracks respond locator state.fetcher state.network held queue) :
    ∃ next, downloadRound (scriptedPortal respond) capacity outFile fuel state outcome =
        .ok ((Refill.refill Visit.delivered held queue capacity).done, next) ∧
      next.chunkBuffer.capacity = capacity ∧
      next.fileOffset = state.fileOffset +
        (Refill.refill Visit.delivered held queue capacity).put.flatten.length ∧
      next.fs = Function.update state.fs outFile (some (.regular
        (Overlay.overlay 0 (state.fs.contentsAt outFile) state.fileOffset
          (outcome.stored (Refill.refill Visit.delivered held queue capacity).put.flatten)))) ∧
      Tracks respond locator next.fetcher next.network
        (Refill.refill Visit.delivered held queue capacity).held
        (Refill.refill Visit.delivered held queue capacity).rest := by
  obtain ⟨reset, hreset, hempty, hroom, hcapacity⟩ := state.chunkBuffer.setLimit_rewind
  rw [hbuffer] at hreset hroom hcapacity
  obtain ⟨filled, hfill, hperforms⟩ := fillBuffer_performs hfuel (by rwa [hroom]) h
  rw [hroom] at hperforms
  have hwritten : filled.buffer.written =
      (Refill.refill Visit.delivered held queue capacity).put.flatten := by
    rw [hperforms.written_eq, hempty, List.nil_append]
  have happend := appendBufferToFile_eq hpath filled.buffer.written state.fileOffset outcome
  let next : DownloadState ScriptedState := {
    fetcher := filled.fetcher
    chunkBuffer := filled.buffer.flip.flip
    fileOffset := state.fileOffset + filled.buffer.flip.remaining
    fs := Function.update state.fs outFile (some (.regular
      (Overlay.overlay 0 (state.fs.contentsAt outFile) state.fileOffset
        (outcome.stored filled.buffer.written))))
    network := filled.network }
  refine ⟨next, ?_, hperforms.capacity_eq.trans hcapacity, ?_, ?_, hperforms.tracks⟩
  · simp only [downloadRound, hreset, bind, Except.bind, hfill, PARCBuffer.contents_flip, happend,
      ← hperforms.done_eq]
    rfl
  · rw [← hwritten, PARCBuffer.length_written, ← PARCBuffer.remaining_flip]
  · rw [← hwritten]

/-- With a complete write the round stores what the refill puts. -/
theorem downloadRound_performs (hfuel : queue.length < fuel)
    (hfits : ∀ payload ∈ held, payload.length ≤ capacity)
    (hbuffer : state.chunkBuffer.capacity = capacity)
    (hpath : state.fs outFile ≠ some .directory)
    (h : Tracks respond locator state.fetcher state.network held queue) :
    ∃ next, downloadRound (scriptedPortal respond) capacity outFile fuel state .complete =
        .ok ((Refill.refill Visit.delivered held queue capacity).done, next) ∧
      next.chunkBuffer.capacity = capacity ∧
      next.fileOffset = state.fileOffset +
        (Refill.refill Visit.delivered held queue capacity).put.flatten.length ∧
      next.fs = Function.update state.fs outFile (some (.regular
        (Overlay.overlay 0 (state.fs.contentsAt outFile) state.fileOffset
          (Refill.refill Visit.delivered held queue capacity).put.flatten))) ∧
      Tracks respond locator next.fetcher next.network
        (Refill.refill Visit.delivered held queue capacity).held
        (Refill.refill Visit.delivered held queue capacity).rest :=
  downloadRound_offers .complete hfuel hfits hbuffer hpath h

/-- The loop ends, and it writes everything that was pending in one stretch. -/
theorem downloadLoop_writes (state : DownloadState ScriptedState) (hcapacity : 0 < capacity)
    (hfuel : Refill.weight held queue + 1 < fuel)
    (hfits : ∀ payload ∈ Refill.pending Visit.delivered held queue, payload.length ≤ capacity)
    (hbuffer : state.chunkBuffer.capacity = capacity)
    (hpath : state.fs outFile ≠ some .directory)
    (hoffset : state.fileOffset ≤ (state.fs.contentsAt outFile).length)
    (h : Tracks respond locator state.fetcher state.network held queue) :
    ∃ final, downloadLoop (scriptedPortal respond) capacity outFile fuel state noFailures =
        .ok final ∧
      final.fileOffset =
        state.fileOffset + (Refill.pending Visit.delivered held queue).flatten.length ∧
      final.fs = Function.update state.fs outFile (some (.regular
        (Overlay.overlay 0 (state.fs.contentsAt outFile) state.fileOffset
          (Refill.pending Visit.delivered held queue).flatten))) := by
  induction fuel generalizing state held queue with
  | zero => exact absurd hfuel (Nat.not_lt_zero _)
  | succ fuel ih =>
      have hrounds : queue.length < fuel := by
        unfold Refill.weight at hfuel
        omega
      obtain ⟨next, hround, hnextBuffer, hnextOffset, hnextFs, htracks⟩ :=
        downloadRound_performs hrounds
          (fun payload hpayload ↦
            hfits payload (List.mem_append_left _ (Option.mem_toList.mpr hpayload)))
          hbuffer hpath h
      have hconserved := Refill.put_append_pending Visit.delivered held queue capacity
      generalize hrefill : Refill.refill Visit.delivered held queue capacity = refill at *
      cases hdone : refill.done with
      | true =>
          subst hrefill
          obtain ⟨hheld, hrest⟩ := Refill.drained_of_done hdone
          have hput : Refill.pending Visit.delivered held queue =
              (Refill.refill Visit.delivered held queue capacity).put := by
            rw [← hconserved, hheld, hrest]
            simp
          rw [hput]
          refine ⟨next, ?_, hnextOffset, hnextFs⟩
          simp only [downloadLoop, noFailures, hround, hdone, bind, Except.bind]
          rfl
      | false =>
          have hweight : Refill.weight refill.held refill.rest < Refill.weight held queue := by
            subst hrefill
            exact Refill.weight_lt hcapacity hdone
          have hcontents : next.fs.contentsAt outFile = Overlay.overlay 0
              (state.fs.contentsAt outFile) state.fileOffset refill.put.flatten := by
            rw [hnextFs]
            exact FileSystem.contentsAt_regular (Function.update_self ..)
          obtain ⟨final, hloop, hfinalOffset, hfinalFs⟩ := ih next (by omega)
            (fun payload hpayload ↦ hfits payload (hconserved ▸ List.mem_append_right _ hpayload))
            hnextBuffer (by rw [hnextFs]; exact FileSystem.update_regular_ne_directory _ _ _)
            (by rw [hcontents, Overlay.length_overlay 0 hoffset, hnextOffset]; omega) htracks
          refine ⟨final, ?_, ?_, ?_⟩
          · simp only [downloadLoop, noFailures, hround, hdone, bind, Except.bind]
            exact hloop
          · calc
              final.fileOffset = state.fileOffset + refill.put.flatten.length +
                  (Refill.pending Visit.delivered refill.held refill.rest).flatten.length := by
                rw [hfinalOffset, hnextOffset]
              _ = state.fileOffset + (refill.put ++
                  Refill.pending Visit.delivered refill.held refill.rest).flatten.length := by
                rw [List.flatten_append, List.length_append, Nat.add_assoc]
              _ = _ := by rw [hconserved]
          · calc
              final.fs = Function.update state.fs outFile (some (.regular (Overlay.overlay 0
                  (Overlay.overlay 0 (state.fs.contentsAt outFile) state.fileOffset
                    refill.put.flatten) (state.fileOffset + refill.put.flatten.length)
                  (Refill.pending Visit.delivered refill.held refill.rest).flatten))) := by
                rw [hfinalFs, hcontents, hnextOffset, hnextFs, Function.update_idem]
              _ = Function.update state.fs outFile (some (.regular (Overlay.overlay 0
                  (state.fs.contentsAt outFile) state.fileOffset (refill.put ++
                    Refill.pending Visit.delivered refill.held refill.rest).flatten))) := by
                rw [Overlay.overlay_overlay 0 hoffset, ← List.flatten_append]
              _ = _ := by rw [hconserved]

variable {root : CCNxManifest} {pointers : List CCNxManifestHashGroupPointer} {fs : FileSystem}

/-- A download writes what the network delivers of the tree, over whatever was there. -/
theorem download_writes (network : ScriptedState) (hroot : root.firstGroup = some pointers)
    (t : FirstGroupTree (resolver respond root.name) pointers) (hcapacity : 0 < capacity)
    (hfits : ∀ payload ∈ t.leaves, payload.length ≤ capacity)
    (hpath : fs outFile ≠ some .directory) (hfuel : 2 * t.preorder.length + 1 < fuel) :
    ∃ final, download (scriptedPortal respond) capacity outFile fuel root fs network noFailures =
        .ok final ∧
      final.fileOffset =
        ((t.visits network.schedule).filterMap Visit.delivered).flatten.length ∧
      final.fs = Function.update fs outFile (some (.regular
        (Overlay.overlay 0 (fs.contentsAt outFile) 0
          ((t.visits network.schedule).filterMap Visit.delivered).flatten))) := by
  obtain ⟨fetcher, hcreate⟩ := exists_create hroot
  have hqueue := t.length_visits_le network.schedule
  have hweight : Refill.weight (none : Option Bytes) (t.visits network.schedule) + 1 < fuel := by
    simp only [Refill.weight, Option.toList_none, List.length_nil]
    omega
  have hpending : ∀ payload ∈ Refill.pending Visit.delivered none (t.visits network.schedule),
      payload.length ≤ capacity := fun payload hpayload ↦
    hfits payload ((t.delivered_sublist_leaves network.schedule).subset hpayload)
  obtain ⟨final, hloop, hoffset, hfinal⟩ := downloadLoop_writes
    ⟨fetcher, .allocate capacity, 0, fs, network⟩ hcapacity hweight hpending
    (PARCBuffer.capacity_allocate capacity) hpath (Nat.zero_le _)
    (tracks_create hroot hcreate t network)
  rw [Nat.zero_add] at hoffset
  refine ⟨final, ?_, hoffset, hfinal⟩
  simp only [download, hcreate, bind, Except.bind]
  exact hloop

end Writes

end CCNxFileRepo.CCNxFileRepoClient
