import CCNxFileRepo.Client.Download

/-!
# The client as a state machine

Between two blocking calls the client is on its own, so a system with several clients is made of
their steps from one call of the portal to the next.  A phase holds the local variables of
`_ccnxFileRepoClient_Run` at the place where the client stands.  Driven against a portal, the
machine does what `run` does.
-/

namespace CCNxFileRepo.CCNxFileRepoClient

open Foundations CCNxFileRepoManifestFetcher

/-- The local variables of the download loop while the fetcher fills the buffer. -/
structure Filling where
  fetcher : CCNxFileRepoManifestFetcher
  chunkBuffer : PARCBuffer
  fileOffset : ℕ
  deriving DecidableEq

inductive Phase where
  | idle
  /-- in the receive loop, with the interest in the target outstanding -/
  | awaitingFirst
  /-- at the loop condition of the fetcher -/
  | filling (download : Filling)
  /-- in the fetcher, with the interest in a digest outstanding -/
  | awaitingObject (download : Filling) (hashDigest : Bytes)
  | left (ending : Ending)
  | stopped (stop : Stop)
  deriving DecidableEq

/-- A client with its disk.  `accepted` is the message with which it left its receive loop. -/
structure Client where
  phase : Phase
  fs : FileSystem
  accepted : Option CCNxMetaMessage

/-- The arguments and the buffer size of a client. -/
structure ClientConfig where
  target : CCNxName
  outFile : CString
  clientBufferSize : ℕ
  deriving DecidableEq, Repr

section Steps

variable (config : ClientConfig)

/-- The head of the download loop, up to the loop of the fetcher. -/
def beginRound (download : Filling) : Except Stop Filling := do
  let chunkBuffer ← download.chunkBuffer.rewind.setLimit config.clientBufferSize
  let (fetcher, chunkBuffer) ← putPrevState download.fetcher chunkBuffer
  return { download with fetcher := fetcher, chunkBuffer := chunkBuffer }

/-- The rest of the download loop, after `fillBuffer` returned `done`. -/
def endRound (fs : FileSystem) (download : Filling) (done : Bool) :
    Except Stop (Phase × FileSystem) := do
  let chunkBuffer := download.chunkBuffer.flip
  let totalSize := chunkBuffer.remaining
  let fs ← appendBufferToFile fs config.outFile chunkBuffer.contents download.fileOffset .complete
  if done then return (.left .downloaded, fs)
  else
    let download ← beginRound config { download with
      chunkBuffer := chunkBuffer.flip
      fileOffset := download.fileOffset + totalSize }
    return (.filling download, fs)

/-- The loop of the fetcher up to its next request or its end. -/
def advance (fs : FileSystem) (download : Filling) : Except Stop (Phase × FileSystem) := do
  let (request, fetcher) ← nextRequest download.fetcher download.chunkBuffer
  let download := { download with fetcher := fetcher }
  match request with
  | .full => endRound config fs download false
  | .drained => endRound config fs download true
  | .fetch hashDigest => return (.awaitingObject download hashDigest, fs)

/-- The response to a request of the fetcher. -/
def resume (fs : FileSystem) (download : Filling) (response : Option CCNxMetaMessage) :
    Except Stop (Phase × FileSystem) := do
  let (suspended, fetcher, chunkBuffer) ←
    handleResponse download.fetcher download.chunkBuffer response
  let download := { download with fetcher := fetcher, chunkBuffer := chunkBuffer }
  if suspended then endRound config fs download false
  else return (.filling download, fs)

/-- A message in the receive loop of the client. -/
def accept (fs : FileSystem) : Option CCNxMetaMessage → Except Stop (Phase × FileSystem)
  | some (.manifest root) => do
      let fetcher ← CCNxFileRepoManifestFetcher.create root
      let download ← beginRound config {
        fetcher := fetcher
        chunkBuffer := .allocate config.clientBufferSize
        fileOffset := 0 }
      return (.filling download, fs)
  | some (.contentObject contentObject) => do
      let fs ← appendBufferToFile fs config.outFile contentObject.payload 0 .complete
      return (.left .dumped, fs)
  | none => .error .nullMessage
  | some _ => .ok (.awaitingFirst, fs)

end Steps

namespace Client

variable (config : ClientConfig)

def fresh (fs : FileSystem) : Client := { phase := .idle, fs := fs, accepted := none }

/-- The client after a step; a step that fails stops it. -/
def settle (client : Client) : Except Stop (Phase × FileSystem) → Client
  | .ok (phase, fs) => { client with phase := phase, fs := fs }
  | .error stop => { client with phase := .stopped stop }

/-- The interest a client waits on. -/
def outstanding (client : Client) : Option CCNxInterest :=
  match client.phase with
  | .awaitingFirst => some { name := config.target, contentObjectHashRestriction := none }
  | .awaitingObject download hashDigest =>
      some { name := download.fetcher.locator, contentObjectHashRestriction := some hashDigest }
  | _ => none

/-- A step of a client that waits for nothing.  The interest it sends, if any, is the one it then
waits on. -/
def localStep (client : Client) : Option Client :=
  match client.phase with
  | .idle => some { client with phase := .awaitingFirst }
  | .filling download => some (client.settle (advance config client.fs download))
  | _ => none

/-- The message that a client in its receive loop leaves it with. -/
def acceptedOf : Option CCNxMetaMessage → Option CCNxMetaMessage
  | some message => if message.isManifest || message.isContentObject then some message else none
  | none => none

/-- What a client that is waiting does with what `ccnxPortal_Receive` returns. -/
def receive (client : Client) (response : Option CCNxMetaMessage) : Client :=
  match client.phase with
  | .awaitingFirst =>
      { client with accepted := acceptedOf response }.settle (accept config client.fs response)
  | .awaitingObject download _ => client.settle (resume config client.fs download response)
  | _ => client

/-- The client when its interest could not be sent. -/
def refused (client : Client) : Client :=
  match client.phase with
  | .awaitingFirst => { client with phase := .left .notSent }
  | _ => client.receive config none

/-- One step of a client against a portal. -/
def driveStep {σ : Type} (portal : CCNxPortal σ) : Client × σ → Client × σ
  | (client, network) =>
      match client.localStep config with
      | some next =>
          match next.outstanding config with
          | some interest =>
              match portal.send (.interest interest) network with
              | (true, network) => (next, network)
              | (false, network) => (next.refused config, network)
          | none => (next, network)
      | none =>
          match client.phase with
          | .awaitingFirst =>
              if portal.isError network then
                ({ client with phase := .left .portalError }, network)
              else
                let (response, network) := portal.receive network
                (client.receive config response, network)
          | .awaitingObject _ _ =>
              let (response, network) := portal.receive network
              (client.receive config response, network)
          | _ => (client, network)

/-- The states a client passes through against a portal. -/
def Drives {σ : Type} (portal : CCNxPortal σ) : Client × σ → Client × σ → Prop :=
  Relation.ReflTransGen fun before after ↦ driveStep config portal before = after

end Client

/-! ## The machine does what the program does -/

section Simulation

variable {σ : Type} {portal : CCNxPortal σ} {config : ClientConfig} {fs : FileSystem}
  {accepted : Option CCNxMetaMessage} {fuel : ℕ}

theorem phase_of_endRound {download : Filling} {done : Bool} {phase : Phase} {written : FileSystem}
    (h : endRound config fs download done = .ok (phase, written)) :
    phase = .left .downloaded ∨ ∃ next, phase = .filling next := by
  unfold endRound at h
  obtain ⟨appended, -, h⟩ := Fallible.bind_eq_ok.mp h
  cases done with
  | true =>
      cases h
      exact Or.inl rfl
  | false =>
      obtain ⟨next, -, h⟩ := Fallible.bind_eq_ok.mp h
      cases h
      exact Or.inr ⟨next, rfl⟩

theorem outstanding_settle_endRound (client : Client) (fs : FileSystem) (download : Filling)
    (done : Bool) :
    (client.settle (endRound config fs download done)).outstanding config = none := by
  cases hend : endRound config fs download done with
  | error stop => rfl
  | ok result =>
      obtain ⟨phase, written⟩ := result
      obtain rfl | ⟨next, rfl⟩ := phase_of_endRound hend <;> rfl

theorem driveStep_filling {client next : Client} {network : σ}
    (h : client.localStep config = some next) (hquiet : next.outstanding config = none) :
    Client.driveStep config portal (client, network) = (next, network) := by
  simp only [Client.driveStep, h, hquiet]

/-- A request and its response, whether the request could be sent or not. -/
theorem drives_fetch {fetcher popped : CCNxFileRepoManifestFetcher} {buffer : PARCBuffer}
    {network : σ} {fileOffset : ℕ} {digest : Bytes}
    (hnext : nextRequest fetcher buffer = .ok (.fetch digest, popped)) :
    Client.Drives config portal (⟨.filling ⟨fetcher, buffer, fileOffset⟩, fs, accepted⟩, network)
      ((Client.mk (.awaitingObject ⟨popped, buffer, fileOffset⟩ digest) fs accepted).receive
        config (fetchData portal popped digest network).1,
        (fetchData portal popped digest network).2) := by
  have hlocal : (Client.mk (.filling ⟨fetcher, buffer, fileOffset⟩) fs accepted).localStep config =
      some ⟨.awaitingObject ⟨popped, buffer, fileOffset⟩ digest, fs, accepted⟩ := by
    simp only [Client.localStep, advance, hnext]
    rfl
  cases hsend : portal.send (.interest ⟨popped.locator, some digest⟩) network with
  | mk sent network' =>
      cases sent with
      | true =>
          have hfetch : fetchData portal popped digest network = portal.receive network' := by
            simp only [fetchData, hsend]
          rw [hfetch]
          refine .head (b := (⟨.awaitingObject ⟨popped, buffer, fileOffset⟩ digest, fs, accepted⟩,
            network')) ?_ (.single rfl)
          simp only [Client.driveStep, hlocal, Client.outstanding, hsend]
      | false =>
          have hfetch : fetchData portal popped digest network = (none, network') := by
            simp only [fetchData, hsend]
          rw [hfetch]
          apply Relation.ReflTransGen.single
          simp only [Client.driveStep, hlocal, Client.outstanding, hsend]
          rfl

variable (config fs accepted) in
/-- The loop of the fetcher and the end of the round after it. -/
theorem drives_fillBufferLoop (fileOffset : ℕ) {fetcher : CCNxFileRepoManifestFetcher}
    {buffer : PARCBuffer} {network : σ} {filled : Filled σ}
    (h : fillBufferLoop portal fuel fetcher buffer network = .ok filled) :
    Client.Drives config portal (⟨.filling ⟨fetcher, buffer, fileOffset⟩, fs, accepted⟩, network)
      ((Client.mk .idle fs accepted).settle
        (endRound config fs ⟨filled.fetcher, filled.buffer, fileOffset⟩ filled.done),
        filled.network) := by
  induction fuel generalizing fetcher buffer network with
  | zero => cases h
  | succ fuel ih =>
      rw [fillBufferLoop] at h
      obtain ⟨⟨request, popped⟩, hnext, h⟩ := Fallible.bind_eq_ok.mp h
      cases request with
      | full =>
          cases h
          apply Relation.ReflTransGen.single
          apply driveStep_filling _ (outstanding_settle_endRound _ _ _ _)
          simp only [Client.localStep, advance, hnext]
          rfl
      | drained =>
          cases h
          apply Relation.ReflTransGen.single
          apply driveStep_filling _ (outstanding_settle_endRound _ _ _ _)
          simp only [Client.localStep, advance, hnext]
          rfl
      | fetch digest =>
          apply (drives_fetch hnext).trans
          obtain ⟨⟨suspended, next, between⟩, hresponse, h⟩ := Fallible.bind_eq_ok.mp h
          change handleResponse popped buffer (fetchData portal popped digest network).1 = _
            at hresponse
          simp only [Client.receive, resume, hresponse, bind, Except.bind]
          cases suspended with
          | true =>
              cases h
              exact .refl
          | false => exact ih h

def DownloadState.filling (state : DownloadState σ) : Filling :=
  ⟨state.fetcher, state.chunkBuffer, state.fileOffset⟩

/-- A round of the download loop, cut at the loop of the fetcher. -/
theorem exists_fillBufferLoop_of_downloadRound {state next : DownloadState σ} {done : Bool}
    (h : downloadRound portal config.clientBufferSize config.outFile fuel state .complete =
      .ok (done, next)) :
    ∃ begun filled, beginRound config state.filling = .ok begun ∧
      begun.fileOffset = state.fileOffset ∧
      fillBufferLoop portal fuel begun.fetcher begun.chunkBuffer state.network = .ok filled ∧
      filled.network = next.network ∧
      endRound config state.fs ⟨filled.fetcher, filled.buffer, state.fileOffset⟩ filled.done =
        if done then .ok (.left .downloaded, next.fs)
        else (beginRound config next.filling).map fun begun ↦ (.filling begun, next.fs) := by
  obtain ⟨reset, hreset, h⟩ := Fallible.bind_eq_ok.mp h
  obtain ⟨filled, hfill, h⟩ := Fallible.bind_eq_ok.mp h
  obtain ⟨⟨fetcher, buffer⟩, hput, hloop⟩ := Fallible.bind_eq_ok.mp hfill
  obtain ⟨written, happend, h⟩ := Fallible.bind_eq_ok.mp h
  cases h
  refine ⟨⟨fetcher, buffer, state.fileOffset⟩, filled, ?_, rfl, hloop, rfl, ?_⟩
  · apply Fallible.bind_eq_ok.mpr
    exact ⟨reset, hreset, Fallible.bind_eq_ok.mpr ⟨(fetcher, buffer), hput, rfl⟩⟩
  · simp only [endRound, happend, bind, Except.bind]
    cases filled.done with
    | true => rfl
    | false =>
        simp only [Bool.false_eq_true, if_false, DownloadState.filling]
        cases beginRound config _ <;> rfl

variable (accepted) in
theorem drives_downloadLoop {state final : DownloadState σ}
    (h : downloadLoop portal config.clientBufferSize config.outFile fuel state noFailures =
      .ok final) :
    ∃ begun, beginRound config state.filling = .ok begun ∧
      Client.Drives config portal (⟨.filling begun, state.fs, accepted⟩, state.network)
        (⟨.left .downloaded, final.fs, accepted⟩, final.network) := by
  induction fuel generalizing state with
  | zero => cases h
  | succ fuel ih =>
      rw [downloadLoop] at h
      obtain ⟨⟨done, next⟩, hround, h⟩ := Fallible.bind_eq_ok.mp h
      obtain ⟨begun, filled, hbegun, hoffset, hloop, hnetwork, hend⟩ :=
        exists_fillBufferLoop_of_downloadRound hround
      have hdrives := drives_fillBufferLoop config state.fs accepted state.fileOffset hloop
      rw [hend, hnetwork, ← hoffset] at hdrives
      refine ⟨begun, hbegun, ?_⟩
      cases done with
      | true =>
          cases h
          exact hdrives
      | false =>
          obtain ⟨again, hagain, hrest⟩ := ih h
          rw [if_neg Bool.false_ne_true, hagain] at hdrives
          exact hdrives.trans hrest

/-- A client that receives a manifest downloads what is below it. -/
theorem drives_download {root : CCNxManifest} {network : σ} {final : DownloadState σ}
    (h : download portal config.clientBufferSize config.outFile fuel root fs network noFailures =
      .ok final) :
    Client.Drives config portal
      ((Client.mk .awaitingFirst fs none).receive config (some (.manifest root)), network)
      (⟨.left .downloaded, final.fs, some (.manifest root)⟩, final.network) := by
  obtain ⟨fetcher, hcreate, hloop⟩ := Fallible.bind_eq_ok.mp h
  obtain ⟨begun, hbegun, hdrives⟩ := drives_downloadLoop (some (.manifest root)) hloop
  have haccept : accept config fs (some (.manifest root)) = .ok (.filling begun, fs) := by
    apply Fallible.bind_eq_ok.mpr
    exact ⟨fetcher, hcreate, Fallible.bind_eq_ok.mpr ⟨begun, hbegun, rfl⟩⟩
  simp only [Client.receive, haccept]
  exact hdrives

/-- A client that receives a content object dumps its payload. -/
theorem receive_contentObject {object : CCNxContentObject} {written : FileSystem}
    (h : appendBufferToFile fs config.outFile object.payload 0 .complete = .ok written) :
    (Client.mk .awaitingFirst fs none).receive config (some (.contentObject object)) =
      ⟨.left .dumped, written, some (.contentObject object)⟩ := by
  simp only [Client.receive, accept, h, bind, Except.bind]
  rfl

theorem drives_receiveLoop {network : σ} {result : RunResult σ}
    (h : receiveLoop portal config.clientBufferSize config.outFile fs noFailures fuel network =
      .ok result) :
    ∃ accepted, Client.Drives config portal (⟨.awaitingFirst, fs, none⟩, network)
      (⟨.left result.ending, result.fs, accepted⟩, result.network) := by
  induction fuel generalizing network with
  | zero => cases h
  | succ fuel ih =>
      rw [receiveLoop] at h
      split at h
      · rename_i herror
        cases h
        refine ⟨none, .single ?_⟩
        simp only [Client.driveStep, Client.localStep, herror, if_true]
      · rename_i herror
        have hstep (response : Option CCNxMetaMessage) (network' : σ)
            (hreceive : portal.receive network = (response, network')) :
            Client.driveStep config portal (⟨.awaitingFirst, fs, none⟩, network) =
              ((Client.mk .awaitingFirst fs none).receive config response, network') := by
          simp only [Client.driveStep, Client.localStep, herror, if_false, hreceive,
            Bool.false_eq_true]
        split at h
        · rename_i root network' hreceive
          obtain ⟨final, hfinal, h⟩ := Fallible.bind_eq_ok.mp h
          cases h
          exact ⟨some (.manifest root), .head (hstep _ _ hreceive) (drives_download hfinal)⟩
        · rename_i object network' hreceive
          obtain ⟨written, happend, h⟩ := Fallible.bind_eq_ok.mp h
          cases h
          refine ⟨some (.contentObject object), .single ((hstep _ _ hreceive).trans ?_)⟩
          rw [receive_contentObject happend]
        · cases h
        · rename_i message network' hmanifest hobject hreceive
          obtain ⟨accepted, hdrives⟩ := ih h
          refine ⟨accepted, .head (hstep _ _ hreceive) ?_⟩
          cases message with
          | interest _ => exact hdrives
          | interestReturn _ => exact hdrives
          | manifest root => exact absurd rfl (hmanifest root)
          | contentObject object => exact absurd rfl (hobject object)

/-- A run of `_ccnxFileRepoClient_Run` that comes to its end is a run of the machine from the fresh
client to a client that has left its loop in the same way, with the same disk and network. -/
theorem drives_run {network : σ} {result : RunResult σ}
    (h : run portal config.clientBufferSize fuel config.target config.outFile fs network
      noFailures = .ok result) :
    ∃ accepted, Client.Drives config portal (.fresh fs, network)
      (⟨.left result.ending, result.fs, accepted⟩, result.network) := by
  unfold run at h
  cases hsend : portal.send (.interest ⟨config.target, none⟩) network with
  | mk sent network' =>
      simp only [hsend] at h
      cases sent with
      | true =>
          obtain ⟨accepted, hdrives⟩ := drives_receiveLoop h
          refine ⟨accepted, .head ?_ hdrives⟩
          simp only [Client.driveStep, Client.localStep, Client.fresh, Client.outstanding, hsend]
      | false =>
          cases h
          refine ⟨none, .single ?_⟩
          simp only [Client.driveStep, Client.localStep, Client.fresh, Client.outstanding, hsend]
          rfl

end Simulation

end CCNxFileRepo.CCNxFileRepoClient
