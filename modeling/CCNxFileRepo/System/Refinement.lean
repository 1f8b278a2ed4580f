import CCNxFileRepo.Foundations.Fallible
import CCNxFileRepo.Foundations.Transfer
import CCNxFileRepo.System.Safety

/-!
# A deployment is a transfer service

The origins of the service are the servers, each with its file, and a server offers its file as soon
as all objects of it are on the disk, whoever saved them.  A client is a receiver from its first
message on.  Every run of a deployment is a run of the service, so what clients have in their output
files only grows, and no file that was offered is ever taken back, by no crash either.
-/

namespace CCNxFileRepo

open Foundations CCNxFileRepoCache CCNxFileRepoManifestFetcher CCNxFileRepoClient

/-! ## The output file only grows -/

section Growth

variable {config : ClientConfig} {fs written : FileSystem} {download : Filling} {phase : Phase}

theorem contentsAt_endRound (download : Filling) {done : Bool}
    (hpath : fs config.outFile ≠ some .directory)
    (hoffset : download.fileOffset = (fs.contentsAt config.outFile).length)
    (hend : endRound config fs download done = .ok (phase, written)) :
    fs.contentsAt config.outFile <+: written.contentsAt config.outFile := by
  obtain ⟨appended, happend, hend⟩ := Fallible.bind_eq_ok.mp hend
  rw [appendBufferToFile_eq hpath, hoffset] at happend
  have hgrown : fs.contentsAt config.outFile <+: appended.contentsAt config.outFile := by
    cases happend
    rw [FileSystem.contentsAt_regular (Function.update_self ..)]
    simp only [WriteOutcome.stored, Overlay.overlay_length]
    exact List.prefix_append _ _
  cases done with
  | true =>
      cases hend
      exact hgrown
  | false =>
      obtain ⟨begun, -, hend⟩ := Fallible.bind_eq_ok.mp hend
      cases hend
      exact hgrown

theorem contentsAt_advance (hpath : fs config.outFile ≠ some .directory)
    (hoffset : download.fileOffset = (fs.contentsAt config.outFile).length)
    (hstep : advance config fs download = .ok (phase, written)) :
    fs.contentsAt config.outFile <+: written.contentsAt config.outFile := by
  obtain ⟨⟨request, fetcher⟩, -, hstep⟩ := Fallible.bind_eq_ok.mp hstep
  cases request with
  | full | drained =>
      exact contentsAt_endRound { download with fetcher := fetcher } hpath hoffset hstep
  | fetch hashDigest =>
      cases hstep
      exact List.prefix_refl _

theorem contentsAt_resume {response : Option CCNxMetaMessage}
    (hpath : fs config.outFile ≠ some .directory)
    (hoffset : download.fileOffset = (fs.contentsAt config.outFile).length)
    (hstep : resume config fs download response = .ok (phase, written)) :
    fs.contentsAt config.outFile <+: written.contentsAt config.outFile := by
  obtain ⟨⟨suspended, fetcher, chunkBuffer⟩, -, hstep⟩ := Fallible.bind_eq_ok.mp hstep
  cases suspended with
  | true => exact contentsAt_endRound ⟨fetcher, chunkBuffer, _⟩ hpath hoffset hstep
  | false =>
      cases hstep
      exact List.prefix_refl _

/-- The file after a step that may have stopped the client. -/
theorem contentsAt_settle {client : Client} {result : Except Stop (Phase × FileSystem)}
    (h : ∀ phase written, result = .ok (phase, written) →
      client.fs.contentsAt config.outFile <+: written.contentsAt config.outFile) :
    client.fs.contentsAt config.outFile <+:
      (client.settle result).fs.contentsAt config.outFile := by
  cases result with
  | error stop => exact List.prefix_refl _
  | ok next => exact h next.1 next.2 rfl

variable {respond : CCNxInterest → Option CCNxMetaMessage} {locator : CCNxName} {client : Client}
  {data : Bytes}

/-- No local step of a client that is on its way takes bytes from its file. -/
theorem CCNxFileRepoClient.Stands.contentsAt_localStep {next : Client}
    (h : Stands respond locator config.outFile client.fs data client.phase)
    (hstep : client.localStep config = some next) :
    client.fs.contentsAt config.outFile <+: next.fs.contentsAt config.outFile := by
  obtain ⟨phase, fs, accepted⟩ := client
  cases h with
  | filling downloads =>
      cases hstep
      exact contentsAt_settle fun _ _ ↦ contentsAt_advance downloads.path downloads.offset_eq
  | awaitingObject fetcher downloads asked => cases hstep
  | left complete => cases hstep

theorem CCNxFileRepoClient.Stands.contentsAt_receive
    (h : Stands respond locator config.outFile client.fs data client.phase)
    (response : Option CCNxMetaMessage) :
    client.fs.contentsAt config.outFile <+:
      (client.receive config response).fs.contentsAt config.outFile := by
  obtain ⟨phase, fs, accepted⟩ := client
  cases h with
  | filling downloads => exact List.prefix_refl _
  | awaitingObject fetcher downloads asked =>
      exact contentsAt_settle fun _ _ ↦ contentsAt_resume downloads.path downloads.offset_eq
  | left complete => exact List.prefix_refl _

end Growth

/-! ## What a client shows -/

namespace Deployment

variable {κ ι : Type} {lib : CCNxLibrary} {repo : CCNxFileRepoCache} {request : κ → LoadRequest}
  {config : ι → ClientConfig} {deployment next : Deployment κ ι}

abbrev source (request : κ → LoadRequest) (server : κ) : Bytes := (request server).file

/-- What a client shows to its user, as a view of the transfer service. -/
inductive Shows (lib : CCNxLibrary) (repo : CCNxFileRepoCache) (request : κ → LoadRequest)
    (config : ClientConfig) (disk : FileSystem) (client : Client) :
    Transfer.View (source request) → Prop where
  | waiting (phase : client.phase = .idle ∨ client.phase = .awaitingFirst)
      (fresh : client.fs config.outFile = none) :
      Shows lib repo request config disk client .waiting
  | receiving {first : CCNxMetaMessage} {work : ℕ} (piece : Transfer.Piece (source request))
      (working : Working lib repo (request piece.origin) config disk client first piece.data work)
      (running : ∀ ending, client.phase ≠ .left ending) :
      Shows lib repo request config disk client (.receiving piece
        (client.fs.contentsAt config.outFile) working.stands.contentsAt_prefix)
  | finished {first : CCNxMetaMessage} {work : ℕ} (piece : Transfer.Piece (source request))
      (working : Working lib repo (request piece.origin) config disk client first piece.data work)
      {ending : Ending} (left : client.phase = .left ending) :
      Shows lib repo request config disk client (.finished piece)

/-- What a client shows it has is what stands in its output file. -/
theorem Shows.received_eq {config : ClientConfig} {disk : FileSystem} {client : Client}
    {view : Transfer.View (source request)} (h : Shows lib repo request config disk client view) :
    view.received = client.fs.contentsAt config.outFile := by
  cases h with
  | waiting phase fresh =>
      rw [FileSystem.contentsAt_none fresh]
      rfl
  | receiving piece working running => rfl
  | finished piece working left =>
      have hstands := working.stands
      rw [left] at hstands
      cases hstands with
      | left complete =>
          rw [FileSystem.contentsAt_regular complete]
          rfl

theorem Shows.grows {config : ClientConfig} {disk grown : FileSystem} {client : Client}
    {view : Transfer.View (source request)} {objects : Set CCNxMetaMessage}
    (h : Shows lib repo request config disk client view)
    (hgrows : Grows lib repo objects disk grown)
    (hobjects : ∀ server, ∀ object ∈ (request server).messages lib, object ∈ objects) :
    Shows lib repo request config grown client view := by
  cases h with
  | waiting phase fresh => exact .waiting phase fresh
  | receiving piece working running =>
      exact .receiving piece (working.grows hgrows (hobjects piece.origin)) running
  | finished piece working left =>
      exact .finished piece (working.grows hgrows (hobjects piece.origin)) left

/-- A working client shows that it has its piece, or the start of it. -/
theorem Shows.exists_of_working {config : ClientConfig} {disk : FileSystem} {client : Client}
    {first : CCNxMetaMessage} {work : ℕ} (piece : Transfer.Piece (source request))
    (h : Working lib repo (request piece.origin) config disk client first piece.data work) :
    ∃ view, Shows lib repo request config disk client view ∧ view.piece? = some piece ∧
      ∀ received isPrefix, received <+: client.fs.contentsAt config.outFile →
        Transfer.View.receiving piece received isPrefix ≤ view := by
  by_cases hleft : ∃ ending, client.phase = .left ending
  · obtain ⟨ending, hleft⟩ := hleft
    exact ⟨_, .finished piece h hleft, rfl, fun _ _ _ ↦ .finishing⟩
  · exact ⟨_, .receiving piece h fun ending hending ↦ hleft ⟨ending, hending⟩, rfl,
      fun _ _ hmore ↦ .receiving hmore⟩

theorem Shows.published {config : ClientConfig} {disk : FileSystem} {client : Client}
    {view : Transfer.View (source request)} (h : Shows lib repo request config disk client view)
    {piece : Transfer.Piece (source request)} (hpiece : view.piece? = some piece) :
    (request piece.origin).Published lib repo disk := by
  cases h with
  | waiting phase fresh => cases hpiece
  | receiving same working running =>
      cases hpiece
      exact working.published
  | finished same working left =>
      cases hpiece
      exact working.published

/-- A deployment does what a state of the service says. -/
structure Presents (lib : CCNxLibrary) (repo : CCNxFileRepoCache) (request : κ → LoadRequest)
    (config : ι → ClientConfig) (deployment : Deployment κ ι)
    (service : Transfer.Service (source request) ι) : Prop where
  offered : ∀ server, server ∈ service.offered ↔
    (request server).Published lib repo deployment.disk
  views : ∀ client, Shows lib repo request (config client) deployment.disk
    (deployment.clients client) (service.views client)

theorem Presents.initial (h : Initial repo config deployment) :
    Presents lib repo request config deployment .initial where
  offered server := by
    constructor
    · rintro ⟨⟩
    · intro hpublished
      have hroot : Available lib repo deployment.disk (.manifest ((request server).root lib)) :=
        hpublished _ ManifestBuilder.rootManifest_mem
      have hname : IsEntryName (lib.toHexString
          (lib.computeContentObjectHash (.manifest ((request server).root lib)))) :=
        isEntryName_hex _
      rw [Available, objectPath, h.disk.no_entries _ hname] at hroot
      cases hroot
  views client := by
    obtain ⟨fs, hclient, hfresh⟩ := h.clients client
    rw [hclient]
    exact .waiting (Or.inl rfl) hfresh

variable [DecidableEq κ] [DecidableEq ι] {event : Event κ ι}

/-- A step of a deployment leads every client to the same view or a later one. -/
theorem Invariant.exists_view (hadmissible : Admissible lib request config)
    (h : Invariant lib repo request config deployment) (hwrites : event.WritesFully)
    (hstep : deployment.step lib repo request config event = some next) (client : ι)
    {view : Transfer.View (source request)}
    (hshows : Shows lib repo request (config client) deployment.disk (deployment.clients client)
      view) :
    ∃ later, view ≤ later ∧
      Shows lib repo request (config client) next.disk (next.clients client) later ∧
      (event.isOf client = false → later = view) := by
  rcases client_cases client hstep with ⟨hmine, hsame⟩ | ⟨hmine, hdisk, hmoved⟩ |
    ⟨interest, message, hmine, hdisk, hinterest, hsent, hmatches, hreceived⟩
  · rw [hsame]
    exact ⟨view, le_rfl, hshows.grows (h.grows_step hadmissible hwrites hstep)
      (fun _ _ ↦ mem_builds), fun _ ↦ rfl⟩
  · rw [hmine, hdisk]
    cases hshows with
    | waiting hphase hfresh =>
        rcases hphase with hphase | hphase
        · simp only [Client.localStep, hphase, Option.some.injEq] at hmoved
          rw [← hmoved]
          exact ⟨.waiting, le_rfl, .waiting (Or.inr rfl) hfresh, by simp⟩
        · simp [Client.localStep, hphase] at hmoved
    | receiving piece hworking hrunning =>
        have hcapacity := (hadmissible.chunk piece.origin).trans
          (hadmissible.buffer piece.origin client hworking.name_eq)
        obtain ⟨less, -, hnext⟩ := hworking.localStep hcapacity hmoved
        obtain ⟨later, hlater, -, hle⟩ := Shows.exists_of_working piece hnext
        exact ⟨later, hle _ _ (hworking.stands.contentsAt_localStep hmoved), hlater, by simp⟩
    | finished piece hworking hleft => simp [Client.localStep, hleft] at hmoved
  · rw [hmine, hdisk, hreceived]
    obtain ⟨server, hpublished, hmessage⟩ := h.sent message hsent
    cases hshows with
    | waiting hphase hfresh =>
        rcases hphase with hphase | hphase
        · simp [Client.outstanding, hphase] at hinterest
        · have hname := name_of_matches hphase hinterest hmessage hmatches
          obtain ⟨data, work, hworking, -⟩ :=
            hadmissible.exists_working hphase hfresh hpublished hname hmessage
          obtain ⟨hbytes, -⟩ := hadmissible.data_of_working hworking
          obtain ⟨later, hlater, -, -⟩ := Shows.exists_of_working ⟨server, data, hbytes⟩ hworking
          exact ⟨later, .waiting _, hlater, by simp⟩
    | receiving piece hworking hrunning =>
        obtain ⟨less, -, hnext⟩ :=
          hadmissible.receive_working hworking hinterest (mem_builds hmessage) hmatches
        obtain ⟨later, hlater, -, hle⟩ := Shows.exists_of_working piece hnext
        exact ⟨later, hle _ _ (hworking.stands.contentsAt_receive _), hlater, by simp⟩
    | finished piece hworking hleft => simp [Client.outstanding, hleft] at hinterest

/-! ## The simulation -/

/-- Every step of a deployment is matched by steps of the service. -/
theorem simulates (hadmissible : Admissible lib request config) :
    Transition.Simulates (Deployment.step lib repo request config) Event.WritesFully
      Transfer.Service.step fun deployment service ↦
        Invariant lib repo request config deployment ∧
          Presents lib repo request config deployment service := by
  rintro deployment service event next hwrites ⟨hinvariant, hoffered, hviews⟩ hstep
  have hgrows := hinvariant.grows_step hadmissible hwrites hstep
  have hnow : ∀ server, server ∈ (service.offer {server |
      (request server).Published lib repo next.disk}).offered ↔
        (request server).Published lib repo next.disk := by
    intro server
    constructor
    · rintro (hold | hnew)
      · exact ((hoffered server).mp hold).grows hgrows fun _ ↦ mem_builds
      · exact hnew
    · exact Or.inr
  have hkept (client : ι) (hother : event.isOf client = false) :
      Shows lib repo request (config client) next.disk (next.clients client)
        (service.views client) := by
    obtain ⟨later, -, hshows, hsame⟩ :=
      hinvariant.exists_view hadmissible hwrites hstep client (hviews client)
    exact hsame hother ▸ hshows
  cases hclient : event.client? with
  | none =>
      refine ⟨[.offer _], _, rfl, hinvariant.step hadmissible hwrites hstep, hnow,
        fun client ↦ hkept client ?_⟩
      simp [Event.isOf, hclient]
  | some client =>
      obtain ⟨later, hle, hshows, -⟩ :=
        hinvariant.exists_view hadmissible hwrites hstep client (hviews client)
      obtain ⟨events, hevents⟩ := Transfer.Service.exists_run_of_le
        (service.offer {server | (request server).Published lib repo next.disk}) hle
        fun piece hpiece ↦ (hnow _).mpr (hshows.published hpiece)
      refine ⟨.offer _ :: events, _, hevents, hinvariant.step hadmissible hwrites hstep, hnow,
        fun other ↦ ?_⟩
      by_cases hother : other = client
      · subst hother
        rwa [Transfer.Service.views_see_self]
      · rw [Transfer.Service.views_see_of_ne hother]
        apply hkept
        simp [Event.isOf, hclient, Ne.symm hother]

end Deployment

variable {κ ι : Type} [DecidableEq κ] [DecidableEq ι]

/-- Every run of a deployment is a run of the transfer service, and what happens later is a
continuation of it.  So no file is taken back that was offered, and every output file grows. -/
theorem deployment_refines (lib : CCNxLibrary) (repo : CCNxFileRepoCache)
    (request : κ → LoadRequest) (config : ι → ClientConfig)
    (hadmissible : Admissible lib request config) (initial : Deployment κ ι)
    (hinitial : Deployment.Initial repo config initial)
    (first second : List (Deployment.Event κ ι))
    (hwrites : ∀ event ∈ first ++ second, event.WritesFully) (middle final : Deployment κ ι)
    (hfirst : Transition.run (Deployment.step lib repo request config) initial first =
      some middle)
    (hsecond : Transition.run (Deployment.step lib repo request config) middle second =
      some final) :
    ∃ past future service later,
      Transition.run Transfer.Service.step Transfer.Service.initial past = some service ∧
      Transition.run Transfer.Service.step service future = some later ∧
      Deployment.Presents lib repo request config middle service ∧
      Deployment.Presents lib repo request config final later ∧ service ≤ later ∧
      ∀ client, (middle.clients client).fs.contentsAt (config client).outFile <+:
        (final.clients client).fs.contentsAt (config client).outFile := by
  obtain ⟨hbefore, hafter⟩ := List.forall_mem_append.mp hwrites
  obtain ⟨past, service, hpast, hinvariant, hservice⟩ :=
    (Deployment.simulates hadmissible).run ⟨.initial hinitial, .initial hinitial⟩ hbefore hfirst
  obtain ⟨future, later, hfuture, -, hlater⟩ :=
    (Deployment.simulates hadmissible).run ⟨hinvariant, hservice⟩ hafter hsecond
  have hle := Transfer.Service.le_run hfuture
  refine ⟨past, future, service, later, hpast, hfuture, hservice, hlater, hle, fun client ↦ ?_⟩
  rw [← (hservice.views client).received_eq, ← (hlater.views client).received_eq]
  exact Transfer.View.received_prefix (hle.2 client)

open ReferenceLibrary in
/-- The run of `crashEvents`, before and after the crash. -/
theorem deployment_refines_crash : ∃ middle final,
    Transition.run (Deployment.step referenceLibrary crashRepo crashRequest crashConfig)
      crashInitial (crashEvents.take 5) = some middle ∧
    Transition.run (Deployment.step referenceLibrary crashRepo crashRequest crashConfig)
      middle (crashEvents.drop 5) = some final ∧
    ∃ past future service later,
      Transition.run Transfer.Service.step Transfer.Service.initial past = some service ∧
      Transition.run Transfer.Service.step service future = some later ∧
      Deployment.Presents referenceLibrary crashRepo crashRequest crashConfig middle service ∧
      Deployment.Presents referenceLibrary crashRepo crashRequest crashConfig final later ∧
      service ≤ later ∧
      ∀ client, (middle.clients client).fs.contentsAt (crashConfig client).outFile <+:
        (final.clients client).fs.contentsAt (crashConfig client).outFile := by
  obtain ⟨final, hrun⟩ := exists_run_crashEvents
  rw [← List.take_append_drop 5 crashEvents, Transition.run_append] at hrun
  obtain ⟨middle, hfirst, hsecond⟩ := Option.bind_eq_some_iff.mp hrun
  have hwrites : ∀ event ∈ crashEvents.take 5 ++ crashEvents.drop 5, event.WritesFully := by
    rw [List.take_append_drop]
    exact crashEvents_writeFully
  exact ⟨middle, final, hfirst, hsecond, deployment_refines referenceLibrary crashRepo crashRequest
    crashConfig crash_admissible crashInitial crashInitial_initial _ _ hwrites middle final hfirst
    hsecond⟩

end CCNxFileRepo
