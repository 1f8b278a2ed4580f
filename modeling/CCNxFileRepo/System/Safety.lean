import CCNxFileRepo.System.DeploymentInvariant

/-!
# What a deployment never does

No server and no client of a deployment is ever stopped, and no client ever has a byte in its output
file that does not belong there.  The file grows from nothing to the data under the first message
of the client, which is a piece of what some server of this name has published.  Crashes of servers,
loads that run at the same time and the traffic of other clients make no difference to this.
-/

namespace CCNxFileRepo

open Foundations CCNxFileRepoCache CCNxFileRepoManifestFetcher CCNxFileRepoClient

/-- The data of a download is in its file, or still to come behind what is there. -/
theorem CCNxFileRepoClient.Stands.contentsAt_prefix
    {respond : CCNxInterest → Option CCNxMetaMessage} {locator : CCNxName} {outFile : CString}
    {fs : FileSystem} {data : Bytes} {phase : Phase}
    (h : Stands respond locator outFile fs data phase) : fs.contentsAt outFile <+: data := by
  cases h with
  | filling downloads | awaitingObject _ downloads _ =>
      obtain ⟨queue, -, rfl⟩ := downloads.upcoming
      rw [List.append_assoc]
      exact List.prefix_append _ _
  | left complete =>
      rw [FileSystem.contentsAt_regular complete]

namespace Deployment

variable {κ ι : Type}

/-- What a client of a deployment can have in its file: nothing before its first message, and then
the start of a piece of the file that a server of its name has published, all of this piece when it
has left. -/
def Sound (lib : CCNxLibrary) (request : κ → LoadRequest) (config : ClientConfig)
    (client : Client) : Prop :=
  (∀ stop, client.phase ≠ .stopped stop) ∧
  match client.accepted with
  | none => (client.phase = .idle ∨ client.phase = .awaitingFirst) ∧
      client.fs config.outFile = none
  | some first => ∃ server data, (request server).name = config.target ∧
      first ∈ (request server).messages lib ∧
      Yields (findObject lib ((request server).messages lib)) first data ∧
      data <:+: (request server).file ∧
      (first = .manifest ((request server).root lib) → data = (request server).file) ∧
      client.fs.contentsAt config.outFile <+: data ∧
      ∀ ending, client.phase = .left ending → client.fs config.outFile = some (.regular data)

variable {lib : CCNxLibrary} {repo : CCNxFileRepoCache} {request : κ → LoadRequest}
  {config : ι → ClientConfig}

theorem Invariant.sound {deployment : Deployment κ ι} (hadmissible : Admissible lib request config)
    (h : Invariant lib repo request config deployment) (client : ι) :
    Sound lib request (config client) (deployment.clients client) := by
  obtain ⟨taken, hstanding⟩ := h.clients client
  cases hstanding with
  | idle hphase haccepted hfresh =>
      refine ⟨by simp [hphase], ?_⟩
      rw [haccepted]
      exact ⟨Or.inl hphase, hfresh⟩
  | awaitingFirst hphase haccepted hfresh =>
      refine ⟨by simp [hphase], ?_⟩
      rw [haccepted]
      exact ⟨Or.inr hphase, hfresh⟩
  | @working server first data _ _ hworking hbound =>
      have hstands := hworking.stands
      constructor
      · intro stop hstop
        rw [hstop] at hstands
        cases hstands
      · obtain ⟨hbytes, hroot⟩ := hadmissible.data_of_working hworking
        rw [hworking.accepted]
        refine ⟨server, data, hworking.name_eq, hworking.member, hworking.yields, hbytes, hroot,
          hstands.contentsAt_prefix, fun ending hleft ↦ ?_⟩
        rw [hleft] at hstands
        cases hstands with
        | left hcomplete => exact hcomplete

theorem Invariant.not_stopped {deployment : Deployment κ ι}
    (h : Invariant lib repo request config deployment) (server : κ) (stop : Stop) :
    deployment.servers server ≠ .stopped stop := by
  intro hstop
  have hserver := h.servers server
  rw [hstop] at hserver
  cases hserver

end Deployment

variable {κ ι : Type} [DecidableEq κ] [DecidableEq ι]

/-- In every run of a deployment in which the writes of the servers do not fall short, whatever
servers are killed and started again, no process is stopped and every output file is sound at every
moment. -/
theorem deployment_sound (lib : CCNxLibrary) (repo : CCNxFileRepoCache)
    (request : κ → LoadRequest) (config : ι → ClientConfig)
    (hadmissible : Admissible lib request config) (initial : Deployment κ ι)
    (hinitial : Deployment.Initial repo config initial) (events : List (Deployment.Event κ ι))
    (hwrites : ∀ event ∈ events, event.WritesFully) (final : Deployment κ ι)
    (hrun : Transition.run (Deployment.step lib repo request config) initial events =
      some final) :
    (∀ server stop, final.servers server ≠ .stopped stop) ∧
      ∀ client, Deployment.Sound lib request (config client) (final.clients client) := by
  have hfinal := (Deployment.Invariant.initial hinitial).run hadmissible hwrites hrun
  exact ⟨hfinal.not_stopped, hfinal.sound hadmissible⟩

section Sample

open ReferenceLibrary

/-- Two files that end with the same byte, published under one name. -/
def crashRequest : Bool → LoadRequest
  | false => ⟨[1, 2], ⟨[[1]]⟩, 1, 3⟩
  | true => ⟨[3, 2], ⟨[[1]]⟩, 1, 2⟩

def crashRepo : CCNxFileRepoCache := ⟨['r'], 1⟩

def crashConfig : Bool → ClientConfig := fun _ ↦ ⟨⟨[[1]]⟩, ['o'], 1⟩

def crashInitial : Deployment Bool Bool where
  servers _ := .down
  disk := crashRepo.freshDisk
  clients _ := .fresh fun _ ↦ none
  interests := []
  sent := []

/-- Both servers load, and the first one is killed in the middle of its second save.  A client
downloads from the other one. -/
def crashEvents : List (Deployment.Event Bool Bool) :=
  [.server false .start, .server true .start, .server false (.save .complete),
    .server true (.save .complete), .server false (.kill (.written 1)), .run true,
    .server true (.save .complete), .server true (.save .complete), .server true (.save .complete),
    .server true .listen, .serve true ⟨⟨[[1]]⟩, none⟩,
    .deliver true (.manifest ((crashRequest true).root referenceLibrary)), .run true]

theorem crash_admissible : Admissible referenceLibrary crashRequest crashConfig where
  chunk := by decide
  capacity := by decide
  buffer server _ _ := by cases server <;> exact le_rfl
  collisionFree := collisionFreeOn _

theorem crashInitial_initial : Deployment.Initial crashRepo crashConfig crashInitial where
  servers _ := rfl
  disk := emptyRepository_freshDisk _
  clients _ := ⟨fun _ ↦ none, rfl, rfl⟩
  interests := rfl
  sent := rfl

theorem crashEvents_writeFully : ∀ event ∈ crashEvents, event.WritesFully := by
  simp [crashEvents, Deployment.Event.WritesFully, ServerEvent.WritesFully]

set_option maxRecDepth 2000 in
theorem exists_run_crashEvents : ∃ final,
    Transition.run (Deployment.step referenceLibrary crashRepo crashRequest crashConfig)
      crashInitial crashEvents = some final := by
  apply Option.isSome_iff_exists.mp
  decide

/-- The run of `crashEvents`. -/
theorem deployment_sound_crash : ∃ final,
    Transition.run (Deployment.step referenceLibrary crashRepo crashRequest crashConfig)
      crashInitial crashEvents = some final ∧
    (∀ server stop, final.servers server ≠ .stopped stop) ∧
      ∀ client, Deployment.Sound referenceLibrary crashRequest (crashConfig client)
        (final.clients client) := by
  obtain ⟨final, hrun⟩ := exists_run_crashEvents
  exact ⟨final, hrun, deployment_sound referenceLibrary crashRepo crashRequest crashConfig
    crash_admissible crashInitial crashInitial_initial crashEvents crashEvents_writeFully final
    hrun⟩

end Sample

end CCNxFileRepo
