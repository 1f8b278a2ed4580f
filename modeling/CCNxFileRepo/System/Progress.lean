import CCNxFileRepo.System.Safety

/-!
# A deployment has no dead ends

Whatever has happened to a deployment, one server and one client that asks for its name are enough
to bring the download of this client to its end.  If the server is down it is started again, and as
it saves the same objects under the same digests as before, a client can go on where it was.  The
way there is short: no client has more steps to make than three for each object of a build.
-/

namespace CCNxFileRepo

open Foundations CCNxFileRepoCache CCNxFileRepoManifestFetcher CCNxFileRepoClient

/-- A working client has left, can go on alone, or waits for an answer. -/
theorem CCNxFileRepoClient.Stands.phase_cases {respond : CCNxInterest → Option CCNxMetaMessage}
    {locator : CCNxName} {config : ClientConfig} {client : Client} {data : Bytes}
    (h : Stands respond locator config.outFile client.fs data client.phase) :
    (∃ ending, client.phase = .left ending) ∨
      (∃ next, client.localStep config = some next) ∨
      ∃ interest, client.outstanding config = some interest := by
  obtain ⟨phase, fs, accepted⟩ := client
  cases h with
  | filling downloads => exact Or.inr (Or.inl ⟨_, rfl⟩)
  | awaitingObject fetcher downloads asked => exact Or.inr (Or.inr ⟨_, rfl⟩)
  | left complete => exact Or.inl ⟨_, rfl⟩

namespace Deployment

variable {κ ι : Type}

def Event.Involves (server : κ) (client : ι) : Event κ ι → Prop
  | .server other _ => other = server
  | .serve other _ => other = server
  | .run other => other = client
  | .deliver other _ => other = client

variable {lib : CCNxLibrary} {repo : CCNxFileRepoCache} {request : κ → LoadRequest}
  {config : ι → ClientConfig} {deployment next : Deployment κ ι} {server worker : κ} {client : ι}
  {first : CCNxMetaMessage} {data : Bytes} {work : ℕ}

/-- A server finds every object of a published build for an interest in its own name. -/
theorem Invariant.serverReply_object (h : Invariant lib repo request config deployment)
    (hpublished : (request worker).Published lib repo deployment.disk) {object : CCNxMetaMessage}
    (hobject : object ∈ (request worker).messages lib) :
    (request server).serverReply lib repo deployment.disk
      ⟨(request server).name, some (lib.computeContentObjectHash object)⟩ =
        .ok (some object) := by
  obtain ⟨progress, hrepresents⟩ := h.represents
  apply Producer.handleRequest_stored rfl rfl
  rw [LoadRequest.producer, hrepresents.lookup_eq_complete_iff (mem_builds hobject),
    ← hrepresents.available_iff (mem_builds hobject)]
  exact hpublished object hobject

/-- A client at work on what `worker` has published, and a server of this name that listens. -/
structure Engaged (lib : CCNxLibrary) (repo : CCNxFileRepoCache) (request : κ → LoadRequest)
    (config : ι → ClientConfig) (server worker : κ) (client : ι) (first : CCNxMetaMessage)
    (data : Bytes) (deployment : Deployment κ ι) (work : ℕ) : Prop where
  invariant : Invariant lib repo request config deployment
  name_eq : (request server).name = (config client).target
  serving : deployment.servers server = .serving
  working : Working lib repo (request worker) (config client) deployment.disk
    (deployment.clients client) first data work

/-- What a client waits for, the server has for it. -/
theorem Engaged.exists_reply (hadmissible : Admissible lib request config)
    (h : Engaged lib repo request config server worker client first data deployment work)
    {interest : CCNxInterest}
    (hinterest : (deployment.clients client).outstanding (config client) = some interest) :
    ∃ object, (request server).serverReply lib repo deployment.disk interest = .ok (some object) ∧
      interest.matches lib object = true ∧
      (request worker).respond lib interest = some object := by
  obtain ⟨object, hobject, rfl⟩ := h.working.exists_answer hinterest
  refine ⟨object, ?_, ?_, hadmissible.resolves worker object hobject⟩
  · rw [← h.name_eq]
    exact h.invariant.serverReply_object h.working.published hobject
  · simp [CCNxInterest.matches, ManifestBuilder.objectName_of_mem hobject,
      h.working.name_eq.symm]

variable [DecidableEq κ] [DecidableEq ι]

theorem run_exchange {interest : CCNxInterest} {message : CCNxMetaMessage}
    (hserving : deployment.servers server = .serving)
    (hasked : interest ∈ deployment.interests)
    (hinterest : (deployment.clients client).outstanding (config client) = some interest)
    (hreply : (request server).serverReply lib repo deployment.disk interest =
      .ok (some message)) (hmatches : interest.matches lib message = true) :
    Transition.run (Deployment.step lib repo request config) deployment
        [.serve server interest, .deliver client message] = some { deployment with
      clients := Function.update deployment.clients client
        ((deployment.clients client).receive (config client) (some message))
      sent := deployment.sent ++ [message] } := by
  have hserve : deployment.step lib repo request config (.serve server interest) =
      some { deployment with sent := deployment.sent ++ [message] } := by
    apply step_serve_iff.mpr
    simp [hserving, hasked, hreply]
  rw [Transition.run_cons_of_step hserve, Transition.run_singleton]
  apply step_deliver_iff.mpr
  exact ⟨interest, hinterest, by simp, hmatches, rfl⟩

/-! ## Servers come up -/

theorem Invariant.exists_serving_of_loading (hadmissible : Admissible lib request config)
    {remaining : List CCNxMetaMessage} (h : Invariant lib repo request config deployment)
    (hloading : deployment.servers server = .loading remaining) :
    ∃ events next, (∀ event ∈ events, event.WritesFully ∧ event.Involves server client) ∧
      Transition.run (Deployment.step lib repo request config) deployment events = some next ∧
      next.servers server = .serving ∧ next.clients = deployment.clients := by
  induction remaining generalizing deployment with
  | nil =>
      have hlisten : deployment.step lib repo request config (.server server .listen) =
          some { deployment with
            servers := Function.update deployment.servers server .serving } := by
        apply step_server_iff.mpr
        exact ⟨.serving, deployment.disk, by rw [hloading]; rfl, rfl⟩
      refine ⟨[.server server .listen], _, ?_, Transition.run_singleton.trans hlisten, ?_, rfl⟩
      · simp [Event.WritesFully, ServerEvent.WritesFully, Event.Involves]
      · exact Function.update_self ..
  | cons message remaining ih =>
      have hserver := h.servers server
      rw [hloading] at hserver
      obtain ⟨progress, hrepresents⟩ := h.represents
      cases hserver with
      | loading split available =>
          have hmessage : message ∈ builds lib request :=
            mem_builds (split ▸ List.mem_append_right _ (List.mem_cons_self ..))
          obtain ⟨saved, hsaved, -⟩ :=
            Grows.saveToRepo hadmissible.collisionFree hrepresents hmessage .complete
          have hsave : deployment.step lib repo request config
              (.server server (.save .complete)) = some { deployment with
                servers := Function.update deployment.servers server (.loading remaining)
                disk := saved } := by
            apply step_server_iff.mpr
            refine ⟨.loading remaining, saved, ?_, rfl⟩
            simp only [hloading, LoadRequest.serverStep, hsaved]
          have hinvariant := h.step hadmissible (by exact rfl) hsave
          obtain ⟨events, next, hevents, hrun, hnext⟩ :=
            ih hinvariant (Function.update_self ..)
          refine ⟨.server server (.save .complete) :: events, next, ?_, ?_, hnext⟩
          · exact List.forall_mem_cons.mpr ⟨⟨rfl, rfl⟩, hevents⟩
          · rw [Transition.run_cons_of_step hsave]
            exact hrun

/-- From wherever it stands, a server can be brought to listen. -/
theorem Invariant.exists_serving (hadmissible : Admissible lib request config) (server : κ)
    (client : ι) (h : Invariant lib repo request config deployment) :
    ∃ events next, (∀ event ∈ events, event.WritesFully ∧ event.Involves server client) ∧
      Transition.run (Deployment.step lib repo request config) deployment events = some next ∧
      next.servers server = .serving ∧ next.clients = deployment.clients := by
  cases hphase : deployment.servers server with
  | down =>
      have hstart : deployment.step lib repo request config (.server server .start) =
          some { deployment with
            servers := Function.update deployment.servers server
              (.loading ((request server).messages lib)) } := by
        apply step_server_iff.mpr
        exact ⟨.loading ((request server).messages lib), deployment.disk, by rw [hphase]; rfl, rfl⟩
      have hinvariant := h.step hadmissible (by trivial) hstart
      obtain ⟨events, next, hevents, hrun, hnext⟩ :=
        hinvariant.exists_serving_of_loading hadmissible (Function.update_self ..)
      refine ⟨.server server .start :: events, next, ?_, ?_, hnext⟩
      · exact List.forall_mem_cons.mpr ⟨⟨trivial, rfl⟩, hevents⟩
      · rw [Transition.run_cons_of_step hstart]
        exact hrun
  | loading remaining => exact h.exists_serving_of_loading hadmissible hphase
  | serving => exact ⟨[], deployment, by simp, rfl, hphase, rfl⟩
  | stopped stop => exact absurd hphase (h.not_stopped server stop)

/-! ## Clients come to their end -/

/-- A client that waits for nothing takes a step alone. -/
theorem Engaged.run (hadmissible : Admissible lib request config)
    (h : Engaged lib repo request config server worker client first data deployment work)
    {moved : Client}
    (hmoved : (deployment.clients client).localStep (config client) = some moved) :
    ∃ next less, less < work ∧
      deployment.step lib repo request config (.run client) = some next ∧
      Engaged lib repo request config server worker client first data next less := by
  have hcapacity := (hadmissible.chunk server).trans
    (hadmissible.buffer server client h.name_eq)
  obtain ⟨less, hless, hworking⟩ := h.working.localStep hcapacity hmoved
  have hstep : deployment.step lib repo request config (.run client) = some { deployment with
      clients := Function.update deployment.clients client moved
      interests := deployment.interests ++ (moved.outstanding (config client)).toList } :=
    step_run_iff.mpr ⟨moved, hmoved, rfl⟩
  refine ⟨_, less, hless, hstep, h.invariant.step hadmissible (by trivial) hstep, h.name_eq,
    h.serving, ?_⟩
  simpa only [Function.update_self] using hworking

/-- A client that waits for an object takes a step once the server has answered. -/
theorem Engaged.exchange (hadmissible : Admissible lib request config)
    (h : Engaged lib repo request config server worker client first data deployment work)
    {interest : CCNxInterest}
    (hinterest : (deployment.clients client).outstanding (config client) = some interest) :
    ∃ message next less, less < work ∧
      Transition.run (Deployment.step lib repo request config) deployment
        [.serve server interest, .deliver client message] = some next ∧
      Engaged lib repo request config server worker client first data next less := by
  obtain ⟨object, hreply, hmatches, hrespond⟩ := h.exists_reply hadmissible hinterest
  obtain ⟨less, hless, hworking⟩ := h.working.receive hinterest hrespond
  have hrun := run_exchange h.serving (h.invariant.asked client interest hinterest) hinterest
    hreply hmatches
  refine ⟨object, _, less, hless, hrun, h.invariant.run hadmissible ?_ hrun, h.name_eq, h.serving,
    ?_⟩
  · simp [Event.WritesFully]
  · simpa only [Function.update_self] using hworking

/-- The server brings the client to its end, in two events for each step. -/
theorem Engaged.exists_left (hadmissible : Admissible lib request config)
    (h : Engaged lib repo request config server worker client first data deployment work) :
    ∃ events final less, events.length ≤ 2 * work ∧
      (∀ event ∈ events, event.WritesFully ∧ event.Involves server client) ∧
      Transition.run (Deployment.step lib repo request config) deployment events = some final ∧
      Engaged lib repo request config server worker client first data final less ∧
      ∃ ending, (final.clients client).phase = .left ending := by
  apply Transition.exists_run_of_progress _ h
  intro state left hstate
  rcases hstate.working.stands.phase_cases with hleft | ⟨moved, hmoved⟩ | ⟨interest, hinterest⟩
  · exact Or.inl hleft
  · obtain ⟨next, less, hless, hstep, hnext⟩ := hstate.run hadmissible hmoved
    refine Or.inr ⟨[.run client], next, less, hless, by simp, ?_,
      Transition.run_singleton.trans hstep, hnext⟩
    simp [Event.WritesFully, Event.Involves]
  · obtain ⟨message, next, less, hless, hrun, hnext⟩ := hstate.exchange hadmissible hinterest
    refine Or.inr ⟨_, next, less, hless, le_rfl, ?_, hrun, hnext⟩
    simp [Event.WritesFully, Event.Involves]

/-- A client that waits for its first message gets the root manifest from the server. -/
theorem Invariant.exists_engaged (hadmissible : Admissible lib request config)
    (h : Invariant lib repo request config deployment)
    (hname : (request server).name = (config client).target)
    (hserving : deployment.servers server = .serving)
    (hphase : (deployment.clients client).phase = .awaitingFirst)
    (hfresh : (deployment.clients client).fs (config client).outFile = none) :
    ∃ events next work, (∀ event ∈ events, event.WritesFully ∧ event.Involves server client) ∧
      Transition.run (Deployment.step lib repo request config) deployment events = some next ∧
      Engaged lib repo request config server server client
        (.manifest ((request server).root lib)) (request server).file next work := by
  have hpublished : (request server).Published lib repo deployment.disk := by
    have hserver := h.servers server
    rw [hserving] at hserver
    cases hserver with
    | serving published => exact published
  have hinterest : (deployment.clients client).outstanding (config client) =
      some ⟨(config client).target, none⟩ := by
    simp only [Client.outstanding, hphase]
  have hreply : (request server).serverReply lib repo deployment.disk
      ⟨(config client).target, none⟩ = .ok (some (.manifest ((request server).root lib))) :=
    Producer.handleRequest_root hname.symm rfl
  have hmember : .manifest ((request server).root lib) ∈ (request server).messages lib :=
    ManifestBuilder.rootManifest_mem
  have hmatches : CCNxInterest.matches lib ⟨(config client).target, none⟩
      (.manifest ((request server).root lib)) = true := by
    simp [CCNxInterest.matches, ManifestBuilder.objectName_of_mem hmember, hname]
  obtain ⟨data, work, hworking, -⟩ :=
    hadmissible.exists_working hphase hfresh hpublished hname hmember
  obtain ⟨-, hdata⟩ := hadmissible.data_of_working hworking
  obtain rfl := hdata rfl
  have hrun := run_exchange hserving (h.asked client _ hinterest) hinterest hreply hmatches
  refine ⟨_, _, work, ?_, hrun, h.run hadmissible ?_ hrun, hname, hserving, ?_⟩
  · simp [Event.WritesFully, Event.Involves]
  · simp [Event.WritesFully]
  · simpa only [Function.update_self] using hworking

/-- A server that listens and a client of its name are enough to bring the client to its end. -/
theorem Invariant.exists_end (hadmissible : Admissible lib request config)
    (h : Invariant lib repo request config deployment)
    (hname : (request server).name = (config client).target)
    (hserving : deployment.servers server = .serving) :
    ∃ events final, (∀ event ∈ events, event.WritesFully ∧ event.Involves server client) ∧
      Transition.run (Deployment.step lib repo request config) deployment events = some final ∧
      (∃ ending, (final.clients client).phase = .left ending) ∧
      ((deployment.clients client).accepted = none →
        (final.clients client).fs (config client).outFile =
          some (.regular (request server).file)) := by
  have hfirst (state : Deployment κ ι) (hstate : Invariant lib repo request config state)
      (hup : state.servers server = .serving)
      (hphase : (state.clients client).phase = .awaitingFirst)
      (hfresh : (state.clients client).fs (config client).outFile = none) :
      ∃ events final, (∀ event ∈ events, event.WritesFully ∧ event.Involves server client) ∧
        Transition.run (Deployment.step lib repo request config) state events = some final ∧
        (∃ ending, (final.clients client).phase = .left ending) ∧
        (final.clients client).fs (config client).outFile =
          some (.regular (request server).file) := by
    obtain ⟨start, next, work, hstart, hrun, hengaged⟩ :=
      hstate.exists_engaged hadmissible hname hup hphase hfresh
    obtain ⟨rest, final, less, -, hrest, hruns, hlast, ending, hleft⟩ :=
      hengaged.exists_left hadmissible
    refine ⟨start ++ rest, final, List.forall_mem_append.mpr ⟨hstart, hrest⟩, ?_, ⟨ending, hleft⟩,
      ?_⟩
    · rw [Transition.run_append_of_run hrun]
      exact hruns
    · have hstands := hlast.working.stands
      rw [hleft] at hstands
      cases hstands with
      | left hcomplete => exact hcomplete
  obtain ⟨taken, hstanding⟩ := h.clients client
  cases hstanding with
  | idle hphase haccepted hfresh =>
      have hstep : deployment.step lib repo request config (.run client) = some { deployment with
          clients := Function.update deployment.clients client
            { deployment.clients client with phase := .awaitingFirst }
          interests := deployment.interests ++ [⟨(config client).target, none⟩] } := by
        apply step_run_iff.mpr
        exact ⟨_, by simp only [Client.localStep, hphase], rfl⟩
      have hnext := h.step hadmissible (by trivial) hstep
      obtain ⟨events, final, hevents, hrun, hleft, hfile⟩ := hfirst _ hnext hserving
        (by simp only [Function.update_self]) (by simpa only [Function.update_self] using hfresh)
      refine ⟨.run client :: events, final, ?_, ?_, hleft, fun _ ↦ hfile⟩
      · exact List.forall_mem_cons.mpr ⟨⟨trivial, rfl⟩, hevents⟩
      · rw [Transition.run_cons_of_step hstep]
        exact hrun
  | awaitingFirst hphase haccepted hfresh =>
      obtain ⟨events, final, hevents, hrun, hleft, hfile⟩ := hfirst _ h hserving hphase hfresh
      exact ⟨events, final, hevents, hrun, hleft, fun _ ↦ hfile⟩
  | working worker hworking hbound =>
      have hengaged : Engaged lib repo request config server worker client _ _ deployment _ :=
        ⟨h, hname, hserving, hworking⟩
      obtain ⟨events, final, less, -, hevents, hrun, -, hleft⟩ := hengaged.exists_left hadmissible
      refine ⟨events, final, hevents, hrun, hleft, fun hnone ↦ ?_⟩
      rw [hworking.accepted] at hnone
      cases hnone

end Deployment

variable {κ ι : Type} [DecidableEq κ] [DecidableEq ι]

/-- From every state that a deployment can reach, whatever servers were killed on the way, any
server of the name a client asks for can bring this client to its end, alone: no other server and
no other client has to make a step.  The output file is complete then, and it is the file of this
server if the client had no first message before. -/
theorem download_possible (lib : CCNxLibrary) (repo : CCNxFileRepoCache)
    (request : κ → LoadRequest) (config : ι → ClientConfig)
    (hadmissible : Admissible lib request config) (initial : Deployment κ ι)
    (hinitial : Deployment.Initial repo config initial) (events : List (Deployment.Event κ ι))
    (hwrites : ∀ event ∈ events, event.WritesFully) (reached : Deployment κ ι)
    (hrun : Transition.run (Deployment.step lib repo request config) initial events =
      some reached) (server : κ) (client : ι)
    (hname : (request server).name = (config client).target) :
    ∃ more final, (∀ event ∈ more, event.WritesFully ∧ event.Involves server client) ∧
      Transition.run (Deployment.step lib repo request config) reached more = some final ∧
      (∃ ending, (final.clients client).phase = .left ending) ∧
      Deployment.Sound lib request (config client) (final.clients client) ∧
      ((reached.clients client).accepted = none →
        (final.clients client).fs (config client).outFile =
          some (.regular (request server).file)) := by
  have hreached := (Deployment.Invariant.initial hinitial).run hadmissible hwrites hrun
  obtain ⟨start, up, hstart, hup, hserving, hclients⟩ :=
    hreached.exists_serving hadmissible server client
  have hinvariant := hreached.run hadmissible (fun event hevent ↦ (hstart event hevent).1) hup
  obtain ⟨rest, final, hrest, hfinal, hleft, hfile⟩ :=
    hinvariant.exists_end hadmissible hname hserving
  have hlast := hinvariant.run hadmissible (fun event hevent ↦ (hrest event hevent).1) hfinal
  rw [hclients] at hfile
  refine ⟨start ++ rest, final, List.forall_mem_append.mpr ⟨hstart, hrest⟩, ?_, hleft,
    hlast.sound hadmissible client, hfile⟩
  rw [Transition.run_append_of_run hup]
  exact hfinal

open ReferenceLibrary in
/-- The server that was killed in `crashEvents` serves the client that had not been started. -/
theorem download_possible_crash : ∃ reached more final,
    Transition.run (Deployment.step referenceLibrary crashRepo crashRequest crashConfig)
      crashInitial crashEvents = some reached ∧
    (∀ event ∈ more, event.WritesFully ∧ event.Involves false false) ∧
    Transition.run (Deployment.step referenceLibrary crashRepo crashRequest crashConfig)
      reached more = some final ∧
    (∃ ending, (final.clients false).phase = .left ending) ∧
    Deployment.Sound referenceLibrary crashRequest (crashConfig false) (final.clients false) ∧
    ((reached.clients false).accepted = none →
      (final.clients false).fs (crashConfig false).outFile =
        some (.regular (crashRequest false).file)) := by
  obtain ⟨reached, hrun⟩ := exists_run_crashEvents
  obtain ⟨more, final, hmore⟩ := download_possible referenceLibrary crashRepo crashRequest
    crashConfig crash_admissible crashInitial crashInitial_initial crashEvents
    crashEvents_writeFully reached hrun false false rfl
  exact ⟨reached, more, final, hrun, hmore⟩

/-- In every run of a deployment, a client that has no first message has made one step at most, and
any other one three steps at most for each object of a build that its first message is from. -/
theorem clientSteps_le (lib : CCNxLibrary) (repo : CCNxFileRepoCache)
    (request : κ → LoadRequest) (config : ι → ClientConfig)
    (hadmissible : Admissible lib request config) (initial : Deployment κ ι)
    (hinitial : Deployment.Initial repo config initial) (events : List (Deployment.Event κ ι))
    (hwrites : ∀ event ∈ events, event.WritesFully) (final : Deployment κ ι)
    (hrun : Transition.run (Deployment.step lib repo request config) initial events =
      some final) (client : ι) :
    ((final.clients client).accepted = none →
      events.countP (Deployment.Event.isOf client) ≤ 1) ∧
    ∀ first, (final.clients client).accepted = some first → ∃ server,
      (request server).name = (config client).target ∧
      first ∈ (request server).messages lib ∧
      events.countP (Deployment.Event.isOf client) ≤
        3 * ((request server).messages lib).length := by
  have hstart : Deployment.Invariant lib repo request config initial := .initial hinitial
  obtain ⟨fs, hfresh, hfile⟩ := hinitial.clients client
  have hidle : Standing lib repo request (config client) initial.disk
      (initial.clients client) 0 := by
    rw [hfresh]
    exact .idle rfl rfl hfile
  obtain ⟨-, hstanding⟩ := Transition.run_countP (Deployment.Event.isOf client)
    (motive := fun (state : Deployment κ ι) taken ↦
      Deployment.Invariant lib repo request config state ∧
        Standing lib repo request (config client) state.disk (state.clients client) taken)
    (fun state event next taken hevent hstate hstep ↦
      ⟨hstate.1.step hadmissible hevent hstep,
        hstate.1.standing_step hadmissible hevent hstep hstate.2⟩)
    hrun hwrites ⟨hstart, hidle⟩
  rw [Nat.zero_add] at hstanding
  generalize events.countP (Deployment.Event.isOf client) = taken at hstanding ⊢
  cases hstanding with
  | idle hphase haccepted hfresh => simp [haccepted]
  | awaitingFirst hphase haccepted hfresh => simp [haccepted]
  | working server hworking hbound =>
      rw [hworking.accepted]
      refine ⟨by simp, fun first hfirst ↦ ⟨server, hworking.name_eq, ?_, by omega⟩⟩
      exact Option.some.inj hfirst ▸ hworking.member


open ReferenceLibrary in
/-- The client that downloads in `crashEvents`. -/
theorem clientSteps_le_crash : ∃ final,
    Transition.run (Deployment.step referenceLibrary crashRepo crashRequest crashConfig)
      crashInitial crashEvents = some final ∧
    ((final.clients true).accepted = none →
      crashEvents.countP (Deployment.Event.isOf true) ≤ 1) ∧
    ∀ first, (final.clients true).accepted = some first → ∃ server,
      (crashRequest server).name = (crashConfig true).target ∧
      first ∈ (crashRequest server).messages referenceLibrary ∧
      crashEvents.countP (Deployment.Event.isOf true) ≤
        3 * ((crashRequest server).messages referenceLibrary).length := by
  obtain ⟨final, hrun⟩ := exists_run_crashEvents
  exact ⟨final, hrun, clientSteps_le referenceLibrary crashRepo crashRequest crashConfig
    crash_admissible crashInitial crashInitial_initial crashEvents crashEvents_writeFully final
    hrun true⟩

end CCNxFileRepo
