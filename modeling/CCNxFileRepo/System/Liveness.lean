import CCNxFileRepo.System.Progress
import Mathlib.Data.List.GetD

/-!
# Fair executions

A deployment runs on for ever.  If a server of the name that a client asks for listens from some
time on and neglects no interest, and the client is not neglected either, the client comes to its
end.  What other servers and other clients do, and what happened before, makes no difference: an
interest stays in the network until it is served, and a reply until the client takes it.
-/

namespace CCNxFileRepo

open Foundations Transition CCNxFileRepoCache CCNxFileRepoManifestFetcher CCNxFileRepoClient

namespace Deployment

variable {κ ι : Type} {lib : CCNxLibrary} {repo : CCNxFileRepoCache} {request : κ → LoadRequest}
  {config : ι → ClientConfig} {deployment next : Deployment κ ι} {server : κ} {client : ι}

/-- Whatever a client waits for, a server of its name that listens has an answer that matches. -/
theorem Invariant.exists_reply (hadmissible : Admissible lib request config)
    (h : Invariant lib repo request config deployment)
    (hname : (request server).name = (config client).target)
    (hserving : deployment.servers server = .serving) {interest : CCNxInterest}
    (hinterest : (deployment.clients client).outstanding (config client) = some interest) :
    ∃ message, (request server).serverReply lib repo deployment.disk interest =
        .ok (some message) ∧ interest.matches lib message = true := by
  obtain ⟨taken, hstanding⟩ := h.clients client
  cases hstanding with
  | idle hphase haccepted hfresh => simp [Client.outstanding, hphase] at hinterest
  | awaitingFirst hphase haccepted hfresh =>
      simp only [Client.outstanding, hphase, Option.some.injEq] at hinterest
      subst hinterest
      have hmember : .manifest ((request server).root lib) ∈ (request server).messages lib :=
        ManifestBuilder.rootManifest_mem
      refine ⟨_, Producer.handleRequest_root hname.symm rfl, ?_⟩
      simp [CCNxInterest.matches, LoadRequest.producer,
        ManifestBuilder.objectName_of_mem hmember, hname]
  | working worker hworking hbound =>
      have hengaged : Engaged lib repo request config server worker client _ _ deployment _ :=
        ⟨h, hname, hserving, hworking⟩
      obtain ⟨message, hreply, hmatches, -⟩ := hengaged.exists_reply hadmissible hinterest
      exact ⟨message, hreply, hmatches⟩

/-- A client that has not left can go on alone or waits for an answer. -/
theorem Invariant.phase_cases (h : Invariant lib repo request config deployment) (client : ι) :
    (∃ ending, (deployment.clients client).phase = .left ending) ∨
      (∃ moved, (deployment.clients client).localStep (config client) = some moved) ∨
      ∃ interest, (deployment.clients client).outstanding (config client) = some interest := by
  obtain ⟨taken, hstanding⟩ := h.clients client
  cases hstanding with
  | idle hphase haccepted hfresh =>
      exact Or.inr (Or.inl ⟨{ deployment.clients client with phase := .awaitingFirst },
        by simp only [Client.localStep, hphase]⟩)
  | awaitingFirst hphase haccepted hfresh =>
      exact Or.inr (Or.inr ⟨⟨(config client).target, none⟩,
        by simp only [Client.outstanding, hphase]⟩)
  | working server hworking hbound => exact hworking.stands.phase_cases

variable [DecidableEq κ] [DecidableEq ι]

theorem sent_subset {event : Event κ ι}
    (hstep : deployment.step lib repo request config event = some next) :
    deployment.sent ⊆ next.sent := by
  cases event with
  | server server event =>
      obtain ⟨phase, disk, -, rfl⟩ := step_server_iff.mp hstep
      exact List.Subset.refl _
  | serve server interest =>
      obtain ⟨-, -, hnext⟩ := step_serve_iff.mp hstep
      split at hnext <;> subst hnext
      · exact List.subset_append_left _ _
      · exact List.Subset.refl _
  | run client =>
      obtain ⟨moved, -, rfl⟩ := step_run_iff.mp hstep
      exact List.Subset.refl _
  | deliver client message =>
      obtain ⟨interest, -, -, -, rfl⟩ := step_deliver_iff.mp hstep
      exact List.Subset.refl _

/-- An execution in which a server listens from some time on, and neither the interests it can serve
nor the client are neglected. -/
structure FairFor (execution : Execution (Deployment.step lib repo request config)) (server : κ)
    (client : ι) : Prop where
  writes : ∀ time event, execution.event time = some event → event.WritesFully
  up : ∃ time, ∀ later, time ≤ later → (execution.state later).servers server = .serving
  serves : ∀ interest, execution.Fair fun event ↦ event = .serve server interest
  steps : execution.Fair fun event ↦ event.isOf client = true

section Executions

variable {execution : Execution (Deployment.step lib repo request config)}

theorem Invariant.always (hadmissible : Admissible lib request config)
    (hinitial : Initial repo config (execution.state 0))
    (hwrites : ∀ time event, execution.event time = some event → event.WritesFully) (time : ℕ) :
    Invariant lib repo request config (execution.state time) :=
  execution.always_from (fun _ _ _ hevent hinvariant hstep ↦
      hinvariant.step hadmissible hevent hstep)
    (fun later event _ ↦ hwrites later event) (.initial hinitial) (Nat.zero_le time)

theorem Standing.always (hadmissible : Admissible lib request config)
    (hinitial : Initial repo config (execution.state 0))
    (hwrites : ∀ time event, execution.event time = some event → event.WritesFully) (client : ι)
    (time : ℕ) :
    Standing lib repo request (config client) (execution.state time).disk
      ((execution.state time).clients client)
      ((execution.before time).countP (Event.isOf client)) := by
  have hidle : Standing lib repo request (config client) (execution.state 0).disk
      ((execution.state 0).clients client) 0 := by
    obtain ⟨fs, hfresh, hfile⟩ := hinitial.clients client
    rw [hfresh]
    exact .idle rfl rfl hfile
  have hinvariant : Invariant lib repo request config (execution.state 0) := .initial hinitial
  exact (execution.holds_from (Event.isOf client)
    (motive := fun (state : Deployment κ ι) taken ↦
      Invariant lib repo request config state ∧
        Standing lib repo request (config client) state.disk (state.clients client) taken)
    (fun state event next taken hevent hstate hstep ↦
      ⟨hstate.1.step hadmissible hevent hstep,
        hstate.1.standing_step hadmissible hevent hstep hstate.2⟩)
    hwrites ⟨hinvariant, hidle⟩ (Nat.zero_le time)).2

/-- The steps of a client are bounded in an infinite execution, too. -/
theorem exists_bound (hadmissible : Admissible lib request config)
    (hinitial : Initial repo config (execution.state 0))
    (hwrites : ∀ time event, execution.event time = some event → event.WritesFully) (client : ι) :
    ∃ bound, ∀ time, (execution.before time).countP (Event.isOf client) ≤ bound := by
  have hstanding := Standing.always hadmissible hinitial hwrites client
  by_cases hnone : ∀ time, ((execution.state time).clients client).accepted = none
  · refine ⟨1, fun time ↦ ?_⟩
    have hnow := hstanding time
    generalize (execution.before time).countP (Event.isOf client) = taken at hnow ⊢
    cases hnow with
    | idle hphase haccepted hfresh => exact Nat.zero_le 1
    | awaitingFirst hphase haccepted hfresh => exact le_rfl
    | working server hworking hbound =>
        have haccepted := hworking.accepted
        rw [hnone time] at haccepted
        cases haccepted
  · push Not at hnone
    obtain ⟨start, haccepted⟩ := hnone
    have hnow := hstanding start
    generalize hcount : (execution.before start).countP (Event.isOf client) = taken at hnow
    cases hnow with
    | idle hphase hnothing hfresh => exact absurd hnothing haccepted
    | awaitingFirst hphase hnothing hfresh => exact absurd hnothing haccepted
    | @working server first data _ work hworking hbound =>
        have hkept (later : ℕ) (hle : start ≤ later) :
            (execution.before later).countP (Event.isOf client) ≤ taken + work := by
          have hinvariant := Invariant.always hadmissible hinitial hwrites start
          obtain ⟨-, less, -, hless⟩ := execution.holds_from (Event.isOf client)
            (motive := fun (state : Deployment κ ι) count ↦
              Invariant lib repo request config state ∧
                ∃ less, Working lib repo (request server) (config client) state.disk
                  (state.clients client) first data less ∧ count + less ≤ taken + work)
            (fun state event next count hevent hstate hstep ↦ by
              obtain ⟨hstate, less, hworks, hless⟩ := hstate
              obtain ⟨least, hleast, hnext⟩ := hstate.working_step hadmissible hevent hstep hworks
              exact ⟨hstate.step hadmissible hevent hstep, least, hnext, by omega⟩)
            hwrites ⟨hinvariant, work, hworking, by omega⟩ hle
          omega
        refine ⟨taken + work, fun time ↦ ?_⟩
        rcases Nat.le_total start time with hle | hle
        · exact hkept time hle
        · have hbefore := (execution.before_prefix hle).sublist.countP_le
            (p := Event.isOf client)
          omega

theorem client_of_quiet {time : ℕ}
    (hquiet : ∀ later event, time ≤ later → execution.event later = some event →
      event.isOf client = false) {later : ℕ} (hle : time ≤ later) :
    (execution.state later).clients client = (execution.state time).clients client := by
  refine execution.always_from (motive := fun state ↦
    state.clients client = (execution.state time).clients client) ?_ hquiet rfl hle
  intro state event next hother hsame hstep
  rcases client_cases client hstep with ⟨-, hkept⟩ | ⟨hmine, -⟩ | ⟨_, _, hmine, -⟩
  · exact hkept.trans hsame
  · rw [hother] at hmine
    cases hmine
  · rw [hother] at hmine
    cases hmine

/-- An interest that stays in the network is answered by a server that listens. -/
theorem FairFor.exists_sent (hadmissible : Admissible lib request config)
    (hinitial : Initial repo config (execution.state 0))
    (hname : (request server).name = (config client).target)
    (hfair : FairFor execution server client) {interest : CCNxInterest} {time : ℕ}
    (hwaits : ∀ later, time ≤ later →
      ((execution.state later).clients client).outstanding (config client) = some interest) :
    ∃ later message, time ≤ later ∧ interest.matches lib message = true ∧
      ∀ after, later ≤ after → message ∈ (execution.state after).sent := by
  have hinvariant := Invariant.always hadmissible hinitial hfair.writes
  obtain ⟨start, hup⟩ := hfair.up
  have hreply (later : ℕ) (hle : max time start ≤ later) :=
    (hinvariant later).exists_reply hadmissible hname (hup later (le_of_max_le_right hle))
      (hwaits later (le_of_max_le_left hle))
  have henabled : ∀ later, max time start ≤ later →
      Enabled (Deployment.step lib repo request config) (fun event ↦ event = .serve server interest)
        (execution.state later) := by
    intro later hle
    obtain ⟨message, hmessage, -⟩ := hreply later hle
    have hasked := (hinvariant later).asked client interest (hwaits later (le_of_max_le_left hle))
    refine ⟨_, { execution.state later with
      sent := (execution.state later).sent ++ [message] }, rfl, step_serve_iff.mpr ?_⟩
    simp [hup later (le_of_max_le_right hle), hasked, hmessage]
  obtain ⟨served, event, hle, hevent, rfl⟩ := (hfair.serves interest).exists_event henabled
  obtain ⟨message, hmessage, hmatches⟩ := hreply served hle
  have hstep := execution.steps served
  simp only [hevent] at hstep
  obtain ⟨-, -, hnext⟩ := step_serve_iff.mp hstep
  simp only [hmessage] at hnext
  refine ⟨served + 1, message, (le_of_max_le_left hle).trans (Nat.le_succ _), hmatches,
    fun after hafter ↦ ?_⟩
  refine execution.always_from (motive := fun state ↦ message ∈ state.sent)
    (fun _ _ _ _ hsent hstep ↦ sent_subset hstep hsent)
    (fun later event _ ↦ hfair.writes later event) ?_ hafter
  rw [← hnext]
  simp

/-- A client that makes no steps any more has left, or it can make one from some time on. -/
theorem FairFor.exists_enabled (hadmissible : Admissible lib request config)
    (hinitial : Initial repo config (execution.state 0))
    (hname : (request server).name = (config client).target)
    (hfair : FairFor execution server client) {time : ℕ}
    (hquiet : ∀ later event, time ≤ later → execution.event later = some event →
      event.isOf client = false) :
    (∃ ending, ((execution.state time).clients client).phase = .left ending) ∨
      ∃ later, time ≤ later ∧ ∀ after, later ≤ after →
        Enabled (Deployment.step lib repo request config) (fun event ↦ event.isOf client = true)
          (execution.state after) := by
  have hsame {later : ℕ} (hle : time ≤ later) := client_of_quiet hquiet hle
  rcases (Invariant.always hadmissible hinitial hfair.writes time).phase_cases client with hleft |
    ⟨moved, hmoved⟩ | ⟨interest, hinterest⟩
  · exact Or.inl hleft
  · refine Or.inr ⟨time, le_rfl, fun after hafter ↦ ⟨.run client, _, ?_,
      step_run_iff.mpr ⟨moved, by rwa [hsame hafter], rfl⟩⟩⟩
    simp [Event.isOf, Event.client?]
  · obtain ⟨later, message, hle, hmatches, hsent⟩ := hfair.exists_sent hadmissible hinitial hname
      fun later hlater ↦ by rw [hsame hlater, hinterest]
    refine Or.inr ⟨later, hle, fun after hafter ↦ ⟨.deliver client message, _, ?_,
      step_deliver_iff.mpr ⟨interest, ?_, hsent after hafter, hmatches, rfl⟩⟩⟩
    · simp [Event.isOf, Event.client?]
    · rw [hsame (hle.trans hafter), hinterest]

end Executions

end Deployment

variable {κ ι : Type} [DecidableEq κ] [DecidableEq ι]

/-- In every fair execution of a deployment a client comes to its end, with a piece of a published
file in its output file, complete and not changed any more. -/
theorem download_eventually (lib : CCNxLibrary) (repo : CCNxFileRepoCache)
    (request : κ → LoadRequest) (config : ι → ClientConfig)
    (hadmissible : Admissible lib request config)
    (execution : Execution (Deployment.step lib repo request config))
    (hinitial : Deployment.Initial repo config (execution.state 0)) (server : κ) (client : ι)
    (hname : (request server).name = (config client).target)
    (hfair : Deployment.FairFor execution server client) :
    ∃ time ending last, last.phase = .left ending ∧
      Deployment.Sound lib request (config client) last ∧
      ∀ later, time ≤ later → (execution.state later).clients client = last := by
  obtain ⟨bound, hbound⟩ := Deployment.exists_bound hadmissible hinitial hfair.writes client
  obtain ⟨time, ending, hleft⟩ := execution.eventually_done
    (fun state ↦ ∃ ending, (state.clients client).phase = .left ending) hfair.steps hbound
    fun time hquiet ↦ hfair.exists_enabled hadmissible hinitial hname hquiet
  have hinvariant := Deployment.Invariant.always hadmissible hinitial hfair.writes time
  refine ⟨time, ending, _, hleft, hinvariant.sound hadmissible client, fun later hle ↦ ?_⟩
  refine execution.always_from (motive := fun state ↦
    state.clients client = (execution.state time).clients client) ?_
    (fun later event _ ↦ hfair.writes later event) rfl hle
  intro state event next _ hsame hstep
  rcases Deployment.client_cases client hstep with ⟨-, hkept⟩ | ⟨-, -, hmoved⟩ |
    ⟨_, _, -, -, hinterest, -⟩
  · exact hkept.trans hsame
  · simp [hsame, Client.localStep, hleft] at hmoved
  · simp [hsame, Client.outstanding, hleft] at hinterest

section Sample

open ReferenceLibrary

/-- One byte in one chunk. -/
def steadyRequest : Unit → LoadRequest := fun _ ↦ ⟨[7], ⟨[[1]]⟩, 1, 2⟩

def steadyRepo : CCNxFileRepoCache := ⟨['r'], 1⟩

def steadyConfig : Unit → ClientConfig := fun _ ↦ ⟨⟨[[1]]⟩, ['o'], 1⟩

def steadyInitial : Deployment Unit Unit where
  servers _ := .down
  disk := steadyRepo.freshDisk
  clients _ := .fresh fun _ ↦ none
  interests := []
  sent := []

def steadyInterests : List CCNxInterest :=
  [⟨⟨[[1]]⟩, none⟩, ⟨⟨[[1]]⟩, some (referenceLibrary.computeContentObjectHash
    (ManifestBuilder.chunkObject ⟨[[1]]⟩ [7]))⟩]

/-- The server loads its file, and the client downloads it. -/
def steadyEvents : List (Deployment.Event Unit Unit) :=
  [.server () .start, .server () (.save .complete), .server () (.save .complete),
    .server () .listen, .run (), .serve () ⟨⟨[[1]]⟩, none⟩,
    .deliver () (.manifest ((steadyRequest ()).root referenceLibrary)), .run (),
    .serve () ⟨⟨[[1]]⟩, some (referenceLibrary.computeContentObjectHash
      (ManifestBuilder.chunkObject ⟨[[1]]⟩ [7]))⟩,
    .deliver () (ManifestBuilder.chunkObject ⟨[[1]]⟩ [7]), .run (), .run ()]

/-- After the download the server goes on serving both interests in turn. -/
def steadySchedule (time : ℕ) : Deployment.Event Unit Unit :=
  steadyEvents.getD time (.serve () (steadyInterests.getD (time % 2) ⟨⟨[[1]]⟩, none⟩))

def steadyExecution :
    Execution (Deployment.step referenceLibrary steadyRepo steadyRequest steadyConfig) :=
  .follow _ steadyInitial steadySchedule

theorem steady_admissible : Admissible referenceLibrary steadyRequest steadyConfig where
  chunk := by decide
  capacity := by decide
  buffer _ _ _ := le_rfl
  collisionFree := collisionFreeOn _

theorem steadyInitial_initial : Deployment.Initial steadyRepo steadyConfig steadyInitial where
  servers _ := rfl
  disk := emptyRepository_freshDisk _
  clients _ := ⟨fun _ ↦ none, rfl, rfl⟩
  interests := rfl
  sent := rfl

theorem steadySchedule_of_le {time : ℕ} (hle : 12 ≤ time) :
    steadySchedule time =
      .serve () (steadyInterests.getD (time % 2) ⟨⟨[[1]]⟩, none⟩) :=
  List.getD_eq_default _ _ hle

theorem steady_writes (time : ℕ) (event : Deployment.Event Unit Unit)
    (hevent : steadyExecution.event time = some event) : event.WritesFully := by
  have hevents : ∀ event ∈ steadyEvents, event.WritesFully := by
    simp [steadyEvents, Deployment.Event.WritesFully, ServerEvent.WritesFully]
  obtain rfl := Execution.event_follow hevent
  rcases Nat.lt_or_ge time 12 with hlt | hle
  · rw [steadySchedule, List.getD_eq_getElem _ _ hlt]
    exact hevents _ (List.getElem_mem hlt)
  · rw [steadySchedule_of_le hle]
    trivial

/-- The server listens, the client has left, and nothing new is asked for. -/
structure Steady (state : Deployment Unit Unit) : Prop where
  serving : state.servers () = .serving
  left : (state.clients ()).phase = .left .downloaded
  interests : state.interests = steadyInterests

set_option maxRecDepth 4000 in
theorem steady_twelve : Steady (steadyExecution.state 12) where
  serving := by decide
  left := by decide
  interests := by decide

theorem steady_of_le {time : ℕ} (hle : 12 ≤ time) : Steady (steadyExecution.state time) := by
  refine (steadyExecution.always_from (motive := fun state ↦ Steady state ∧
    Deployment.Invariant referenceLibrary steadyRepo steadyRequest steadyConfig state) ?_
    (fun later event (hlater : 12 ≤ later) hevent ↦
      (⟨_, (Execution.event_follow hevent).symm.trans (steadySchedule_of_le hlater)⟩ :
        ∃ interest, event = .serve () interest))
    ⟨steady_twelve, .always steady_admissible steadyInitial_initial steady_writes 12⟩ hle).1
  rintro state event next ⟨interest, rfl⟩ ⟨⟨hserving, hleft, hinterests⟩, hinvariant⟩ hstep
  refine ⟨?_, hinvariant.step steady_admissible (by trivial) hstep⟩
  obtain ⟨-, hasked, hnext⟩ := Deployment.step_serve_iff.mp hstep
  obtain ⟨reply, hreply, -⟩ := hinvariant.serverReply steady_admissible hserving hasked
  simp only [hreply] at hnext
  subst hnext
  exact ⟨hserving, hleft, hinterests⟩

theorem steady_fair : Deployment.FairFor steadyExecution () () where
  writes := steady_writes
  up := ⟨12, fun _ hle ↦ (steady_of_le hle).serving⟩
  serves interest time := by
    by_cases hinterest : interest ∈ steadyInterests
    · obtain ⟨index, hindex, rfl⟩ := List.getElem_of_mem hinterest
      have hturn : steadySchedule (2 * (time + 12) + index) = .serve () steadyInterests[index] := by
        have hmod : (2 * (time + 12) + index) % 2 = index := by
          rw [Nat.mul_add_mod]
          exact Nat.mod_eq_of_lt hindex
        rw [steadySchedule_of_le (by omega), hmod, List.getD_eq_getElem _ _ hindex]
      have hsteady : Steady (steadyExecution.state (2 * (time + 12) + index)) :=
        steady_of_le (by omega)
      have hinvariant := Deployment.Invariant.always steady_admissible steadyInitial_initial
        steady_writes (2 * (time + 12) + index)
      have hasked : steadyInterests[index] ∈
          (steadyExecution.state (2 * (time + 12) + index)).interests := by
        rw [hsteady.interests]
        exact hinterest
      obtain ⟨reply, hreply, -⟩ :=
        hinvariant.serverReply steady_admissible hsteady.serving hasked
      have hstep : Deployment.step referenceLibrary steadyRepo steadyRequest steadyConfig
          (steadyExecution.state (2 * (time + 12) + index)) (.serve () steadyInterests[index]) =
            some { steadyExecution.state (2 * (time + 12) + index) with
              sent := (steadyExecution.state (2 * (time + 12) + index)).sent ++ reply.toList } := by
        apply Deployment.step_serve_iff.mpr
        exact ⟨hsteady.serving, hasked, by rw [hreply]⟩
      rw [← hturn] at hstep
      exact ⟨_, by omega, Or.inl ⟨_, Execution.event_follow_of_step hstep, hturn⟩⟩
    · have hsteady := steady_of_le (Nat.le_max_right time 12)
      refine ⟨max time 12, Nat.le_max_left _ _, Or.inr ?_⟩
      rintro ⟨event, next, rfl, hstep⟩
      obtain ⟨-, hasked, -⟩ := Deployment.step_serve_iff.mp hstep
      exact hinterest (hsteady.interests ▸ hasked)
  steps time := by
    have hsteady := steady_of_le (Nat.le_max_right time 12)
    refine ⟨max time 12, Nat.le_max_left _ _, Or.inr ?_⟩
    rintro ⟨event, next, hmine, hstep⟩
    rcases Deployment.client_cases () hstep with ⟨hother, -⟩ | ⟨-, -, hmoved⟩ |
      ⟨_, _, -, -, hwaits, -⟩
    · rw [hmine] at hother
      cases hother
    · simp [Client.localStep, hsteady.left] at hmoved
    · simp [Client.outstanding, hsteady.left] at hwaits

/-- The client of `steadyExecution`. -/
theorem download_eventually_steady :
    ∃ time ending last, last.phase = .left ending ∧
      Deployment.Sound referenceLibrary steadyRequest (steadyConfig ()) last ∧
      ∀ later, time ≤ later → (steadyExecution.state later).clients () = last :=
  download_eventually referenceLibrary steadyRepo steadyRequest steadyConfig steady_admissible
    steadyExecution steadyInitial_initial () () rfl steady_fair

end Sample

end CCNxFileRepo
