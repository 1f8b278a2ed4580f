import CCNxFileRepo.Server.Machine
import CCNxFileRepo.System.Concurrency

/-!
# Deployments

Any number of servers share a repository directory and a network with any number of clients.  The
servers load different files or the same ones, under different names or the same ones, at the same
time, and each of them can be killed and started again at any moment.  A client does not know which
server it talks to.  It does not have to: what it takes for its first message decides what it
downloads, and every server of this name that is up has the objects or will not answer for them.

A save is one step here, killed or not, and so is the lookup in an answer.  `Repository/Calls` takes
them apart, and `Repository/Serialization` has what other processes do between two calls.
-/

namespace CCNxFileRepo

open Foundations CCNxFileRepoCache CCNxFileRepoManifestFetcher CCNxFileRepoClient

/-- The servers with their common disk, the clients, the interests sent so far and the messages the
servers have sent so far. -/
structure Deployment (κ ι : Type) where
  servers : κ → ServerPhase
  disk : FileSystem
  clients : ι → Client
  interests : List CCNxInterest
  sent : List CCNxMetaMessage

namespace Deployment

inductive Event (κ ι : Type) where
  | server (server : κ) (event : ServerEvent)
  | serve (server : κ) (interest : CCNxInterest)
  | run (client : ι)
  | deliver (client : ι) (message : CCNxMetaMessage)
  deriving DecidableEq

namespace Event

variable {κ ι : Type}

/-- No write of a server falls short. -/
def WritesFully : Event κ ι → Prop
  | server _ event => event.WritesFully
  | _ => True

def client? : Event κ ι → Option ι
  | run client => some client
  | deliver client _ => some client
  | _ => none

def isOf [DecidableEq ι] (client : ι) (event : Event κ ι) : Bool := event.client? == some client

end Event

variable {κ ι : Type} [DecidableEq κ] [DecidableEq ι] (lib : CCNxLibrary)
  (repo : CCNxFileRepoCache) (request : κ → LoadRequest) (config : ι → ClientConfig)

/-- No server is up, the repository is empty, and no client has an output file. -/
structure Initial (deployment : Deployment κ ι) : Prop where
  servers : ∀ server, deployment.servers server = .down
  disk : repo.EmptyRepository deployment.disk
  clients : ∀ client, ∃ fs, deployment.clients client = .fresh fs ∧
    fs (config client).outFile = none
  interests : deployment.interests = []
  sent : deployment.sent = []

/-- One step, where it is possible.  A request that cannot be handled stops its server. -/
def step (deployment : Deployment κ ι) : Event κ ι → Option (Deployment κ ι)
  | .server server event =>
      ((request server).serverStep lib repo (deployment.servers server, deployment.disk)
        event).map fun next ↦ { deployment with
          servers := Function.update deployment.servers server next.1
          disk := next.2 }
  | .serve server interest =>
      if deployment.servers server = .serving ∧ interest ∈ deployment.interests then
        match (request server).serverReply lib repo deployment.disk interest with
        | .ok reply => some { deployment with sent := deployment.sent ++ reply.toList }
        | .error stop => some { deployment with
            servers := Function.update deployment.servers server (.stopped stop) }
      else none
  | .run client =>
      ((deployment.clients client).localStep (config client)).map fun next ↦ { deployment with
        clients := Function.update deployment.clients client next
        interests := deployment.interests ++ (next.outstanding (config client)).toList }
  | .deliver client message =>
      match (deployment.clients client).outstanding (config client) with
      | some interest =>
          if message ∈ deployment.sent ∧ interest.matches lib message then
            some { deployment with
              clients := Function.update deployment.clients client
                ((deployment.clients client).receive (config client) (some message)) }
          else none
      | none => none

variable {lib repo request config} {deployment next : Deployment κ ι}

theorem step_server_iff {server : κ} {event : ServerEvent} :
    deployment.step lib repo request config (.server server event) = some next ↔
      ∃ phase disk, (request server).serverStep lib repo
          (deployment.servers server, deployment.disk) event = some (phase, disk) ∧
        { deployment with
          servers := Function.update deployment.servers server phase, disk := disk } = next := by
  simp [step]

theorem step_serve_iff {server : κ} {interest : CCNxInterest} :
    deployment.step lib repo request config (.serve server interest) = some next ↔
      deployment.servers server = .serving ∧ interest ∈ deployment.interests ∧
        match (request server).serverReply lib repo deployment.disk interest with
        | .ok reply => { deployment with sent := deployment.sent ++ reply.toList } = next
        | .error stop => { deployment with
            servers := Function.update deployment.servers server (.stopped stop) } = next := by
  simp only [step]
  cases (request server).serverReply lib repo deployment.disk interest <;> simp [and_assoc]

theorem step_run_iff {client : ι} :
    deployment.step lib repo request config (.run client) = some next ↔
      ∃ moved, (deployment.clients client).localStep (config client) = some moved ∧
        { deployment with
          clients := Function.update deployment.clients client moved
          interests := deployment.interests ++ (moved.outstanding (config client)).toList } =
            next := Option.map_eq_some_iff

theorem step_deliver_iff {client : ι} {message : CCNxMetaMessage} :
    deployment.step lib repo request config (.deliver client message) = some next ↔
      ∃ interest, (deployment.clients client).outstanding (config client) = some interest ∧
        message ∈ deployment.sent ∧ interest.matches lib message = true ∧
        { deployment with
          clients := Function.update deployment.clients client
            ((deployment.clients client).receive (config client) (some message)) } = next := by
  simp only [step]
  cases (deployment.clients client).outstanding (config client) <;> simp [and_assoc]

/-- What a step does to a client: nothing, or a step of its own, or the receipt of a message that
was sent and matches what it waits for. -/
theorem client_cases {event : Event κ ι} (client : ι)
    (hstep : deployment.step lib repo request config event = some next) :
    (event.isOf client = false ∧ next.clients client = deployment.clients client) ∨
    (event.isOf client = true ∧ next.disk = deployment.disk ∧
      (deployment.clients client).localStep (config client) = some (next.clients client)) ∨
    ∃ interest message, event.isOf client = true ∧ next.disk = deployment.disk ∧
      (deployment.clients client).outstanding (config client) = some interest ∧
      message ∈ deployment.sent ∧ interest.matches lib message = true ∧
      next.clients client =
        (deployment.clients client).receive (config client) (some message) := by
  have hne {other : ι} (h : other ≠ client) : (some other == some client) = false := by
    simpa using h
  cases event with
  | server server event =>
      obtain ⟨phase, disk, -, rfl⟩ := step_server_iff.mp hstep
      exact Or.inl ⟨rfl, rfl⟩
  | serve server interest =>
      obtain ⟨-, -, hnext⟩ := step_serve_iff.mp hstep
      split at hnext <;> subst hnext <;> exact Or.inl ⟨rfl, rfl⟩
  | run other =>
      obtain ⟨moved, hmoved, rfl⟩ := step_run_iff.mp hstep
      by_cases hother : other = client
      · subst hother
        refine Or.inr (Or.inl ⟨by simp [Event.isOf, Event.client?], rfl, ?_⟩)
        simpa only [Function.update_self] using hmoved
      · exact Or.inl ⟨hne hother, Function.update_of_ne (Ne.symm hother) _ _⟩
  | deliver other message =>
      obtain ⟨interest, hinterest, hsent, hmatches, rfl⟩ := step_deliver_iff.mp hstep
      by_cases hother : other = client
      · subst hother
        refine Or.inr (Or.inr ⟨interest, message, by simp [Event.isOf, Event.client?], rfl,
          hinterest, hsent, hmatches, ?_⟩)
        simp only [Function.update_self]
      · exact Or.inl ⟨hne hother, Function.update_of_ne (Ne.symm hother) _ _⟩

end Deployment

/-- What is asked of the files, the library and the clients of a deployment. -/
structure Admissible {κ ι : Type} (lib : CCNxLibrary) (request : κ → LoadRequest)
    (config : ι → ClientConfig) : Prop where
  chunk : ∀ server, 1 ≤ (request server).chunkSize
  capacity : ∀ server, 2 ≤ (request server).capacity
  buffer : ∀ server client, (request server).name = (config client).target →
    (request server).chunkSize ≤ (config client).clientBufferSize
  collisionFree : lib.CollisionFreeOn (builds lib request)

section Builds

variable {κ ι : Type} {lib : CCNxLibrary} {request : κ → LoadRequest} {config : ι → ClientConfig}

theorem Admissible.resolves (h : Admissible lib request config) (server : κ) :
    Resolves lib (findObject lib ((request server).messages lib))
      ((request server).messages lib) :=
  resolves_findObject (h.collisionFree.mono fun _ hobject ↦ mem_builds hobject)

end Builds

end CCNxFileRepo
