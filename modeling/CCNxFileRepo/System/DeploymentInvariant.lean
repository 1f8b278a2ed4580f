import CCNxFileRepo.System.Standing

/-!
# What holds of a deployment

The disk holds the starts of objects, every server has saved what it says, and every client is on
its way.  Whoever asks for a digest has it from a published build, so a server that is asked finds
the object, and what it sends is an object of a published build again.
-/

namespace CCNxFileRepo

open Foundations CCNxFileRepoCache CCNxFileRepoManifestFetcher CCNxFileRepoClient

namespace Deployment

variable {κ ι : Type} {lib : CCNxLibrary} {repo : CCNxFileRepoCache} {request : κ → LoadRequest}
  {config : ι → ClientConfig} {deployment next : Deployment κ ι}

/-- What holds of a deployment between any two steps. -/
structure Invariant (lib : CCNxLibrary) (repo : CCNxFileRepoCache) (request : κ → LoadRequest)
    (config : ι → ClientConfig) (deployment : Deployment κ ι) : Prop where
  represents : ∃ progress, Represents lib repo (builds lib request) deployment.disk progress
  servers : ∀ server,
    ServerInvariant lib (request server) repo deployment.disk (deployment.servers server)
  clients : ∀ client, ∃ taken,
    Standing lib repo request (config client) deployment.disk (deployment.clients client) taken
  asked : ∀ client interest,
    (deployment.clients client).outstanding (config client) = some interest →
      interest ∈ deployment.interests
  honest : ∀ interest ∈ deployment.interests, ∀ digest,
    interest.contentObjectHashRestriction = some digest →
      ∃ server, (request server).Published lib repo deployment.disk ∧
        ∃ object ∈ (request server).messages lib, lib.computeContentObjectHash object = digest
  sent : ∀ message ∈ deployment.sent, ∃ server,
    (request server).Published lib repo deployment.disk ∧ message ∈ (request server).messages lib

theorem Invariant.initial (h : Initial repo config deployment) :
    Invariant lib repo request config deployment where
  represents := ⟨_, h.disk.represents _⟩
  servers server := by
    rw [h.servers]
    exact .down
  clients client := by
    obtain ⟨fs, hclient, hfresh⟩ := h.clients client
    rw [hclient]
    exact ⟨0, .idle rfl rfl hfresh⟩
  asked client interest hinterest := by
    obtain ⟨fs, hclient, -⟩ := h.clients client
    rw [hclient] at hinterest
    cases hinterest
  honest := by simp [h.interests]
  sent := by simp [h.sent]

/-- A server step that leaves the disk growing keeps everything else. -/
theorem Invariant.grows (h : Invariant lib repo request config deployment) {disk : FileSystem}
    (hgrows : Grows lib repo (builds lib request) deployment.disk disk) {servers : κ → ServerPhase}
    (hservers : ∀ server, ServerInvariant lib (request server) repo disk (servers server)) :
    Invariant lib repo request config { deployment with servers := servers, disk := disk } where
  represents := hgrows.represents
  servers := hservers
  clients client := by
    obtain ⟨taken, hstanding⟩ := h.clients client
    exact ⟨taken, hstanding.grows hgrows fun _ _ ↦ mem_builds⟩
  asked := h.asked
  honest interest hinterest digest hdigest := by
    obtain ⟨server, hpublished, hobject⟩ := h.honest interest hinterest digest hdigest
    exact ⟨server, hpublished.grows hgrows fun _ ↦ mem_builds, hobject⟩
  sent message hmessage := by
    obtain ⟨server, hpublished, hbuilt⟩ := h.sent message hmessage
    exact ⟨server, hpublished.grows hgrows fun _ ↦ mem_builds, hbuilt⟩

/-- A server that is up answers an interest with an object of a published build or not at all. -/
theorem Invariant.serverReply (hadmissible : Admissible lib request config)
    (h : Invariant lib repo request config deployment) {server : κ}
    (hserving : deployment.servers server = .serving) {interest : CCNxInterest}
    (hinterest : interest ∈ deployment.interests) :
    ∃ reply, (request server).serverReply lib repo deployment.disk interest = .ok reply ∧
      ∀ message ∈ reply.toList, ∃ origin,
        (request origin).Published lib repo deployment.disk ∧
          message ∈ (request origin).messages lib := by
  have hserver := h.servers server
  rw [hserving] at hserver
  cases hserver with
  | serving published =>
      obtain ⟨progress, hrepresents⟩ := h.represents
      have hdigests : ∀ digest, interest.contentObjectHashRestriction = some digest →
          ∃ object ∈ builds lib request, lib.computeContentObjectHash object = digest ∧
            Available lib repo deployment.disk object := by
        intro digest hdigest
        obtain ⟨origin, hstored, object, hobject, hhash⟩ :=
          h.honest interest hinterest digest hdigest
        exact ⟨object, mem_builds hobject, hhash, hstored object hobject⟩
      rcases LoadRequest.serverReply_cases hrepresents hdigests with ⟨-, hreply⟩ | ⟨-, -, hreply⟩ |
        ⟨object, hobject, -, hrestriction, -, hreply⟩
      · exact ⟨none, hreply, by simp⟩
      · refine ⟨_, hreply, fun message hmessage ↦ ⟨server, published, ?_⟩⟩
        obtain rfl : message = .manifest ((request server).root lib) := by simpa using hmessage
        exact ManifestBuilder.rootManifest_mem
      · obtain ⟨origin, hstored, same, hsame, hhash⟩ :=
          h.honest interest hinterest _ hrestriction
        obtain rfl := hadmissible.collisionFree (mem_builds hsame) hobject hhash
        refine ⟨_, hreply, fun message hmessage ↦ ⟨origin, hstored, ?_⟩⟩
        obtain rfl : message = same := by simpa using hmessage
        exact hsame

variable [DecidableEq ι]

/-- A client that changes and keeps its standing keeps the deployment in order, if what it then
waits for was sent. -/
theorem Invariant.update (h : Invariant lib repo request config deployment) {client : ι}
    {moved : Client} {taken : ℕ}
    (hmoved : Standing lib repo request (config client) deployment.disk moved taken)
    {interests : List CCNxInterest} (hinterests : ∀ interest, interest ∈ interests ↔
      interest ∈ deployment.interests ∨ moved.outstanding (config client) = some interest) :
    Invariant lib repo request config { deployment with
      clients := Function.update deployment.clients client moved, interests := interests } where
  represents := h.represents
  servers := h.servers
  clients other := by
    by_cases hother : other = client
    · subst hother
      exact ⟨taken, by simpa only [Function.update_self] using hmoved⟩
    · simpa only [Function.update_of_ne hother] using h.clients other
  asked other interest hinterest := by
    rw [hinterests]
    by_cases hother : other = client
    · subst hother
      exact Or.inr (by simpa only [Function.update_self] using hinterest)
    · exact Or.inl (h.asked other interest
        (by simpa only [Function.update_of_ne hother] using hinterest))
  honest interest hinterest digest hdigest := by
    rcases (hinterests interest).mp hinterest with hold | hnew
    · exact h.honest interest hold digest hdigest
    · exact hmoved.exists_object hnew hdigest
  sent := h.sent

variable [DecidableEq κ] {event : Event κ ι}

/-- The disk after a step has what it had before, and maybe more. -/
theorem Invariant.grows_step (hadmissible : Admissible lib request config)
    (h : Invariant lib repo request config deployment) (hwrites : event.WritesFully)
    (hstep : deployment.step lib repo request config event = some next) :
    Grows lib repo (builds lib request) deployment.disk next.disk := by
  obtain ⟨progress, hrepresents⟩ := h.represents
  cases event with
  | server server event =>
      obtain ⟨phase, disk, hserver, rfl⟩ := step_server_iff.mp hstep
      exact ((h.servers server).step hadmissible.collisionFree (fun _ ↦ mem_builds) hrepresents
        hwrites hserver).2
  | serve server interest =>
      obtain ⟨-, -, hnext⟩ := step_serve_iff.mp hstep
      split at hnext <;> subst hnext <;> exact .refl hrepresents
  | run client =>
      obtain ⟨moved, -, rfl⟩ := step_run_iff.mp hstep
      exact .refl hrepresents
  | deliver client message =>
      obtain ⟨interest, -, -, -, rfl⟩ := step_deliver_iff.mp hstep
      exact .refl hrepresents

/-- A step keeps every client on its way and is counted for the one that made it. -/
theorem Invariant.standing_step (hadmissible : Admissible lib request config)
    (h : Invariant lib repo request config deployment) (hwrites : event.WritesFully)
    (hstep : deployment.step lib repo request config event = some next) {client : ι} {taken : ℕ}
    (hstanding : Standing lib repo request (config client) deployment.disk
      (deployment.clients client) taken) :
    Standing lib repo request (config client) next.disk (next.clients client)
      (taken + if event.isOf client then 1 else 0) := by
  rcases client_cases client hstep with ⟨hmine, hsame⟩ | ⟨hmine, hdisk, hmoved⟩ |
    ⟨interest, message, hmine, hdisk, hinterest, hsent, hmatches, hreceived⟩
  · rw [hmine, hsame]
    exact hstanding.grows (h.grows_step hadmissible hwrites hstep) fun _ _ ↦ mem_builds
  · rw [hmine, hdisk]
    exact hadmissible.localStep hstanding hmoved
  · obtain ⟨server, hpublished, hmessage⟩ := h.sent message hsent
    rw [hmine, hdisk, hreceived]
    exact hadmissible.receive hstanding hinterest hpublished hmessage hmatches

/-- A working client goes on working on the same data, and its own steps take from the work. -/
theorem Invariant.working_step (hadmissible : Admissible lib request config)
    (h : Invariant lib repo request config deployment) (hwrites : event.WritesFully)
    (hstep : deployment.step lib repo request config event = some next) {client : ι} {worker : κ}
    {first : CCNxMetaMessage} {data : Bytes} {work : ℕ}
    (hworking : Working lib repo (request worker) (config client) deployment.disk
      (deployment.clients client) first data work) :
    ∃ less, (less + if event.isOf client then 1 else 0) ≤ work ∧
      Working lib repo (request worker) (config client) next.disk (next.clients client) first data
        less := by
  rcases client_cases client hstep with ⟨hmine, hsame⟩ | ⟨hmine, hdisk, hmoved⟩ |
    ⟨interest, message, hmine, hdisk, hinterest, hsent, hmatches, hreceived⟩
  · rw [hmine, hsame]
    exact ⟨work, le_rfl, hworking.grows (h.grows_step hadmissible hwrites hstep)
      fun _ ↦ mem_builds⟩
  · have hcapacity := (hadmissible.chunk worker).trans
      (hadmissible.buffer worker client hworking.name_eq)
    rw [hmine, hdisk]
    exact hworking.localStep hcapacity hmoved
  · obtain ⟨server, -, hmessage⟩ := h.sent message hsent
    rw [hmine, hdisk, hreceived]
    exact hadmissible.receive_working hworking hinterest (mem_builds hmessage) hmatches

/-- The steps of a deployment keep its invariant. -/
theorem Invariant.step (hadmissible : Admissible lib request config)
    (h : Invariant lib repo request config deployment) (hwrites : event.WritesFully)
    (hstep : deployment.step lib repo request config event = some next) :
    Invariant lib repo request config next := by
  have hgrows := h.grows_step hadmissible hwrites hstep
  cases event with
  | server server event =>
      obtain ⟨phase, disk, hserver, rfl⟩ := step_server_iff.mp hstep
      obtain ⟨progress, hrepresents⟩ := h.represents
      refine h.grows hgrows fun other ↦ ?_
      by_cases hother : other = server
      · subst hother
        rw [Function.update_self]
        exact ((h.servers other).step hadmissible.collisionFree (fun _ ↦ mem_builds) hrepresents
          hwrites hserver).1
      · rw [Function.update_of_ne hother]
        exact (h.servers other).grows hgrows fun _ ↦ mem_builds
  | serve server interest =>
      obtain ⟨hserving, hinterest, hnext⟩ := step_serve_iff.mp hstep
      obtain ⟨reply, hreply, hmessages⟩ := h.serverReply hadmissible hserving hinterest
      simp only [hreply] at hnext
      subst hnext
      refine ⟨h.represents, h.servers, h.clients, h.asked, h.honest, ?_⟩
      exact List.forall_mem_append.mpr ⟨h.sent, hmessages⟩
  | run client =>
      obtain ⟨moved, hmoved, rfl⟩ := step_run_iff.mp hstep
      obtain ⟨taken, hstanding⟩ := h.clients client
      have hnext := h.standing_step hadmissible hwrites hstep hstanding
      simp only [Function.update_self] at hnext
      exact h.update hnext (by simp [Option.mem_toList])
  | deliver client message =>
      obtain ⟨interest, hinterest, -, -, rfl⟩ := step_deliver_iff.mp hstep
      obtain ⟨taken, hstanding⟩ := h.clients client
      have hnext := h.standing_step hadmissible hwrites hstep hstanding
      simp only [Function.update_self] at hnext
      refine h.update hnext fun other ↦ (or_iff_left_of_imp fun hother ↦ ?_).symm
      exact h.asked client other (outstanding_receive hother)

theorem Invariant.run (hadmissible : Admissible lib request config)
    {final : Deployment κ ι} {events : List (Event κ ι)}
    (h : Invariant lib repo request config deployment)
    (hwrites : ∀ event ∈ events, event.WritesFully)
    (hrun : Transition.run (Deployment.step lib repo request config) deployment events =
      some final) : Invariant lib repo request config final :=
  Transition.run_invariant
    (fun _ _ _ hevent hinvariant hstep ↦ hinvariant.step hadmissible hevent hstep) hrun hwrites h

end Deployment

end CCNxFileRepo
