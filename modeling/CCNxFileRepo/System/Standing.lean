import CCNxFileRepo.Client.Work
import CCNxFileRepo.Repository.FetchOrder
import CCNxFileRepo.System.Deployment

/-!
# Where a client of a deployment stands

Before it has a first message, a client has done next to nothing.  From then on it is working on the
data under this message.  All objects of the build stay on the disk, a request for a digest is
answered by the one object that has it, and every step of the client takes from the work that is
left.
-/

namespace CCNxFileRepo

open Foundations CCNxFileRepoCache CCNxFileRepoManifestFetcher CCNxFileRepoClient

/-- What a client waits for after a message came in, it waited for before. -/
theorem outstanding_receive {config : ClientConfig} {client : Client}
    {response : Option CCNxMetaMessage} {interest : CCNxInterest}
    (h : (client.receive config response).outstanding config = some interest) :
    client.outstanding config = some interest := by
  obtain ⟨phase, fs, accepted⟩ := client
  cases phase with
  | idle | filling _ | left _ | stopped _ => exact h
  | awaitingFirst =>
      cases response with
      | none => cases h
      | some message =>
          cases message with
          | interest _ | interestReturn _ => exact h
          | contentObject object =>
              cases happend : appendBufferToFile fs config.outFile object.payload 0 .complete <;>
                simp [Client.receive, accept, happend, bind, Except.bind, pure, Except.pure,
                  Client.settle, Client.outstanding] at h
          | manifest root =>
              cases hcreate : CCNxFileRepoManifestFetcher.create root with
              | error stop =>
                  simp [Client.receive, accept, hcreate, bind, Except.bind, Client.settle,
                    Client.outstanding] at h
              | ok fetcher =>
                  cases hbegin : beginRound config
                      ⟨fetcher, .allocate config.clientBufferSize, 0⟩ <;>
                    simp [Client.receive, accept, hcreate, hbegin, bind, Except.bind, pure,
                      Except.pure, Client.settle, Client.outstanding] at h
  | awaitingObject download hashDigest =>
      cases hresponse : handleResponse download.fetcher download.chunkBuffer response with
      | error stop =>
          simp [Client.receive, resume, hresponse, bind, Except.bind, Client.settle,
            Client.outstanding] at h
      | ok result =>
          obtain ⟨suspended, fetcher, chunkBuffer⟩ := result
          cases suspended with
          | true =>
              simp only [Client.receive, resume, hresponse, bind, Except.bind, if_true] at h
              rw [outstanding_settle_endRound] at h
              cases h
          | false =>
              simp [Client.receive, resume, hresponse, bind, Except.bind, pure, Except.pure,
                Client.settle, Client.outstanding] at h

/-! ## Working clients -/

section Working

variable {lib : CCNxLibrary} {repo : CCNxFileRepoCache} {request : LoadRequest}
  {config : ClientConfig} {disk : FileSystem} {client : Client} {first : CCNxMetaMessage}
  {data : Bytes} {work : ℕ}

/-- A client that took `first` from the published build of `request`, is on its way to the data
under it, and has at most `work` steps to make. -/
structure Working (lib : CCNxLibrary) (repo : CCNxFileRepoCache) (request : LoadRequest)
    (config : ClientConfig) (disk : FileSystem) (client : Client) (first : CCNxMetaMessage)
    (data : Bytes) (work : ℕ) : Prop where
  accepted : client.accepted = some first
  published : request.Published lib repo disk
  name_eq : request.name = config.target
  member : first ∈ request.messages lib
  yields : Yields (findObject lib (request.messages lib)) first data
  stands : Stands (request.respond lib) config.target config.outFile client.fs data client.phase
  busy : Busy (request.respond lib) config.target config client.fs client.phase work

theorem Working.grows {objects : Set CCNxMetaMessage} {grown : FileSystem}
    (h : Working lib repo request config disk client first data work)
    (hgrows : Grows lib repo objects disk grown)
    (hobjects : ∀ object ∈ request.messages lib, object ∈ objects) :
    Working lib repo request config grown client first data work :=
  { h with published := h.published.grows hgrows hobjects }

/-- A step that takes from the work keeps a client working. -/
theorem Working.settle (client : Client) (haccepted : client.accepted = some first)
    (hpublished : request.Published lib repo disk) (hname : request.name = config.target)
    (hmember : first ∈ request.messages lib)
    (hyields : Yields (findObject lib (request.messages lib)) first data)
    {result : Except Stop (Phase × FileSystem)}
    (hstands : ∀ phase fs, result = .ok (phase, fs) →
      Stands (request.respond lib) config.target config.outFile fs data phase)
    (hdecreases : Decreases (request.respond lib) config.target config work result) :
    ∃ less < work,
      Working lib repo request config disk (client.settle result) first data less := by
  obtain ⟨phase, written, less, rfl, hless, hbusy⟩ := hdecreases
  exact ⟨less, hless, haccepted, hpublished, hname, hmember, hyields, hstands phase written rfl,
    hbusy⟩

theorem Working.localStep {next : Client} (hcapacity : 0 < config.clientBufferSize)
    (h : Working lib repo request config disk client first data work)
    (hstep : client.localStep config = some next) :
    ∃ less < work, Working lib repo request config disk next first data less := by
  obtain ⟨phase, fs, accepted⟩ := client
  obtain ⟨haccepted, hpublished, hname, hmember, hyields, hstands, hbusy⟩ := h
  cases hstands with
  | filling hdownloads =>
      cases hstep
      exact Working.settle _ haccepted hpublished hname hmember hyields
        (fun _ _ hadvance ↦ .advance hdownloads hadvance) (hbusy.advance hcapacity)
  | awaitingObject fetcher hdownloads hasked => cases hstep
  | left hcomplete => cases hstep

/-- What a working client waits for is an object of its build, under its name. -/
theorem Working.exists_answer {interest : CCNxInterest}
    (h : Working lib repo request config disk client first data work)
    (hinterest : client.outstanding config = some interest) :
    ∃ object ∈ request.messages lib,
      interest = ⟨config.target, some (lib.computeContentObjectHash object)⟩ := by
  obtain ⟨phase, fs, accepted⟩ := client
  obtain ⟨haccepted, hpublished, hname, hmember, hyields, hstands, hbusy⟩ := h
  cases hstands with
  | filling hdownloads => cases hinterest
  | awaitingObject fetcher hdownloads hasked =>
      obtain ⟨hlocator, message, hmessage⟩ := hbusy.exists_answer
      obtain ⟨hbuilt, hhash⟩ := mem_of_findObject hmessage
      cases hinterest
      exact ⟨message, hbuilt, by rw [hlocator, hhash]⟩
  | left hcomplete => cases hinterest

/-- The object it waits for keeps a client working. -/
theorem Working.receive {interest : CCNxInterest}
    (h : Working lib repo request config disk client first data work)
    (hinterest : client.outstanding config = some interest) {message : CCNxMetaMessage}
    (hrespond : request.respond lib interest = some message) :
    ∃ less < work, Working lib repo request config disk
      (client.receive config (some message)) first data less := by
  obtain ⟨phase, fs, accepted⟩ := client
  obtain ⟨haccepted, hpublished, hname, hmember, hyields, hstands, hbusy⟩ := h
  cases hstands with
  | filling hdownloads => cases hinterest
  | awaitingObject fetcher hdownloads hasked =>
      cases hinterest
      exact Working.settle _ haccepted hpublished hname hmember hyields
        (fun _ _ hresume ↦ .resume (.awaitingObject fetcher hdownloads hasked) hrespond hresume)
        (hbusy.resume hrespond)
  | left hcomplete => cases hinterest

end Working

/-! ## All clients -/

section Standing

variable {κ ι : Type} {lib : CCNxLibrary} {repo : CCNxFileRepoCache} {request : κ → LoadRequest}
  {config : ι → ClientConfig} {disk : FileSystem} {index : ι} {client : Client} {taken : ℕ}

/-- What matches the first interest of a client is of a build with the name it asks for. -/
theorem name_of_matches (hphase : client.phase = .awaitingFirst) {interest : CCNxInterest}
    (hinterest : client.outstanding (config index) = some interest) {server : κ}
    {message : CCNxMetaMessage} (hmessage : message ∈ (request server).messages lib)
    (hmatches : interest.matches lib message = true) :
    (request server).name = (config index).target := by
  simp only [Client.outstanding, hphase, Option.some.injEq] at hinterest
  subst hinterest
  simpa [CCNxInterest.matches, ManifestBuilder.objectName_of_mem hmessage] using hmatches

/-- A client that waits for its first message and takes one of a published build starts to work. -/
theorem Admissible.exists_working (hadmissible : Admissible lib request config) {server : κ}
    (hphase : client.phase = .awaitingFirst) (hfresh : client.fs (config index).outFile = none)
    (hpublished : (request server).Published lib repo disk)
    (hname : (request server).name = (config index).target) {message : CCNxMetaMessage}
    (hmessage : message ∈ (request server).messages lib) :
    ∃ data work, Working lib repo (request server) (config index) disk
        (client.receive (config index) (some message)) message data work ∧
      work + 2 ≤ 3 * ((request server).messages lib).length := by
  obtain ⟨phase, fs, accepted⟩ := client
  obtain rfl : phase = .awaitingFirst := hphase
  have hpath := FileSystem.ne_directory_of_none hfresh
  have hobject := ManifestBuilder.objectName_of_mem hmessage
  have hresolves : Resolves lib (resolver ((request server).respond lib) (config index).target)
      ((request server).messages lib) := hadmissible.resolves server
  have hcapacity := hadmissible.capacity server
  have hbuffer := hadmissible.buffer server index hname
  cases message with
  | interest _ | interestReturn _ => cases hobject
  | contentObject object =>
      obtain ⟨less, hless, hworking⟩ := Working.settle
        ⟨.awaitingFirst, fs, some (.contentObject object)⟩ rfl hpublished hname hmessage
        (.contentObject object) (fun _ _ haccept ↦ .accept_contentObject hfresh haccept)
        (Busy.accept_contentObject hpath 0)
      have hlength := List.length_pos_of_mem hmessage
      exact ⟨_, less, hworking, by omega⟩
  | manifest root =>
      have hroot : root.name = (config index).target := (Option.some.inj hobject).trans hname
      obtain ⟨pointers, hpointers, t, ht⟩ :=
        ManifestBuilder.exists_manifestTree hcapacity hresolves hmessage
      have hlength : t.preorder.length < ((request server).messages lib).length :=
        ManifestBuilder.length_preorder_lt hcapacity hresolves hmessage hpointers t
      have hfits : ∀ payload ∈ t.leaves, payload.length ≤ (config index).clientBufferSize := by
        intro payload hpayload
        exact (lib.reverseChunks_length_le _ _ payload
          (List.mem_reverse.mp (ht.subset hpayload))).trans hbuffer
      obtain ⟨less, hless, hworking⟩ := Working.settle
        ⟨.awaitingFirst, fs, some (.manifest root)⟩ rfl hpublished hname hmessage
        (.manifest hpointers t)
        (fun _ _ haccept ↦ .accept_manifest hpointers hroot t hfresh haccept)
        (Busy.accept_manifest ((hadmissible.chunk server).trans hbuffer) hpointers hroot t hfits
          hpath)
      exact ⟨_, less, hworking, by omega⟩

/-- The data that a client works on is a piece of the file, and all of it below the root. -/
theorem Admissible.data_of_working (hadmissible : Admissible lib request config) {server : κ}
    {first : CCNxMetaMessage} {data : Bytes} {work : ℕ}
    (h : Working lib repo (request server) (config index) disk client first data work) :
    data <:+: (request server).file ∧
      (first = .manifest ((request server).root lib) → data = (request server).file) :=
  LoadRequest.yields_infix (hadmissible.chunk server) (hadmissible.capacity server)
    (hadmissible.resolves server) h.member h.yields

/-- Where a client stands that has taken some steps.  A working one has three steps for each object
of its build. -/
inductive Standing (lib : CCNxLibrary) (repo : CCNxFileRepoCache) (request : κ → LoadRequest)
    (config : ClientConfig) (disk : FileSystem) (client : Client) : ℕ → Prop where
  | idle (phase : client.phase = .idle) (accepted : client.accepted = none)
      (fresh : client.fs config.outFile = none) :
      Standing lib repo request config disk client 0
  | awaitingFirst (phase : client.phase = .awaitingFirst) (accepted : client.accepted = none)
      (fresh : client.fs config.outFile = none) :
      Standing lib repo request config disk client 1
  | working (server : κ) {first : CCNxMetaMessage} {data : Bytes} {taken work : ℕ}
      (working : Working lib repo (request server) config disk client first data work)
      (bound : taken + work ≤ 3 * ((request server).messages lib).length) :
      Standing lib repo request config disk client taken

theorem Standing.grows {objects : Set CCNxMetaMessage} {grown : FileSystem}
    (h : Standing lib repo request (config index) disk client taken)
    (hgrows : Grows lib repo objects disk grown)
    (hobjects : ∀ server, ∀ object ∈ (request server).messages lib, object ∈ objects) :
    Standing lib repo request (config index) grown client taken := by
  cases h with
  | idle phase accepted fresh => exact .idle phase accepted fresh
  | awaitingFirst phase accepted fresh => exact .awaitingFirst phase accepted fresh
  | working server working bound =>
      exact .working server (working.grows hgrows (hobjects server)) bound

theorem Admissible.localStep (hadmissible : Admissible lib request config) {next : Client}
    (h : Standing lib repo request (config index) disk client taken)
    (hstep : client.localStep (config index) = some next) :
    Standing lib repo request (config index) disk next (taken + 1) := by
  cases h with
  | idle hphase haccepted hfresh =>
      simp only [Client.localStep, hphase, Option.some.injEq] at hstep
      subst hstep
      exact .awaitingFirst rfl haccepted hfresh
  | awaitingFirst hphase haccepted hfresh => simp [Client.localStep, hphase] at hstep
  | working server hworking hbound =>
      have hcapacity := (hadmissible.chunk server).trans
        (hadmissible.buffer server index hworking.name_eq)
      obtain ⟨less, hless, hnext⟩ := hworking.localStep hcapacity hstep
      exact .working server hnext (by omega)

/-- Whoever waits for a digest waits for an object of a published build. -/
theorem Standing.exists_object {interest : CCNxInterest}
    (h : Standing lib repo request (config index) disk client taken)
    (hinterest : client.outstanding (config index) = some interest) {digest : Bytes}
    (hdigest : interest.contentObjectHashRestriction = some digest) :
    ∃ server, (request server).Published lib repo disk ∧
      ∃ object ∈ (request server).messages lib, lib.computeContentObjectHash object = digest := by
  cases h with
  | idle hphase haccepted hfresh => simp [Client.outstanding, hphase] at hinterest
  | awaitingFirst hphase haccepted hfresh =>
      simp only [Client.outstanding, hphase, Option.some.injEq] at hinterest
      subst hinterest
      cases hdigest
  | working server hworking hbound =>
      obtain ⟨object, hobject, rfl⟩ := hworking.exists_answer hinterest
      exact ⟨server, hworking.published, object, hobject, Option.some.inj hdigest⟩

/-- A message of a build that matches what a working client waits for is what it waits for. -/
theorem Admissible.receive_working (hadmissible : Admissible lib request config) {server : κ}
    {first message : CCNxMetaMessage} {data : Bytes} {work : ℕ}
    (h : Working lib repo (request server) (config index) disk client first data work)
    {interest : CCNxInterest} (hinterest : client.outstanding (config index) = some interest)
    (hmessage : message ∈ builds lib request) (hmatches : interest.matches lib message = true) :
    ∃ less < work, Working lib repo (request server) (config index) disk
      (client.receive (config index) (some message)) first data less := by
  obtain ⟨object, hobject, rfl⟩ := h.exists_answer hinterest
  have hhash : lib.computeContentObjectHash message = lib.computeContentObjectHash object := by
    simp only [CCNxInterest.matches, Bool.and_eq_true, beq_iff_eq] at hmatches
    exact hmatches.2
  obtain rfl := hadmissible.collisionFree hmessage (mem_builds hobject) hhash
  exact h.receive hinterest (hadmissible.resolves server message hobject)

/-- A message of a published build that matches what a client waits for keeps it on its way. -/
theorem Admissible.receive (hadmissible : Admissible lib request config)
    (h : Standing lib repo request (config index) disk client taken) {interest : CCNxInterest}
    (hinterest : client.outstanding (config index) = some interest) {server : κ}
    (hpublished : (request server).Published lib repo disk) {message : CCNxMetaMessage}
    (hmessage : message ∈ (request server).messages lib)
    (hmatches : interest.matches lib message = true) :
    Standing lib repo request (config index) disk
      (client.receive (config index) (some message)) (taken + 1) := by
  cases h with
  | idle hphase haccepted hfresh => simp [Client.outstanding, hphase] at hinterest
  | awaitingFirst hphase haccepted hfresh =>
      have hname := name_of_matches hphase hinterest hmessage hmatches
      obtain ⟨data, work, hworking, hwork⟩ :=
        hadmissible.exists_working hphase hfresh hpublished hname hmessage
      exact .working server hworking (by omega)
  | working worker hworking hbound =>
      obtain ⟨less, hless, hnext⟩ :=
        hadmissible.receive_working hworking hinterest (mem_builds hmessage) hmatches
      exact .working worker hnext (by omega)

end Standing

end CCNxFileRepo
