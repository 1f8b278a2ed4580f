import CCNxFileRepo.CCNx.ReferenceLibrary
import CCNxFileRepo.Client.Delivery
import CCNxFileRepo.Server.Producer

/-!
# Any number of clients

One server and any number of clients share a network.  Interests may be served at any time, and a
message that the server has sent may reach any client whose outstanding interest it matches.  As
all objects are published under one name, the first interest of a client matches every one of
them, so a client may take the traffic of another for its answer.  From then on it is on its way
to the data under the message it took: requests for digests are answered by the right object only.
-/

namespace CCNxFileRepo

open Foundations CCNxFileRepoManifestFetcher CCNxFileRepoClient

/-- The CCNx matching rule. -/
def CCNxInterest.matches (lib : CCNxLibrary) (interest : CCNxInterest)
    (message : CCNxMetaMessage) : Bool :=
  message.objectName == some interest.name &&
    match interest.contentObjectHashRestriction with
    | some digest => lib.computeContentObjectHash message == digest
    | none => true

/-- The clients, the interests sent so far and the messages the server has sent so far. -/
structure Net (ι : Type) where
  clients : ι → Client
  interests : List CCNxInterest
  sent : List CCNxMetaMessage

inductive Event (ι : Type) where
  | run (client : ι)
  | serve (interest : CCNxInterest)
  | deliver (client : ι) (message : CCNxMetaMessage)
  deriving DecidableEq

namespace Net

variable {ι : Type} [DecidableEq ι] (lib : CCNxLibrary) (producer : Producer)
  (config : ι → ClientConfig)

/-- No client has been started, and none has an output file. -/
structure Initial (net : Net ι) : Prop where
  clients : ∀ client, ∃ fs, net.clients client = .fresh fs ∧ fs (config client).outFile = none
  interests : net.interests = []
  sent : net.sent = []

def step (net : Net ι) : Event ι → Option (Net ι)
  | .run client =>
      ((net.clients client).localStep (config client)).map fun next ↦ {
        clients := Function.update net.clients client next
        interests := net.interests ++ (next.outstanding (config client)).toList
        sent := net.sent }
  | .serve interest =>
      if interest ∈ net.interests then
        match producer.handleRequest lib (.interest interest) with
        | .ok response => some { net with sent := net.sent ++ response.toList }
        | .error _ => none
      else none
  | .deliver client message =>
      match (net.clients client).outstanding (config client) with
      | some interest =>
          if message ∈ net.sent ∧ interest.matches lib message then
            some { net with
              clients := Function.update net.clients client
                ((net.clients client).receive (config client) (some message)) }
          else none
      | none => none

def run (net : Net ι) (events : List (Event ι)) : Option (Net ι) :=
  events.foldlM (step lib producer config) net

variable {lib producer config} {net : Net ι}

theorem run_cons (event : Event ι) (events : List (Event ι)) :
    net.run lib producer config (event :: events) =
      (net.step lib producer config event).bind fun next ↦
        next.run lib producer config events :=
  List.foldlM_cons ..

theorem step_run {client : ι} (next : Client)
    (h : (net.clients client).localStep (config client) = some next) :
    net.step lib producer config (.run client) = some {
      clients := Function.update net.clients client next
      interests := net.interests ++ (next.outstanding (config client)).toList
      sent := net.sent } := by
  simp only [step, h, Option.map_some]

theorem step_serve {interest : CCNxInterest} {message : CCNxMetaMessage}
    (hinterest : interest ∈ net.interests)
    (h : producer.handleRequest lib (.interest interest) = .ok (some message)) :
    net.step lib producer config (.serve interest) =
      some { net with sent := net.sent ++ [message] } := by
  simp only [step, hinterest, if_true, h, Option.toList_some]

theorem step_deliver {client : ι} (interest : CCNxInterest) {message : CCNxMetaMessage}
    (hinterest : (net.clients client).outstanding (config client) = some interest)
    (hsent : message ∈ net.sent) (hmatches : interest.matches lib message = true) :
    net.step lib producer config (.deliver client message) = some { net with
      clients := Function.update net.clients client
        ((net.clients client).receive (config client) (some message)) } := by
  simp only [step, hinterest, hsent, hmatches, and_self, if_true]

end Net

/-- The data under a message: the payload of a content object, or the payloads below a manifest in
order. -/
inductive Yields (resolve : Resolver) : CCNxMetaMessage → Bytes → Prop where
  | contentObject (object : CCNxContentObject) :
      Yields resolve (.contentObject object) object.payload
  | manifest {manifest : CCNxManifest} {pointers : List CCNxManifestHashGroupPointer}
      (group : manifest.onlyGroup = some pointers) (t : ManifestTree resolve pointers) :
      Yields resolve (.manifest manifest) t.leaves.flatten

/-! ## What holds of every client -/

section Invariant

variable {lib : CCNxLibrary} {producer : Producer} {objects : List CCNxMetaMessage}

/-- What holds of a client between any two steps. -/
inductive ClientInvariant (lib : CCNxLibrary) (producer : Producer)
    (objects : List CCNxMetaMessage) (config : ClientConfig) (client : Client) : Prop where
  | waiting (phase : client.phase = .idle ∨ client.phase = .awaitingFirst)
      (fresh : client.fs config.outFile = none)
  | working {first : CCNxMetaMessage} {data : Bytes} (accepted : client.accepted = some first)
      (member : first ∈ objects)
      (yields : Yields (resolver (producer.respond lib) producer.name) first data)
      (stands : Stands (producer.respond lib) producer.name config.outFile client.fs data
        client.phase)
  | stopped {stop : Stop} (phase : client.phase = .stopped stop)

/-- A step of a working client that stays on its way. -/
theorem ClientInvariant.settle {config : ClientConfig} {client : Client} {first : CCNxMetaMessage}
    {data : Bytes} (haccepted : client.accepted = some first) (hmember : first ∈ objects)
    (hyields : Yields (resolver (producer.respond lib) producer.name) first data)
    {result : Except Stop (Phase × FileSystem)}
    (hstands : ∀ phase fs, result = .ok (phase, fs) →
      Stands (producer.respond lib) producer.name config.outFile fs data phase) :
    ClientInvariant lib producer objects config (client.settle result) := by
  cases result with
  | error stop => exact .stopped rfl
  | ok next => exact .working haccepted hmember hyields (hstands next.1 next.2 rfl)

theorem ClientInvariant.localStep {config : ClientConfig} {client next : Client}
    (h : ClientInvariant lib producer objects config client)
    (hstep : client.localStep config = some next) :
    ClientInvariant lib producer objects config next := by
  obtain ⟨phase, fs, accepted⟩ := client
  cases h with
  | waiting hphase hfresh =>
      rcases hphase with rfl | rfl
      · cases hstep
        exact .waiting (Or.inr rfl) hfresh
      · cases hstep
  | working haccepted hmember hyields hstands =>
      cases hstands with
      | filling hdownloads =>
          cases hstep
          exact .settle haccepted hmember hyields fun _ _ hadvance ↦ .advance hdownloads hadvance
      | awaitingObject fetcher hdownloads hasked => cases hstep
      | left hcomplete => cases hstep
  | stopped hphase =>
      obtain rfl : phase = .stopped _ := hphase
      cases hstep

/-- A message that matches the outstanding interest keeps a client on its way: as its first
message it sets the way, and later it is the one the server has for the digest. -/
theorem ClientInvariant.receive (hserves : producer.Serves lib objects)
    (htrees : ∀ manifest, .manifest manifest ∈ objects → ∃ pointers,
      manifest.onlyGroup = some pointers ∧
        Nonempty (ManifestTree (resolver (producer.respond lib) producer.name) pointers))
    {config : ClientConfig} (htarget : config.target = producer.name) {client : Client}
    (h : ClientInvariant lib producer objects config client) {interest : CCNxInterest}
    (hinterest : client.outstanding config = some interest) {message : CCNxMetaMessage}
    (hmessage : message ∈ objects) (hmatches : interest.matches lib message = true) :
    ClientInvariant lib producer objects config (client.receive config (some message)) := by
  obtain ⟨phase, fs, accepted⟩ := client
  cases h with
  | waiting hphase hfresh =>
      rcases hphase with rfl | rfl
      · cases hinterest
      · cases hinterest
        cases message with
        | interest _ => simp [CCNxInterest.matches, CCNxMetaMessage.objectName] at hmatches
        | interestReturn _ => simp [CCNxInterest.matches, CCNxMetaMessage.objectName] at hmatches
        | contentObject object =>
            exact .settle rfl hmessage (.contentObject object) fun _ _ haccept ↦
              .accept_contentObject hfresh haccept
        | manifest root =>
            have hname : root.name = producer.name := by
              simpa [CCNxInterest.matches, CCNxMetaMessage.objectName, htarget] using hmatches
            obtain ⟨pointers, hpointers, ⟨t⟩⟩ := htrees root hmessage
            exact .settle rfl hmessage (.manifest hpointers t) fun _ _ haccept ↦
              .accept_manifest hpointers hname t hfresh haccept
  | working haccepted hmember hyields hstands =>
      cases hstands with
      | filling hdownloads => cases hinterest
      | awaitingObject fetcher hdownloads hasked =>
          rename_i download hashDigest
          cases hinterest
          have hdigest : lib.computeContentObjectHash message = hashDigest := by
            simp only [CCNxInterest.matches, Bool.and_eq_true, beq_iff_eq] at hmatches
            exact hmatches.2
          have hrespond : producer.respond lib ⟨producer.name, some hashDigest⟩ = some message := by
            rw [← hdigest]
            exact hserves.resolves message hmessage
          exact .settle haccepted hmember hyields fun _ _ hresume ↦
            .resume (.awaitingObject fetcher hdownloads hasked) hrespond hresume
      | left hcomplete => cases hinterest
  | stopped hphase =>
      obtain rfl : phase = .stopped _ := hphase
      cases hinterest

variable {ι : Type} [DecidableEq ι] {config : ι → ClientConfig}

/-- What holds of the whole net between any two steps. -/
structure NetInvariant (lib : CCNxLibrary) (producer : Producer) (objects : List CCNxMetaMessage)
    (config : ι → ClientConfig) (net : Net ι) : Prop where
  sent : ∀ message ∈ net.sent, message ∈ objects
  clients : ∀ client, ClientInvariant lib producer objects (config client) (net.clients client)

omit [DecidableEq ι] in
theorem NetInvariant.initial {net : Net ι} (h : Net.Initial config net) :
    NetInvariant lib producer objects config net where
  sent := by simp [h.sent]
  clients client := by
    obtain ⟨fs, hclient, hfresh⟩ := h.clients client
    rw [hclient]
    exact .waiting (Or.inl rfl) hfresh

/-- Changing one client that keeps its invariant keeps that of the net. -/
theorem NetInvariant.update {net : Net ι} (h : NetInvariant lib producer objects config net)
    {client : ι} {next : Client}
    (hnext : ClientInvariant lib producer objects (config client) next) (other : ι) :
    ClientInvariant lib producer objects (config other)
      (Function.update net.clients client next other) := by
  by_cases hother : other = client
  · subst hother
    rw [Function.update_self]
    exact hnext
  · rw [Function.update_of_ne hother]
    exact h.clients other

theorem NetInvariant.step (hserves : producer.Serves lib objects)
    (htrees : ∀ manifest, .manifest manifest ∈ objects → ∃ pointers,
      manifest.onlyGroup = some pointers ∧
        Nonempty (ManifestTree (resolver (producer.respond lib) producer.name) pointers))
    (htarget : ∀ client, (config client).target = producer.name) {net next : Net ι}
    {event : Event ι} (h : NetInvariant lib producer objects config net)
    (hstep : net.step lib producer config event = some next) :
    NetInvariant lib producer objects config next := by
  cases event with
  | run client =>
      obtain ⟨moved, hmoved, rfl⟩ := Option.map_eq_some_iff.mp hstep
      exact ⟨h.sent, h.update ((h.clients client).localStep hmoved)⟩
  | serve interest =>
      simp only [Net.step] at hstep
      split at hstep
      · split at hstep
        · rename_i response hresponse
          cases hstep
          refine ⟨?_, h.clients⟩
          intro message hmessage
          rcases List.mem_append.mp hmessage with hmessage | hmessage
          · exact h.sent message hmessage
          · exact hserves.sound interest message
              (by rw [hresponse, Option.mem_toList.mp hmessage])
        · cases hstep
      · cases hstep
  | deliver client message =>
      simp only [Net.step] at hstep
      split at hstep
      · rename_i interest hinterest
        split at hstep
        · rename_i hdelivered
          cases hstep
          exact ⟨h.sent, h.update ((h.clients client).receive hserves htrees (htarget client)
            hinterest (h.sent message hdelivered.1) hdelivered.2)⟩
        · cases hstep
      · cases hstep

theorem NetInvariant.run (hserves : producer.Serves lib objects)
    (htrees : ∀ manifest, .manifest manifest ∈ objects → ∃ pointers,
      manifest.onlyGroup = some pointers ∧
        Nonempty (ManifestTree (resolver (producer.respond lib) producer.name) pointers))
    (htarget : ∀ client, (config client).target = producer.name) {net final : Net ι}
    {events : List (Event ι)} (h : NetInvariant lib producer objects config net)
    (hrun : net.run lib producer config events = some final) :
    NetInvariant lib producer objects config final := by
  induction events generalizing net with
  | nil =>
      cases hrun
      exact h
  | cons event events ih =>
      rw [Net.run_cons] at hrun
      obtain ⟨next, hstep, hrest⟩ := Option.bind_eq_some_iff.mp hrun
      exact ih (h.step hserves htrees htarget hstep) hrest

end Invariant

/-- What the objects of a build hold is a piece of the file, and all of it for the root. -/
theorem LoadRequest.yields_infix {lib : CCNxLibrary} {request : LoadRequest} {resolve : Resolver}
    (hchunk : 1 ≤ request.chunkSize) (hcapacity : 2 ≤ request.capacity)
    (hresolve : Resolves lib resolve (request.messages lib)) {first : CCNxMetaMessage}
    {data : Bytes} (hfirst : first ∈ request.messages lib) (hyields : Yields resolve first data) :
    data <:+: request.file ∧ (first = .manifest (request.root lib) → data = request.file) := by
  have hfile : (request.chunker lib).reverseIterator.reverse.flatten = request.file :=
    lib.reverseChunks_flatten _ _ hchunk
  cases hyields with
  | contentObject object =>
      refine ⟨?_, by simp⟩
      have hpayload := ManifestBuilder.payload_mem_reverseIterator hcapacity hfirst
      obtain ⟨before, after, hsplit⟩ := List.append_of_mem (List.mem_reverse.mpr hpayload)
      rw [← hfile, hsplit, List.flatten_append, List.flatten_cons]
      exact ⟨before.flatten, after.flatten, List.append_assoc ..⟩
  | manifest hgroup t =>
      constructor
      · obtain ⟨pointers, hpointers, s, hs⟩ :=
          ManifestBuilder.exists_manifestTree hcapacity hresolve hfirst
        obtain rfl : pointers = _ := Option.some.inj (hpointers.symm.trans hgroup)
        obtain ⟨earlier, hsuffix⟩ := hs
        rw [t.leaves_eq_leaves s, ← hfile, ← hsuffix, List.flatten_append]
        apply List.IsSuffix.isInfix
        exact List.suffix_append ..
      · intro hroot
        cases hroot
        obtain ⟨pointers, hpointers, s, hs⟩ :=
          ManifestBuilder.exists_rootTree hcapacity hresolve
        obtain rfl : pointers = _ := Option.some.inj (hpointers.symm.trans hgroup)
        calc
          t.leaves.flatten = s.leaves.flatten := by rw [t.leaves_eq_leaves s]
          _ = (request.chunker lib).reverseIterator.reverse.flatten := by rw [hs]
          _ = request.file := hfile

/-- In every interleaving, a client that has left its loop has in its output file the data under
the first message it took: a piece of the published file, and all of it when the message is the
root manifest. -/
theorem client_output_yields (lib : CCNxLibrary) (repo : CCNxFileRepoCache)
    (serverFs : FileSystem) (hempty : repo.EmptyRepository serverFs) (request : LoadRequest)
    (hchunk : 1 ≤ request.chunkSize) (hcapacity : 2 ≤ request.capacity)
    (hfree : lib.CollisionFreeOn {object | object ∈ request.messages lib}) {ι : Type}
    [DecidableEq ι] (config : ι → ClientConfig)
    (htarget : ∀ client, (config client).target = request.name) :
    ∃ saved, repo.load lib request serverFs noFailures = .ok (some (request.root lib), saved) ∧
      ∀ (net : Net ι) (events : List (Event ι)) (final : Net ι), Net.Initial config net →
        net.run lib (request.producer lib repo saved) config events = some final →
        ∀ client ending, (final.clients client).phase = .left ending →
          ∃ first data, (final.clients client).accepted = some first ∧
            first ∈ request.messages lib ∧
            Yields (resolver ((request.producer lib repo saved).respond lib) request.name) first
              data ∧
            (final.clients client).fs (config client).outFile = some (.regular data) ∧
            data <:+: request.file ∧
            (first = .manifest (request.root lib) → data = request.file) := by
  obtain ⟨saved, hload, hserves⟩ := exists_complete_load request hempty hfree
  have hresolves : Resolves lib (resolver ((request.producer lib repo saved).respond lib)
      request.name) (request.messages lib) := hserves.resolves
  refine ⟨saved, hload, fun net events final hinitial hrun client ending hleft ↦ ?_⟩
  have hinvariant := NetInvariant.run hserves (fun manifest hmanifest ↦ by
    obtain ⟨pointers, hpointers, t, -⟩ :=
      ManifestBuilder.exists_manifestTree hcapacity hresolves hmanifest
    exact ⟨pointers, hpointers, ⟨t⟩⟩) htarget (.initial hinitial) hrun
  cases hinvariant.clients client with
  | waiting hphase hfresh => simp [hleft] at hphase
  | @working first data haccepted hmember hyields hstands =>
      rw [hleft] at hstands
      cases hstands with
      | left hcomplete =>
          exact ⟨first, data, haccepted, hmember, hyields, hcomplete,
            request.yields_infix hchunk hcapacity hresolves hmember hyields⟩
  | stopped hphase => simp [hleft] at hphase

section Sample

open ReferenceLibrary

/-- Two bytes in chunks of one, under one root manifest. -/
def sampleRequest : LoadRequest := ⟨[1, 2], ⟨[[1]]⟩, 1, 3⟩

def sampleDigest : Bytes :=
  referenceLibrary.computeContentObjectHash (ManifestBuilder.chunkObject ⟨[[1]]⟩ [1])

def sampleConfig : Bool → ClientConfig := fun _ ↦ ⟨⟨[[1]]⟩, ['o'], 1⟩

def sampleNet : Net Bool := ⟨fun _ ↦ .fresh fun _ ↦ none, [], []⟩

/-- The first client gets the root manifest and asks for the first chunk.  Then the second client
is started, and the chunk reaches it before the root manifest does. -/
def sampleEvents : List (Event Bool) :=
  [.run false, .serve ⟨⟨[[1]]⟩, none⟩,
    .deliver false (.manifest (sampleRequest.root referenceLibrary)), .run false,
    .serve ⟨⟨[[1]]⟩, some sampleDigest⟩, .run true,
    .deliver true (ManifestBuilder.chunkObject ⟨[[1]]⟩ [1])]

theorem sampleNet_initial : Net.Initial sampleConfig sampleNet where
  clients _ := ⟨fun _ ↦ none, rfl, rfl⟩
  interests := rfl
  sent := rfl

/-- A client that has taken the root manifest and asks for the first chunk. -/
def sampleAsking : Client where
  phase := .awaitingObject
    { fetcher := {
        stateList := [⟨sampleRequest.root referenceLibrary, 0,
          some [ManifestBuilder.chunkPointer referenceLibrary ⟨[[1]]⟩ [2]]⟩]
        locator := ⟨[[1]]⟩
        prevState := none }
      chunkBuffer := (PARCBuffer.allocate 1).rewind
      fileOffset := 0 } sampleDigest
  fs := fun _ ↦ none
  accepted := some (.manifest (sampleRequest.root referenceLibrary))

/-- Where `sampleEvents` lead: the second client has written the chunk as the whole file. -/
theorem run_sampleEvents {producer : Producer} (hname : producer.name = ⟨[[1]]⟩)
    (hmanifest : producer.manifest = sampleRequest.root referenceLibrary)
    (hserves : producer.Serves referenceLibrary (sampleRequest.messages referenceLibrary)) :
    ∃ final, sampleNet.run referenceLibrary producer sampleConfig sampleEvents = some final ∧
      (final.clients true).phase = .left .dumped ∧
      (final.clients true).fs ['o'] = some (.regular [1]) := by
  have hroot : producer.handleRequest referenceLibrary (.interest ⟨⟨[[1]]⟩, none⟩) =
      .ok (some (.manifest (sampleRequest.root referenceLibrary))) := by
    simp [Producer.handleRequest, hname, hmanifest]
  have hchunk : producer.handleRequest referenceLibrary
      (.interest ⟨⟨[[1]]⟩, some sampleDigest⟩) =
        .ok (some (ManifestBuilder.chunkObject ⟨[[1]]⟩ [1])) := by
    have hstored := hserves.stored (ManifestBuilder.chunkObject ⟨[[1]]⟩ [1]) (by decide)
    rw [hname] at hstored
    exact hstored
  simp only [sampleEvents, Net.run_cons]
  rw [Net.step_run ⟨.awaitingFirst, fun _ ↦ none, none⟩ rfl, Option.bind_some,
    Net.step_serve (by exact List.mem_singleton_self _) hroot, Option.bind_some,
    Net.step_deliver ⟨⟨[[1]]⟩, none⟩ (by rfl) (by exact List.mem_singleton_self _)
      (by rfl), Option.bind_some,
    Net.step_run sampleAsking (by rfl), Option.bind_some,
    Net.step_serve (by exact List.mem_append_right _ (List.mem_singleton_self _)) hchunk,
    Option.bind_some, Net.step_run ⟨.awaitingFirst, fun _ ↦ none, none⟩ (by rfl),
    Option.bind_some,
    Net.step_deliver ⟨⟨[[1]]⟩, none⟩ (by rfl)
      (by exact List.mem_append_right _ (List.mem_singleton_self _)) (by rfl), Option.bind_some]
  exact ⟨_, rfl, rfl, rfl⟩

/-- The run of `sampleEvents`: the second client ends with a piece of the file. -/
theorem client_output_yields_sample :
    let repo : CCNxFileRepoCache := ⟨['r'], 1⟩
    ∃ saved final, repo.load referenceLibrary sampleRequest repo.freshDisk noFailures =
        .ok (some (sampleRequest.root referenceLibrary), saved) ∧
      sampleNet.run referenceLibrary (sampleRequest.producer referenceLibrary repo saved)
        sampleConfig sampleEvents = some final ∧
      ∃ first data, (final.clients true).accepted = some first ∧
        first ∈ sampleRequest.messages referenceLibrary ∧
        Yields (resolver ((sampleRequest.producer referenceLibrary repo saved).respond
          referenceLibrary) sampleRequest.name) first data ∧
        (final.clients true).fs ['o'] = some (.regular data) ∧ data <:+: sampleRequest.file ∧
        (first = .manifest (sampleRequest.root referenceLibrary) → data = sampleRequest.file) := by
  intro repo
  obtain ⟨saved, hload, hyields⟩ := client_output_yields referenceLibrary repo repo.freshDisk
    (CCNxFileRepoCache.emptyRepository_freshDisk _) sampleRequest (by decide) (by decide)
    (collisionFreeOn _) sampleConfig fun _ ↦ rfl
  obtain ⟨stored, hstored, hserves⟩ := exists_complete_load sampleRequest
    (CCNxFileRepoCache.emptyRepository_freshDisk repo) (collisionFreeOn _)
  obtain rfl : saved = stored := by simpa [hload] using hstored
  obtain ⟨final, hrun, hleft, -⟩ := run_sampleEvents rfl rfl hserves
  exact ⟨saved, final, hload, hrun, hyields _ _ _ sampleNet_initial hrun _ _ hleft⟩

/-- A client that takes a chunk asked for by another client for its answer leaves its receive loop
with a file that is not the published one. -/
theorem client_takes_foreign_chunk :
    let repo : CCNxFileRepoCache := ⟨['r'], 1⟩
    ∃ saved final, repo.load referenceLibrary sampleRequest repo.freshDisk noFailures =
        .ok (some (sampleRequest.root referenceLibrary), saved) ∧
      Net.Initial sampleConfig sampleNet ∧
      sampleNet.run referenceLibrary (sampleRequest.producer referenceLibrary repo saved)
        sampleConfig sampleEvents = some final ∧
      (final.clients true).phase = .left .dumped ∧
      (final.clients true).fs ['o'] = some (.regular [1]) ∧ sampleRequest.file = [1, 2] := by
  intro repo
  obtain ⟨saved, hload, hserves⟩ := exists_complete_load sampleRequest
    (CCNxFileRepoCache.emptyRepository_freshDisk repo) (collisionFreeOn _)
  obtain ⟨final, hrun, hleft, hfile⟩ := run_sampleEvents rfl rfl hserves
  exact ⟨saved, final, hload, sampleNet_initial, hrun, hleft, hfile, rfl⟩

end Sample

end CCNxFileRepo
