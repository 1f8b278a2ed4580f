import CCNxFileRepo.Client.AnyNetwork
import CCNxFileRepo.System.PublishedRun

/-!
# Networks that check hashes

An interest in a digest is a restriction on its answer, and the network holds its answers to it.
Beyond that it may do what it likes: lose objects, send other messages in their place, and let this
depend on all it has seen.  It cannot do more than lose objects.  What a client that has the root
writes is what comes of asking for the objects of the build in turn, with some of them lost.
-/

namespace CCNxFileRepo

open Foundations CCNxFileRepoManifestFetcher CCNxFileRepoClient

variable {σ : Type} {lib : CCNxLibrary} {objects : Set CCNxMetaMessage} {portal : CCNxPortal σ}

/-- Every object that arrives for a digest has this digest.  The objects that arrive are among
`objects`. -/
def CCNxPortal.ChecksHashes (lib : CCNxLibrary) (objects : Set CCNxMetaMessage)
    (portal : CCNxPortal σ) : Prop :=
  ∀ name digest state message, (portal.exchange ⟨name, some digest⟩ state).1 = some message →
    message.isManifest = true ∨ message.isContentObject = true →
      message ∈ objects ∧ lib.computeContentObjectHash message = digest

/-- Without collisions there is one object for a digest. -/
theorem CCNxPortal.ChecksHashes.exists_answers (h : portal.ChecksHashes lib objects)
    (hfree : lib.CollisionFreeOn objects) {messages : List CCNxMetaMessage}
    (hmessages : ∀ message ∈ messages, message ∈ objects) :
    ∃ respond, portal.Answers respond ∧ ∀ name, Resolves lib (resolver respond name) messages := by
  classical
  let respond (interest : CCNxInterest) : Option CCNxMetaMessage :=
    interest.contentObjectHashRestriction.bind fun digest ↦
      if hfound : ∃ object ∈ objects, lib.computeContentObjectHash object = digest then
        some hfound.choose
      else none
  have hrespond : ∀ name, ∀ object ∈ objects,
      respond ⟨name, some (lib.computeContentObjectHash object)⟩ = some object := by
    intro name object hobject
    have hfound : ∃ other ∈ objects,
        lib.computeContentObjectHash other = lib.computeContentObjectHash object :=
      ⟨object, hobject, rfl⟩
    have hsame : hfound.choose = object :=
      hfree hfound.choose_spec.1 hobject hfound.choose_spec.2
    exact (dif_pos hfound).trans (congrArg some hsame)
  refine ⟨respond, ?_, fun name object hobject ↦ hrespond name object (hmessages object hobject)⟩
  intro name digest state message hanswer hkind
  obtain ⟨hobject, rfl⟩ := h name digest state message hanswer hkind
  exact hrespond name message hobject

/-- Over any network that checks hashes, from whatever state it is in, a client with the root of a
published file comes to the end of its download.  Its file holds what comes of asking for the
objects of the build in turn, as far as its writes have stored it. -/
theorem download_over_any_network (lib : CCNxLibrary) (request : LoadRequest)
    (hchunk : 1 ≤ request.chunkSize) (hcapacity : 2 ≤ request.capacity)
    (objects : Set CCNxMetaMessage)
    (hmessages : ∀ message ∈ request.messages lib, message ∈ objects)
    (hfree : lib.CollisionFreeOn objects) {σ : Type} (portal : CCNxPortal σ)
    (hchecks : portal.ChecksHashes lib objects) (clientBufferSize : ℕ)
    (hbuffer : request.chunkSize ≤ clientBufferSize) (outFile : CString) (clientFs : FileSystem)
    (hpath : clientFs outFile ≠ some .directory) :
    ∃ rounds, ∀ fuel, rounds < fuel → ∀ (network : σ) (outcomes : ℕ → WriteOutcome),
      ∃ comes final, download portal clientBufferSize outFile fuel (request.root lib) clientFs
          network outcomes = .ok final ∧
        Offers outFile clientFs 0
          ((request.asked lib comes).filterMap ManifestBuilder.payloadOf).flatten final.fs ∧
        (outcomes = noFailures → final.fs = Function.update clientFs outFile (some (.regular
          (Overlay.overlay 0 (clientFs.contentsAt outFile) 0
            ((request.asked lib comes).filterMap ManifestBuilder.payloadOf).flatten)))) := by
  obtain ⟨respond, hanswers, hresolves⟩ := hchecks.exists_answers hfree hmessages
  obtain ⟨pointers, hroot, t, hsizes, -, hvisits⟩ :=
    exists_requestTree hchunk hcapacity (hresolves (request.root lib).name)
  refine ⟨2 * t.preorder.length + 1, fun fuel hfuel network outcomes ↦ ?_⟩
  have hfits : ∀ payload ∈ t.leaves, payload.length ≤ clientBufferSize :=
    fun payload hpayload ↦ (hsizes payload hpayload).trans hbuffer
  obtain ⟨schedule, interests, hscript⟩ :=
    exists_script_of_download hanswers fuel (request.root lib) clientFs network outcomes
  let script := ScriptedState.start schedule
  obtain ⟨scripted, hscripted, hoffers, -⟩ :=
    download_offers script outcomes hroot t (hchunk.trans hbuffer) hfits hpath hfuel
  rw [hscripted] at hscript
  cases hdownload : download portal clientBufferSize outFile fuel (request.root lib) clientFs
      network outcomes with
  | error stop =>
      rw [hdownload] at hscript
      cases hscript
  | ok final =>
      rw [hdownload] at hscript
      obtain rfl := Except.ok.inj hscript
      refine ⟨script.schedule, final, rfl, ?_, ?_⟩
      · rw [← (hvisits script.schedule).2]
        exact hoffers
      · rintro rfl
        obtain ⟨same, hsame, -, hfs⟩ :=
          download_writes script hroot t (hchunk.trans hbuffer) hfits hpath hfuel
        obtain rfl := Except.ok.inj (hscripted.symm.trans hsame)
        rw [← (hvisits script.schedule).2]
        exact hfs

/-- A network that holds `objects`, and after one that it found loses the next one. -/
def tiringPortal (lib : CCNxLibrary) (objects : List CCNxMetaMessage) :
    CCNxPortal (Bool × Option CCNxMetaMessage) where
  send message state :=
    match message, state.1 with
    | .interest ⟨_, some digest⟩, false =>
        let found := findObject lib objects digest
        (true, (found.isSome, found))
    | _, _ => (true, (false, none))
  receive state := (state.2, (state.1, none))
  isError _ := false

theorem checksHashes_tiringPortal (lib : CCNxLibrary) (messages : List CCNxMetaMessage) :
    (tiringPortal lib messages).ChecksHashes lib {message | message ∈ messages} := by
  rintro name digest ⟨found, reply⟩ message hanswer -
  cases found with
  | false => exact mem_of_findObject hanswer
  | true => cases hanswer

open ReferenceLibrary in
/-- Five bytes in chunks of two, over a network that loses some of the objects. -/
theorem download_over_any_network_tiring :
    let request : LoadRequest := ⟨[1, 2, 3, 4, 5], ⟨[[1]]⟩, 2, 2⟩
    let portal := tiringPortal referenceLibrary (request.messages referenceLibrary)
    ∃ rounds, ∀ fuel, rounds < fuel → ∀ network outcomes,
      ∃ comes final, download portal 3 ['o'] fuel (request.root referenceLibrary) (fun _ ↦ none)
          network outcomes = .ok final ∧
        Offers ['o'] (fun _ ↦ none) 0
          ((request.asked referenceLibrary comes).filterMap
            ManifestBuilder.payloadOf).flatten final.fs ∧
        (outcomes = noFailures → final.fs = Function.update (fun _ ↦ none) ['o']
          (some (.regular (Overlay.overlay 0 [] 0
            ((request.asked referenceLibrary comes).filterMap
              ManifestBuilder.payloadOf).flatten)))) :=
  download_over_any_network referenceLibrary ⟨[1, 2, 3, 4, 5], ⟨[[1]]⟩, 2, 2⟩ (by decide)
    (by decide) _ (fun _ hmessage ↦ hmessage) (collisionFreeOn _) _
    (checksHashes_tiringPortal _ _) 3 (by decide) ['o'] (fun _ ↦ none) (by simp)

end CCNxFileRepo
