import CCNxFileRepo.CCNx.ManifestTree
import CCNxFileRepo.Foundations.Fallible
import CCNxFileRepo.Repository.History

/-!
# The server

The server loads one file and then answers interests.  An interest in its own name is answered by
the stored object with the digest it carries, or by the root manifest when it carries none.  Any
other message gets no answer.
-/

namespace CCNxFileRepo

open Foundations

/-- What the request loop of `_runProducer` works with, and the disk it reads. -/
structure Producer where
  cache : CCNxFileRepoCache
  name : CCNxName
  manifest : CCNxManifest
  fs : FileSystem

namespace Producer

variable (lib : CCNxLibrary)

/-- One round of the request loop of `_runProducer`; `none` means that nothing is sent. -/
def handleRequest (producer : Producer) (request : CCNxMetaMessage) :
    Except Stop (Option CCNxMetaMessage) :=
  match request with
  | .interest interest =>
      if interest.name = producer.name then
        match interest.contentObjectHashRestriction with
        | some digest => do
            let chunk ←
              producer.cache.createWireEncodedMessageWithDigest lib producer.fs digest
            match chunk with
            | some chunk =>
                match lib.createFromWireFormatBuffer chunk with
                | some response => return some response
                | none => .error .nullMessage
            | none => return none
        | none => .ok (some (.manifest producer.manifest))
      else .ok none
  | _ => .ok none

/-- The answers of the server as a network sees them. -/
def respond (producer : Producer) (interest : CCNxInterest) : Option CCNxMetaMessage :=
  match producer.handleRequest lib (.interest interest) with
  | .ok response => response
  | .error _ => none

/-- The server answers with objects of `objects` only, with each of them for its own digest. -/
structure Serves (producer : Producer) (objects : List CCNxMetaMessage) : Prop where
  stored : ∀ object ∈ objects, producer.handleRequest lib
    (.interest ⟨producer.name, some (lib.computeContentObjectHash object)⟩) = .ok (some object)
  sound : ∀ interest message,
    producer.handleRequest lib (.interest interest) = .ok (some message) → message ∈ objects

variable {lib} {producer : Producer} {objects : List CCNxMetaMessage}

@[simp]
theorem respond_root :
    producer.respond lib ⟨producer.name, none⟩ = some (.manifest producer.manifest) := by
  simp [respond, handleRequest]

/-- What the server sends is the root manifest or a stored object. -/
theorem handleRequest_cases {interest : CCNxInterest} {message : CCNxMetaMessage}
    (h : producer.handleRequest lib (.interest interest) = .ok (some message)) :
    message = .manifest producer.manifest ∨ ∃ digest chunk,
      producer.cache.createWireEncodedMessageWithDigest lib producer.fs digest =
        .ok (some chunk) ∧ lib.createFromWireFormatBuffer chunk = some message := by
  unfold handleRequest at h
  simp only at h
  split at h
  · cases hrestriction : interest.contentObjectHashRestriction with
    | none =>
        simp only [hrestriction, Except.ok.injEq, Option.some.injEq] at h
        exact Or.inl h.symm
    | some digest =>
        simp only [hrestriction] at h
        obtain ⟨found, hlookup, h⟩ := Fallible.bind_eq_ok.mp h
        cases found with
        | none => cases h
        | some chunk =>
            cases hdecoded : lib.createFromWireFormatBuffer chunk with
            | none =>
                simp only [hdecoded] at h
                cases h
            | some response =>
                simp only [hdecoded] at h
                cases h
                exact Or.inr ⟨digest, chunk, hlookup, hdecoded⟩
  · cases h

theorem Serves.resolves (h : producer.Serves lib objects) :
    Resolves lib (fun digest ↦ producer.respond lib ⟨producer.name, some digest⟩) objects := by
  intro object hobject
  simp only [respond, h.stored object hobject]

end Producer

/-- The server after a load of `request` that left the disk `saved`. -/
def LoadRequest.producer (lib : CCNxLibrary) (request : LoadRequest) (repo : CCNxFileRepoCache)
    (saved : FileSystem) : Producer where
  cache := repo
  name := request.name
  manifest := request.root lib
  fs := saved

/-- A load without failures into an empty repository stores every object of the build, and the
server answers with them and nothing else. -/
theorem exists_complete_load {lib : CCNxLibrary} {repo : CCNxFileRepoCache} {fs : FileSystem}
    (request : LoadRequest) (hempty : repo.EmptyRepository fs)
    (hfree : lib.CollisionFreeOn {object | object ∈ request.messages lib}) :
    ∃ saved, repo.load lib request fs noFailures = .ok (some (request.root lib), saved) ∧
      (request.producer lib repo saved).Serves lib (request.messages lib) := by
  obtain ⟨saved, hsaved, hrepresents⟩ :=
    CCNxFileRepoCache.exists_saveAll_take hempty hfree (request.messages lib).length
  rw [List.take_length] at hsaved hrepresents
  refine ⟨saved, ?_, ?_, ?_⟩
  · rw [CCNxFileRepoCache.load_eq, hsaved]
    rfl
  · intro object hobject
    have hlookup :=
      (hrepresents.contentAddressed fun _ hobject ↦ hobject).lookups object hobject
    simp only [Producer.handleRequest, LoadRequest.producer, if_true, hlookup, bind, Except.bind,
      lib.wireFormat_roundTrip]
    rfl
  · intro interest message hmessage
    rcases Producer.handleRequest_cases hmessage with rfl | ⟨digest, chunk, hlookup, hdecoded⟩
    · exact ManifestBuilder.rootManifest_mem
    · obtain ⟨object, hobject, -, rfl⟩ := hrepresents.wire_of_lookup hlookup
      rw [lib.wireFormat_roundTrip, Option.some.injEq] at hdecoded
      exact hdecoded ▸ hobject

end CCNxFileRepo
