import CCNxFileRepo.CCNx.ReferenceLibrary
import CCNxFileRepo.Server.RequestLoop

/-!
# What the server sends under its name

The server compares the name of an interest with its own and then looks up the digest in a
directory that outlives it.  The name of the object it finds is not looked at.  So a reply always
has the digest that was asked for, but it has the wrong name when the digest belongs to something
that was published from the same directory under another name.
-/

namespace CCNxFileRepo

open Foundations

namespace Producer

variable (lib : CCNxLibrary)

/-- What goes out for an interest carries its name and, when a digest is asked for, has this
digest; nothing goes out for another name than the server's. -/
structure Matches (serverName : CCNxName) (interest : CCNxInterest)
    (reply : Option CCNxMetaMessage) : Prop where
  sameName : ∀ message, reply = some message → message.objectName = some interest.name
  sameHash : ∀ message digest, reply = some message →
    interest.contentObjectHashRestriction = some digest →
      lib.computeContentObjectHash message = digest
  otherName : interest.name ≠ serverName → reply = none

/-- The interest is in the server's name, but its digest is that of an object that was published
under another one. -/
def AsksForForeign (published : List CCNxMetaMessage) (serverName : CCNxName)
    (interest : CCNxInterest) : Prop :=
  interest.name = serverName ∧ ∃ object ∈ published,
    interest.contentObjectHashRestriction = some (lib.computeContentObjectHash object) ∧
      object.objectName ≠ some serverName

/-- The answers of a server whose directory holds exactly what was published. -/
inductive Answers (producer : Producer) (published : List CCNxMetaMessage)
    (interest : CCNxInterest) : Option CCNxMetaMessage → Prop where
  | otherName (hname : interest.name ≠ producer.name) :
      Answers producer published interest none
  | root (hname : interest.name = producer.name)
      (hrestriction : interest.contentObjectHashRestriction = none) :
      Answers producer published interest (some (.manifest producer.manifest))
  | absent (hname : interest.name = producer.name) (digest : Bytes)
      (hrestriction : interest.contentObjectHashRestriction = some digest)
      (habsent : ∀ object ∈ published, lib.computeContentObjectHash object ≠ digest) :
      Answers producer published interest none
  | stored (hname : interest.name = producer.name) (object : CCNxMetaMessage)
      (hobject : object ∈ published)
      (hrestriction : interest.contentObjectHashRestriction =
        some (lib.computeContentObjectHash object)) :
      Answers producer published interest (some object)

variable {lib} {producer : Producer} {published : List CCNxMetaMessage} {interest : CCNxInterest}
  {reply : Option CCNxMetaMessage}

/-- A request that is handled is answered from what was published. -/
theorem answers_of_handleRequest {objects : Set CCNxMetaMessage}
    (hrepresents : CCNxFileRepoCache.Represents lib producer.cache objects producer.fs
      (CCNxFileRepoCache.completeProgress lib published))
    (hpublished : ∀ object ∈ published, object ∈ objects)
    (hreply : producer.handleRequest lib (.interest interest) = .ok reply) :
    Answers lib producer published interest reply := by
  by_cases hname : interest.name = producer.name
  case neg =>
    rw [handleRequest_otherName hname, Except.ok.injEq] at hreply
    exact hreply ▸ .otherName hname
  cases hrestriction : interest.contentObjectHashRestriction with
  | none =>
      rw [handleRequest_root hname hrestriction, Except.ok.injEq] at hreply
      exact hreply ▸ .root hname hrestriction
  | some digest =>
      cases hlookup : producer.cache.createWireEncodedMessageWithDigest lib producer.fs
          digest with
      | error stop =>
          rw [handleRequest_stop hname hrestriction hlookup] at hreply
          cases hreply
      | ok found =>
          cases found with
          | none =>
              rw [handleRequest_absent hname hrestriction hlookup, Except.ok.injEq] at hreply
              subst hreply
              apply Answers.absent hname digest hrestriction
              rintro object hobject rfl
              have hstored := (hrepresents.contentAddressed hpublished).lookups object hobject
              simp [hlookup] at hstored
          | some wire =>
              obtain ⟨object, hobject, rfl, rfl⟩ := hrepresents.wire_of_lookup hlookup
              rw [handleRequest_stored hname hrestriction hlookup, Except.ok.injEq] at hreply
              exact hreply ▸ .stored hname object hobject hrestriction

theorem matches_none (serverName : CCNxName) : Matches lib serverName interest none :=
  ⟨by simp, by simp, fun _ ↦ rfl⟩

/-- A message sent under the server's name with the right digest matches if it has this name. -/
theorem matches_some_iff {message : CCNxMetaMessage} (hname : interest.name = producer.name)
    (hhash : ∀ digest, interest.contentObjectHashRestriction = some digest →
      lib.computeContentObjectHash message = digest) :
    Matches lib producer.name interest (some message) ↔
      message.objectName = some producer.name := by
  constructor
  · intro h
    rw [h.sameName message rfl, hname]
  · intro h
    refine ⟨?_, ?_, fun hother ↦ absurd hname hother⟩
    · rintro _ ⟨⟩
      rw [h, hname]
    · rintro _ digest ⟨⟩
      exact hhash digest

/-- An answer matches unless a foreign object was asked for. -/
theorem Answers.matches_iff (h : Answers lib producer published interest reply)
    (hfree : lib.CollisionFreeOn {object | object ∈ published})
    (hroot : producer.manifest.name = producer.name) :
    Matches lib producer.name interest reply ↔
      ¬ AsksForForeign lib published producer.name interest := by
  cases h with
  | otherName hname => exact iff_of_true (matches_none _) fun hforeign ↦ hname hforeign.1
  | root hname hrestriction =>
      rw [matches_some_iff hname (by simp [hrestriction]), CCNxMetaMessage.objectName, hroot]
      apply iff_of_true rfl
      rintro ⟨-, object, -, hdigest, -⟩
      simp [hrestriction] at hdigest
  | absent hname digest hrestriction habsent =>
      apply iff_of_true (matches_none _)
      rintro ⟨-, object, hobject, hdigest, -⟩
      rw [hrestriction, Option.some.injEq] at hdigest
      exact habsent object hobject hdigest.symm
  | stored hname object hobject hrestriction =>
      rw [matches_some_iff hname (by simp [hrestriction])]
      constructor
      · rintro hsame ⟨-, other, hother, hdigest, hforeign⟩
        rw [hrestriction, Option.some.injEq] at hdigest
        have heq : object = other := hfree hobject hother hdigest
        exact hforeign (heq ▸ hsame)
      · intro hforeign
        by_contra hother
        exact hforeign ⟨hname, object, hobject, hrestriction, hother⟩

end Producer

open Producer

/-- A complete history of loads, and the server after its last one. -/
theorem exists_history_producer {lib : CCNxLibrary} {repo : CCNxFileRepoCache} {fs : FileSystem}
    (hempty : repo.EmptyRepository fs) (requests : List LoadRequest)
    (hfree : lib.CollisionFreeOn
      {object | object ∈ CCNxFileRepoCache.historyMessages lib requests}) :
    ∃ saved, repo.runLoads lib (requests.map (·, noFailures)) fs =
        .ok (requests.map fun request ↦ some (request.root lib), saved) ∧
      CCNxFileRepoCache.Represents lib repo
        {object | object ∈ CCNxFileRepoCache.historyMessages lib requests} saved
        (CCNxFileRepoCache.completeProgress lib
          (CCNxFileRepoCache.historyMessages lib requests)) := by
  obtain ⟨saved, hsaved, hrepresents⟩ := CCNxFileRepoCache.exists_saveAll_take hempty hfree
    (CCNxFileRepoCache.historyMessages lib requests).length
  rw [List.take_length] at hsaved hrepresents
  refine ⟨saved, ?_, hrepresents⟩
  rw [CCNxFileRepoCache.runLoads_noFailures, hsaved]
  rfl

/-- Over any history of runs that share a repository, a reply of the last server matches its
interest if and only if the interest does not ask, in the server's name, for the digest of an object
that an earlier run published under another name. -/
theorem reply_matches_iff (lib : CCNxLibrary) (repo : CCNxFileRepoCache) (fs : FileSystem)
    (hempty : repo.EmptyRepository fs) (earlier : List LoadRequest) (request : LoadRequest)
    (hfree : lib.CollisionFreeOn
      {object | object ∈ CCNxFileRepoCache.historyMessages lib (earlier ++ [request])}) :
    ∃ roots saved, repo.runLoads lib ((earlier ++ [request]).map (·, noFailures)) fs =
        .ok (roots ++ [some (request.root lib)], saved) ∧
      ∀ (requests : List CCNxMetaMessage) (index : ℕ) (interest : CCNxInterest)
          (reply : Option CCNxMetaMessage), requests[index]? = some (.interest interest) →
        ((request.producer lib repo saved).requestLoop lib requests).replies[index]? =
          some reply →
        (Matches lib request.name interest reply ↔
          ¬ AsksForForeign lib (CCNxFileRepoCache.historyMessages lib (earlier ++ [request]))
            request.name interest) := by
  obtain ⟨saved, hruns, hrepresents⟩ := exists_history_producer hempty _ hfree
  rw [List.map_append (f := fun request : LoadRequest ↦ some (request.root lib))] at hruns
  refine ⟨_, saved, hruns, fun requests index interest reply hrequest hreply ↦ ?_⟩
  have hanswers : Answers lib (request.producer lib repo saved) _ interest reply :=
    answers_of_handleRequest hrepresents (fun _ hobject ↦ hobject)
      (handleRequest_of_reply hrequest hreply)
  exact hanswers.matches_iff hfree rfl

open ReferenceLibrary in
/-- One earlier run, under another name. -/
theorem reply_matches_iff_two_runs :
    let repo : CCNxFileRepoCache := ⟨['r'], 4096⟩
    let first : LoadRequest := ⟨[7], ⟨[[1]]⟩, 4096, 2⟩
    let second : LoadRequest := ⟨[8], ⟨[[2]]⟩, 4096, 2⟩
    ∃ roots saved, repo.runLoads referenceLibrary ([first, second].map (·, noFailures))
        repo.freshDisk = .ok (roots ++ [some (second.root referenceLibrary)], saved) ∧
      ∀ (requests : List CCNxMetaMessage) (index : ℕ) (interest : CCNxInterest)
          (reply : Option CCNxMetaMessage), requests[index]? = some (.interest interest) →
        ((second.producer referenceLibrary repo saved).requestLoop referenceLibrary
          requests).replies[index]? = some reply →
        (Matches referenceLibrary second.name interest reply ↔
          ¬ AsksForForeign referenceLibrary (CCNxFileRepoCache.historyMessages referenceLibrary
            [first, second]) second.name interest) :=
  reply_matches_iff referenceLibrary ⟨['r'], 4096⟩ _
    (CCNxFileRepoCache.emptyRepository_freshDisk _) [_] _ (collisionFreeOn _)

open ReferenceLibrary in
/-- The second of two servers is asked, in its own name, for the digest of the content object that
the first one made, and sends it under the name of the first. -/
theorem reply_foreign_name :
    let repo : CCNxFileRepoCache := ⟨['r'], 4096⟩
    let first : LoadRequest := ⟨[7], ⟨[[1]]⟩, 4096, 2⟩
    let second : LoadRequest := ⟨[8], ⟨[[2]]⟩, 4096, 2⟩
    let foreign : CCNxMetaMessage := .contentObject ⟨⟨[[1]]⟩, [7]⟩
    let interest : CCNxInterest :=
      ⟨⟨[[2]]⟩, some (referenceLibrary.computeContentObjectHash foreign)⟩
    ∃ roots saved, repo.runLoads referenceLibrary ([first, second].map (·, noFailures))
        repo.freshDisk = .ok (roots, saved) ∧
      ((second.producer referenceLibrary repo saved).requestLoop referenceLibrary
        [.interest interest]).replies[0]? = some (some foreign) ∧
      ¬ Matches referenceLibrary second.name interest (some foreign) := by
  intro repo first second foreign interest
  obtain ⟨saved, hruns, hrepresents⟩ := exists_history_producer
    (CCNxFileRepoCache.emptyRepository_freshDisk repo) [first, second] (collisionFreeOn _)
  have hforeign : foreign ∈ CCNxFileRepoCache.historyMessages referenceLibrary [first, second] := by
    decide
  have hlookup := (hrepresents.contentAddressed fun _ hobject ↦ hobject).lookups foreign hforeign
  refine ⟨_, saved, hruns, ?_, ?_⟩
  · exact (requestLoop_reply_iff [] []).mpr ⟨by simp, handleRequest_stored rfl rfl hlookup⟩
  · intro hmatches
    have hname : foreign.objectName = some interest.name := hmatches.sameName foreign rfl
    revert hname
    decide

end CCNxFileRepo
