import CCNxFileRepo.Server.Producer

/-!
# The request loop

The server takes one message after the other from its portal until there is none left.  It never
writes to its disk while it does so, and an answer depends on the message alone: what was handled
before plays no role, as long as the loop came through it.

Two kinds of interests in its own name stop it.  The digest without bytes leads the lookup to the
repository directory, which cannot be opened as a file, and what short writes have left of an object
may be no message.
-/

namespace CCNxFileRepo

open Foundations

namespace Producer

/-- What the request loop did: the message it sent for each request it handled, if any, and what
stopped the process in the middle of a request. -/
structure Session where
  replies : List (Option CCNxMetaMessage)
  stop : Option Stop
  deriving DecidableEq, Repr

variable (lib : CCNxLibrary)

/-- The request loop of `_runProducer` over the messages that its portal receives.  After the last
one the portal has only `NULL`, which ends the loop.  A send that fails is only reported. -/
def requestLoop (producer : Producer) : List CCNxMetaMessage → Session
  | [] => { replies := [], stop := none }
  | request :: later =>
      match producer.handleRequest lib request with
      | .error stop => { replies := [], stop := some stop }
      | .ok reply =>
          let session := requestLoop producer later
          { session with replies := reply :: session.replies }

variable {lib} {producer : Producer}

theorem requestLoop_cons_ok {request : CCNxMetaMessage} {reply : Option CCNxMetaMessage}
    (h : producer.handleRequest lib request = .ok reply) (later : List CCNxMetaMessage) :
    producer.requestLoop lib (request :: later) =
      { producer.requestLoop lib later with
        replies := reply :: (producer.requestLoop lib later).replies } := by
  simp only [requestLoop, h]

theorem requestLoop_cons_error {request : CCNxMetaMessage} {stop : Stop}
    (h : producer.handleRequest lib request = .error stop) (later : List CCNxMetaMessage) :
    producer.requestLoop lib (request :: later) = { replies := [], stop := some stop } := by
  simp only [requestLoop, h]

theorem handleRequest_of_reply {requests : List CCNxMetaMessage} {index : ℕ}
    {request : CCNxMetaMessage} {reply : Option CCNxMetaMessage}
    (hrequest : requests[index]? = some request)
    (hreply : (producer.requestLoop lib requests).replies[index]? = some reply) :
    producer.handleRequest lib request = .ok reply := by
  induction requests generalizing index with
  | nil => cases hrequest
  | cons first later ih =>
      cases hfirst : producer.handleRequest lib first with
      | error stop =>
          rw [requestLoop_cons_error hfirst] at hreply
          cases hreply
      | ok answer =>
          rw [requestLoop_cons_ok hfirst] at hreply
          cases index with
          | zero =>
              obtain rfl : first = request := by simpa using hrequest
              obtain rfl : answer = reply := by simpa using hreply
              exact hfirst
          | succ index => exact ih (by simpa using hrequest) (by simpa using hreply)

/-- A request gets its reply if and only if the loop has an answer, be it silence, to each request
before it, and the reply is the one it would get as the first request. -/
theorem requestLoop_reply_iff (before : List CCNxMetaMessage) {request : CCNxMetaMessage}
    {reply : Option CCNxMetaMessage} (after : List CCNxMetaMessage) :
    (producer.requestLoop lib (before ++ request :: after)).replies[before.length]? =
        some reply ↔
      (∀ other ∈ before, ∃ answer, producer.handleRequest lib other = .ok answer) ∧
        producer.handleRequest lib request = .ok reply := by
  induction before with
  | nil =>
      rw [List.nil_append]
      cases hrequest : producer.handleRequest lib request with
      | error stop => simp [requestLoop_cons_error hrequest]
      | ok answer => simp [requestLoop_cons_ok hrequest]
  | cons first before ih =>
      rw [List.cons_append, List.forall_mem_cons]
      cases hfirst : producer.handleRequest lib first with
      | error stop => simp [requestLoop_cons_error hfirst]
      | ok answer => simpa [requestLoop_cons_ok hfirst] using ih

/-! ## What one request comes to -/

theorem handleRequest_otherName {interest : CCNxInterest} (h : interest.name ≠ producer.name) :
    producer.handleRequest lib (.interest interest) = .ok none := by
  simp only [handleRequest, h, if_false]

theorem handleRequest_root {interest : CCNxInterest} (hname : interest.name = producer.name)
    (hrestriction : interest.contentObjectHashRestriction = none) :
    producer.handleRequest lib (.interest interest) = .ok (some (.manifest producer.manifest)) := by
  simp only [handleRequest, hname, if_true, hrestriction]

theorem handleRequest_absent {interest : CCNxInterest} {digest : Bytes}
    (hname : interest.name = producer.name)
    (hrestriction : interest.contentObjectHashRestriction = some digest)
    (hlookup : producer.cache.createWireEncodedMessageWithDigest lib producer.fs digest =
      .ok none) : producer.handleRequest lib (.interest interest) = .ok none := by
  simp only [handleRequest, hname, if_true, hrestriction, hlookup]
  rfl

theorem handleRequest_decoded {interest : CCNxInterest} {digest chunk : Bytes}
    {response : CCNxMetaMessage} (hname : interest.name = producer.name)
    (hrestriction : interest.contentObjectHashRestriction = some digest)
    (hlookup : producer.cache.createWireEncodedMessageWithDigest lib producer.fs digest =
      .ok (some chunk)) (hchunk : lib.createFromWireFormatBuffer chunk = some response) :
    producer.handleRequest lib (.interest interest) = .ok (some response) := by
  simp only [handleRequest, hname, if_true, hrestriction, hlookup, bind, Except.bind, hchunk]
  rfl

/-- A complete object comes back as it was saved. -/
theorem handleRequest_stored {interest : CCNxInterest} {digest : Bytes} {object : CCNxMetaMessage}
    (hname : interest.name = producer.name)
    (hrestriction : interest.contentObjectHashRestriction = some digest)
    (hlookup : producer.cache.createWireEncodedMessageWithDigest lib producer.fs digest =
      .ok (some (lib.createWireFormatBuffer object))) :
    producer.handleRequest lib (.interest interest) = .ok (some object) :=
  handleRequest_decoded hname hrestriction hlookup (lib.wireFormat_roundTrip object)

/-- Bytes that are no message stop the server. -/
theorem handleRequest_undecodable {interest : CCNxInterest} {digest chunk : Bytes}
    (hname : interest.name = producer.name)
    (hrestriction : interest.contentObjectHashRestriction = some digest)
    (hlookup : producer.cache.createWireEncodedMessageWithDigest lib producer.fs digest =
      .ok (some chunk)) (hchunk : lib.createFromWireFormatBuffer chunk = none) :
    producer.handleRequest lib (.interest interest) = .error .nullMessage := by
  simp only [handleRequest, hname, if_true, hrestriction, hlookup, bind, Except.bind, hchunk]

theorem handleRequest_stop {interest : CCNxInterest} {digest : Bytes} {stop : Stop}
    (hname : interest.name = producer.name)
    (hrestriction : interest.contentObjectHashRestriction = some digest)
    (hlookup : producer.cache.createWireEncodedMessageWithDigest lib producer.fs digest =
      .error stop) : producer.handleRequest lib (.interest interest) = .error stop := by
  simp only [handleRequest, hname, if_true, hrestriction, hlookup]
  rfl

/-! ## The requests that stop the server -/

variable (lib) in
/-- The requests that end the request loop after a history of loads: interests in the server's name
for the digest without bytes, whose path is that of the directory, and for an object of which the
writes stored at most a part that is no message. -/
inductive StopsServer (attempts : List (LoadRequest × (ℕ → WriteOutcome))) (name : CCNxName) :
    CCNxMetaMessage → Prop where
  | directory (interest : CCNxInterest) (hname : interest.name = name)
      (hrestriction : interest.contentObjectHashRestriction = some []) :
      StopsServer attempts name (.interest interest)
  | partlyStored (interest : CCNxInterest) (hname : interest.name = name)
      (object : CCNxMetaMessage)
      (hobject : object ∈ CCNxFileRepoCache.historyMessages lib (attempts.map Prod.fst))
      (hrestriction : interest.contentObjectHashRestriction =
        some (lib.computeContentObjectHash object)) (count : ℕ)
      (hcount : CCNxFileRepoCache.historyProgress lib attempts object = WithBot.some count)
      (hpart : lib.createFromWireFormatBuffer
        ((lib.createWireFormatBuffer object).take count) = none) :
      StopsServer attempts name (.interest interest)

section History

variable {attempts : List (LoadRequest × (ℕ → WriteOutcome))} {request : CCNxMetaMessage}
  (hrepresents : CCNxFileRepoCache.Represents lib producer.cache
    {object | object ∈ CCNxFileRepoCache.historyMessages lib (attempts.map Prod.fst)} producer.fs
    (CCNxFileRepoCache.historyProgress lib attempts))

include hrepresents

theorem StopsServer.exists_stop (h : StopsServer lib attempts producer.name request) :
    ∃ stop, producer.handleRequest lib request = .error stop := by
  cases h with
  | directory interest hname hrestriction =>
      exact ⟨_, handleRequest_stop hname hrestriction hrepresents.lookup_nil⟩
  | partlyStored interest hname object hobject hrestriction count hcount hpart =>
      have hlookup := hrepresents.lookup hobject
      rw [hcount, WithBot.recBotCoe_coe] at hlookup
      exact ⟨_, handleRequest_undecodable hname hrestriction hlookup hpart⟩

/-- The server has an answer, be it silence, to every other request. -/
theorem exists_reply_iff :
    (∃ reply, producer.handleRequest lib request = .ok reply) ↔
      ¬ StopsServer lib attempts producer.name request := by
  constructor
  · rintro ⟨reply, hreply⟩ hstops
    obtain ⟨stop, hstop⟩ := hstops.exists_stop hrepresents
    rw [hstop] at hreply
    cases hreply
  · intro hstops
    cases request with
    | interest interest =>
        by_cases hname : interest.name = producer.name
        case neg => exact ⟨none, handleRequest_otherName hname⟩
        cases hrestriction : interest.contentObjectHashRestriction with
        | none => exact ⟨_, handleRequest_root hname hrestriction⟩
        | some digest =>
            have hdigest : digest ≠ [] := by
              rintro rfl
              exact hstops (.directory interest hname hrestriction)
            obtain ⟨found, hlookup⟩ := hrepresents.exists_lookup hdigest
            cases found with
            | none => exact ⟨none, handleRequest_absent hname hrestriction hlookup⟩
            | some chunk =>
                cases hchunk : lib.createFromWireFormatBuffer chunk with
                | some response =>
                    exact ⟨some response, handleRequest_decoded hname hrestriction hlookup hchunk⟩
                | none =>
                    -- what does not decode is a part of an object of the history
                    obtain ⟨object, hobject, count, rfl, hcount, rfl⟩ :=
                      hrepresents.exists_part_of_lookup hlookup
                    exact absurd (.partlyStored interest hname object hobject hrestriction count
                      hcount hchunk) hstops
    | _ => exact ⟨none, rfl⟩

end History

end Producer

end CCNxFileRepo
