import CCNxFileRepo.Client.ShortWrites

/-!
# Clients that are killed

A client can be killed at any point, and what it has written stays in its output file.  The next
client finds the file, does not truncate it and starts again from its first byte.  As a download
never writes beyond the data it is about, whatever it met on the network, a client that comes to
its end has written over all that earlier ones have left behind.
-/

namespace CCNxFileRepo.CCNxFileRepoClient

open Foundations CCNxFileRepoManifestFetcher

section Definitions

variable {σ : Type} (portal : CCNxPortal σ) (clientBufferSize : ℕ) (outFile : CString) (fuel : ℕ)

/-- The disk that the download loop leaves when the client is killed after so many rounds.  A round
that stops before its end has not written. -/
def downloadUntil : ℕ → DownloadState σ → (ℕ → WriteOutcome) → FileSystem
  | 0, state, _ => state.fs
  | rounds + 1, state, outcomes =>
      match downloadRound portal clientBufferSize outFile fuel state (outcomes 0) with
      | .ok (true, state) => state.fs
      | .ok (false, state) => downloadUntil rounds state fun index ↦ outcomes (index + 1)
      | .error _ => state.fs

/-- The disk that the receive loop leaves when the client is killed after so many messages, or
after so many rounds of its download. -/
def receiveUntil (rounds : ℕ) (fs : FileSystem) (outcomes : ℕ → WriteOutcome) :
    ℕ → σ → FileSystem
  | 0, _ => fs
  | messages + 1, network =>
      if portal.isError network then fs
      else
        match portal.receive network with
        | (some (.manifest root), network) =>
            match CCNxFileRepoManifestFetcher.create root with
            | .ok fetcher => downloadUntil portal clientBufferSize outFile fuel rounds {
                fetcher := fetcher
                chunkBuffer := .allocate clientBufferSize
                fileOffset := 0
                fs := fs
                network := network } outcomes
            | .error _ => fs
        | (some (.contentObject contentObject), _) =>
            match appendBufferToFile fs outFile contentObject.payload 0 (outcomes 0) with
            | .ok fs => fs
            | .error _ => fs
        | (none, _) => fs
        | (some _, network) => receiveUntil rounds fs outcomes messages network

/-- The disk that `_ccnxFileRepoClient_Run` leaves when it is killed. -/
def runUntil (rounds messages : ℕ) (target : CCNxName) (fs : FileSystem) (network : σ)
    (outcomes : ℕ → WriteOutcome) : FileSystem :=
  let interest : CCNxInterest := { name := target, contentObjectHashRestriction := none }
  match portal.send (.interest interest) network with
  | (true, network) =>
      receiveUntil portal clientBufferSize outFile fuel rounds fs outcomes messages network
  | (false, _) => fs

end Definitions

/-! ## A client that is not killed -/

section Complete

variable {σ : Type} {portal : CCNxPortal σ} {capacity fuel loops rounds messages : ℕ}
  {outFile : CString} {fs : FileSystem} {outcomes : ℕ → WriteOutcome} {network : σ}

theorem downloadUntil_of_downloadLoop {state final : DownloadState σ} (hfuel : loops ≤ fuel)
    (hrounds : loops ≤ rounds)
    (h : downloadLoop portal capacity outFile loops state outcomes = .ok final) :
    downloadUntil portal capacity outFile fuel rounds state outcomes = final.fs := by
  induction loops generalizing rounds state outcomes with
  | zero => cases h
  | succ loops ih =>
      obtain ⟨rounds, rfl⟩ := Nat.exists_eq_succ_of_ne_zero (Nat.ne_zero_of_lt hrounds)
      rw [downloadLoop] at h
      obtain ⟨⟨done, next⟩, hround, h⟩ := Fallible.bind_eq_ok.mp h
      have hround := downloadRound_mono (Nat.le_of_succ_le hfuel) hround
      cases done with
      | true =>
          cases h
          simp only [downloadUntil, hround]
      | false =>
          simp only [downloadUntil, hround]
          exact ih (Nat.le_of_succ_le hfuel) (Nat.le_of_succ_le_succ hrounds) h

theorem receiveUntil_of_receiveLoop {result : RunResult σ} (hfuel : loops ≤ fuel)
    (hrounds : loops ≤ rounds) (hmessages : loops ≤ messages)
    (h : receiveLoop portal capacity outFile fs outcomes loops network = .ok result) :
    receiveUntil portal capacity outFile fuel rounds fs outcomes messages network = result.fs := by
  induction loops generalizing messages network with
  | zero => cases h
  | succ loops ih =>
      obtain ⟨messages, rfl⟩ := Nat.exists_eq_succ_of_ne_zero (Nat.ne_zero_of_lt hmessages)
      rw [receiveLoop] at h
      rw [receiveUntil]
      by_cases herror : portal.isError network = true
      · rw [if_pos herror] at h ⊢
        cases h
        rfl
      · rw [if_neg herror] at h ⊢
        obtain ⟨response, received, hreceive⟩ :
            ∃ response received, portal.receive network = (response, received) := ⟨_, _, rfl⟩
        simp only [hreceive] at h ⊢
        cases response with
        | none => cases h
        | some message =>
            cases message with
            | interest _ | interestReturn _ =>
                exact ih (Nat.le_of_succ_le hfuel) (Nat.le_of_succ_le hrounds)
                  (Nat.le_of_succ_le_succ hmessages) h
            | manifest root =>
                obtain ⟨final, hdownload, h⟩ := Fallible.bind_eq_ok.mp h
                obtain ⟨fetcher, hcreate, hloop⟩ := Fallible.bind_eq_ok.mp hdownload
                cases h
                simp only [hcreate]
                exact downloadUntil_of_downloadLoop (Nat.le_of_succ_le hfuel)
                  (Nat.le_of_succ_le hrounds) hloop
            | contentObject object =>
                obtain ⟨written, happend, h⟩ := Fallible.bind_eq_ok.mp h
                cases h
                simp only [happend]

/-- A client that is not killed before its end leaves what it leaves at its end. -/
theorem runUntil_of_run {target : CCNxName} {result : RunResult σ} (hrounds : fuel ≤ rounds)
    (hmessages : fuel ≤ messages)
    (h : run portal capacity fuel target outFile fs network outcomes = .ok result) :
    runUntil portal capacity outFile fuel rounds messages target fs network outcomes =
      result.fs := by
  unfold run at h
  unfold runUntil
  cases hsend : portal.send (.interest ⟨target, none⟩) network with
  | mk sent network =>
      simp only [hsend] at h ⊢
      cases sent with
      | true => exact receiveUntil_of_receiveLoop le_rfl hrounds hmessages h
      | false =>
          cases h
          rfl

end Complete

/-! ## What a killed client has written -/

section Writes

variable {respond : CCNxInterest → Option CCNxMetaMessage} {locator : CCNxName}
  {held : Option Bytes} {queue : List PointerVisit} {capacity : ℕ} {outFile : CString}

/-- A killed download has offered the first of its data to the file. -/
theorem downloadUntil_offers (state : DownloadState ScriptedState) (fuel rounds : ℕ)
    (outcomes : ℕ → WriteOutcome) (hbuffer : state.chunkBuffer.capacity = capacity)
    (hpath : state.fs outFile ≠ some .directory)
    (h : Tracks respond locator state.fetcher state.network held queue) :
    Offers outFile state.fs state.fileOffset (Refill.pending Visit.delivered held queue).flatten
      (downloadUntil (scriptedPortal respond) capacity outFile fuel rounds state outcomes) := by
  induction rounds generalizing state held queue outcomes with
  | zero => exact .refl hpath _ _
  | succ rounds ih =>
      cases hround : downloadRound (scriptedPortal respond) capacity outFile fuel state
        (outcomes 0) with
      | error stop =>
          simp only [downloadUntil, hround]
          exact .refl hpath _ _
      | ok result =>
          obtain ⟨done, next⟩ := result
          obtain ⟨-, hrounds⟩ := rounds_of_downloadRound hbuffer hpath h hround
          rw [← Refill.put_append_pending Visit.delivered held queue capacity, List.flatten_append]
          cases done with
          | true =>
              simp only [downloadUntil, hround]
              exact hrounds.offers.mono (List.prefix_append _ _)
          | false =>
              have hlater := ih next (fun index ↦ outcomes (index + 1))
                (hrounds.capacity_eq.trans hbuffer) hrounds.offers.path hrounds.tracks
              rw [hrounds.fileOffset_eq] at hlater
              simp only [downloadUntil, hround]
              exact hrounds.offers.append hlater

variable {root : CCNxManifest} {pointers : List CCNxManifestHashGroupPointer} {fs : FileSystem}

/-- Behind the receive loop a killed client has offered to the file some of the data behind the
root. -/
theorem receiveUntil_offers (fuel rounds messages : ℕ) (outcomes : ℕ → WriteOutcome)
    {network : ScriptedState} (hreply : network.reply = some (.manifest root))
    (hroot : root.firstGroup = some pointers)
    (t : FirstGroupTree (resolver respond root.name) pointers)
    (hpath : fs outFile ≠ some .directory) :
    ∃ data, data.length ≤ t.leaves.flatten.length ∧ Offers outFile fs 0 data
      (receiveUntil (scriptedPortal respond) capacity outFile fuel rounds fs outcomes messages
        network) := by
  cases messages with
  | zero => exact ⟨[], Nat.zero_le _, .refl hpath 0 []⟩
  | succ messages =>
      obtain ⟨fetcher, hcreate⟩ := exists_create hroot
      let received : ScriptedState := { network with reply := none }
      have hdelivered := (t.delivered_sublist_leaves received.schedule).flatten.length_le
      refine ⟨_, hdelivered, ?_⟩
      simp only [receiveUntil, scriptedPortal, hreply, hcreate, Bool.false_eq_true, if_false]
      exact downloadUntil_offers ⟨fetcher, .allocate capacity, 0, fs, received⟩ fuel rounds outcomes
        (PARCBuffer.capacity_allocate capacity) hpath (tracks_create hroot hcreate t received)

/-- A killed client has written nothing beyond the data behind the root. -/
theorem runUntil_offers (fuel rounds messages : ℕ) (outcomes : ℕ → WriteOutcome)
    (schedule : ℕ → FetchOutcome) {target : CCNxName}
    (hresponds : respond ⟨target, none⟩ = some (.manifest root))
    (hroot : root.firstGroup = some pointers)
    (t : FirstGroupTree (resolver respond root.name) pointers)
    (hpath : fs outFile ≠ some .directory) :
    ∃ data, data.length ≤ t.leaves.flatten.length ∧ Offers outFile fs 0 data
      (runUntil (scriptedPortal respond) capacity outFile fuel rounds messages target fs
        (.start schedule) outcomes) := by
  have hnothing : ∃ data, data.length ≤ t.leaves.flatten.length ∧ Offers outFile fs 0 data fs :=
    ⟨[], Nat.zero_le _, .refl hpath 0 []⟩
  cases houtcome : schedule 0 with
  | arrives =>
      simp only [runUntil, scriptedPortal, ScriptedState.start, houtcome]
      exact receiveUntil_offers fuel rounds messages outcomes hresponds hroot t hpath
  | sendFails =>
      simp only [runUntil, scriptedPortal, ScriptedState.start, houtcome]
      exact hnothing
  | receivesNull =>
      simp only [runUntil, scriptedPortal, ScriptedState.start, houtcome]
      cases messages with
      | zero => exact hnothing
      | succ messages => exact hnothing
  | answeredBy message =>
      -- the client goes on to receive, and there is nothing more to come
      obtain ⟨message, hmanifest, hobject⟩ := message
      simp only [runUntil, scriptedPortal, ScriptedState.start, houtcome]
      cases messages with
      | zero => exact hnothing
      | succ messages =>
          cases message with
          | interest _ | interestReturn _ => cases messages <;> exact hnothing
          | manifest _ => cases hmanifest
          | contentObject _ => cases hobject

end Writes

end CCNxFileRepo.CCNxFileRepoClient
