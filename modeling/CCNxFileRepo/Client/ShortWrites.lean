import CCNxFileRepo.Client.Download
import CCNxFileRepo.Client.Requests
import CCNxFileRepo.Foundations.Fallible
import CCNxFileRepo.Foundations.Patch

/-!
# Downloads with short writes

The client does not look at how much of a buffer a write has stored: the next buffer goes behind
the whole of the last one.  So what it asks for does not depend on the writes, and a short write
costs the bytes that it did not store, and no others.
-/

namespace CCNxFileRepo.CCNxFileRepoClient

open Foundations CCNxFileRepoManifestFetcher

/-- From `before` to `after` nothing but the file at `outFile` has changed, to which `data` was
offered from `offset` on. -/
structure Offers (outFile : CString) (before : FileSystem) (offset : ℕ) (data : Bytes)
    (after : FileSystem) : Prop where
  path : after outFile ≠ some .directory
  frame : ∀ path, path ≠ outFile → after path = before path
  patched : Patched 0 (before.contentsAt outFile) offset data (after.contentsAt outFile)

namespace Offers

variable {outFile : CString} {before between after : FileSystem} {offset : ℕ}
  {data first second : Bytes}

theorem refl (hpath : before outFile ≠ some .directory) (offset : ℕ) (data : Bytes) :
    Offers outFile before offset data before where
  path := hpath
  frame _ _ := rfl
  patched := .refl 0 _ offset data

theorem mono (h : Offers outFile before offset first after) (hfront : first <+: data) :
    Offers outFile before offset data after :=
  ⟨h.path, h.frame, h.patched.mono hfront⟩

theorem append (h : Offers outFile before offset first between)
    (hnext : Offers outFile between (offset + first.length) second after) :
    Offers outFile before offset (first ++ second) after where
  path := hnext.path
  frame path hother := (hnext.frame path hother).trans (h.frame path hother)
  patched := h.patched.append hnext.patched

/-- A write stores a start of its data. -/
theorem appendBufferToFile (hpath : before outFile ≠ some .directory) {outcome : WriteOutcome}
    (h : CCNxFileRepoClient.appendBufferToFile before outFile data offset outcome = .ok after) :
    Offers outFile before offset data after := by
  rw [appendBufferToFile_eq hpath] at h
  cases h
  have hstored : outcome.stored data <+: data := by
    cases outcome with
    | complete => exact List.prefix_rfl
    | short count => exact List.take_prefix count data
  refine ⟨FileSystem.update_regular_ne_directory _ _ _, fun path hother ↦ ?_, ?_⟩
  · exact Function.update_of_ne hother _ _
  · rw [FileSystem.contentsAt_regular (Function.update_self ..)]
    exact (Patched.overlay 0 _ offset (outcome.stored data)).mono hstored

end Offers

variable {respond : CCNxInterest → Option CCNxMetaMessage} {locator : CCNxName}
  {held : Option Bytes} {queue : List PointerVisit} {capacity fuel : ℕ} {outFile : CString}
  {state next : DownloadState ScriptedState}

/-- A round did what the refill `refill` does, as far as its write went. -/
structure Rounds (respond : CCNxInterest → Option CCNxMetaMessage) (locator : CCNxName)
    (outFile : CString) (state next : DownloadState ScriptedState)
    (refill : Refill PointerVisit UInt8) : Prop where
  capacity_eq : next.chunkBuffer.capacity = state.chunkBuffer.capacity
  fileOffset_eq : next.fileOffset = state.fileOffset + refill.put.flatten.length
  offers : Offers outFile state.fs state.fileOffset refill.put.flatten next.fs
  requested_eq : next.network.requested = state.network.requested ++
    refill.taken.map fun visit ↦ pointerInterest locator visit.item
  tracks : Tracks respond locator next.fetcher next.network refill.held refill.rest

/-- A round that comes back is a refill, however its write ends. -/
theorem rounds_of_downloadRound (hbuffer : state.chunkBuffer.capacity = capacity)
    (hpath : state.fs outFile ≠ some .directory)
    (h : Tracks respond locator state.fetcher state.network held queue) {outcome : WriteOutcome}
    {done : Bool}
    (hround : downloadRound (scriptedPortal respond) capacity outFile fuel state outcome =
      .ok (done, next)) :
    done = (Refill.refill Visit.delivered held queue capacity).done ∧
      Rounds respond locator outFile state next
        (Refill.refill Visit.delivered held queue capacity) := by
  obtain ⟨reset, hreset, hempty, hroom, hcapacity⟩ := state.chunkBuffer.setLimit_rewind
  rw [hbuffer] at hreset hroom hcapacity
  unfold downloadRound at hround
  obtain ⟨same, hsame, hround⟩ := Fallible.bind_eq_ok.mp hround
  obtain rfl : reset = same := Except.ok.inj (hreset.symm.trans hsame)
  obtain ⟨filled, hfill, hround⟩ := Fallible.bind_eq_ok.mp hround
  obtain ⟨written, happend, hround⟩ := Fallible.bind_eq_ok.mp hround
  cases hround
  have hperforms := performs_of_fillBuffer h hfill
  rw [hroom] at hperforms
  have hput : filled.buffer.written =
      (Refill.refill Visit.delivered held queue capacity).put.flatten := by
    rw [hperforms.written_eq, hempty, List.nil_append]
  rw [PARCBuffer.contents_flip, hput] at happend
  refine ⟨hperforms.done_eq, ?_, ?_, .appendBufferToFile hpath happend, hperforms.requested_eq,
    hperforms.tracks⟩
  · exact hperforms.capacity_eq.trans (hcapacity.trans hbuffer.symm)
  · rw [← hput, PARCBuffer.length_written, ← PARCBuffer.remaining_flip]

/-- The loop ends however its writes do.  It has asked for everything that was to come and offered
it to the file in one stretch. -/
theorem downloadLoop_offers (state : DownloadState ScriptedState) (outcomes : ℕ → WriteOutcome)
    (hcapacity : 0 < capacity) (hfuel : Refill.weight held queue + 1 < fuel)
    (hfits : ∀ payload ∈ Refill.pending Visit.delivered held queue, payload.length ≤ capacity)
    (hbuffer : state.chunkBuffer.capacity = capacity)
    (hpath : state.fs outFile ≠ some .directory)
    (h : Tracks respond locator state.fetcher state.network held queue) :
    ∃ final, downloadLoop (scriptedPortal respond) capacity outFile fuel state outcomes =
        .ok final ∧
      Offers outFile state.fs state.fileOffset
        (Refill.pending Visit.delivered held queue).flatten final.fs ∧
      final.network.requested = state.network.requested ++
        queue.map fun visit ↦ pointerInterest locator visit.item := by
  induction fuel generalizing state held queue outcomes with
  | zero => exact absurd hfuel (Nat.not_lt_zero _)
  | succ fuel ih =>
      have hqueue : queue.length < fuel := by
        unfold Refill.weight at hfuel
        omega
      obtain ⟨next, hround, -⟩ := downloadRound_offers (outcomes 0) hqueue
        (fun payload hpayload ↦
          hfits payload (List.mem_append_left _ (Option.mem_toList.mpr hpayload)))
        hbuffer hpath h
      obtain ⟨-, hrounds⟩ := rounds_of_downloadRound hbuffer hpath h hround
      have hconserved := Refill.put_append_pending Visit.delivered held queue capacity
      have htaken := Refill.taken_append_rest Visit.delivered held queue capacity
      cases hdone : (Refill.refill Visit.delivered held queue capacity).done with
      | true =>
          obtain ⟨hheld, hrest⟩ := Refill.drained_of_done hdone
          rw [hheld, hrest] at hconserved
          rw [hrest, List.append_nil] at htaken
          refine ⟨next, ?_, ?_, ?_⟩
          · simp only [downloadLoop, hround, hdone, bind, Except.bind]
            rfl
          · rw [← hconserved]
            simpa using hrounds.offers
          · rw [hrounds.requested_eq, htaken]
      | false =>
          have hweight := Refill.weight_lt hcapacity hdone
          obtain ⟨final, hloop, hoffers, hrequested⟩ := ih next (fun index ↦ outcomes (index + 1))
            (by omega)
            (fun payload hpayload ↦ hfits payload (hconserved ▸ List.mem_append_right _ hpayload))
            (hrounds.capacity_eq.trans hbuffer) hrounds.offers.path hrounds.tracks
          refine ⟨final, ?_, ?_, ?_⟩
          · simp only [downloadLoop, hround, hdone, bind, Except.bind]
            exact hloop
          · rw [hrounds.fileOffset_eq] at hoffers
            rw [← hconserved, List.flatten_append]
            exact hrounds.offers.append hoffers
          · rw [hrequested, hrounds.requested_eq, List.append_assoc, ← List.map_append, htaken]

variable {root : CCNxManifest} {pointers : List CCNxManifestHashGroupPointer} {fs : FileSystem}

/-- A download asks for what the network lets it see of the tree, and offers to the file what it is
given. -/
theorem download_offers (network : ScriptedState) (outcomes : ℕ → WriteOutcome)
    (hroot : root.firstGroup = some pointers)
    (t : FirstGroupTree (resolver respond root.name) pointers) (hcapacity : 0 < capacity)
    (hfits : ∀ payload ∈ t.leaves, payload.length ≤ capacity)
    (hpath : fs outFile ≠ some .directory) (hfuel : 2 * t.preorder.length + 1 < fuel) :
    ∃ final, download (scriptedPortal respond) capacity outFile fuel root fs network outcomes =
        .ok final ∧
      Offers outFile fs 0 ((t.visits network.schedule).filterMap Visit.delivered).flatten
        final.fs ∧
      final.network.requested = network.requested ++
        (t.visits network.schedule).map fun visit ↦ pointerInterest root.name visit.item := by
  obtain ⟨fetcher, hcreate⟩ := exists_create hroot
  have hqueue := t.length_visits_le network.schedule
  have hweight : Refill.weight (none : Option Bytes) (t.visits network.schedule) + 1 < fuel := by
    simp only [Refill.weight, Option.toList_none, List.length_nil]
    omega
  have hpending : ∀ payload ∈ Refill.pending Visit.delivered none (t.visits network.schedule),
      payload.length ≤ capacity := fun payload hpayload ↦
    hfits payload ((t.delivered_sublist_leaves network.schedule).subset hpayload)
  obtain ⟨final, hloop, hoffers, hrequested⟩ := downloadLoop_offers
    ⟨fetcher, .allocate capacity, 0, fs, network⟩ outcomes hcapacity hweight hpending
    (PARCBuffer.capacity_allocate capacity) hpath (tracks_create hroot hcreate t network)
  refine ⟨final, ?_, hoffers, hrequested⟩
  simp only [download, hcreate, bind, Except.bind]
  exact hloop

end CCNxFileRepo.CCNxFileRepoClient
