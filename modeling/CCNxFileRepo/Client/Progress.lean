import CCNxFileRepo.Client.Download
import CCNxFileRepo.Client.Requests

/-!
# Progress of a download

A call of `fillBuffer` that returns `false` has met a full buffer or a payload that did not fit, so
it has put all but for less than the largest payload needs.  A payload that is held back is put by
the next call.  So where every payload fits into the buffer, the number of rounds of a download is
bounded by the number of bytes below its root, whatever becomes of the writes.
-/

namespace CCNxFileRepo

open Foundations CCNxFileRepoManifestFetcher

namespace CCNxFileRepoManifestFetcher

/-- What holds of the refills of a run for their rooms holds of the calls for their buffers. -/
theorem lt_bytesPut_add {locator : CCNxName} {calls : List (Call ScriptedState)}
    {run : List (Refill PointerVisit UInt8)} {bound : ℕ}
    (hmirrors : List.Forall₂ (Mirrors locator) calls run)
    (hprogress : List.Forall₂
      (fun room refill ↦ refill.done = false → room < refill.put.flatten.length + bound)
      ((calls.map (·.before)).map (·.remaining)) run) :
    ∀ call ∈ calls, call.filled.done = false →
      call.before.remaining < call.bytesPut.length + bound := by
  induction hmirrors with
  | nil => simp
  | @cons call refill calls run hcall _ ih =>
      obtain ⟨hfirst, hlater⟩ := List.forall₂_cons.mp hprogress
      apply List.forall_mem_cons.mpr ⟨?_, ih hlater⟩
      intro hdone
      rw [hcall.bytesPut_eq]
      exact hfirst (hcall.done_eq ▸ hdone)

end CCNxFileRepoManifestFetcher

namespace CCNxFileRepoClient

def DownloadState.start {σ : Type} (fetcher : CCNxFileRepoManifestFetcher) (clientBufferSize : ℕ)
    (fs : FileSystem) (network : σ) : DownloadState σ where
  fetcher := fetcher
  chunkBuffer := .allocate clientBufferSize
  fileOffset := 0
  fs := fs
  network := network

/-- How many rounds `downloadLoop` begins, each with one call of `fillBuffer`. -/
def loopCalls {σ : Type} (portal : CCNxPortal σ) (clientBufferSize : ℕ) (outFile : CString) :
    ℕ → DownloadState σ → (ℕ → WriteOutcome) → ℕ
  | 0, _, _ => 0
  | fuel + 1, state, outcomes =>
      match downloadRound portal clientBufferSize outFile fuel state (outcomes 0) with
      | .ok (false, state) =>
          loopCalls portal clientBufferSize outFile fuel state
            (fun index ↦ outcomes (index + 1)) + 1
      | .ok (true, _) => 1
      | .error _ => 1

/-- How many calls of `fillBuffer` a download makes. -/
def downloadCalls {σ : Type} (portal : CCNxPortal σ) (clientBufferSize : ℕ) (outFile : CString)
    (fuel : ℕ) (root : CCNxManifest) (fs : FileSystem) (network : σ)
    (outcomes : ℕ → WriteOutcome) : ℕ :=
  match CCNxFileRepoManifestFetcher.create root with
  | .ok fetcher =>
      loopCalls portal clientBufferSize outFile fuel (.start fetcher clientBufferSize fs network)
        outcomes
  | .error _ => 0

variable {respond : CCNxInterest → Option CCNxMetaMessage} {locator : CCNxName}
  {held : Option Bytes} {queue : List PointerVisit} {capacity fuel : ℕ} {outFile : CString}
  {state next : DownloadState ScriptedState}

/-- A round that comes back did what a refill does. -/
theorem refill_of_downloadRound {outcome : WriteOutcome} {done : Bool}
    (hbuffer : state.chunkBuffer.capacity = capacity)
    (h : Tracks respond locator state.fetcher state.network held queue)
    (hround : downloadRound (scriptedPortal respond) capacity outFile fuel state outcome =
      .ok (done, next)) :
    done = (Refill.refill Visit.delivered held queue capacity).done ∧
      next.chunkBuffer.capacity = capacity ∧
      Tracks respond locator next.fetcher next.network
        (Refill.refill Visit.delivered held queue capacity).held
        (Refill.refill Visit.delivered held queue capacity).rest := by
  obtain ⟨reset, hreset, hempty, hroom, hcapacity⟩ := state.chunkBuffer.setLimit_rewind
  rw [hbuffer] at hreset hroom hcapacity
  unfold downloadRound at hround
  obtain ⟨same, hsame, hround⟩ := Fallible.bind_eq_ok.mp hround
  obtain rfl : reset = same := Except.ok.inj (hreset.symm.trans hsame)
  obtain ⟨filled, hfill, hround⟩ := Fallible.bind_eq_ok.mp hround
  obtain ⟨fs, -, hround⟩ := Fallible.bind_eq_ok.mp hround
  have hperforms := performs_of_fillBuffer h hfill
  rw [hroom] at hperforms
  cases hround
  exact ⟨hperforms.done_eq, hperforms.capacity_eq.trans hcapacity, hperforms.tracks⟩

/-- Every round but the last takes its share of the bytes that are still to come. -/
theorem loopCalls_le {bound : ℕ} (hbound : 0 < bound) (hcapacity : bound ≤ capacity)
    (hfits : ∀ payload ∈ Refill.pending Visit.delivered held queue, payload.length ≤ bound)
    (hbuffer : state.chunkBuffer.capacity = capacity)
    (h : Tracks respond locator state.fetcher state.network held queue) (fuel : ℕ)
    (outcomes : ℕ → WriteOutcome) :
    loopCalls (scriptedPortal respond) capacity outFile fuel state outcomes ≤
      (Refill.pending Visit.delivered held queue).flatten.length / (capacity - bound + 1) + 1 := by
  induction fuel generalizing state held queue outcomes with
  | zero => exact Nat.zero_le _
  | succ fuel ih =>
      rw [loopCalls]
      split
      · rename_i next hround
        obtain ⟨hdone, hnextBuffer, htracks⟩ := refill_of_downloadRound hbuffer h hround
        have hprogress := Refill.lt_put_add hbound hcapacity hfits hdone.symm
        have hconserved := Refill.put_append_pending Visit.delivered held queue capacity
        have hlater := ih (fun payload hpayload ↦
          hfits payload (hconserved ▸ List.mem_append_right _ hpayload)) hnextBuffer htracks
          (fun index ↦ outcomes (index + 1))
        generalize Refill.refill Visit.delivered held queue capacity = refill at *
        rw [← hconserved, List.flatten_append, List.length_append]
        apply Nat.succ_le_succ
        calc
          _ ≤ (Refill.pending Visit.delivered refill.held refill.rest).flatten.length /
              (capacity - bound + 1) + 1 := hlater
          _ = ((Refill.pending Visit.delivered refill.held refill.rest).flatten.length +
              (capacity - bound + 1)) / (capacity - bound + 1) :=
            (Nat.add_div_right _ (Nat.succ_pos _)).symm
          _ ≤ _ := Nat.div_le_div_right (by omega)
      · exact Nat.le_add_left _ _
      · exact Nat.le_add_left _ _

/-- The loop ends, whatever its writes store. -/
theorem downloadLoop_ends (state : DownloadState ScriptedState) (hcapacity : 0 < capacity)
    (hfuel : Refill.weight held queue + 1 < fuel)
    (hfits : ∀ payload ∈ Refill.pending Visit.delivered held queue, payload.length ≤ capacity)
    (hbuffer : state.chunkBuffer.capacity = capacity)
    (hpath : state.fs outFile ≠ some .directory)
    (h : Tracks respond locator state.fetcher state.network held queue)
    (outcomes : ℕ → WriteOutcome) :
    ∃ final, downloadLoop (scriptedPortal respond) capacity outFile fuel state outcomes =
      .ok final := by
  induction fuel generalizing state held queue outcomes with
  | zero => exact absurd hfuel (Nat.not_lt_zero _)
  | succ fuel ih =>
      have hrounds : queue.length < fuel := by
        unfold Refill.weight at hfuel
        omega
      obtain ⟨next, hround, hnextBuffer, -, hnextFs, htracks⟩ :=
        downloadRound_offers (outcomes 0) hrounds
          (fun payload hpayload ↦
            hfits payload (List.mem_append_left _ (Option.mem_toList.mpr hpayload)))
          hbuffer hpath h
      rw [downloadLoop]
      simp only [hround, bind, Except.bind]
      cases hdone : (Refill.refill Visit.delivered held queue capacity).done with
      | true => exact ⟨next, rfl⟩
      | false =>
          have hweight := Refill.weight_lt hcapacity hdone
          have hconserved := Refill.put_append_pending Visit.delivered held queue capacity
          exact ih next (by omega)
            (fun payload hpayload ↦ hfits payload (hconserved ▸ List.mem_append_right _ hpayload))
            hnextBuffer (by rw [hnextFs]; exact FileSystem.update_regular_ne_directory _ _ _)
            htracks (fun index ↦ outcomes (index + 1))

section Trees

variable {root : CCNxManifest} {pointers : List CCNxManifestHashGroupPointer} {bound : ℕ}

/-- What a fetcher will put when every request is answered. -/
theorem pending_visits (t : ManifestTree (resolver respond locator) pointers) :
    Refill.pending Visit.delivered none (t.toFirstGroups.visits fun _ ↦ true) = t.leaves :=
  t.toFirstGroups.filterMap_delivered_visits.trans t.leaves_toFirstGroups

/-- Calls on a fetcher come back, and each puts all but less than a payload or reports the end. -/
theorem fillBuffers_progress (hroot : root.onlyGroup = some pointers)
    (t : ManifestTree (resolver respond root.name) pointers) (hbound : 0 < bound)
    (hpayloads : ∀ payload ∈ t.leaves, payload.length ≤ bound) (buffers : List PARCBuffer)
    (hroom : ∀ buffer ∈ buffers, bound ≤ buffer.remaining) (hfuel : t.preorder.length < fuel) :
    ∃ fetcher calls, create root = .ok fetcher ∧
      fillBuffers (scriptedPortal respond) fuel fetcher (.start fun _ ↦ .arrives) buffers =
        .ok calls ∧
      calls.map (·.before) = buffers ∧
      ∀ call ∈ calls, call.filled.done = false →
        call.before.remaining < call.bytesPut.length + bound := by
  obtain ⟨fetcher, calls, hcreate, hcalls, rfl, hmirrors⟩ :=
    exists_session buffers (CCNxManifest.firstGroup_of_onlyGroup hroot) t.toFirstGroups
      (fun buffer hbuffer payload hpayload ↦
        (hpayloads payload (t.leaves_toFirstGroups ▸ hpayload)).trans (hroom buffer hbuffer))
      (by simpa using hfuel)
  refine ⟨fetcher, calls, hcreate, hcalls, rfl, lt_bytesPut_add hmirrors ?_⟩
  apply Refill.forall₂_lt_put_add hbound
  · exact List.forall_mem_map.mpr hroom
  · rwa [pending_visits]

variable (hroot : root.onlyGroup = some pointers)
  (t : ManifestTree (resolver respond root.name) pointers) (fs : FileSystem)
  (outcomes : ℕ → WriteOutcome)

include hroot

/-- A download calls `fillBuffer` as often as the bytes of its tree allow. -/
theorem downloadCalls_le (hbound : 0 < bound) (hcapacity : bound ≤ capacity)
    (hpayloads : ∀ payload ∈ t.leaves, payload.length ≤ bound) (fuel : ℕ) :
    downloadCalls (scriptedPortal respond) capacity outFile fuel root fs (.start fun _ ↦ .arrives)
        outcomes ≤
      t.leaves.flatten.length / (capacity - bound + 1) + 1 := by
  have hfirst := CCNxManifest.firstGroup_of_onlyGroup hroot
  obtain ⟨fetcher, hcreate⟩ := exists_create hfirst
  simp only [downloadCalls, hcreate]
  rw [← pending_visits t] at hpayloads ⊢
  exact loopCalls_le hbound hcapacity hpayloads (PARCBuffer.capacity_allocate capacity)
    (tracks_create hfirst hcreate t.toFirstGroups _) fuel outcomes

theorem download_ends (hcapacity : 0 < capacity)
    (hpayloads : ∀ payload ∈ t.leaves, payload.length ≤ capacity)
    (hpath : fs outFile ≠ some .directory) (hfuel : 2 * t.preorder.length + 1 < fuel) :
    ∃ final, download (scriptedPortal respond) capacity outFile fuel root fs
      (.start fun _ ↦ .arrives) outcomes = .ok final := by
  have hfirst := CCNxManifest.firstGroup_of_onlyGroup hroot
  obtain ⟨fetcher, hcreate⟩ := exists_create hfirst
  have hqueue := t.toFirstGroups.length_visits_le fun _ ↦ true
  rw [t.preorder_toFirstGroups] at hqueue
  have hweight : Refill.weight (none : Option Bytes) (t.toFirstGroups.visits fun _ ↦ true) + 1 <
      fuel := by
    simp only [Refill.weight, Option.toList_none, List.length_nil]
    omega
  rw [← pending_visits t] at hpayloads
  simp only [download, hcreate, bind, Except.bind]
  exact downloadLoop_ends (.start fetcher capacity fs _) hcapacity hweight hpayloads
    (PARCBuffer.capacity_allocate capacity) hpath (tracks_create hfirst hcreate t.toFirstGroups _)
    outcomes

end Trees

/-- On a network that answers every request, with payloads of at most `bound` bytes and room for
them: every call of `fillBuffer` on a fetcher comes back, a call that returns `false` has put more
than the room less `bound`, and a download makes no more calls than the bytes of the tree allow.  It
ends, too, unless its file is a directory. -/
theorem download_progress (respond : CCNxInterest → Option CCNxMetaMessage) (root : CCNxManifest)
    (pointers : List CCNxManifestHashGroupPointer) (hroot : root.onlyGroup = some pointers)
    (t : ManifestTree (resolver respond root.name) pointers) (bound : ℕ) (hbound : 1 ≤ bound)
    (hpayloads : ∀ payload ∈ t.leaves, payload.length ≤ bound) :
    (∀ (buffers : List PARCBuffer) (fuel : ℕ), (∀ buffer ∈ buffers, bound ≤ buffer.remaining) →
      t.preorder.length < fuel →
      ∃ fetcher calls, create root = .ok fetcher ∧
        fillBuffers (scriptedPortal respond) fuel fetcher (.start fun _ ↦ .arrives) buffers =
          .ok calls ∧
        calls.map (·.before) = buffers ∧
        ∀ call ∈ calls, call.filled.done = false →
          call.before.remaining - bound + 1 ≤ call.bytesPut.length) ∧
    ∀ (capacity : ℕ) (outFile : CString) (fs : FileSystem) (outcomes : ℕ → WriteOutcome),
      bound ≤ capacity →
      (∀ fuel, downloadCalls (scriptedPortal respond) capacity outFile fuel root fs
          (.start fun _ ↦ .arrives) outcomes ≤
        t.leaves.flatten.length / (capacity - bound + 1) + 1) ∧
      (fs outFile ≠ some .directory → ∀ fuel, 2 * t.preorder.length + 1 < fuel →
        ∃ final, download (scriptedPortal respond) capacity outFile fuel root fs
          (.start fun _ ↦ .arrives) outcomes = .ok final) := by
  constructor
  · intro buffers fuel hroom hfuel
    obtain ⟨fetcher, calls, hcreate, hcalls, hbefore, hprogress⟩ :=
      fillBuffers_progress hroot t hbound hpayloads buffers hroom hfuel
    refine ⟨fetcher, calls, hcreate, hcalls, hbefore, fun call hcall hdone ↦ ?_⟩
    have hput := hprogress call hcall hdone
    have hcapacity : bound ≤ call.before.remaining :=
      hroom _ (hbefore ▸ List.mem_map_of_mem hcall)
    omega
  · intro capacity outFile fs outcomes hcapacity
    have hfits : ∀ payload ∈ t.leaves, payload.length ≤ capacity :=
      fun payload hpayload ↦ (hpayloads payload hpayload).trans hcapacity
    exact ⟨downloadCalls_le hroot t fs outcomes hbound hcapacity hpayloads,
      fun hpath fuel ↦ download_ends hroot t fs outcomes (hbound.trans hcapacity) hfits hpath⟩

/-- A tree with four bytes in payloads of two. -/
theorem download_progress_sample :
    (∀ (buffers : List PARCBuffer) (fuel : ℕ), (∀ buffer ∈ buffers, 2 ≤ buffer.remaining) →
      sampleTree.preorder.length < fuel →
      ∃ fetcher calls, create (sampleManifest [[manifestPointer, dataPointer]]) = .ok fetcher ∧
        fillBuffers (scriptedPortal sampleRespond) fuel fetcher (.start fun _ ↦ .arrives) buffers =
          .ok calls ∧
        calls.map (·.before) = buffers ∧
        ∀ call ∈ calls, call.filled.done = false →
          call.before.remaining - 2 + 1 ≤ call.bytesPut.length) ∧
    ∀ (capacity : ℕ) (outFile : CString) (fs : FileSystem) (outcomes : ℕ → WriteOutcome),
      2 ≤ capacity →
      (∀ fuel, downloadCalls (scriptedPortal sampleRespond) capacity outFile fuel
          (sampleManifest [[manifestPointer, dataPointer]]) fs (.start fun _ ↦ .arrives) outcomes ≤
        4 / (capacity - 2 + 1) + 1) ∧
      (fs outFile ≠ some .directory → ∀ fuel, 2 * sampleTree.preorder.length + 1 < fuel →
        ∃ final, download (scriptedPortal sampleRespond) capacity outFile fuel
          (sampleManifest [[manifestPointer, dataPointer]]) fs (.start fun _ ↦ .arrives) outcomes =
            .ok final) :=
  download_progress sampleRespond (sampleManifest [[manifestPointer, dataPointer]])
    [manifestPointer, dataPointer] rfl sampleTree 2 (by decide) (by decide)

end CCNxFileRepoClient

end CCNxFileRepo
