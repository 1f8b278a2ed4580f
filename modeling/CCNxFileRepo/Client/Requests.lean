import CCNxFileRepo.Client.BufferSafety

/-!
# What a fetcher asks for

Whatever the buffers of a sequence of calls are and whatever the network makes of the exchanges, the
interests of the calls that come back are the first of those that a depth-first resolution of the
tree asks for.  In particular each asks for the digest of a pointer of the tree.
-/

namespace CCNxFileRepo.CCNxFileRepoManifestFetcher

open Foundations

variable {respond : CCNxInterest → Option CCNxMetaMessage} {locator : CCNxName}
  {fetcher : CCNxFileRepoManifestFetcher} {network : ScriptedState} {held : Option Bytes}
  {queue : List PointerVisit} {buffer : PARCBuffer} {fuel : ℕ}

/-- A call that comes back did what a refill does; it had room for the payload carried over. -/
theorem performs_of_fillBuffer {filled : Filled ScriptedState}
    (h : Tracks respond locator fetcher network held queue)
    (hcall : fillBuffer (scriptedPortal respond) fuel fetcher buffer network = .ok filled) :
    Performs respond locator buffer network filled
      (Refill.refill Visit.delivered held queue buffer.remaining) := by
  have hfits : ∀ payload ∈ held, payload.length ≤ buffer.remaining := by
    intro payload hpayload
    by_contra hlarge
    have hoverflow : fillBuffer (scriptedPortal respond) fuel fetcher buffer network =
        .error .bufferOverflow :=
      fillBuffer_eq_overflow_iff.mpr ⟨payload, h.held_eq ▸ hpayload, Nat.lt_of_not_le hlarge⟩
    rw [hcall] at hoverflow
    cases hoverflow
  obtain ⟨same, hsame, hperforms⟩ :=
    fillBuffer_performs (Nat.lt_succ_of_le (Nat.le_max_right fuel queue.length)) hfits h
  have hmore := fillBuffer_mono (Nat.le_succ_of_le (Nat.le_max_left fuel queue.length)) hcall
  obtain rfl : filled = same := Except.ok.inj (hmore.symm.trans hsame)
  exact hperforms

/-- The interests of a sequence of calls are the first of the queue. -/
theorem fillBuffers_requests {buffers : List PARCBuffer} {calls : List (Call ScriptedState)}
    (h : Tracks respond locator fetcher network held queue)
    (hcalls : fillBuffers (scriptedPortal respond) fuel fetcher network buffers = .ok calls) :
    ∃ taken, taken <+: queue ∧
      calls.flatMap Call.requests = taken.map fun visit ↦ pointerInterest locator visit.item := by
  induction buffers generalizing fetcher network held queue calls with
  | nil =>
      cases hcalls
      exact ⟨[], List.nil_prefix, rfl⟩
  | cons buffer buffers ih =>
      obtain ⟨filled, hcall, hcalls⟩ := Fallible.bind_eq_ok.mp hcalls
      obtain ⟨later, hlater, hcalls⟩ := Fallible.bind_eq_ok.mp hcalls
      cases hcalls
      have hperforms := performs_of_fillBuffer h hcall
      obtain ⟨taken, ⟨rest, hrest⟩, hrequests⟩ := ih hperforms.tracks hlater
      have hqueue := Refill.taken_append_rest Visit.delivered held queue buffer.remaining
      refine ⟨(Refill.refill Visit.delivered held queue buffer.remaining).taken ++ taken,
        ⟨rest, ?_⟩, ?_⟩
      · rw [List.append_assoc, hrest, hqueue]
      · have hmirrors : Mirrors locator ⟨buffer, network, filled⟩ _ := hperforms.mirrors
        rw [List.flatMap_cons, hmirrors.requests_eq, hrequests, List.map_append]

/-- A new fetcher asks for pointers of its tree only. -/
theorem exists_pointer_of_request {root : CCNxManifest}
    {pointers : List CCNxManifestHashGroupPointer} (hroot : root.firstGroup = some pointers)
    (t : FirstGroupTree (resolver respond root.name) pointers) (hcreate : create root = .ok fetcher)
    {buffers : List PARCBuffer} {calls : List (Call ScriptedState)}
    (hcalls : fillBuffers (scriptedPortal respond) fuel fetcher network buffers = .ok calls)
    {interest : CCNxInterest} (hinterest : interest ∈ calls.flatMap Call.requests) :
    ∃ pointer ∈ t.preorder, interest = pointerInterest root.name pointer := by
  obtain ⟨taken, htaken, hrequests⟩ :=
    fillBuffers_requests (tracks_create hroot hcreate t network) hcalls
  rw [hrequests] at hinterest
  obtain ⟨visit, hvisit, rfl⟩ := List.mem_map.mp hinterest
  have hitem : visit.item ∈ (t.visits network.schedule).map Visit.item :=
    List.mem_map_of_mem (htaken.subset hvisit)
  exact ⟨visit.item, (t.map_item_visits_sublist _).subset hitem, rfl⟩

end CCNxFileRepo.CCNxFileRepoManifestFetcher
