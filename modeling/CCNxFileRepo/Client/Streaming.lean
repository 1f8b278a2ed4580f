import CCNxFileRepo.Client.Traversal

/-!
# Sequences of `fillBuffer` calls

One fetcher serves any number of calls, each with a buffer of its own.  On a scripted network such
a sequence is a run of refills.  From this the streaming law follows: the bytes put so far are
always a prefix of the data that ends with a payload, and the last call says so.
-/

namespace CCNxFileRepo.CCNxFileRepoManifestFetcher

open Foundations

/-- A call in a sequence: the buffer and the network it started with and how it ended. -/
structure Call (σ : Type) where
  before : PARCBuffer
  start : σ
  filled : Filled σ

def Call.bytesPut {σ : Type} (call : Call σ) : Bytes :=
  call.filled.buffer.written.drop call.before.position

def Call.requests (call : Call ScriptedState) : List CCNxInterest :=
  call.filled.network.requested.drop call.start.requested.length

/-- Calls on one fetcher, one for each buffer. -/
def fillBuffers {σ : Type} (portal : CCNxPortal σ) (fuel : ℕ) :
    CCNxFileRepoManifestFetcher → σ → List PARCBuffer → Except Stop (List (Call σ))
  | _, _, [] => .ok []
  | fetcher, network, buffer :: buffers => do
      let filled ← fillBuffer portal fuel fetcher buffer network
      let later ← fillBuffers portal fuel filled.fetcher filled.network buffers
      return { before := buffer, start := network, filled := filled } :: later

/-- A call in a sequence did what a refill in a run does. -/
structure Mirrors (locator : CCNxName) (call : Call ScriptedState)
    (refill : Refill PointerVisit UInt8) : Prop where
  done_eq : call.filled.done = refill.done
  written_eq : call.filled.buffer.written = call.before.written ++ call.bytesPut
  bytesPut_eq : call.bytesPut = refill.put.flatten
  requests_eq : call.requests = refill.taken.map fun visit ↦ pointerInterest locator visit.item
  held_eq : call.filled.fetcher.prevState = refill.held

variable {respond : CCNxInterest → Option CCNxMetaMessage} {locator : CCNxName}
  {fetcher : CCNxFileRepoManifestFetcher} {network : ScriptedState} {held : Option Bytes}
  {queue : List PointerVisit}

theorem Performs.mirrors {buffer : PARCBuffer} {filled : Filled ScriptedState}
    {poured : Refill PointerVisit UInt8}
    (h : Performs respond locator buffer network filled poured) :
    Mirrors locator { before := buffer, start := network, filled := filled } poured := by
  have hbytes : (Call.mk buffer network filled).bytesPut = poured.put.flatten := by
    rw [Call.bytesPut, h.written_eq]
    exact List.drop_left' buffer.length_written
  refine ⟨h.done_eq, ?_, hbytes, ?_, h.tracks.held_eq⟩
  · rw [hbytes]
    exact h.written_eq
  · rw [Call.requests, h.requested_eq]
    exact List.drop_left

/-- A sequence of calls is a run of refills when every buffer has room for every payload. -/
theorem fillBuffers_mirrors {fuel : ℕ} (buffers : List PARCBuffer)
    (hfuel : queue.length < fuel)
    (hfits : ∀ buffer ∈ buffers, ∀ payload ∈ Refill.pending Visit.delivered held queue,
      payload.length ≤ buffer.remaining)
    (h : Tracks respond locator fetcher network held queue) :
    ∃ calls, fillBuffers (scriptedPortal respond) fuel fetcher network buffers = .ok calls ∧
      calls.map (·.before) = buffers ∧
      List.Forall₂ (Mirrors locator) calls
        (Refill.refills Visit.delivered held queue (buffers.map (·.remaining))) := by
  induction buffers generalizing fetcher network held queue with
  | nil => exact ⟨[], rfl, rfl, .nil⟩
  | cons buffer buffers ih =>
      have hheld : ∀ payload ∈ held, payload.length ≤ buffer.remaining :=
        fun payload hpayload ↦ hfits buffer (List.mem_cons_self ..) payload
          (List.mem_append_left _ (Option.mem_toList.mpr hpayload))
      obtain ⟨filled, hcall, hperforms⟩ := fillBuffer_performs hfuel hheld h
      have hconserved := Refill.put_append_pending Visit.delivered held queue
        buffer.remaining
      have hqueue := Refill.taken_append_rest Visit.delivered held queue
        buffer.remaining
      obtain ⟨calls, hcalls, hbefore, hmirrors⟩ := ih
        (by rw [← hqueue, List.length_append] at hfuel; omega)
        (fun other hother payload hpayload ↦ hfits other (List.mem_cons_of_mem _ hother) payload
          (hconserved ▸ List.mem_append_right _ hpayload))
        hperforms.tracks
      refine ⟨⟨buffer, network, filled⟩ :: calls, ?_, congrArg (buffer :: ·) hbefore,
        .cons hperforms.mirrors hmirrors⟩
      simp only [fillBuffers, hcall, bind, Except.bind, hcalls]
      rfl

/-- A position in a sequence of calls is a position in the run. -/
theorem exists_refill_of_call {earlier later : List (Call ScriptedState)}
    {call : Call ScriptedState} {run : List (Refill PointerVisit UInt8)}
    (h : List.Forall₂ (Mirrors locator) (earlier ++ call :: later) run) :
    ∃ first refill last, run = first ++ refill :: last ∧
      List.Forall₂ (Mirrors locator) earlier first ∧ Mirrors locator call refill ∧
      List.Forall₂ (Mirrors locator) later last := by
  induction earlier generalizing run with
  | nil =>
      obtain ⟨refill, last, hcall, hlater, rfl⟩ := List.forall₂_cons_left_iff.mp h
      exact ⟨[], refill, last, rfl, .nil, hcall, hlater⟩
  | cons head earlier ih =>
      obtain ⟨first, rest, hhead, hrest, rfl⟩ := List.forall₂_cons_left_iff.mp h
      obtain ⟨firsts, refill, last, rfl, hearlier, hcall, hlater⟩ := ih hrest
      exact ⟨first :: firsts, refill, last, rfl, .cons hhead hearlier, hcall, hlater⟩

theorem exists_refill_of_mem {calls : List (Call ScriptedState)}
    {run : List (Refill PointerVisit UInt8)} (h : List.Forall₂ (Mirrors locator) calls run)
    {call : Call ScriptedState} (hcall : call ∈ calls) :
    ∃ refill ∈ run, Mirrors locator call refill := by
  obtain ⟨earlier, later, rfl⟩ := List.append_of_mem hcall
  obtain ⟨first, refill, last, rfl, -, hmirrors, -⟩ := exists_refill_of_call h
  exact ⟨refill, List.mem_append_cons_self, hmirrors⟩

theorem exists_call_of_mem {calls : List (Call ScriptedState)}
    {run : List (Refill PointerVisit UInt8)} (h : List.Forall₂ (Mirrors locator) calls run)
    {refill : Refill PointerVisit UInt8} (hrefill : refill ∈ run) :
    ∃ call ∈ calls, Mirrors locator call refill := by
  induction h with
  | nil => cases hrefill
  | cons hcall _ ih =>
      rcases List.mem_cons.mp hrefill with rfl | hrefill
      · exact ⟨_, List.mem_cons_self .., hcall⟩
      · obtain ⟨call, hmem, hmirrors⟩ := ih hrefill
        exact ⟨call, List.mem_cons_of_mem _ hmem, hmirrors⟩

theorem flatMap_bytesPut {calls : List (Call ScriptedState)}
    {run : List (Refill PointerVisit UInt8)} (h : List.Forall₂ (Mirrors locator) calls run) :
    calls.flatMap Call.bytesPut = (run.flatMap Refill.put).flatten := by
  induction h with
  | nil => rfl
  | @cons call refill calls run hcall _ ih =>
      calc
        (call :: calls).flatMap Call.bytesPut =
            call.bytesPut ++ calls.flatMap Call.bytesPut := List.flatMap_cons
        _ = refill.put.flatten ++ (run.flatMap Refill.put).flatten := by
          rw [hcall.bytesPut_eq, ih]
        _ = ((refill :: run).flatMap Refill.put).flatten := by
          rw [List.flatMap_cons, List.flatten_append]

theorem flatMap_requests {calls : List (Call ScriptedState)}
    {run : List (Refill PointerVisit UInt8)} (h : List.Forall₂ (Mirrors locator) calls run) :
    calls.flatMap Call.requests =
      (run.flatMap Refill.taken).map fun visit ↦ pointerInterest locator visit.item := by
  induction h with
  | nil => rfl
  | @cons call refill calls run hcall _ ih =>
      calc
        (call :: calls).flatMap Call.requests =
            call.requests ++ calls.flatMap Call.requests := List.flatMap_cons
        _ = (refill.taken ++ run.flatMap Refill.taken).map
            fun visit ↦ pointerInterest locator visit.item := by
          rw [hcall.requests_eq, ih, List.map_append]
        _ = ((refill :: run).flatMap Refill.taken).map
            fun visit ↦ pointerInterest locator visit.item := by
          rw [List.flatMap_cons]

theorem tracks_create {root : CCNxManifest} {pointers : List CCNxManifestHashGroupPointer}
    (hroot : root.firstGroup = some pointers) (hcreate : create root = .ok fetcher)
    (t : FirstGroupTree (resolver respond root.name) pointers) (network : ScriptedState) :
    Tracks respond root.name fetcher network none (t.visits network.schedule) := by
  rw [eq_of_create hcreate]
  exact ⟨rfl, rfl, pointers, .root hroot, t, rfl⟩

theorem exists_create {root : CCNxManifest} {pointers : List CCNxManifestHashGroupPointer}
    (hroot : root.firstGroup = some pointers) : ∃ fetcher, create root = .ok fetcher := by
  unfold create
  unfold CCNxManifest.firstGroup at hroot
  split
  · simp_all
  · exact ⟨_, rfl⟩

section Sessions

variable {root : CCNxManifest} {pointers : List CCNxManifestHashGroupPointer}
  {buffers : List PARCBuffer} {fuel : ℕ}

variable (buffers) in
/-- A new fetcher on a network that answers every request: its calls are a run of refills from the
queue of all requests of the tree. -/
theorem exists_session (hroot : root.firstGroup = some pointers)
    (t : FirstGroupTree (resolver respond root.name) pointers)
    (hroom : ∀ buffer ∈ buffers, ∀ payload ∈ t.leaves, payload.length ≤ buffer.remaining)
    (hfuel : t.preorder.length < fuel) :
    ∃ fetcher calls, create root = .ok fetcher ∧
      fillBuffers (scriptedPortal respond) fuel fetcher (.start fun _ ↦ .arrives) buffers =
        .ok calls ∧
      calls.map (·.before) = buffers ∧
      List.Forall₂ (Mirrors root.name) calls
        (Refill.refills Visit.delivered none (t.visits fun _ ↦ true)
          (buffers.map (·.remaining))) := by
  obtain ⟨fetcher, hcreate⟩ := exists_create hroot
  have htracks : Tracks respond root.name fetcher (.start fun _ ↦ .arrives) none
      (t.visits fun _ ↦ true) := tracks_create hroot hcreate t _
  have hqueue := t.length_visits_le fun _ ↦ true
  obtain ⟨calls, hcalls, hbefore, hmirrors⟩ := fillBuffers_mirrors buffers
    (hqueue.trans_lt hfuel)
    (by rwa [Refill.pending_none, t.filterMap_delivered_visits]) htracks
  exact ⟨fetcher, calls, hcreate, hcalls, hbefore, hmirrors⟩

/-- With some room in every buffer, twice as many calls as there are pointers and one more are
enough to come to the end. -/
theorem exists_done_call {t : FirstGroupTree (resolver respond root.name) pointers}
    {calls : List (Call ScriptedState)}
    (hmirrors : List.Forall₂ (Mirrors locator) calls
      (Refill.refills Visit.delivered none (t.visits fun _ ↦ true) (buffers.map (·.remaining))))
    (hroom : ∀ buffer ∈ buffers, 0 < buffer.remaining)
    (hcount : 2 * t.preorder.length < buffers.length) :
    ∃ call ∈ calls, call.filled.done = true := by
  have hqueue := t.length_visits_le fun _ ↦ true
  have hweight : Refill.weight (none : Option Bytes) (t.visits fun _ ↦ true) <
      (buffers.map (·.remaining)).length := by
    simp only [Refill.weight, Option.toList_none, List.length_nil, List.length_map]
    omega
  obtain ⟨refill, hrefill, hdone⟩ :=
    Refill.exists_done Visit.delivered (by simpa using hroom) hweight
  obtain ⟨call, hcall, hmirror⟩ := exists_call_of_mem hmirrors hrefill
  exact ⟨call, hcall, hmirror.done_eq.trans hdone⟩

end Sessions

/-- On a network that answers every request, the bytes put by any sequence of calls are a prefix of
the data in the order of the tree, up to the end of a payload.  A call returns `true` only when
everything was put and nothing is held back; from then on every call returns `true` and puts
nothing.  Sufficiently many calls come to this point. -/
theorem fillBuffers_stream (respond : CCNxInterest → Option CCNxMetaMessage) (root : CCNxManifest)
    (pointers : List CCNxManifestHashGroupPointer) (hroot : root.onlyGroup = some pointers)
    (t : ManifestTree (resolver respond root.name) pointers) (buffers : List PARCBuffer)
    (hroom : ∀ buffer ∈ buffers, 0 < buffer.remaining ∧
      ∀ payload ∈ t.leaves, payload.length ≤ buffer.remaining)
    (fuel : ℕ) (hfuel : t.preorder.length < fuel) :
    ∃ fetcher calls, create root = .ok fetcher ∧
      fillBuffers (scriptedPortal respond) fuel fetcher (.start fun _ ↦ .arrives) buffers =
        .ok calls ∧
      calls.map (·.before) = buffers ∧
      (∀ earlier call later, calls = earlier ++ call :: later →
        call.filled.buffer.written = call.before.written ++ call.bytesPut ∧
        (∃ count, (earlier ++ [call]).flatMap Call.bytesPut = (t.leaves.take count).flatten) ∧
        (call.filled.done = true →
          (earlier ++ [call]).flatMap Call.bytesPut = t.leaves.flatten ∧
          call.filled.fetcher.prevState = none ∧
          ∀ next ∈ later, next.filled.done = true ∧ next.bytesPut = [])) ∧
      (2 * t.preorder.length < buffers.length → ∃ call ∈ calls, call.filled.done = true) := by
  obtain ⟨fetcher, calls, hcreate, hcalls, hbefore, hmirrors⟩ :=
    exists_session buffers (CCNxManifest.firstGroup_of_onlyGroup hroot)
      t.toFirstGroups (by simpa using fun buffer hbuffer ↦ (hroom buffer hbuffer).2)
      (by simpa using hfuel)
  have hpending : Refill.pending Visit.delivered none (t.toFirstGroups.visits fun _ ↦ true) =
      t.leaves := t.toFirstGroups.filterMap_delivered_visits.trans t.leaves_toFirstGroups
  have hpositive : ∀ buffer ∈ buffers, 0 < buffer.remaining :=
    fun buffer hbuffer ↦ (hroom buffer hbuffer).1
  refine ⟨fetcher, calls, hcreate, hcalls, hbefore, ?_,
    fun hcount ↦ exists_done_call hmirrors hpositive (by simpa using hcount)⟩
  rintro earlier call later rfl
  obtain ⟨first, refill, last, hrun, hearlier, hcall, hlater⟩ := exists_refill_of_call hmirrors
  have hput : (earlier ++ [call]).flatMap Call.bytesPut =
      ((first ++ [refill]).flatMap Refill.put).flatten :=
    flatMap_bytesPut (List.rel_append hearlier (.cons hcall .nil))
  refine ⟨hcall.written_eq, ⟨((first ++ [refill]).flatMap Refill.put).length, ?_⟩, ?_⟩
  · have hconserved := Refill.flatMap_put_append_pending hrun
    rw [hpending] at hconserved
    rw [hput, ← hconserved, List.take_left]
  · intro hdone
    rw [hcall.done_eq] at hdone
    have hdrained := Refill.drained_of_mem_refills (hrun ▸ List.mem_append_cons_self) hdone
    refine ⟨?_, hcall.held_eq.trans hdrained.1, ?_⟩
    · rw [hput, Refill.flatMap_put_of_done hrun hdone, hpending]
    · intro next hnext
      obtain ⟨last, hlast, hmirror⟩ := exists_refill_of_mem hlater hnext
      obtain ⟨hnextDone, hnextPut⟩ :=
        Refill.done_of_done (by simpa using hpositive) hrun hdone last hlast
      exact ⟨hmirror.done_eq.trans hnextDone, by rw [hmirror.bytesPut_eq, hnextPut]; rfl⟩

/-! ## A sample network -/

/-- The manifest with the given pointer groups and an empty name. -/
def sampleManifest (groups : List (List CCNxManifestHashGroupPointer)) : CCNxManifest where
  name := ⟨[]⟩
  hashGroups := groups.map fun pointers ↦ { CCNxManifestHashGroup.create with pointers := pointers }

def dataPointer : CCNxManifestHashGroupPointer := ⟨.data, [1]⟩

def manifestPointer : CCNxManifestHashGroupPointer := ⟨.manifest, [2]⟩

/-- A network with a content object of two bytes under the digest `[1]` and a manifest of this
object under `[2]`. -/
def sampleRespond (interest : CCNxInterest) : Option CCNxMetaMessage :=
  if interest.contentObjectHashRestriction = some [1] then
    some (.contentObject { name := interest.name, payload := [5, 6] })
  else if interest.contentObjectHashRestriction = some [2] then
    some (.manifest (sampleManifest [[dataPointer]]))
  else none

/-- The manifest pointer and the data pointer, resolved on the sample network. -/
def sampleTree :
    ManifestTree (resolver sampleRespond ⟨[]⟩) [manifestPointer, dataPointer] :=
  .node [dataPointer] rfl (.leaf [5, 6] rfl .nil) (.leaf [5, 6] rfl .nil)

/-- Seven calls with buffers of three bytes. -/
theorem fillBuffers_stream_sample :
    ∃ fetcher calls, create (sampleManifest [[manifestPointer, dataPointer]]) = .ok fetcher ∧
      fillBuffers (scriptedPortal sampleRespond) 4 fetcher (.start fun _ ↦ .arrives)
        (List.replicate 7 (PARCBuffer.allocate 3)) = .ok calls ∧
      ∃ call ∈ calls, call.filled.done = true := by
  obtain ⟨fetcher, calls, hcreate, hcalls, -, -, hdone⟩ := fillBuffers_stream sampleRespond
    (sampleManifest [[manifestPointer, dataPointer]]) [manifestPointer, dataPointer] rfl sampleTree
    (List.replicate 7 (PARCBuffer.allocate 3))
    (by
      intro buffer hbuffer
      obtain rfl := (List.mem_replicate.mp hbuffer).2
      decide)
    4 (by decide)
  exact ⟨fetcher, calls, hcreate, hcalls, hdone (by decide)⟩

end CCNxFileRepo.CCNxFileRepoManifestFetcher
