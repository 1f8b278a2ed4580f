import CCNxFileRepo.Client.Streaming

/-!
# Buffer safety of `fillBuffer`

A fresh payload is put only after a comparison with the room left.  A payload that is carried over
is put without one, so its safety depends on the buffer of the later call.  These are the only two
places, and the second is the only one that can overrun the buffer.  Nothing is assumed of the
network, of the manifests and of the number of rounds.
-/

namespace CCNxFileRepo.CCNxFileRepoManifestFetcher

open Foundations

variable {σ : Type} {portal : CCNxPortal σ} {fetcher next : CCNxFileRepoManifestFetcher}
  {buffer between : PARCBuffer} {network : σ} {fuel : ℕ}

theorem iterator_ne_overflow (state : FetcherState) :
    state.iterator ≠ .error .bufferOverflow := by
  unfold FetcherState.iterator
  repeat' split
  all_goals simp

theorem getNextPointer_ne_overflow (states : List FetcherState) :
    getNextPointer states ≠ .error .bufferOverflow := by
  induction states with
  | nil => simp [getNextPointer]
  | cons state below ih =>
      intro h
      rw [getNextPointer] at h
      rcases Fallible.bind_eq_error.mp h with h | ⟨pointers, -, h⟩
      · exact iterator_ne_overflow state h
      · cases pointers with
        | nil => exact ih h
        | cons pointer pointers => cases h

theorem nextRequest_ne_overflow : nextRequest fetcher buffer ≠ .error .bufferOverflow := by
  unfold nextRequest
  split
  · simp
  · intro h
    rcases Fallible.bind_eq_error.mp h with h | ⟨⟨digest, below⟩, -, h⟩
    · exact getNextPointer_ne_overflow _ h
    · cases digest <;> cases h

theorem prevState_of_nextRequest {request : Request}
    (h : nextRequest fetcher buffer = .ok (request, next)) :
    next.prevState = fetcher.prevState := by
  unfold nextRequest at h
  split at h
  · cases h
    rfl
  · obtain ⟨⟨digest, below⟩, -, h⟩ := Fallible.bind_eq_ok.mp h
    cases digest <;> cases h <;> rfl

/-- With nothing carried over, the answer is put only where it fits, and when the loop goes on
there is still nothing carried over. -/
theorem handleResponse_safe (hheld : fetcher.prevState = none) (buffer : PARCBuffer)
    (response : Option CCNxMetaMessage) :
    ∃ suspended next between, handleResponse fetcher buffer response =
        .ok (suspended, next, between) ∧
      (suspended = false → next.prevState = none) := by
  cases response with
  | none => exact ⟨false, fetcher, buffer, rfl, fun _ ↦ hheld⟩
  | some message =>
      cases message with
      | interest _ => exact ⟨false, fetcher, buffer, rfl, fun _ ↦ hheld⟩
      | interestReturn _ => exact ⟨false, fetcher, buffer, rfl, fun _ ↦ hheld⟩
      | manifest child =>
          exact ⟨_, _, _, handleResponse_manifest fetcher hheld buffer child, fun _ ↦ hheld⟩
      | contentObject object =>
          by_cases hfits : object.payload.length ≤ buffer.remaining
          · obtain ⟨between, hresponse, -⟩ := handleResponse_fits fetcher hfits
            exact ⟨false, fetcher, between, hresponse, fun _ ↦ hheld⟩
          · exact ⟨true, _, buffer, handleResponse_large fetcher hfits, by simp⟩

/-- The loop never overruns the buffer when it starts with nothing carried over. -/
theorem fillBufferLoop_ne_overflow (hheld : fetcher.prevState = none) :
    fillBufferLoop portal fuel fetcher buffer network ≠ .error .bufferOverflow := by
  induction fuel generalizing fetcher buffer network with
  | zero => simp [fillBufferLoop]
  | succ fuel ih =>
      intro h
      rw [fillBufferLoop] at h
      rcases Fallible.bind_eq_error.mp h with h | ⟨⟨request, popped⟩, hnext, h⟩
      · exact nextRequest_ne_overflow h
      · cases request with
        | full => cases h
        | drained => cases h
        | fetch digest =>
            have hpopped := (prevState_of_nextRequest hnext).trans hheld
            obtain ⟨suspended, next, between, hresponse, hstill⟩ :=
              handleResponse_safe hpopped buffer (fetchData portal popped digest network).1
            simp only [hresponse, bind, Except.bind] at h
            cases suspended with
            | true => cases h
            | false => exact ih (hstill rfl) h

/-- A call overruns its buffer if and only if it starts with a payload that does not fit. -/
theorem fillBuffer_eq_overflow_iff :
    fillBuffer portal fuel fetcher buffer network = .error .bufferOverflow ↔
      ∃ payload ∈ fetcher.prevState, buffer.remaining < payload.length := by
  cases hheld : fetcher.prevState with
  | none =>
      simp only [fillBuffer, putPrevState, hheld, Option.mem_def, reduceCtorEq, false_and,
        exists_false, iff_false]
      exact fillBufferLoop_ne_overflow hheld
  | some payload =>
      simp only [Option.mem_some_iff, exists_eq_left']
      rw [← PARCBuffer.putBuffer_eq_overflow_iff]
      rcases buffer.putBuffer_cases payload with ⟨filled, hput⟩ | hput
      · simp only [fillBuffer, putPrevState, hheld, hput, reduceCtorEq, iff_false]
        exact fillBufferLoop_ne_overflow rfl
      · simp only [fillBuffer, putPrevState, hheld, hput, iff_true]
        rfl

def fetcherAfter (fetcher : CCNxFileRepoManifestFetcher) (calls : List (Call σ)) :
    CCNxFileRepoManifestFetcher :=
  (calls.getLast?.map (·.filled.fetcher)).getD fetcher

@[simp]
theorem fetcherAfter_cons (fetcher : CCNxFileRepoManifestFetcher) (call : Call σ)
    (calls : List (Call σ)) :
    fetcherAfter fetcher (call :: calls) = fetcherAfter call.filled.fetcher calls := by
  cases calls with
  | nil => rfl
  | cons next calls => simp [fetcherAfter, List.getLast?_cons]

theorem fillBuffers_cons_error {stop : Stop} {buffers : List PARCBuffer}
    (h : fillBuffer portal fuel fetcher buffer network = .error stop) :
    fillBuffers portal fuel fetcher network (buffer :: buffers) = .error stop := by
  simp only [fillBuffers, h, bind, Except.bind]

theorem fillBuffers_cons_ok {filled : Filled σ} {buffers : List PARCBuffer}
    (h : fillBuffer portal fuel fetcher buffer network = .ok filled) :
    fillBuffers portal fuel fetcher network (buffer :: buffers) =
      (fillBuffers portal fuel filled.fetcher filled.network buffers).map
        ({ before := buffer, start := network, filled := filled } :: ·) := by
  simp only [fillBuffers, h, bind, Except.bind]
  cases fillBuffers portal fuel filled.fetcher filled.network buffers <;> rfl

/-- A sequence overruns no buffer if and only if its first call does not and, where this call comes
back, neither do the later ones. -/
theorem fillBuffers_cons_ne_overflow_iff {buffers : List PARCBuffer} :
    fillBuffers portal fuel fetcher network (buffer :: buffers) ≠ .error .bufferOverflow ↔
      fillBuffer portal fuel fetcher buffer network ≠ .error .bufferOverflow ∧
        ∀ filled, fillBuffer portal fuel fetcher buffer network = .ok filled →
          fillBuffers portal fuel filled.fetcher filled.network buffers ≠
            .error .bufferOverflow := by
  cases hcall : fillBuffer portal fuel fetcher buffer network with
  | error stop =>
      rw [fillBuffers_cons_error hcall]
      simp
  | ok filled =>
      rw [fillBuffers_cons_ok hcall]
      cases hlater : fillBuffers portal fuel filled.fetcher filled.network buffers <;>
        simp [hlater, Except.map]

/-- What holds at every call that is reached holds at the first one and, where it comes back, at
every later one. -/
theorem forall_reached_cons_iff {P : CCNxFileRepoManifestFetcher → PARCBuffer → Prop}
    {buffers : List PARCBuffer} :
    (∀ earlier current later calls, buffer :: buffers = earlier ++ current :: later →
        fillBuffers portal fuel fetcher network earlier = .ok calls →
        P (fetcherAfter fetcher calls) current) ↔
      P fetcher buffer ∧ ∀ filled, fillBuffer portal fuel fetcher buffer network = .ok filled →
        ∀ earlier current later calls, buffers = earlier ++ current :: later →
          fillBuffers portal fuel filled.fetcher filled.network earlier = .ok calls →
          P (fetcherAfter filled.fetcher calls) current := by
  constructor
  · intro h
    refine ⟨h [] buffer buffers [] rfl rfl, ?_⟩
    intro filled hcall earlier current later calls hsplit hcalls
    have hfirst := h (buffer :: earlier) current later
      ({ before := buffer, start := network, filled := filled } :: calls)
      (by rw [hsplit, List.cons_append]) (by rw [fillBuffers_cons_ok hcall, hcalls]; rfl)
    rwa [fetcherAfter_cons] at hfirst
  · rintro ⟨hfirst, hlater⟩ (_ | ⟨first, earlier⟩) current later calls hsplit hcalls
    · cases hcalls
      obtain ⟨rfl, -⟩ := List.cons.inj hsplit
      exact hfirst
    · obtain ⟨rfl, hothers⟩ := List.cons.inj hsplit
      cases hcall : fillBuffer portal fuel fetcher buffer network with
      | error stop =>
          rw [fillBuffers_cons_error hcall] at hcalls
          cases hcalls
      | ok filled =>
          rw [fillBuffers_cons_ok hcall] at hcalls
          cases htail : fillBuffers portal fuel filled.fetcher filled.network earlier with
          | error stop =>
              rw [htail] at hcalls
              cases hcalls
          | ok tail =>
              rw [htail] at hcalls
              cases hcalls
              rw [fetcherAfter_cons]
              exact hlater filled hcall earlier current later tail hothers htail

/-- On any network and from any state of the fetcher, a sequence of calls stays within its buffers
if and only if every call that is reached has room for the payload carried over to it. -/
theorem fillBuffers_ne_overflow_iff (portal : CCNxPortal σ) (fuel : ℕ)
    (fetcher : CCNxFileRepoManifestFetcher) (network : σ) (buffers : List PARCBuffer) :
    fillBuffers portal fuel fetcher network buffers ≠ .error .bufferOverflow ↔
      ∀ earlier buffer later calls, buffers = earlier ++ buffer :: later →
        fillBuffers portal fuel fetcher network earlier = .ok calls →
        ∀ payload ∈ (fetcherAfter fetcher calls).prevState, payload.length ≤ buffer.remaining := by
  induction buffers generalizing fetcher network with
  | nil => simp [fillBuffers]
  | cons buffer buffers ih =>
      have hfits : fillBuffer portal fuel fetcher buffer network ≠ .error .bufferOverflow ↔
          ∀ payload ∈ fetcher.prevState, payload.length ≤ buffer.remaining := by
        rw [ne_eq, fillBuffer_eq_overflow_iff]
        push Not
        rfl
      rw [fillBuffers_cons_ne_overflow_iff, hfits]
      refine Iff.trans ?_ (forall_reached_cons_iff (P := fun fetcher buffer ↦
        ∀ payload ∈ fetcher.prevState, payload.length ≤ buffer.remaining)).symm
      apply and_congr_right
      intro _
      apply forall₂_congr
      intro filled _
      exact ih filled.fetcher filled.network

/-- A payload of two bytes and buffers of one byte: the first call keeps the payload, and the
second puts it where there is no room. -/
theorem fillBuffers_overflow_of_large_payload :
    ∃ fetcher, create (sampleManifest [[dataPointer]]) = .ok fetcher ∧
      fillBuffers (scriptedPortal sampleRespond) 2 fetcher (.start fun _ ↦ .arrives)
        [.allocate 1, .allocate 1] = .error .bufferOverflow :=
  ⟨_, rfl, rfl⟩

end CCNxFileRepo.CCNxFileRepoManifestFetcher
