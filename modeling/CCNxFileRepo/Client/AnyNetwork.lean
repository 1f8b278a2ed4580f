import CCNxFileRepo.Client.Download

/-!
# Every network is a script

The client learns nothing of its network but the answers to its interests.  Where every object that
arrives for a digest is the one that was asked for, an answer is one of the four outcomes of a
scripted exchange.  A download over any such network, whatever state it keeps and whatever its
outcomes depend on, is then a download over a scripted one.
-/

namespace CCNxFileRepo

variable {σ α β γ δ : Type} {respond : CCNxInterest → Option CCNxMetaMessage}

namespace CCNxPortal

/-- What comes back for an interest, as far as the client waits for it. -/
def exchange (portal : CCNxPortal σ) (interest : CCNxInterest) (state : σ) :
    Option CCNxMetaMessage × σ :=
  match portal.send (.interest interest) state with
  | (true, state) => portal.receive state
  | (false, state) => (none, state)

/-- Every object that arrives for a digest is the one that `respond` gives. -/
def Answers (portal : CCNxPortal σ) (respond : CCNxInterest → Option CCNxMetaMessage) : Prop :=
  ∀ name digest state message, (portal.exchange ⟨name, some digest⟩ state).1 = some message →
    message.isManifest = true ∨ message.isContentObject = true →
      respond ⟨name, some digest⟩ = some message

/-- An answer of the network is an outcome of the scripted exchange. -/
theorem Answers.exists_outcome {portal : CCNxPortal σ} (h : portal.Answers respond)
    (name : CCNxName) (digest : Bytes) (state : σ) :
    ∃ outcome, ∀ network : ScriptedState, network.outcomes 0 = outcome →
      (scriptedPortal respond).exchange ⟨name, some digest⟩ network =
        ((portal.exchange ⟨name, some digest⟩ state).1, network.after [⟨name, some digest⟩]) := by
  cases hanswer : (portal.exchange ⟨name, some digest⟩ state).1 with
  | none =>
      refine ⟨.receivesNull, fun network houtcome ↦ ?_⟩
      simp [exchange, scriptedPortal, houtcome, ScriptedState.after]
  | some message =>
      by_cases hobject : message.isManifest = true ∨ message.isContentObject = true
      · refine ⟨.arrives, fun network houtcome ↦ ?_⟩
        simp [exchange, scriptedPortal, houtcome, ScriptedState.after,
          h name digest state message hanswer hobject]
      · have hother : message.isManifest = false ∧ message.isContentObject = false := by
          simpa using hobject
        refine ⟨.answeredBy ⟨message, hother⟩, fun network houtcome ↦ ?_⟩
        simp [exchange, scriptedPortal, houtcome, ScriptedState.after]

end CCNxPortal

namespace ScriptedState

variable {network : ScriptedState} {first second : List FetchOutcome}

/-- No answer is pending, and the next exchanges end as `script` says. -/
structure Follows (network : ScriptedState) (script : List FetchOutcome) : Prop where
  idle : network.reply = none
  outcomes_eq : ∀ index outcome, script[index]? = some outcome → network.outcomes index = outcome

theorem Follows.left (h : network.Follows (first ++ second)) : network.Follows first where
  idle := h.idle
  outcomes_eq index outcome hindex :=
    h.outcomes_eq index outcome
      ((List.getElem?_append_left (List.getElem?_eq_some_iff.mp hindex).1).trans hindex)

theorem Follows.right (h : network.Follows (first ++ second)) {interests : List CCNxInterest}
    (hlength : interests.length = first.length) : (network.after interests).Follows second where
  idle := rfl
  outcomes_eq index outcome hindex := by
    refine h.outcomes_eq (index + interests.length) outcome ?_
    rw [hlength, List.getElem?_append_right (Nat.le_add_left ..), Nat.add_sub_cancel, hindex]

end ScriptedState

/-! ## Runs and their scripts -/

/-- Some script makes `run` come to the same as a computation over another network did.  `onto`
says what a result looks like over a scripted network. -/
def Replays (result : Except Stop α) (run : ScriptedState → Except Stop β)
    (onto : α → ScriptedState → β) : Prop :=
  ∃ (script : List FetchOutcome) (interests : List CCNxInterest),
    interests.length = script.length ∧ ∀ network : ScriptedState, network.Follows script →
      run network = result.map (onto · (network.after interests))

namespace Replays

variable {result : Except Stop α} {run : ScriptedState → Except Stop β}
  {onto : α → ScriptedState → β}

theorem of_eq (h : ∀ network, run network = result.map (onto · network)) :
    Replays result run onto := by
  refine ⟨[], [], rfl, fun network hnetwork ↦ ?_⟩
  rw [ScriptedState.after_nil hnetwork.idle]
  exact h network

theorem bind (h : Replays result run onto) {next : α → Except Stop γ} {later : β → Except Stop δ}
    {above : γ → ScriptedState → δ}
    (hnext : ∀ value, result = .ok value →
      Replays (next value) (fun network ↦ later (onto value network)) above) :
    Replays (result >>= next) (fun network ↦ run network >>= later) above := by
  obtain ⟨script, interests, hlength, hrun⟩ := h
  cases hresult : result with
  | error stop =>
      refine ⟨script, interests, hlength, fun network hnetwork ↦ ?_⟩
      simp only [hrun network hnetwork, hresult]
      rfl
  | ok value =>
      obtain ⟨rest, others, hrest, hlater⟩ := hnext value hresult
      refine ⟨script ++ rest, interests ++ others, by simp [hlength, hrest],
        fun network hnetwork ↦ ?_⟩
      simp only [hrun network hnetwork.left, hresult]
      rw [← ScriptedState.after_append]
      exact hlater _ (hnetwork.right hlength)

theorem pure_bind {next : α → Except Stop γ} {later : α → ScriptedState → Except Stop δ}
    {above : γ → ScriptedState → δ}
    (hnext : ∀ value, result = .ok value → Replays (next value) (later value) above) :
    Replays (result >>= next) (fun network ↦ result >>= (later · network)) above := by
  cases hresult : result with
  | error stop => exact .of_eq fun network ↦ rfl
  | ok value => exact hnext value hresult

theorem exchange_bind {portal : CCNxPortal σ} (h : portal.Answers respond) (name : CCNxName)
    (digest : Bytes) (state : σ) (next : Option CCNxMetaMessage × σ → Except Stop γ)
    (later : Option CCNxMetaMessage × ScriptedState → Except Stop δ) {above : γ → ScriptedState → δ}
    (hnext : ∀ response sent, portal.exchange ⟨name, some digest⟩ state = (response, sent) →
      Replays (next (response, sent)) (fun network ↦ later (response, network)) above) :
    Replays (next (portal.exchange ⟨name, some digest⟩ state))
      (fun network ↦ later ((scriptedPortal respond).exchange ⟨name, some digest⟩ network))
      above := by
  obtain ⟨outcome, houtcome⟩ := h.exists_outcome name digest state
  have hexchange : Replays (.ok (portal.exchange ⟨name, some digest⟩ state))
      (fun network ↦ .ok ((scriptedPortal respond).exchange ⟨name, some digest⟩ network))
      fun answer network ↦ (answer.1, network) := by
    refine ⟨[outcome], [⟨name, some digest⟩], rfl, fun network hnetwork ↦ ?_⟩
    exact congrArg Except.ok (houtcome network (hnetwork.outcomes_eq 0 outcome rfl))
  refine hexchange.bind fun answer hanswer ↦ ?_
  cases hanswer
  exact hnext _ _ rfl

end Replays

/-! ## The fetcher and the client -/

namespace CCNxFileRepoManifestFetcher

variable {portal : CCNxPortal σ}

/-- The call with another network behind it. -/
def Filled.onto {τ : Type} (filled : Filled σ) (network : τ) : Filled τ :=
  ⟨filled.done, filled.fetcher, filled.buffer, network⟩

theorem fillBufferLoop_replays (h : portal.Answers respond) (fuel : ℕ)
    (fetcher : CCNxFileRepoManifestFetcher) (buffer : PARCBuffer) (state : σ) :
    Replays (fillBufferLoop portal fuel fetcher buffer state)
      (fun network ↦ fillBufferLoop (scriptedPortal respond) fuel fetcher buffer network)
      Filled.onto := by
  induction fuel generalizing fetcher buffer state with
  | zero => exact .of_eq fun network ↦ rfl
  | succ fuel ih =>
      simp only [fillBufferLoop]
      apply Replays.pure_bind
      rintro ⟨request, popped⟩ hnext
      cases request with
      | full => exact .of_eq fun network ↦ rfl
      | drained => exact .of_eq fun network ↦ rfl
      | fetch digest =>
          refine Replays.exchange_bind h popped.locator digest state
            (fun answer ↦ handleResponse popped buffer answer.1 >>= fun handled ↦
              if handled.1 then .ok ⟨false, handled.2.1, handled.2.2, answer.2⟩
              else fillBufferLoop portal fuel handled.2.1 handled.2.2 answer.2)
            (fun answer ↦ handleResponse popped buffer answer.1 >>= fun handled ↦
              if handled.1 then .ok ⟨false, handled.2.1, handled.2.2, answer.2⟩
              else fillBufferLoop (scriptedPortal respond) fuel handled.2.1 handled.2.2 answer.2)
            fun response sent hresponse ↦ ?_
          apply Replays.pure_bind
          rintro ⟨suspended, next, between⟩ hhandled
          cases suspended with
          | true => exact .of_eq fun network ↦ rfl
          | false => exact ih next between sent

theorem fillBuffer_replays (h : portal.Answers respond) (fuel : ℕ)
    (fetcher : CCNxFileRepoManifestFetcher) (buffer : PARCBuffer) (state : σ) :
    Replays (fillBuffer portal fuel fetcher buffer state)
      (fun network ↦ fillBuffer (scriptedPortal respond) fuel fetcher buffer network)
      Filled.onto := by
  apply Replays.pure_bind
  rintro ⟨next, between⟩ hput
  exact fillBufferLoop_replays h fuel next between state

end CCNxFileRepoManifestFetcher

namespace CCNxFileRepoClient

open CCNxFileRepoManifestFetcher

variable {portal : CCNxPortal σ} {capacity : ℕ} {outFile : CString}

def DownloadState.onto {τ : Type} (state : DownloadState σ) (network : τ) : DownloadState τ :=
  ⟨state.fetcher, state.chunkBuffer, state.fileOffset, state.fs, network⟩

theorem downloadRound_replays (h : portal.Answers respond) (fuel : ℕ) (state : DownloadState σ)
    (outcome : WriteOutcome) :
    Replays (downloadRound portal capacity outFile fuel state outcome)
      (fun network ↦
        downloadRound (scriptedPortal respond) capacity outFile fuel (state.onto network) outcome)
      fun result network ↦ (result.1, result.2.onto network) := by
  refine Replays.pure_bind fun reset hreset ↦ ?_
  simp only [DownloadState.onto]
  refine (fillBuffer_replays h fuel state.fetcher reset state.network).bind fun filled hfill ↦ ?_
  exact Replays.pure_bind fun fs happend ↦ .of_eq fun network ↦ rfl

theorem downloadLoop_replays (h : portal.Answers respond) (fuel : ℕ) (state : DownloadState σ)
    (outcomes : ℕ → WriteOutcome) :
    Replays (downloadLoop portal capacity outFile fuel state outcomes)
      (fun network ↦
        downloadLoop (scriptedPortal respond) capacity outFile fuel (state.onto network) outcomes)
      DownloadState.onto := by
  induction fuel generalizing state outcomes with
  | zero => exact .of_eq fun network ↦ rfl
  | succ fuel ih =>
      apply (downloadRound_replays h fuel state (outcomes 0)).bind
      rintro ⟨done, next⟩ hround
      cases done with
      | true => exact .of_eq fun network ↦ rfl
      | false => exact ih next fun index ↦ outcomes (index + 1)

/-- A download over a network whose objects are the ones asked for is a download over a scripted
network. -/
theorem exists_script_of_download (h : portal.Answers respond) (fuel : ℕ) (root : CCNxManifest)
    (fs : FileSystem) (state : σ) (outcomes : ℕ → WriteOutcome) :
    ∃ (schedule : ℕ → FetchOutcome) (interests : List CCNxInterest),
      download (scriptedPortal respond) capacity outFile fuel root fs (.start schedule) outcomes =
        (download portal capacity outFile fuel root fs state outcomes).map
          (·.onto ((ScriptedState.start schedule).after interests)) := by
  have hreplays : Replays (download portal capacity outFile fuel root fs state outcomes)
      (fun network ↦
        download (scriptedPortal respond) capacity outFile fuel root fs network outcomes)
      DownloadState.onto :=
    Replays.pure_bind fun fetcher hcreate ↦ downloadLoop_replays h fuel _ outcomes
  obtain ⟨script, interests, -, hrun⟩ := hreplays
  refine ⟨fun index ↦ script.getD index .sendFails, interests, hrun _ ⟨rfl, ?_⟩⟩
  intro index outcome hindex
  simp [ScriptedState.start, List.getD_eq_getElem?_getD, hindex]

end CCNxFileRepoClient

end CCNxFileRepo
