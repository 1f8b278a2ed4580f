import CCNxFileRepo.CCNx.Message

/-!
# Portals

A portal sends a message and receives the next one.  What lies behind it is a state of any type,
so the programs on top are written once for every network.  The scripted portal is the network in
which every exchange has one of the four outcomes an exchange can have: the message arrives, the
send fails, the receive returns `NULL`, or something arrives that is neither a manifest nor a
content object.
-/

namespace CCNxFileRepo

/-- `CCNxPortal`: blocking calls on a network state. -/
structure CCNxPortal (σ : Type) where
  /-- `ccnxPortal_Send` -/
  send : CCNxMetaMessage → σ → Bool × σ
  /-- `ccnxPortal_Receive`; `none` is `NULL` -/
  receive : σ → Option CCNxMetaMessage × σ
  /-- `ccnxPortal_IsError` -/
  isError : σ → Bool

/-- A message that is neither a manifest nor a content object, such as an interest return. -/
abbrev OtherMessage :=
  { message : CCNxMetaMessage // message.isManifest = false ∧ message.isContentObject = false }

/-- What comes of one exchange. -/
inductive FetchOutcome where
  | arrives
  | sendFails
  | receivesNull
  | answeredBy (message : OtherMessage)

def FetchOutcome.isArrival : FetchOutcome → Bool
  | arrives => true
  | _ => false

/-- The outcomes still to come, the interests sent so far and the answer not yet received. -/
structure ScriptedState where
  outcomes : ℕ → FetchOutcome
  requested : List CCNxInterest
  reply : Option CCNxMetaMessage

namespace ScriptedState

def start (outcomes : ℕ → FetchOutcome) : ScriptedState where
  outcomes := outcomes
  requested := []
  reply := none

/-- After exchanges that asked for `interests` and were received in full. -/
def after (state : ScriptedState) (interests : List CCNxInterest) : ScriptedState where
  outcomes := fun index ↦ state.outcomes (index + interests.length)
  requested := state.requested ++ interests
  reply := none

theorem after_nil {state : ScriptedState} (h : state.reply = none) : state.after [] = state := by
  simp [after, ← h]

theorem after_append (state : ScriptedState) (first second : List CCNxInterest) :
    (state.after first).after second = state.after (first ++ second) := by
  simp [after, Nat.add_comm, Nat.add_left_comm]

/-- Which of the exchanges to come bring their object. -/
def schedule (state : ScriptedState) : ℕ → Bool := fun index ↦ (state.outcomes index).isArrival

end ScriptedState

/-- The portal to a network that answers `interest` by `respond interest` when all goes well. -/
def scriptedPortal (respond : CCNxInterest → Option CCNxMetaMessage) :
    CCNxPortal ScriptedState where
  send message state :=
    match message with
    | .interest interest =>
        let sent := state.after [interest]
        match state.outcomes 0 with
        | .arrives => (true, { sent with reply := respond interest })
        | .sendFails => (false, sent)
        | .receivesNull => (true, sent)
        | .answeredBy message => (true, { sent with reply := some message.val })
    | _ => (false, state)
  receive state := (state.reply, { state with reply := none })
  isError _ := false

end CCNxFileRepo
