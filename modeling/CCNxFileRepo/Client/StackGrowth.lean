import CCNxFileRepo.Client.LazyTraversal
import CCNxFileRepo.Foundations.LastNodes

/-!
# What stays on the stack of the fetcher

A level that is read to its end stays on the stack until a search for a pointer comes past it.
Where the manifests link on by their last pointers no search does before the end: the level on top
is the only one with pointers left.  So the stack has one level for every manifest received, until
the search that finds no pointer any more drops them all.
-/

namespace CCNxFileRepo.CCNxFileRepoManifestFetcher

open Foundations

variable {respond : CCNxInterest → Option CCNxMetaMessage} {schedule : ℕ → FetchOutcome}
  {resolve : Resolver} {levels : ℕ} {states : List FetcherState} {place : Place}
  {fetcher next : CCNxFileRepoManifestFetcher} {buffer between : PARCBuffer}
  {network : ScriptedState} {hashDigest : Bytes} {pointers : List CCNxManifestHashGroupPointer}

/-! ## Counting manifests -/

/-- The message is a manifest that a hash group can link to. -/
def bringsManifest (respond : CCNxInterest → Option CCNxMetaMessage)
    (schedule : ℕ → FetchOutcome) (sent : CCNxInterest × ℕ) : Bool :=
  (schedule sent.2).isArrival && (respond sent.1).any (·.isManifest)

/-- How many of the interests sent since the start have brought a manifest. -/
def manifestsReceived (respond : CCNxInterest → Option CCNxMetaMessage)
    (schedule : ℕ → FetchOutcome) (requested : List CCNxInterest) : ℕ :=
  requested.zipIdx.countP (bringsManifest respond schedule)

theorem manifestsReceived_concat (requested : List CCNxInterest) (interest : CCNxInterest) :
    manifestsReceived respond schedule (requested ++ [interest]) =
      manifestsReceived respond schedule requested +
        if bringsManifest respond schedule (interest, requested.length) then 1 else 0 := by
  simp [manifestsReceived, List.zipIdx_append, List.countP_append, List.countP_singleton]

/-- Where everything arrives, only the interests count. -/
theorem manifestsReceived_of_arrives (harrives : ∀ index, schedule index = .arrives)
    (requested : List CCNxInterest) :
    manifestsReceived respond schedule requested =
      requested.countP fun interest ↦ (respond interest).any (·.isManifest) := by
  have hbrings : bringsManifest respond schedule =
      (fun interest ↦ (respond interest).any (·.isManifest)) ∘ Prod.fst := by
    funext sent
    simp [bringsManifest, harrives, FetchOutcome.isArrival]
  rw [manifestsReceived, hbrings, ← List.countP_map, List.zipIdx_map_fst]

/-- An answer is a manifest where the network brings one, and only there. -/
theorem bringsManifest_iff (sent : List CCNxInterest) (interest : CCNxInterest) :
    bringsManifest respond schedule (interest, sent.length) = true ↔
      ∃ child, answer respond ((ScriptedState.start schedule).after sent) interest =
        some (.manifest child) := by
  have houtcome : ((ScriptedState.start schedule).after sent).outcomes 0 =
      schedule sent.length := congrArg schedule (Nat.zero_add _)
  unfold bringsManifest answer
  rw [houtcome]
  cases schedule sent.length with
  | arrives =>
      cases respond interest with
      | none => simp [FetchOutcome.isArrival]
      | some message => cases message <;> simp [FetchOutcome.isArrival, CCNxMetaMessage.isManifest]
  | sendFails => simp [FetchOutcome.isArrival]
  | receivesNull => simp [FetchOutcome.isArrival]
  | answeredBy message =>
      have hkind := message.property.1
      simp only [FetchOutcome.isArrival, Bool.false_and, Bool.false_eq_true, false_iff]
      rintro ⟨child, hchild⟩
      rw [Option.some.inj hchild] at hkind
      cases hkind

/-! ## The levels below the top -/

/-- A stack of `levels` levels, on whose top `pointers` are still to be read and which is read to
its end below. -/
inductive Spent : ℕ → List CCNxManifestHashGroupPointer → List FetcherState → Prop where
  | intro {top : FetcherState} {below : List FetcherState}
      {pointers : List CCNxManifestHashGroupPointer} (reads : top.iterator = .ok pointers)
      (spent : ∀ level ∈ below, level.iterator = .ok []) :
      Spent (below.length + 1) pointers (top :: below)

theorem getNextPointer_spent (h : ∀ level ∈ states, level.iterator = .ok []) :
    getNextPointer states = .ok (none, []) := by
  induction states with
  | nil => rfl
  | cons top below ih =>
      rw [getNextPointer, h top (List.mem_cons_self ..)]
      exact ih fun level hlevel ↦ h level (List.mem_cons_of_mem _ hlevel)

theorem Spent.forall_of_nil (h : Spent levels [] states) :
    ∀ level ∈ states, level.iterator = .ok [] := by
  obtain ⟨reads, spent⟩ := h
  exact List.forall_mem_cons.mpr ⟨reads, spent⟩

theorem Spent.push (h : Spent levels [] states) {child : CCNxManifest}
    (hchild : child.firstGroup = some pointers) :
    Spent (levels + 1) pointers (.create child :: states) := by
  have hspent := h.forall_of_nil
  cases h
  exact .intro (FetcherState.iterator_create hchild) hspent

/-- A search takes the first pointer of the top, and drops all levels if there is none. -/
theorem Spent.getNextPointer (h : Spent levels pointers states) :
    (pointers = [] ∧ CCNxFileRepoManifestFetcher.getNextPointer states = .ok (none, [])) ∨
      ∃ pointer rest below, pointers = pointer :: rest ∧ Spent levels rest below ∧
        CCNxFileRepoManifestFetcher.getNextPointer states = .ok (some pointer.digest, below) := by
  cases pointers with
  | nil => exact Or.inl ⟨rfl, getNextPointer_spent h.forall_of_nil⟩
  | cons pointer rest =>
      obtain @⟨top, below, _, reads, spent⟩ := h
      refine Or.inr ⟨pointer, rest, { top with digestIterator := some rest } :: below, rfl,
        .intro rfl spent, ?_⟩
      rw [CCNxFileRepoManifestFetcher.getNextPointer, reads]
      rfl

/-! ## A run -/

/-- The stack at a place of the code, with the pointer whose interest is outstanding there. -/
def Grown (resolve : Resolver) (levels : ℕ) : Place → List FetcherState → Prop
  | .waiting hashDigest _, states => ∃ pointer pointers, pointer.digest = hashDigest ∧
      Spent levels pointers states ∧ ∃ t : ManifestTree resolve (pointer :: pointers), t.NodesLast
  | _, states => states = [] ∨ ∃ pointers, Spent levels pointers states ∧
      ∃ t : ManifestTree resolve pointers, t.NodesLast

theorem Grown.length_eq (h : Grown resolve levels place states) (hne : states ≠ []) :
    states.length = levels := by
  have hspent : ∃ pointers, Spent levels pointers states := by
    cases place with
    | waiting hashDigest buffer =>
        obtain ⟨pointer, pointers, -, hspent, -⟩ := h
        exact ⟨pointers, hspent⟩
    | idle | looping buffer =>
        obtain rfl | ⟨pointers, hspent, -⟩ := h
        · exact absurd rfl hne
        · exact ⟨pointers, hspent⟩
  obtain ⟨pointers, -, -⟩ := hspent
  rfl

/-- The head of the loop keeps the stack, drops all of it, or takes a pointer. -/
theorem Grown.nextRequest (h : Grown resolve levels (.looping buffer) fetcher.stateList)
    {request : Request} (hnext : nextRequest fetcher buffer = .ok (request, next)) :
    (∀ hashDigest, request ≠ .fetch hashDigest) ∧ Grown resolve levels .idle next.stateList ∨
      ∃ hashDigest, request = .fetch hashDigest ∧
        Grown resolve levels (.waiting hashDigest buffer) next.stateList := by
  rcases nextRequest_spec hnext with ⟨rfl, rfl⟩ | ⟨digest, below, hpointer, rfl, rfl⟩
  · exact Or.inl ⟨by simp, h⟩
  · obtain hnone | ⟨pointers, hspent, t, hlast⟩ := h
    · rw [hnone] at hpointer
      cases hpointer
      exact Or.inl ⟨by simp, Or.inl rfl⟩
    · rcases hspent.getNextPointer with
        ⟨rfl, hsearch⟩ | ⟨pointer, rest, left, rfl, hleft, hsearch⟩
      · rw [hsearch] at hpointer
        cases hpointer
        exact Or.inl ⟨by simp, Or.inl rfl⟩
      · rw [hsearch] at hpointer
        cases hpointer
        exact Or.inr ⟨_, rfl, pointer, rest, rfl, hleft, t, hlast⟩

/-- A link that is followed was the last pointer of the top, so a manifest that arrives is pushed on
levels without pointers.  Anything else that happens leaves the stack as it is. -/
theorem Grown.receive {locator : CCNxName} {sent : List CCNxInterest}
    (h : Grown (resolver respond locator) (manifestsReceived respond schedule sent)
      (.waiting hashDigest buffer) fetcher.stateList)
    (hinvariant : StackInvariant respond locator (.waiting hashDigest buffer) fetcher)
    {response : Option CCNxMetaMessage} {suspended : Bool}
    (hfetch : fetchData (scriptedPortal respond) fetcher hashDigest
      ((ScriptedState.start schedule).after sent) = (response, network))
    (hresponse : handleResponse fetcher buffer response = .ok (suspended, next, between)) :
    ∃ sent, network = (ScriptedState.start schedule).after sent ∧
      Grown (resolver respond locator) (manifestsReceived respond schedule sent) .idle
        next.stateList := by
  obtain ⟨pointer, pointers, rfl, hspent, t, hlast⟩ := h
  rw [fetchData_scripted, hinvariant.locator_eq, ScriptedState.after_append] at hfetch
  obtain ⟨rfl, rfl⟩ := Prod.mk.inj hfetch
  refine ⟨sent ++ [pointerInterest locator pointer], rfl, ?_⟩
  rw [manifestsReceived_concat]
  rcases handleResponse_cases (hinvariant.nothingHeld (by simp)) hresponse with
    ⟨child, hchild, rfl, rfl, rfl⟩ | ⟨hother, hstack, -, -⟩
  · rw [if_pos ((bringsManifest_iff sent _).mpr ⟨child, hchild⟩)]
    have hresolved : resolver respond locator pointer.digest = some (.manifest child) :=
      respond_of_answer hchild
    cases t with
    | leaf value resolves rest =>
        obtain ⟨object, hobject, -⟩ := expandWith_leaf resolves
        rw [hresolved] at hobject
        cases hobject
    | node children resolves below rest =>
        obtain ⟨rfl, hbelow⟩ := hlast
        obtain ⟨manifest, hmanifest, hchildren⟩ := expandWith_node resolves
        rw [hresolved] at hmanifest
        cases hmanifest
        exact Or.inr ⟨children, hspent.push (CCNxManifest.firstGroup_of_onlyGroup hchildren), below,
          hbelow⟩
  · have hnone : ¬ bringsManifest respond schedule
        (pointerInterest locator pointer, sent.length) = true := fun hbrings ↦
      (bringsManifest_iff sent _).mp hbrings |>.elim hother
    rw [if_neg hnone, hstack]
    exact Or.inr ⟨pointers, hspent, hlast.exists_tail⟩

/-- A fetcher over a tree with its links last, whose root was the first thing that arrived. -/
theorem Reached.grown {root : CCNxManifest} (hroot : root.onlyGroup = some pointers)
    (t : ManifestTree (resolver respond root.name) pointers) (hlast : t.NodesLast)
    (hresponds : respond ⟨root.name, none⟩ = some (.manifest root))
    (harrives : schedule 0 = .arrives)
    (h : Reached (scriptedPortal respond) root
      ((ScriptedState.start schedule).after [⟨root.name, none⟩]) place fetcher network) :
    ∃ sent, network = (ScriptedState.start schedule).after sent ∧
      Grown (resolver respond root.name) (manifestsReceived respond schedule sent) place
        fetcher.stateList := by
  induction h with
  | create created =>
      have hfirst : manifestsReceived respond schedule [⟨root.name, none⟩] = 1 := by
        simp [manifestsReceived, bringsManifest, harrives, hresponds, FetchOutcome.isArrival,
          CCNxMetaMessage.isManifest]
      have hread := FetcherState.iterator_create (CCNxManifest.firstGroup_of_onlyGroup hroot)
      have hspent : Spent 1 pointers [FetcherState.create root] :=
        .intro hread (List.forall_mem_nil _)
      refine ⟨_, rfl, ?_⟩
      rw [eq_of_create created, hfirst]
      exact Or.inr ⟨pointers, hspent, t, hlast⟩
  | call _ put ih =>
      obtain ⟨sent, hsent, hgrown⟩ := ih
      rw [putPrevState_eq put]
      exact ⟨sent, hsent, hgrown⟩
  | leave _ asked ends ih =>
      obtain ⟨sent, hsent, hgrown⟩ := ih
      rcases hgrown.nextRequest asked with ⟨-, hnext⟩ | ⟨hashDigest, rfl, -⟩
      · exact ⟨sent, hsent, hnext⟩
      · simp at ends
  | fetch _ asked ih =>
      obtain ⟨sent, hsent, hgrown⟩ := ih
      rcases hgrown.nextRequest asked with ⟨hnone, -⟩ | ⟨hashDigest, hrequest, hnext⟩
      · exact absurd rfl (hnone _)
      · cases hrequest
        exact ⟨sent, hsent, hnext⟩
  | resume waiting fetched handled ih =>
      obtain ⟨sent, rfl, hgrown⟩ := ih
      exact hgrown.receive (waiting.stackInvariant hroot t) fetched handled
  | suspend waiting fetched handled ih =>
      obtain ⟨sent, rfl, hgrown⟩ := ih
      exact hgrown.receive (waiting.stackInvariant hroot t) fetched handled

end CCNxFileRepo.CCNxFileRepoManifestFetcher
