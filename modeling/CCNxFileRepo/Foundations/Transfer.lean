import CCNxFileRepo.Foundations.Transition
import Mathlib.Data.Set.Basic
import Mathlib.Order.Basic

/-!
# A transfer service

What a system is for that hands out pieces of data: origins offer what they have, and a receiver
gets a piece of what one origin offers, from its start to its end.  Nothing that is offered is
taken back, no receiver changes its piece, and what it has received is always the start of it.
Views of receivers are ordered by what they have seen, and the service can bring a receiver to any
later view of an offered piece.
-/

namespace CCNxFileRepo.Foundations.Transfer

universe u v w

variable {κ : Type u} {ι : Type v} {α : Type w} {source : κ → List α}

/-- A piece of what an origin has. -/
structure Piece (source : κ → List α) where
  origin : κ
  data : List α
  isInfix : data <:+: source origin

inductive View (source : κ → List α) where
  | waiting
  | receiving (piece : Piece source) (received : List α) (isPrefix : received <+: piece.data)
  | finished (piece : Piece source)

namespace View

def received : View source → List α
  | waiting => []
  | receiving _ received _ => received
  | finished piece => piece.data

/-- The piece a receiver gets, once it gets one. -/
def piece? : View source → Option (Piece source)
  | waiting => none
  | receiving piece _ _ => some piece
  | finished piece => some piece

/-- A view and one that comes later or is the same. -/
protected inductive Le : View source → View source → Prop where
  | waiting (view : View source) : View.Le .waiting view
  | receiving {piece : Piece source} {received more : List α} {isPrefix : received <+: piece.data}
      {isPrefix' : more <+: piece.data} (grows : received <+: more) :
      View.Le (.receiving piece received isPrefix) (.receiving piece more isPrefix')
  | finishing {piece : Piece source} {received : List α} {isPrefix : received <+: piece.data} :
      View.Le (.receiving piece received isPrefix) (.finished piece)
  | finished {piece : Piece source} : View.Le (.finished piece) (.finished piece)

instance : Preorder (View source) where
  le := View.Le
  le_refl view := by
    cases view with
    | waiting => exact .waiting _
    | receiving piece received isPrefix => exact .receiving (List.prefix_refl _)
    | finished piece => exact .finished
  le_trans first second third h h' := by
    cases h with
    | waiting => exact .waiting _
    | receiving hmore =>
        cases h' with
        | receiving hmore' => exact .receiving (hmore.trans hmore')
        | finishing => exact .finishing
    | finishing =>
        cases h'
        exact .finishing
    | finished => exact h'

theorem received_prefix {view later : View source} (h : view ≤ later) :
    view.received <+: later.received := by
  cases h with
  | waiting => exact List.nil_prefix
  | receiving hmore => exact hmore
  | @finishing piece received isPrefix => exact isPrefix
  | finished => exact List.prefix_refl _

end View

/-- What is offered, and the views of the receivers.  Every piece comes from an origin that offers
what it has. -/
@[ext]
structure Service (source : κ → List α) (ι : Type v) where
  offered : Set κ
  views : ι → View source
  origins : ∀ receiver piece, (views receiver).piece? = some piece → piece.origin ∈ offered

inductive Event (source : κ → List α) (ι : Type v) where
  | offer (more : Set κ)
  | begin (receiver : ι) (piece : Piece source)
  | receive (receiver : ι) (received : List α)
  | finish (receiver : ι)

namespace Service

def initial : Service source ι where
  offered := ∅
  views _ := .waiting
  origins _ _ h := by cases h

def offer (service : Service source ι) (more : Set κ) : Service source ι where
  offered := service.offered ∪ more
  views := service.views
  origins receiver piece h := Or.inl (service.origins receiver piece h)

variable [DecidableEq ι]

/-- A receiver has a new view. -/
def see (service : Service source ι) (receiver : ι) (view : View source)
    (h : ∀ piece, view.piece? = some piece → piece.origin ∈ service.offered) :
    Service source ι where
  offered := service.offered
  views := Function.update service.views receiver view
  origins other piece hpiece := by
    by_cases hother : other = receiver
    · subst hother
      rw [Function.update_self] at hpiece
      exact h piece hpiece
    · rw [Function.update_of_ne hother] at hpiece
      exact service.origins other piece hpiece

section See

variable {service : Service source ι} {receiver : ι} {view : View source}
  {h : ∀ piece, view.piece? = some piece → piece.origin ∈ service.offered}

@[simp]
theorem offered_see : (service.see receiver view h).offered = service.offered := rfl

@[simp]
theorem views_see_self : (service.see receiver view h).views receiver = view :=
  Function.update_self ..

@[simp]
theorem views_see_of_ne {other : ι} (hother : other ≠ receiver) :
    (service.see receiver view h).views other = service.views other :=
  Function.update_of_ne hother _ _

/-- Only the last one of two views that a receiver has counts. -/
theorem see_see {later : View source}
    {h' : ∀ piece, later.piece? = some piece → piece.origin ∈ service.offered} :
    (service.see receiver view h).see receiver later h' = service.see receiver later h' :=
  Service.ext rfl (Function.update_idem ..)

end See

open Classical in
/-- One step, where it is possible. -/
noncomputable def step (service : Service source ι) : Event source ι → Option (Service source ι)
  | .offer more => some (service.offer more)
  | .begin receiver piece =>
      if h : service.views receiver = .waiting ∧ piece.origin ∈ service.offered then
        some (service.see receiver (.receiving piece [] List.nil_prefix) fun other hother ↦
          Option.some.inj hother ▸ h.2)
      else none
  | .receive receiver received =>
      match hview : service.views receiver with
      | .receiving piece old _ =>
          if h : old <+: received ∧ received <+: piece.data then
            some (service.see receiver (.receiving piece received h.2) fun other hother ↦
              Option.some.inj hother ▸ service.origins receiver piece (by rw [hview]; rfl))
          else none
      | _ => none
  | .finish receiver =>
      match hview : service.views receiver with
      | .receiving piece received _ =>
          if received = piece.data then
            some (service.see receiver (.finished piece) fun other hother ↦
              Option.some.inj hother ▸ service.origins receiver piece (by rw [hview]; rfl))
          else none
      | _ => none

/-! ## The order of services -/

omit [DecidableEq ι] in
instance : Preorder (Service source ι) where
  le service later := service.offered ⊆ later.offered ∧
    ∀ receiver, service.views receiver ≤ later.views receiver
  le_refl _ := ⟨Set.Subset.rfl, fun _ ↦ le_rfl⟩
  le_trans _ _ _ h h' := ⟨h.1.trans h'.1, fun receiver ↦ (h.2 receiver).trans (h'.2 receiver)⟩

variable {service next : Service source ι} {receiver : ι} {view : View source}

theorem le_see (hview : service.views receiver ≤ view)
    (h : ∀ piece, view.piece? = some piece → piece.origin ∈ service.offered) :
    service ≤ service.see receiver view h := by
  refine ⟨Set.Subset.rfl, fun other ↦ ?_⟩
  by_cases hother : other = receiver
  · subst hother
    rw [views_see_self]
    exact hview
  · rw [views_see_of_ne hother]

/-- A step takes nothing back. -/
theorem le_step {event : Event source ι} (hstep : service.step event = some next) :
    service ≤ next := by
  cases event with
  | offer more =>
      cases hstep
      exact ⟨Set.subset_union_left, fun _ ↦ le_rfl⟩
  | begin receiver piece =>
      simp only [step] at hstep
      split at hstep
      · rename_i h
        cases hstep
        apply le_see
        rw [h.1]
        exact .waiting _
      · cases hstep
  | receive receiver received =>
      simp only [step] at hstep
      split at hstep
      · rename_i piece old isPrefix hview
        split at hstep
        · rename_i h
          cases hstep
          apply le_see
          rw [hview]
          exact .receiving h.1
        · cases hstep
      · cases hstep
  | finish receiver =>
      simp only [step] at hstep
      split at hstep
      · rename_i piece received isPrefix hview
        split at hstep
        · cases hstep
          apply le_see
          rw [hview]
          exact .finishing
        · cases hstep
      · cases hstep

/-- Nothing that happens in a service is taken back later. -/
theorem le_run {events : List (Event source ι)}
    (hrun : Transition.run step service events = some next) : service ≤ next :=
  Transition.run_invariant (motive := fun later ↦ service ≤ later)
    (fun _ _ _ _ hle hstep ↦ hle.trans (le_step hstep)) hrun (fun _ _ ↦ trivial) le_rfl

/-- A receiver that is at the end of its piece finishes. -/
theorem step_finish {piece : Piece source} {isPrefix : piece.data <+: piece.data}
    (hview : service.views receiver = .receiving piece piece.data isPrefix)
    (h : ∀ other, (View.finished piece).piece? = some other → other.origin ∈ service.offered) :
    service.step (.finish receiver) = some (service.see receiver (.finished piece) h) := by
  simp only [step]
  split
  · rename_i same received isPrefix' hsame
    rw [hview] at hsame
    cases hsame
    rw [if_pos rfl]
  · rename_i hother
    exact absurd hview (hother _ _ _)

theorem step_receive {piece : Piece source} {old received : List α} {isPrefix : old <+: piece.data}
    (hview : service.views receiver = .receiving piece old isPrefix) (hold : old <+: received)
    (hreceived : received <+: piece.data)
    (h : ∀ other, (View.receiving piece received hreceived).piece? = some other →
      other.origin ∈ service.offered) :
    service.step (.receive receiver received) =
      some (service.see receiver (.receiving piece received hreceived) h) := by
  simp only [step]
  split
  · rename_i same same' isPrefix' hsame
    rw [hview] at hsame
    cases hsame
    rw [dif_pos ⟨hold, hreceived⟩]
  · rename_i hother
    exact absurd hview (hother _ _ _)

theorem exists_run_of_receiving {piece : Piece source} {old : List α}
    {isPrefix : old <+: piece.data}
    (hview : service.views receiver = .receiving piece old isPrefix)
    (hle : View.receiving piece old isPrefix ≤ view)
    (h : ∀ piece, view.piece? = some piece → piece.origin ∈ service.offered) :
    ∃ events, Transition.run step service events = some (service.see receiver view h) := by
  cases hle with
  | @receiving _ _ more _ isPrefix' hmore =>
      exact ⟨[.receive receiver more],
        Transition.run_singleton.trans (step_receive hview hmore isPrefix' h)⟩
  | finishing =>
      have hreceived : ∀ other,
          (View.receiving piece piece.data (List.prefix_refl _)).piece? = some other →
            other.origin ∈ service.offered := h
      refine ⟨[.receive receiver piece.data, .finish receiver], ?_⟩
      rw [Transition.run_cons_of_step (step_receive hview isPrefix _ hreceived),
        Transition.run_singleton, step_finish views_see_self h, see_see]

variable (service) in
/-- The service can bring a receiver to any later view of a piece that is offered. -/
theorem exists_run_of_le (hle : service.views receiver ≤ view)
    (h : ∀ piece, view.piece? = some piece → piece.origin ∈ service.offered) :
    ∃ events, Transition.run step service events = some (service.see receiver view h) := by
  have hstay (hview : service.views receiver = view) :
      ∃ events, Transition.run step service events = some (service.see receiver view h) := by
    refine ⟨[], congrArg some (Service.ext rfl ?_)⟩
    exact (Function.update_eq_self_iff.mpr hview.symm).symm
  have hbegin {piece : Piece source} (hview : service.views receiver = .waiting)
      (horigin : piece.origin ∈ service.offered)
      (hlater : View.receiving piece [] List.nil_prefix ≤ view) :
      ∃ events, Transition.run step service events = some (service.see receiver view h) := by
    have hstep : service.step (.begin receiver piece) = some (service.see receiver
        (.receiving piece [] List.nil_prefix) fun other hother ↦
          Option.some.inj hother ▸ horigin) := dif_pos ⟨hview, horigin⟩
    obtain ⟨events, hevents⟩ := exists_run_of_receiving views_see_self hlater h
    refine ⟨.begin receiver piece :: events, ?_⟩
    rw [Transition.run_cons_of_step hstep, hevents, see_see]
  generalize hview : service.views receiver = current at hle
  cases hle with
  | waiting =>
      cases view with
      | waiting => exact hstay hview
      | receiving piece received isPrefix =>
          exact hbegin hview (h piece rfl) (.receiving List.nil_prefix)
      | finished piece => exact hbegin hview (h piece rfl) .finishing
  | receiving hmore => exact exists_run_of_receiving hview (.receiving hmore) h
  | finishing => exact exists_run_of_receiving hview .finishing h
  | finished => exact hstay hview

end Service

end CCNxFileRepo.Foundations.Transfer
