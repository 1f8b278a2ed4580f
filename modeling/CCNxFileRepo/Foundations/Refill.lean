import Mathlib.Data.List.Basic
import Mathlib.Data.List.Flatten
import Mathlib.Tactic

/-!
# Refilling bounded buffers from a queue

Items are taken from a queue one after the other, and some of them carry a payload.  A refill
puts payloads into a buffer as long as there is room and the next one fits.  A payload that does
not fit is held back, and the next refill starts with it.

The conservation law says that what is put, held and still to come is what there was before.  A
refill with some room that does not drain the queue takes something away, so enough of them drain
it.  With room for the largest payload it also puts bytes, all but for less than such a payload.
-/

namespace CCNxFileRepo.Foundations

universe u v

/-- The outcome of one refill: what was put, what is held back, which items were taken from the
queue and which are left.  `done` says that the queue was found empty. -/
structure Refill (α : Type u) (γ : Type v) where
  done : Bool
  put : List (List γ)
  held : Option (List γ)
  taken : List α
  rest : List α
  deriving DecidableEq

namespace Refill

variable {α : Type u} {γ : Type v}

/-- The outcome with an item taken and its payload put in front. -/
def prepend (item : α) (payload : List (List γ)) (refill : Refill α γ) : Refill α γ :=
  { refill with
    put := payload ++ refill.put
    taken := item :: refill.taken }

/-- Put payloads until the room is used up, the next payload does not fit or the queue is empty,
which is looked at in this order. -/
def pour (payload : α → Option (List γ)) : List α → ℕ → Refill α γ
  | queue, 0 => ⟨false, [], none, [], queue⟩
  | [], _ + 1 => ⟨true, [], none, [], []⟩
  | item :: queue, room + 1 =>
      match payload item with
      | none => (pour payload queue (room + 1)).prepend item []
      | some bytes =>
          if bytes.length ≤ room + 1 then
            (pour payload queue (room + 1 - bytes.length)).prepend item [bytes]
          else ⟨false, [], some bytes, [item], queue⟩

/-- Put what is held, then pour. -/
def refill (payload : α → Option (List γ)) (held : Option (List γ)) (queue : List α)
    (room : ℕ) : Refill α γ :=
  match held with
  | none => pour payload queue room
  | some bytes =>
      let poured := pour payload queue (room - bytes.length)
      { poured with put := bytes :: poured.put }

/-- One refill for each room, each going on where the last one stopped. -/
def refills (payload : α → Option (List γ)) :
    Option (List γ) → List α → List ℕ → List (Refill α γ)
  | _, _, [] => []
  | held, queue, room :: rooms =>
      let first := refill payload held queue room
      first :: refills payload first.held first.rest rooms

variable {payload : α → Option (List γ)}

@[simp]
theorem pour_zero (queue : List α) :
    pour payload queue 0 = ⟨false, [], none, [], queue⟩ := by
  cases queue <;> rfl

theorem pour_nil {room : ℕ} (hroom : 0 < room) :
    pour payload [] room = ⟨true, [], none, [], []⟩ := by
  cases room with
  | zero => exact absurd hroom (lt_irrefl 0)
  | succ room => rfl

theorem pour_cons_none {item : α} (hitem : payload item = none) (queue : List α) {room : ℕ}
    (hroom : 0 < room) :
    pour payload (item :: queue) room = (pour payload queue room).prepend item [] := by
  cases room with
  | zero => exact absurd hroom (lt_irrefl 0)
  | succ room => simp only [pour, hitem]

theorem pour_cons_fits {item : α} {bytes : List γ} (hitem : payload item = some bytes)
    (queue : List α) {room : ℕ} (hroom : 0 < room) (hfits : bytes.length ≤ room) :
    pour payload (item :: queue) room =
      (pour payload queue (room - bytes.length)).prepend item [bytes] := by
  cases room with
  | zero => exact absurd hroom (lt_irrefl 0)
  | succ room => simp only [pour, hitem, hfits, if_true]

theorem pour_cons_held {item : α} {bytes : List γ} (hitem : payload item = some bytes)
    (queue : List α) {room : ℕ} (hroom : 0 < room) (hfits : ¬ bytes.length ≤ room) :
    pour payload (item :: queue) room = ⟨false, [], some bytes, [item], queue⟩ := by
  cases room with
  | zero => exact absurd hroom (lt_irrefl 0)
  | succ room => simp only [pour, hitem, hfits, if_false]

/-- What every pour guarantees, as a relation between queue, room and outcome. -/
structure Lawful (payload : α → Option (List γ)) (queue : List α) (room : ℕ)
    (poured : Refill α γ) : Prop where
  queue_eq : poured.taken ++ poured.rest = queue
  conserved : poured.taken.filterMap payload = poured.put ++ poured.held.toList
  drained : poured.done = true → poured.held = none ∧ poured.rest = []
  advanced : poured.held.isSome ∨ 0 < room → poured.done = false → poured.taken ≠ []

theorem Lawful.prepend {queue : List α} {room left : ℕ} {poured : Refill α γ} {item : α}
    {bytes : Option (List γ)} (h : Lawful payload queue left poured)
    (hitem : payload item = bytes) :
    Lawful payload (item :: queue) room (poured.prepend item bytes.toList) where
  queue_eq := congrArg (item :: ·) h.queue_eq
  conserved := by
    subst hitem
    have := h.conserved
    cases hpayload : payload item <;> simp_all [Refill.prepend]
  drained := h.drained
  advanced _ _ := List.cons_ne_nil _ _

variable (payload) in
theorem lawful_pour (queue : List α) (room : ℕ) :
    Lawful payload queue room (pour payload queue room) := by
  induction queue generalizing room with
  | nil =>
      cases room <;> constructor <;> simp [pour]
  | cons item queue ih =>
      rcases Nat.eq_zero_or_pos room with rfl | hroom
      · constructor <;> simp
      cases hitem : payload item with
      | none =>
          rw [pour_cons_none hitem queue hroom]
          exact (ih room).prepend hitem
      | some bytes =>
          by_cases hfits : bytes.length ≤ room
          · rw [pour_cons_fits hitem queue hroom hfits]
            exact (ih _).prepend hitem
          · rw [pour_cons_held hitem queue hroom hfits]
            constructor <;> simp [hitem]

/-! ## The conservation law -/

/-- The payloads held or still to come. -/
def pending (payload : α → Option (List γ)) (held : Option (List γ)) (queue : List α) :
    List (List γ) :=
  held.toList ++ queue.filterMap payload

@[simp]
theorem pending_none (payload : α → Option (List γ)) (queue : List α) :
    pending payload none queue = queue.filterMap payload := rfl

/-- How much there is left to do; an item counts twice, as its payload may be held back once. -/
def weight (held : Option (List γ)) (queue : List α) : ℕ := 2 * queue.length + held.toList.length

theorem Lawful.conserves {queue : List α} {room : ℕ} {poured : Refill α γ}
    (h : Lawful payload queue room poured) :
    poured.put ++ pending payload poured.held poured.rest = queue.filterMap payload := by
  calc
    poured.put ++ pending payload poured.held poured.rest =
        (poured.put ++ poured.held.toList) ++ poured.rest.filterMap payload := by
      rw [pending, List.append_assoc]
    _ = (poured.taken ++ poured.rest).filterMap payload := by
      rw [List.filterMap_append, h.conserved]
    _ = queue.filterMap payload := by rw [h.queue_eq]

variable (payload) in
theorem taken_append_rest (held : Option (List γ)) (queue : List α) (room : ℕ) :
    (refill payload held queue room).taken ++ (refill payload held queue room).rest = queue := by
  cases held with
  | none => exact (lawful_pour payload queue room).queue_eq
  | some bytes => exact (lawful_pour payload queue (room - bytes.length)).queue_eq

variable (payload) in
/-- Nothing is lost, repeated or reordered. -/
theorem put_append_pending (held : Option (List γ)) (queue : List α) (room : ℕ) :
    (refill payload held queue room).put ++ pending payload (refill payload held queue room).held
      (refill payload held queue room).rest = pending payload held queue := by
  cases held with
  | none => exact (lawful_pour payload queue room).conserves
  | some bytes =>
      have hpour := (lawful_pour payload queue (room - bytes.length)).conserves
      exact congrArg (bytes :: ·) hpour

theorem drained_of_done {held : Option (List γ)} {queue : List α} {room : ℕ}
    (h : (refill payload held queue room).done = true) :
    (refill payload held queue room).held = none ∧ (refill payload held queue room).rest = [] := by
  cases held with
  | none => exact (lawful_pour payload queue room).drained h
  | some bytes => exact (lawful_pour payload queue (room - bytes.length)).drained h

/-- A refill of any room that does not drain the queue takes something away. -/
theorem weight_lt {held : Option (List γ)} {queue : List α} {room : ℕ} (hroom : 0 < room)
    (hdone : (refill payload held queue room).done = false) :
    weight (refill payload held queue room).held (refill payload held queue room).rest <
      weight held queue := by
  have hcount : ∀ {poured : Refill α γ} {room : ℕ}, Lawful payload queue room poured →
      poured.taken ≠ [] → weight poured.held poured.rest < 2 * queue.length := by
    intro poured room hlawful htaken
    have hlength := congrArg List.length hlawful.queue_eq
    have hpos := List.length_pos_of_ne_nil htaken
    have hheld : poured.held.toList.length ≤ 1 := by cases poured.held <;> simp
    rw [List.length_append] at hlength
    unfold weight
    omega
  cases held with
  | none =>
      have hlawful := lawful_pour payload queue room
      exact hcount hlawful (hlawful.advanced (Or.inr hroom) hdone)
  | some bytes =>
      have hlawful := lawful_pour payload queue (room - bytes.length)
      by_cases htaken : (pour payload queue (room - bytes.length)).taken = []
      · have hheld : (pour payload queue (room - bytes.length)).held = none := by
          by_contra hheld
          exact hlawful.advanced (Or.inl (Option.isSome_iff_ne_none.mpr hheld)) hdone htaken
        have hrest : (pour payload queue (room - bytes.length)).rest = queue := by
          simpa [htaken] using hlawful.queue_eq
        simp [weight, refill, hheld, hrest]
      · apply (hcount hlawful htaken).trans
        simp [weight]

/-! ## Progress -/

/-- A pour that does not find the queue empty leaves less room than the largest payload needs. -/
theorem lt_put_add_of_pour {queue : List α} {room bound : ℕ} (hbound : 0 < bound)
    (hfits : ∀ bytes ∈ queue.filterMap payload, bytes.length ≤ bound)
    (hdone : (pour payload queue room).done = false) :
    room < (pour payload queue room).put.flatten.length + bound := by
  induction queue generalizing room with
  | nil =>
      rcases Nat.eq_zero_or_pos room with rfl | hroom
      · exact Nat.lt_add_left _ hbound
      · rw [pour_nil hroom] at hdone
        cases hdone
  | cons item queue ih =>
      rcases Nat.eq_zero_or_pos room with rfl | hroom
      · exact Nat.lt_add_left _ hbound
      cases hitem : payload item with
      | none =>
          rw [List.filterMap_cons_none hitem] at hfits
          rw [pour_cons_none hitem queue hroom] at hdone ⊢
          exact ih hfits hdone
      | some bytes =>
          rw [List.filterMap_cons_some hitem, List.forall_mem_cons] at hfits
          by_cases hsmall : bytes.length ≤ room
          · rw [pour_cons_fits hitem queue hroom hsmall] at hdone ⊢
            have hleft := ih hfits.2 hdone
            simp only [prepend, List.singleton_append, List.flatten_cons, List.length_append]
            omega
          · rw [pour_cons_held hitem queue hroom hsmall]
            have hlarge := hfits.1
            simp only [List.flatten_nil, List.length_nil]
            omega

theorem lt_put_add {held : Option (List γ)} {queue : List α} {room bound : ℕ}
    (hbound : 0 < bound) (hroom : bound ≤ room)
    (hfits : ∀ bytes ∈ pending payload held queue, bytes.length ≤ bound)
    (hdone : (refill payload held queue room).done = false) :
    room < (refill payload held queue room).put.flatten.length + bound := by
  cases held with
  | none => exact lt_put_add_of_pour hbound hfits hdone
  | some bytes =>
      obtain ⟨hheld, hqueue⟩ := List.forall_mem_cons.mp hfits
      have hleft := lt_put_add_of_pour hbound hqueue hdone
      simp only [refill, List.flatten_cons, List.length_append]
      omega

theorem refill_empty {room : ℕ} (hroom : 0 < room) :
    refill payload none [] room = ⟨true, [], none, [], []⟩ :=
  pour_nil hroom

/-! ## Runs -/

/-- After every refill of a run, what was put so far and what is pending make up the whole. -/
theorem flatMap_put_append_pending {held : Option (List γ)} {queue : List α} {rooms : List ℕ}
    {earlier later : List (Refill α γ)} {current : Refill α γ}
    (h : refills payload held queue rooms = earlier ++ current :: later) :
    (earlier ++ [current]).flatMap put ++ pending payload current.held current.rest =
      pending payload held queue := by
  induction rooms generalizing held queue earlier with
  | nil => simp [refills] at h
  | cons room rooms ih =>
      rw [← put_append_pending payload held queue room]
      cases earlier with
      | nil =>
          obtain ⟨rfl, -⟩ := List.cons.inj h
          simp
      | cons first earlier =>
          obtain ⟨rfl, hlater⟩ := List.cons.inj h
          rw [← ih hlater]
          simp

/-- After every refill of a run, the items taken so far and those left make up the queue. -/
theorem flatMap_taken_append_rest {held : Option (List γ)} {queue : List α} {rooms : List ℕ}
    {earlier later : List (Refill α γ)} {current : Refill α γ}
    (h : refills payload held queue rooms = earlier ++ current :: later) :
    (earlier ++ [current]).flatMap taken ++ current.rest = queue := by
  induction rooms generalizing held queue earlier with
  | nil => simp [refills] at h
  | cons room rooms ih =>
      rw [← taken_append_rest payload held queue room]
      cases earlier with
      | nil =>
          obtain ⟨rfl, -⟩ := List.cons.inj h
          simp
      | cons first earlier =>
          obtain ⟨rfl, hlater⟩ := List.cons.inj h
          rw [← ih hlater]
          simp

theorem drained_of_mem_refills {held : Option (List γ)} {queue : List α} {rooms : List ℕ}
    {current : Refill α γ} (h : current ∈ refills payload held queue rooms)
    (hdone : current.done = true) : current.held = none ∧ current.rest = [] := by
  induction rooms generalizing held queue with
  | nil => cases h
  | cons room rooms ih =>
      rcases List.mem_cons.mp h with rfl | h
      · exact drained_of_done hdone
      · exact ih h

/-- In a run with room for the largest payload, every refill that does not find the queue empty
makes progress. -/
theorem forall₂_lt_put_add {held : Option (List γ)} {queue : List α} {rooms : List ℕ} {bound : ℕ}
    (hbound : 0 < bound) (hrooms : ∀ room ∈ rooms, bound ≤ room)
    (hfits : ∀ bytes ∈ pending payload held queue, bytes.length ≤ bound) :
    List.Forall₂ (fun room refill ↦ refill.done = false → room < refill.put.flatten.length + bound)
      rooms (refills payload held queue rooms) := by
  induction rooms generalizing held queue with
  | nil => exact .nil
  | cons room rooms ih =>
      obtain ⟨hroom, hrooms⟩ := List.forall_mem_cons.mp hrooms
      have hconserved := put_append_pending payload held queue room
      exact .cons (lt_put_add hbound hroom hfits) (ih hrooms fun bytes hbytes ↦
        hfits bytes (hconserved ▸ List.mem_append_right _ hbytes))

/-- A run that finds the queue empty has put everything there was. -/
theorem flatMap_put_of_done {held : Option (List γ)} {queue : List α} {rooms : List ℕ}
    {earlier later : List (Refill α γ)} {current : Refill α γ}
    (h : refills payload held queue rooms = earlier ++ current :: later)
    (hdone : current.done = true) :
    (earlier ++ [current]).flatMap put = pending payload held queue := by
  obtain ⟨hheld, hrest⟩ := drained_of_mem_refills (h ▸ List.mem_append_cons_self) hdone
  simpa [hheld, hrest, pending] using flatMap_put_append_pending h

theorem refills_empty {rooms : List ℕ} (hrooms : ∀ room ∈ rooms, 0 < room) :
    ∀ next ∈ refills payload none [] rooms, next.done = true ∧ next.put = [] := by
  induction rooms with
  | nil => simp [refills]
  | cons room rooms ih =>
      intro next hnext
      rw [refills, refill_empty (hrooms room (List.mem_cons_self ..))] at hnext
      rcases List.mem_cons.mp hnext with rfl | hnext
      · exact ⟨rfl, rfl⟩
      · exact ih (fun room hroom ↦ hrooms room (List.mem_cons_of_mem _ hroom)) next hnext

/-- Once the queue was found empty, every later refill finds it empty and puts nothing. -/
theorem done_of_done {held : Option (List γ)} {queue : List α} {rooms : List ℕ}
    (hrooms : ∀ room ∈ rooms, 0 < room) {earlier later : List (Refill α γ)}
    {current : Refill α γ} (h : refills payload held queue rooms = earlier ++ current :: later)
    (hdone : current.done = true) : ∀ next ∈ later, next.done = true ∧ next.put = [] := by
  induction rooms generalizing held queue earlier with
  | nil => simp [refills] at h
  | cons room rooms ih =>
      have hlaterRooms : ∀ room ∈ rooms, 0 < room :=
        fun room hroom ↦ hrooms room (List.mem_cons_of_mem _ hroom)
      cases earlier with
      | nil =>
          obtain ⟨rfl, rfl⟩ := List.cons.inj h
          obtain ⟨hheld, hrest⟩ := drained_of_done hdone
          rw [hheld, hrest]
          exact refills_empty hlaterRooms
      | cons first earlier =>
          obtain ⟨-, hlater⟩ := List.cons.inj h
          exact ih hlaterRooms hlater

variable (payload) in
/-- Enough refills with some room each drain the queue. -/
theorem exists_done {held : Option (List γ)} {queue : List α} {rooms : List ℕ}
    (hrooms : ∀ room ∈ rooms, 0 < room) (hcount : weight held queue < rooms.length) :
    ∃ current ∈ refills payload held queue rooms, current.done = true := by
  induction rooms generalizing held queue with
  | nil => exact absurd hcount (Nat.not_lt_zero _)
  | cons room rooms ih =>
      cases hdone : (refill payload held queue room).done with
      | true => exact ⟨_, List.mem_cons_self .., hdone⟩
      | false =>
          have hweight := weight_lt (hrooms room (List.mem_cons_self ..)) hdone
          rw [List.length_cons] at hcount
          have hfewer : weight (refill payload held queue room).held
              (refill payload held queue room).rest < rooms.length := by omega
          obtain ⟨current, hcurrent, hresult⟩ :=
            ih (fun room hroom ↦ hrooms room (List.mem_cons_of_mem _ hroom)) hfewer
          exact ⟨current, List.mem_cons_of_mem _ hcurrent, hresult⟩

end Refill

end CCNxFileRepo.Foundations
