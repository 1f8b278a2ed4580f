import Mathlib.Data.List.Basic
import Mathlib.Data.List.Flatten
import Mathlib.Tactic

/-!
# Finite unfoldings of a work list

A work list holds items that are resolved from the front: an item stands for a leaf value or for
a list of further items, which take its place.  `Unfolding expand items` is a witness that the
resolution of `items` under `expand` ends; as it is data, traversals are functions on it.

`leaves` and `preorder` are what a depth-first resolution delivers and asks for.  `visits` is the
same traversal when a schedule decides for every request in turn whether it is answered: an item
whose request fails is dropped together with everything below it.
-/

namespace CCNxFileRepo.Foundations

universe u v

/-- What an item of a work list stands for. -/
inductive Expansion (α : Type u) (β : Type v) where
  | leaf (value : β)
  | node (children : List α)
  deriving DecidableEq

variable {α : Type u} {β : Type v} {expand : α → Option (Expansion α β)}

/-- A finite resolution of a work list, first item first. -/
inductive Unfolding (expand : α → Option (Expansion α β)) : List α → Type (max u v) where
  | nil : Unfolding expand []
  | leaf {item : α} {items : List α} (value : β) (resolves : expand item = some (.leaf value))
      (rest : Unfolding expand items) : Unfolding expand (item :: items)
  | node {item : α} {items : List α} (children : List α)
      (resolves : expand item = some (.node children))
      (below : Unfolding expand children) (rest : Unfolding expand items) :
      Unfolding expand (item :: items)

/-- One request of a traversal and what came of it. -/
inductive Visit (α : Type u) (β : Type v) where
  | leaf (item : α) (value : β)
  | node (item : α)
  | dropped (item : α) (lost : List β)

namespace Visit

def item : Visit α β → α
  | leaf item _ => item
  | node item => item
  | dropped item _ => item

/-- The leaf value the request brought. -/
def delivered : Visit α β → Option β
  | leaf _ value => some value
  | node _ => none
  | dropped _ _ => none

/-- The leaf values that the failure of the request put out of reach. -/
def lost : Visit α β → List β
  | leaf _ _ => []
  | node _ => []
  | dropped _ lost => lost

end Visit

namespace Unfolding

/-- The leaf values in depth-first order. -/
def leaves : {items : List α} → Unfolding expand items → List β
  | _, nil => []
  | _, leaf value _ rest => value :: rest.leaves
  | _, node _ _ below rest => below.leaves ++ rest.leaves

/-- Every item met, each before the items it stands for. -/
def preorder : {items : List α} → Unfolding expand items → List α
  | _, nil => []
  | _, @leaf _ _ _ item _ _ _ rest => item :: rest.preorder
  | _, @node _ _ _ item _ _ _ below rest => item :: (below.preorder ++ rest.preorder)

def append : {first second : List α} →
    Unfolding expand first → Unfolding expand second → Unfolding expand (first ++ second)
  | _, _, nil, other => other
  | _, _, leaf value resolves rest, other => leaf value resolves (rest.append other)
  | _, _, node children resolves below rest, other =>
      node children resolves below (rest.append other)

def head {item : α} {items : List α} :
    Unfolding expand (item :: items) → Unfolding expand [item]
  | leaf value resolves _ => leaf value resolves nil
  | node children resolves below _ => node children resolves below nil

def tail {item : α} {items : List α} : Unfolding expand (item :: items) → Unfolding expand items
  | leaf _ _ rest => rest
  | node _ _ _ rest => rest

/-- A schedule seen from its `count`-th request on. -/
def later (schedule : ℕ → Bool) (count : ℕ) : ℕ → Bool := fun index ↦ schedule (index + count)

/-- The requests of a depth-first resolution in which `schedule` says which are answered. -/
def visits : {items : List α} → Unfolding expand items → (ℕ → Bool) → List (Visit α β)
  | _, nil, _ => []
  | _, @leaf _ _ _ item _ value _ rest, schedule =>
      (if schedule 0 then .leaf item value else .dropped item [value]) ::
        rest.visits (later schedule 1)
  | _, @node _ _ _ item _ _ _ below rest, schedule =>
      if schedule 0 then
        .node item :: (below.visits (later schedule 1) ++
          rest.visits (later schedule ((below.visits (later schedule 1)).length + 1)))
      else
        .dropped item below.leaves :: rest.visits (later schedule 1)

@[simp]
theorem later_apply (schedule : ℕ → Bool) (count index : ℕ) :
    later schedule count index = schedule (index + count) := rfl

@[simp]
theorem later_zero (schedule : ℕ → Bool) : later schedule 0 = schedule := rfl

theorem later_later (schedule : ℕ → Bool) (first second : ℕ) :
    later (later schedule first) second = later schedule (second + first) := by
  funext index
  exact congrArg schedule (Nat.add_assoc index second first)

@[simp]
theorem later_const (answer : Bool) (count : ℕ) :
    later (fun _ ↦ answer) count = fun _ ↦ answer := rfl

/-- The second list is asked for with what the first has left of the schedule. -/
theorem visits_append {first second : List α} (t : Unfolding expand first)
    (other : Unfolding expand second) (schedule : ℕ → Bool) :
    (t.append other).visits schedule =
      t.visits schedule ++ other.visits (later schedule (t.visits schedule).length) := by
  induction t generalizing schedule with
  | nil => simp [append, visits]
  | leaf value resolves rest ih =>
      simp only [append, visits, ih, List.cons_append, List.length_cons, later_later]
  | node children resolves below rest _ ih =>
      simp only [append, visits]
      split
      · simp only [ih, List.cons_append, List.append_assoc, List.length_cons, List.length_append,
          later_later]
        rw [Nat.add_left_comm, ← Nat.add_assoc]
      · simp only [ih, List.cons_append, List.length_cons, later_later]

/-- When every request is answered the traversal asks for the preorder. -/
theorem map_item_visits {items : List α} (t : Unfolding expand items) :
    (t.visits fun _ ↦ true).map Visit.item = t.preorder := by
  induction t with
  | nil => rfl
  | leaf value resolves rest ih => simp [visits, preorder, Visit.item, ih]
  | node children resolves below rest ihBelow ih =>
      simp [visits, preorder, Visit.item, ihBelow, ih]

/-- When every request is answered the traversal delivers every leaf. -/
theorem filterMap_delivered_visits {items : List α} (t : Unfolding expand items) :
    (t.visits fun _ ↦ true).filterMap Visit.delivered = t.leaves := by
  induction t with
  | nil => rfl
  | leaf value resolves rest ih => simp [visits, leaves, Visit.delivered, ih]
  | node children resolves below rest ihBelow ih =>
      simp only [visits, if_true, later_const, leaves]
      rw [List.filterMap_cons_none rfl, List.filterMap_append, ihBelow, ih]

/-- What a schedule delivers is part of the leaves, in order. -/
theorem delivered_sublist_leaves {items : List α} (t : Unfolding expand items)
    (schedule : ℕ → Bool) :
    ((t.visits schedule).filterMap Visit.delivered).Sublist t.leaves := by
  induction t generalizing schedule with
  | nil => exact List.Sublist.refl _
  | leaf value resolves rest ih =>
      simp only [visits, leaves]
      split
      · exact (ih _).cons_cons value
      · exact (ih _).cons value
  | node children resolves below rest ihBelow ih =>
      simp only [visits, leaves]
      split
      · rw [List.filterMap_cons_none rfl, List.filterMap_append]
        exact (ihBelow _).append (ih _)
      · rw [List.filterMap_cons_none rfl]
        exact (ih _).trans (List.sublist_append_right _ _)

/-- Every leaf is either delivered or lost. -/
theorem delivered_append_lost_perm {items : List α} (t : Unfolding expand items)
    (schedule : ℕ → Bool) :
    ((t.visits schedule).filterMap Visit.delivered ++
      (t.visits schedule).flatMap Visit.lost).Perm t.leaves := by
  induction t generalizing schedule with
  | nil => exact List.Perm.refl _
  | leaf value resolves rest ih =>
      simp only [visits, leaves]
      split
      · exact (ih _).cons value
      · exact List.perm_middle.trans ((ih _).cons value)
  | node children resolves below rest ihBelow ih =>
      simp only [visits, leaves]
      split
      · rw [List.filterMap_cons_none rfl, List.filterMap_append]
        simp only [List.flatMap_cons, List.flatMap_append, Visit.lost, List.nil_append]
        apply List.Perm.trans _ ((ihBelow (later schedule 1)).append
          (ih (later schedule ((below.visits (later schedule 1)).length + 1))))
        simp only [List.append_assoc]
        apply List.Perm.append_left
        simp only [← List.append_assoc]
        apply List.Perm.append_right
        exact List.perm_append_comm
      · rw [List.filterMap_cons_none rfl]
        simp only [List.flatMap_cons, Visit.lost]
        apply List.Perm.trans _ ((ih (later schedule 1)).append_left below.leaves)
        simp only [← List.append_assoc]
        apply List.Perm.append_right
        exact List.perm_append_comm

/-- The leaves of a smaller resolution rule are those of a larger one. -/
def mono {wider : α → Option (Expansion α β)}
    (h : ∀ item expansion, expand item = some expansion → wider item = some expansion) :
    {items : List α} → Unfolding expand items → Unfolding wider items
  | _, nil => nil
  | _, leaf value resolves rest => leaf value (h _ _ resolves) (rest.mono h)
  | _, node children resolves below rest =>
      node children (h _ _ resolves) (below.mono h) (rest.mono h)

@[simp]
theorem leaves_mono {wider : α → Option (Expansion α β)}
    (h : ∀ item expansion, expand item = some expansion → wider item = some expansion)
    {items : List α} (t : Unfolding expand items) : (t.mono h).leaves = t.leaves := by
  induction t with
  | nil => rfl
  | leaf value resolves rest ih => simp [mono, leaves, ih]
  | node children resolves below rest ihBelow ih => simp [mono, leaves, ihBelow, ih]

@[simp]
theorem preorder_mono {wider : α → Option (Expansion α β)}
    (h : ∀ item expansion, expand item = some expansion → wider item = some expansion)
    {items : List α} (t : Unfolding expand items) : (t.mono h).preorder = t.preorder := by
  induction t with
  | nil => rfl
  | leaf value resolves rest ih => simp [mono, preorder, ih]
  | node children resolves below rest ihBelow ih => simp [mono, preorder, ihBelow, ih]

@[simp]
theorem visits_mono {wider : α → Option (Expansion α β)}
    (h : ∀ item expansion, expand item = some expansion → wider item = some expansion)
    {items : List α} (t : Unfolding expand items) (schedule : ℕ → Bool) :
    (t.mono h).visits schedule = t.visits schedule := by
  induction t generalizing schedule with
  | nil => rfl
  | leaf value resolves rest ih => simp only [mono, visits, ih]
  | node children resolves below rest ihBelow ih =>
      have hleaves := leaves_mono h below
      simp only [mono, visits, ihBelow, ih, hleaves]

/-- With byte strings for values, a schedule delivers all the data if and only if it loses nothing
but empty strings. -/
theorem flatten_delivered_eq_iff {γ : Type v} {expand : α → Option (Expansion α (List γ))}
    {items : List α} (t : Unfolding expand items) (schedule : ℕ → Bool) :
    ((t.visits schedule).filterMap Visit.delivered).flatten = t.leaves.flatten ↔
      ∀ visit ∈ t.visits schedule, ∀ bytes ∈ visit.lost, bytes = [] := by
  have hsublist := (t.delivered_sublist_leaves schedule).flatten
  have hlength := (t.delivered_append_lost_perm schedule).flatten.length_eq
  rw [List.flatten_append, List.length_append] at hlength
  calc ((t.visits schedule).filterMap Visit.delivered).flatten = t.leaves.flatten
      ↔ ((t.visits schedule).flatMap Visit.lost).flatten.length = 0 := by
        constructor
        · intro h
          rw [h] at hlength
          omega
        · intro h
          apply hsublist.eq_of_length
          omega
    _ ↔ ∀ visit ∈ t.visits schedule, ∀ bytes ∈ visit.lost, bytes = [] := by
        simp only [List.length_eq_zero_iff, List.flatten_eq_nil_iff, List.mem_flatMap]
        exact ⟨fun h visit hvisit bytes hbytes ↦ h bytes ⟨visit, hvisit, hbytes⟩,
          fun h bytes ⟨visit, hvisit, hbytes⟩ ↦ h visit hvisit bytes hbytes⟩

/-- There is only one way to resolve a list. -/
theorem leaves_eq_leaves {items : List α} (t s : Unfolding expand items) : t.leaves = s.leaves := by
  induction t with
  | nil =>
      cases s
      rfl
  | leaf value resolves rest ih =>
      cases s with
      | leaf other resolves' rest' =>
          obtain rfl : value = other := by simpa using resolves.symm.trans resolves'
          exact congrArg (value :: ·) (ih rest')
      | node _ resolves' _ _ => simp [resolves] at resolves'
  | node children resolves below rest ihBelow ih =>
      cases s with
      | leaf _ resolves' _ => simp [resolves] at resolves'
      | node other resolves' below' rest' =>
          obtain rfl : children = other := by simpa using resolves.symm.trans resolves'
          exact congrArg₂ (· ++ ·) (ihBelow below') (ih rest')

/-- A list with two resolutions has but one. -/
theorem eq_of_items {items : List α} (t s : Unfolding expand items) : t = s := by
  induction t with
  | nil =>
      cases s
      rfl
  | leaf value resolves rest ih =>
      cases s with
      | leaf other resolves' rest' =>
          obtain rfl : value = other := by simpa using resolves.symm.trans resolves'
          rw [ih rest']
      | node _ resolves' _ _ => simp [resolves] at resolves'
  | node children resolves below rest ihBelow ih =>
      cases s with
      | leaf _ resolves' _ => simp [resolves] at resolves'
      | node other resolves' below' rest' =>
          obtain rfl : children = other := by simpa using resolves.symm.trans resolves'
          rw [ihBelow below', ih rest']

/-- A failed request saves the requests below it, so a schedule asks for part of the preorder. -/
theorem map_item_visits_sublist {items : List α} (t : Unfolding expand items)
    (schedule : ℕ → Bool) : ((t.visits schedule).map Visit.item).Sublist t.preorder := by
  induction t generalizing schedule with
  | nil => exact List.Sublist.refl _
  | @leaf item _ value resolves rest ih =>
      simp only [visits, preorder, List.map_cons]
      split
      · exact (ih _).cons_cons item
      · exact (ih _).cons_cons item
  | @node item _ children resolves below rest ihBelow ih =>
      simp only [visits, preorder]
      split
      · rw [List.map_cons, List.map_append]
        exact ((ihBelow _).append (ih _)).cons_cons item
      · rw [List.map_cons]
        exact ((ih _).trans (List.sublist_append_right _ _)).cons_cons item

theorem length_visits_le {items : List α} (t : Unfolding expand items) (schedule : ℕ → Bool) :
    (t.visits schedule).length ≤ t.preorder.length := by
  simpa using (t.map_item_visits_sublist schedule).length_le

/-- What nodes hand down from the first items holds of every item met. -/
theorem forall_mem_preorder {P : α → Prop} {items : List α} (t : Unfolding expand items)
    (hitems : ∀ item ∈ items, P item)
    (hnode : ∀ item children, P item → expand item = some (.node children) →
      ∀ child ∈ children, P child) : ∀ item ∈ t.preorder, P item := by
  induction t with
  | nil => simp [preorder]
  | leaf value resolves rest ih =>
      obtain ⟨hitem, hrest⟩ := List.forall_mem_cons.mp hitems
      exact List.forall_mem_cons.mpr ⟨hitem, ih hrest⟩
  | node children resolves below rest ihBelow ih =>
      obtain ⟨hitem, hrest⟩ := List.forall_mem_cons.mp hitems
      have hchildren := hnode _ children hitem resolves
      exact List.forall_mem_cons.mpr
        ⟨hitem, List.forall_mem_append.mpr ⟨ihBelow hchildren, ih hrest⟩⟩

@[simp]
theorem preorder_eq_nil_iff {items : List α} (t : Unfolding expand items) :
    t.preorder = [] ↔ items = [] := by
  cases t <;> simp [preorder]

/-! ## Nesting -/

/-- How many nodes stand one below the other. -/
def height : {items : List α} → Unfolding expand items → ℕ
  | _, nil => 0
  | _, leaf _ _ rest => rest.height
  | _, node _ _ below rest => max (below.height + 1) rest.height

theorem height_head_le {item : α} {items : List α} (t : Unfolding expand (item :: items)) :
    t.head.height ≤ t.height := by
  cases t with
  | leaf value resolves rest => exact Nat.zero_le _
  | node children resolves below rest => exact max_le (le_max_left _ _) (Nat.zero_le _)

theorem height_tail_le {item : α} {items : List α} (t : Unfolding expand (item :: items)) :
    t.tail.height ≤ t.height := by
  cases t with
  | leaf value resolves rest => exact le_rfl
  | node children resolves below rest => exact le_max_right _ _

/-! ## Trimmed resolutions -/

/-- `narrow` resolves items as `wide` does, but leaves out the items `cut item` at the end of every
node. -/
structure Trims (narrow wide : α → Option (Expansion α β)) (cut : α → List α) : Prop where
  leaf : ∀ item value, wide item = some (.leaf value) →
    narrow item = some (.leaf value) ∧ cut item = []
  node : ∀ item children, wide item = some (.node children) →
    ∃ kept, narrow item = some (.node kept) ∧ children = kept ++ cut item

/-- A trimmed resolution of the first items visits part of what a resolution of all items visits.
It visits as much if and only if nothing was left out anywhere. -/
theorem Trims.exists_unfolding {narrow wide : α → Option (Expansion α β)} {cut : α → List α}
    (h : Trims narrow wide cut) {items : List α} (t : Unfolding wide items) :
    ∀ kept dropped, items = kept ++ dropped →
      ∃ s : Unfolding narrow kept, s.preorder.Sublist t.preorder ∧ s.leaves.Sublist t.leaves ∧
        (s.preorder.length = t.preorder.length ↔
          dropped = [] ∧ ∀ item ∈ t.preorder, cut item = []) := by
  have hnone : ∀ {items : List α} (t : Unfolding wide items),
      ∃ s : Unfolding narrow [], s.preorder.Sublist t.preorder ∧ s.leaves.Sublist t.leaves ∧
        (s.preorder.length = t.preorder.length ↔
          items = [] ∧ ∀ item ∈ t.preorder, cut item = []) := by
    intro items t
    refine ⟨.nil, List.nil_sublist _, List.nil_sublist _, ?_⟩
    rw [← preorder_eq_nil_iff t]
    simp only [preorder, List.length_nil]
    rw [eq_comm, List.length_eq_zero_iff]
    exact ⟨fun hnil ↦ ⟨hnil, by simp [hnil]⟩, And.left⟩
  induction t with
  | nil =>
      intro kept dropped hitems
      obtain ⟨rfl, rfl⟩ := List.append_eq_nil_iff.mp hitems.symm
      exact hnone .nil
  | @leaf item items value resolves rest ih =>
      rintro (_ | ⟨first, kept⟩) dropped hitems
      · obtain rfl : item :: items = dropped := hitems
        exact hnone (.leaf value resolves rest)
      · obtain ⟨rfl, hrest⟩ := List.cons.inj hitems
        obtain ⟨hleaf, hcut⟩ := h.leaf item value resolves
        obtain ⟨s, hpreorder, hleaves, hiff⟩ := ih kept dropped hrest
        exact ⟨.leaf value hleaf s, hpreorder.cons_cons item, hleaves.cons_cons value,
          by simpa [preorder, hcut] using hiff⟩
  | @node item items children resolves below rest ihBelow ih =>
      rintro (_ | ⟨first, kept⟩) dropped hitems
      · obtain rfl : item :: items = dropped := hitems
        exact hnone (.node children resolves below rest)
      · obtain ⟨rfl, hrest⟩ := List.cons.inj hitems
        obtain ⟨inner, hnode, hchildren⟩ := h.node item children resolves
        obtain ⟨sBelow, hpreorderBelow, hleavesBelow, hiffBelow⟩ :=
          ihBelow inner (cut item) hchildren
        obtain ⟨s, hpreorder, hleaves, hiff⟩ := ih kept dropped hrest
        refine ⟨.node inner hnode sBelow s, (hpreorderBelow.append hpreorder).cons_cons item,
          hleavesBelow.append hleaves, ?_⟩
        have hsum : (Unfolding.node inner hnode sBelow s).preorder.length =
            (Unfolding.node children resolves below rest).preorder.length ↔
              sBelow.preorder.length = below.preorder.length ∧
                s.preorder.length = rest.preorder.length := by
          have hlengthBelow := hpreorderBelow.length_le
          have hlength := hpreorder.length_le
          simp only [preorder, List.length_cons, List.length_append]
          omega
        rw [hsum, hiffBelow, hiff]
        simp only [preorder, List.mem_cons, List.mem_append, or_imp, forall_and, forall_eq]
        constructor
        · rintro ⟨⟨hcut, hbelow⟩, hdropped, hall⟩
          exact ⟨hdropped, hcut, hbelow, hall⟩
        · rintro ⟨hdropped, hcut, hbelow, hall⟩
          exact ⟨⟨hcut, hbelow⟩, hdropped, hall⟩

end Unfolding

end CCNxFileRepo.Foundations
