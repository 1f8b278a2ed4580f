import CCNxFileRepo.Foundations.Unfolding

/-!
# Unfoldings whose nodes come last

Where a node only ever stands at the end of its list, nothing comes after what is below it.  A
depth-first resolution is then a walk along one list: it asks for the items in turn, and it ends at
the first node that fails to come, as all that would follow lies below this node.
-/

namespace CCNxFileRepo.Foundations.Unfolding

universe u v

variable {α : Type u} {β : Type v} {expand : α → Option (Expansion α β)}

/-- Every node stands at the end of its list. -/
def NodesLast : {items : List α} → Unfolding expand items → Prop
  | _, nil => True
  | _, leaf _ _ rest => rest.NodesLast
  | _, @node _ _ _ _ items _ _ below _ => items = [] ∧ below.NodesLast

/-- Behind the first item of a list the nodes come last too. -/
theorem NodesLast.exists_tail {item : α} {items : List α}
    {t : Unfolding expand (item :: items)} (h : t.NodesLast) :
    ∃ rest : Unfolding expand items, rest.NodesLast := by
  cases t with
  | leaf value resolves rest => exact ⟨rest, h⟩
  | node children resolves below rest =>
      obtain ⟨rfl, -⟩ := h
      exact ⟨.nil, trivial⟩

/-- Ask for the items of a list in turn, up to the first one that fails to come and is no leaf. -/
def walk (expand : α → Option (Expansion α β)) : List α → (ℕ → Bool) → List (α × Option β)
  | [], _ => []
  | item :: items, schedule =>
      match expand item with
      | some (.leaf value) =>
          (item, if schedule 0 then some value else none) :: walk expand items (later schedule 1)
      | _ => (item, none) :: if schedule 0 then walk expand items (later schedule 1) else []

theorem walk_cons_leaf {item : α} {value : β} (h : expand item = some (.leaf value))
    (items : List α) (schedule : ℕ → Bool) :
    walk expand (item :: items) schedule =
      (item, if schedule 0 then some value else none) ::
        walk expand items (later schedule 1) := by
  rw [walk, h]

theorem walk_cons_of_ne_leaf {item : α} (h : ∀ value, expand item ≠ some (.leaf value))
    (items : List α) (schedule : ℕ → Bool) :
    walk expand (item :: items) schedule =
      (item, none) :: if schedule 0 then walk expand items (later schedule 1) else [] := by
  rw [walk]
  split
  · rename_i value hleaf
    exact absurd hleaf (h value)
  · rfl

/-- A resolution with its nodes last is a walk. -/
theorem map_visits_eq_walk {items : List α} (t : Unfolding expand items) (h : t.NodesLast)
    (schedule : ℕ → Bool) :
    (t.visits schedule).map (fun visit ↦ (visit.item, visit.delivered)) =
      walk expand t.preorder schedule := by
  induction t generalizing schedule with
  | nil => rfl
  | leaf value resolves rest ih =>
      rw [visits, preorder, walk_cons_leaf resolves, List.map_cons, ih h]
      cases schedule 0 <;> rfl
  | @node item _ children resolves below rest ihBelow _ =>
      obtain ⟨rfl, hbelow⟩ := h
      cases rest
      have hnode : ∀ value, expand item ≠ some (.leaf value) := fun value ↦ by simp [resolves]
      rw [visits, preorder, preorder, List.append_nil, walk_cons_of_ne_leaf hnode,
        ← ihBelow hbelow]
      cases schedule 0 with
      | true => simp [visits, Visit.item, Visit.delivered]
      | false => rfl

end CCNxFileRepo.Foundations.Unfolding
