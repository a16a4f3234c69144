import Mathlib.Logic.Relation
import Pare.Tree.Basic
import Pare.Proofs.Outcome

/-!
**Walking down a tree.**

A walk replaces the node on top of a stack by its parts and stops when its fuel is used up.  In a
tree whose parts have greater numbers than the whole, the fuel that is computed beforehand is
exactly what the walk needs, so the walk has a result: the node itself and then, part by part, what
is below each of them.  Nothing else is asked of the tree: a part that several nodes list is visited
once for each way to it, and what the nodes say of their parents does not matter.

Main definitions:

* `Pare.Tree.Ranked` — parts are nodes of the tree and have greater numbers than the whole;
* `Pare.Tree.preorder` — a node and all below it, down to a depth;
* `Pare.Tree.Unfolds` — lists of nodes by the plain recursion over parts;
* `Pare.Tree.IsBelow` — a node that is reached from another one by going from whole to part.

Main results:

* `Pare.Tree.Ranked.preorder_eq` — at full depth, `preorder` is the plain recursion over parts;
* `Pare.Tree.Unfolds.eq_preorder` — there is no other solution of this recursion;
* `Pare.Tree.Ranked.mem_preorder_iff` — it lists the nodes that are below;
* `Pare.Tree.Ranked.walkStack_eq` — a walk takes one step for each visit, and no fewer;
* `Pare.Tree.Ranked.descendants_eq_ok` — the walk has a result, and it is this recursion;
* `Pare.Tree.Ranked.lt_size_of_mem_preorder` — it visits nodes of the tree only;
* `Pare.Tree.Ranked.descendants_recurse` — **a walk is the recursion over parts**.
-/

set_option relaxedAutoImplicit false
set_option autoImplicit false

namespace Pare

namespace Tree

/-! ### Ranked trees -/

/-- Parts are nodes of the tree and have greater numbers than the whole. -/
def Ranked (t : Tree) : Prop :=
  ∀ (id part : Nat), part ∈ t.parts id → id < part ∧ part < t.size

/-- A node and all below it, down to a depth. -/
def preorder (t : Tree) : Nat → NodeId → List NodeId
  | 0, id => [id]
  | depth + 1, id => id :: (t.parts id).flatMap (t.preorder depth)

/-- The lists of the nodes solve the plain recursion: a node, and then the lists of its parts. -/
def Unfolds (t : Tree) (lists : NodeId → List NodeId) : Prop :=
  ∀ id < t.size, lists id = id :: (t.parts id).flatMap lists

/-- The second node is the first one, or is reached from it by going from whole to part. -/
def IsBelow (t : Tree) : NodeId → NodeId → Prop :=
  Relation.ReflTransGen fun whole part => part ∈ t.parts whole

/-- The fuel of a walk is the number of nodes it visits. -/
theorem visits_eq_length (t : Tree) (depth : Nat) (id : NodeId) :
    t.visits depth id = (t.preorder depth id).length := by
  induction depth generalizing id with
  | zero => rfl
  | succ depth ih =>
      have hfold : ∀ (parts : List NodeId) (count : Nat),
          parts.foldl (fun count part => count + t.visits depth part) count =
            count + (parts.flatMap (t.preorder depth)).length := by
        intro parts
        induction parts with
        | nil => simp
        | cons part parts ihp =>
            intro count
            rw [List.foldl_cons, ihp, ih, List.flatMap_cons, List.length_append, Nat.add_assoc]
      rw [visits, hfold, preorder, List.length_cons, Nat.add_comm]

theorem kind_eq_ok {t : Tree} {id : NodeId} {n : Node} (h : t.nodes[id]? = some n) :
    t.kind id = .ok n.kind := by
  rw [kind, node_of_getElem? h]
  rfl

theorem span_eq_ok {t : Tree} {id : NodeId} {n : Node} (h : t.nodes[id]? = some n) :
    t.span id = .ok n.span := by
  rw [span, node_of_getElem? h]
  rfl

theorem parent_eq_ok {t : Tree} {id : NodeId} {n : Node} (h : t.nodes[id]? = some n) :
    t.parent id = .ok n.parent := by
  rw [parent, node_of_getElem? h]
  rfl

theorem parts_eq {t : Tree} {id : NodeId} {n : Node} (h : t.nodes[id]? = some n) :
    t.parts id = n.kind.children := by
  simp only [parts, h]

theorem exists_node {t : Tree} {id : NodeId} (h : id < t.size) : ∃ n, t.nodes[id]? = some n :=
  ⟨_, Array.getElem?_eq_getElem h⟩

theorem lt_size {t : Tree} {id : NodeId} {n : Node} (h : t.nodes[id]? = some n) : id < t.size :=
  (Array.getElem?_eq_some_iff.1 h).1

/-- What holds of every place of the array holds of every node. -/
theorem forall_nodes_iff {t : Tree} {P : Nat → Node → Prop} :
    (∀ i : Fin t.nodes.size, P i t.nodes[i]) ↔
      ∀ (id : NodeId) (n : Node), t.nodes[id]? = some n → P id n := by
  constructor
  · intro h id n hn
    obtain ⟨hlt, rfl⟩ := Array.getElem?_eq_some_iff.1 hn
    exact h ⟨id, hlt⟩
  · intro h i
    exact h i _ (Array.getElem?_eq_getElem i.isLt)

instance instDecidableNodes {t : Tree} {P : NodeId → Node → Prop} [∀ id n, Decidable (P id n)] :
    Decidable (∀ (id : NodeId) (node : Node), t.nodes[id]? = some node → P id node) :=
  decidable_of_iff _ forall_nodes_iff

/-- To be ranked is a matter of the nodes that are there. -/
theorem ranked_iff {t : Tree} : t.Ranked ↔ ∀ (id : NodeId) (n : Node), t.nodes[id]? = some n →
    ∀ part ∈ n.kind.children, id < part ∧ part < t.size := by
  constructor
  · intro h id n hn part hpart
    exact h id part (by rwa [parts_eq hn])
  · intro h id part hpart
    unfold parts at hpart
    split at hpart
    · rename_i n hn
      exact h id n hn part hpart
    · simp at hpart

instance (t : Tree) : Decidable t.Ranked := decidable_of_iff _ ranked_iff.symm

/-- A walk visits the node on top of its stack and goes on with the parts in its place. -/
theorem walkStack_cons {t : Tree} {id : NodeId} (hid : id < t.size) (fuel : Nat)
    (stack : List NodeId) : t.walkStack (fuel + 1) (id :: stack) =
      (t.walkStack fuel (t.parts id ++ stack)).map (id :: ·) := by
  obtain ⟨n, hn⟩ := exists_node hid
  rw [walkStack, kind_eq_ok hn, parts_eq hn]
  rfl

namespace Ranked

variable {t : Tree}

/-- The last node has no parts. -/
theorem parts_eq_nil (h : t.Ranked) {id : Nat} (hid : t.size ≤ id + 1) : t.parts id = [] := by
  refine List.eq_nil_iff_forall_not_mem.2 fun part hpart => ?_
  have := h id part hpart
  omega

/-- Below a node there are at most as many levels as there are greater numbers. -/
theorem preorder_succ (h : t.Ranked) {depth id : Nat} (hid : t.size ≤ id + 1 + depth) :
    t.preorder (depth + 1) id = t.preorder depth id := by
  induction depth generalizing id with
  | zero => simp [preorder, h.parts_eq_nil hid]
  | succ depth ih =>
      rw [preorder, preorder]
      have hparts : ∀ part ∈ t.parts id, t.preorder (depth + 1) part = t.preorder depth part := by
        intro part hpart
        have := h id part hpart
        exact ih (by omega)
      rw [List.flatMap_def, List.flatMap_def, List.map_congr_left hparts]

/-- At full depth, `preorder` is the plain recursion over parts. -/
theorem preorder_eq (h : t.Ranked) (id : NodeId) :
    t.preorder t.size id = id :: (t.parts id).flatMap (t.preorder t.size) := by
  have hdeep : t.size ≤ id + 1 + t.size := Nat.le_add_left ..
  rw [← h.preorder_succ hdeep, preorder]

/-- A walk visits nodes of the tree only. -/
theorem lt_size_of_mem_preorder (h : t.Ranked) {depth : Nat} {start id : NodeId}
    (hstart : start < t.size) (hid : id ∈ t.preorder depth start) : id < t.size := by
  induction depth generalizing start with
  | zero =>
      obtain rfl := List.mem_singleton.1 hid
      exact hstart
  | succ depth ih =>
      rcases List.mem_cons.1 hid with rfl | hid
      · exact hstart
      · obtain ⟨part, hpart, hid⟩ := List.mem_flatMap.1 hid
        exact ih (h start part hpart).2 hid

/-- What a walk visits are the nodes below its start. -/
theorem mem_preorder_iff (h : t.Ranked) {start id : NodeId} :
    id ∈ t.preorder t.size start ↔ t.IsBelow start id := by
  constructor
  · generalize t.size = depth
    intro hid
    induction depth generalizing start with
    | zero =>
        obtain rfl := List.mem_singleton.1 hid
        exact .refl
    | succ depth ih =>
        rcases List.mem_cons.1 hid with rfl | hid
        · exact .refl
        · obtain ⟨part, hpart, hid⟩ := List.mem_flatMap.1 hid
          exact .head hpart (ih hid)
  · intro hbelow
    induction hbelow using Relation.ReflTransGen.head_induction_on with
    | refl =>
        rw [h.preorder_eq]
        exact List.mem_cons_self ..
    | @head whole part hpart _ ih =>
        rw [h.preorder_eq]
        exact List.mem_cons_of_mem whole (List.mem_flatMap.2 ⟨part, hpart, ih⟩)

/-- A walk visits what is on its stack, each node with all below it.  It takes one step for each
visit, and is cut off if there is fuel for fewer. -/
theorem walkStack_eq (h : t.Ranked) (fuel : Nat) {stack : List NodeId}
    (hstack : ∀ id ∈ stack, id < t.size) : t.walkStack fuel stack =
      if (stack.flatMap (t.preorder t.size)).length ≤ fuel then
        .ok (stack.flatMap (t.preorder t.size))
      else .error .endless := by
  induction fuel generalizing stack with
  | zero =>
      cases stack with
      | nil => rfl
      | cons id stack =>
          rw [List.flatMap_cons, h.preorder_eq, if_neg (by simp)]
          rfl
  | succ fuel ih =>
      cases stack with
      | nil => rfl
      | cons id stack =>
          -- the top is visited and its parts take its place, so one visit less is left
          have hnext : (id :: stack).flatMap (t.preorder t.size) =
              id :: (t.parts id ++ stack).flatMap (t.preorder t.size) := by
            rw [List.flatMap_cons, h.preorder_eq, List.flatMap_append, List.cons_append]
          have hin : ∀ other ∈ t.parts id ++ stack, other < t.size := by
            intro other hother
            rcases List.mem_append.1 hother with hother | hother
            · exact (h id other hother).2
            · exact hstack other (List.mem_cons_of_mem id hother)
          rw [walkStack_cons (hstack id (List.mem_cons_self ..)), ih hin, hnext, List.length_cons]
          by_cases hfuel : ((t.parts id ++ stack).flatMap (t.preorder t.size)).length ≤ fuel
          · rw [if_pos hfuel, if_pos (Nat.succ_le_succ hfuel)]
            rfl
          · rw [if_neg hfuel, if_neg fun hle => hfuel (Nat.le_of_succ_le_succ hle)]
            rfl

/-- The fuel that is computed beforehand is enough for a walk. -/
theorem descendants_eq_ok (h : t.Ranked) {start : NodeId} (hstart : start < t.size) :
    t.descendants start = .ok (t.preorder t.size start) := by
  have hone : [start].flatMap (t.preorder t.size) = t.preorder t.size start := by simp
  rw [descendants, h.walkStack_eq _ (by simpa using hstart), hone,
    if_pos (Nat.le_of_eq (visits_eq_length ..).symm)]

/-- At full depth, the plain recursion over parts is solved. -/
theorem unfolds_preorder (h : t.Ranked) : t.Unfolds (t.preorder t.size) :=
  fun id _ => h.preorder_eq id

end Ranked

/-- The plain recursion over parts has one solution. -/
theorem Unfolds.eq_preorder {t : Tree} {lists : NodeId → List NodeId} (hlists : t.Unfolds lists)
    (h : t.Ranked) {depth id : Nat} (hin : id < t.size) (hid : t.size ≤ id + 1 + depth) :
    lists id = t.preorder depth id := by
  induction depth generalizing id with
  | zero => simp [hlists id hin, preorder, h.parts_eq_nil hid]
  | succ depth ih =>
      have hparts : ∀ part ∈ t.parts id, lists part = t.preorder depth part := by
        intro part hpart
        obtain ⟨hlt, hlt'⟩ := h id part hpart
        exact ih hlt' (by omega)
      rw [hlists id hin, preorder, List.flatMap_def, List.flatMap_def, List.map_congr_left hparts]

/-- **A walk is the recursion over parts.**  In a ranked tree there are lists that solve the
recursion: each node, and then the lists of its parts.  Whatever lists solve it, a walk from a node
of the tree ends and has visited the list of this node, in one step for each visit: with fuel for
fewer steps it is cut off, and more fuel changes nothing. -/
theorem Ranked.descendants_recurse {t : Tree} (h : t.Ranked) :
    (∃ lists, t.Unfolds lists) ∧ ∀ lists, t.Unfolds lists → ∀ start < t.size,
      t.descendants start = .ok (lists start) ∧
        ∀ fuel, t.walkStack fuel [start] =
          if (lists start).length ≤ fuel then .ok (lists start) else .error .endless := by
  refine ⟨⟨_, h.unfolds_preorder⟩, fun lists hlists start hstart => ?_⟩
  have hone : [start].flatMap (t.preorder t.size) = lists start := by
    rw [List.flatMap_singleton, hlists.eq_preorder h hstart (Nat.le_add_left ..)]
  refine ⟨?_, fun fuel => ?_⟩
  · rw [h.descendants_eq_ok hstart, ← hone, List.flatMap_singleton]
  · rw [h.walkStack_eq fuel (by simpa using hstart), hone]

/-- A node that is listed twice, one that two others list and that names none of them as its parent,
and one that no other lists. -/
def sharedParts : Tree where
  nodes := #[
    ⟨.program [1], .upTo 0 3, none⟩,
    ⟨.sequence [2, 2, 3], .upTo 0 3, some 0⟩,
    ⟨.unary "-" 3, .upTo 0 2, some 1⟩,
    ⟨.identifier "a", .upTo 1 2, some 0⟩,
    ⟨.emptyStatement, .upTo 2 3, none⟩]

/-- Shared nodes are visited once for each way to them, and seven visits take seven steps. -/
theorem Ranked.descendants_recurse_shared : sharedParts.Ranked ∧
    sharedParts.descendants root = .ok [0, 1, 2, 3, 2, 3, 3] ∧
    sharedParts.walkStack 7 [root] = .ok [0, 1, 2, 3, 2, 3, 3] ∧
    sharedParts.walkStack 6 [root] = .error .endless := by
  have hranked : sharedParts.Ranked := by decide
  obtain ⟨⟨lists, hlists⟩, hall⟩ := hranked.descendants_recurse
  have hleaf : lists 3 = [3] := hlists 3 (by decide)
  have hunary : lists 2 = [2, 3] := by
    rw [hlists 2 (by decide)]
    simp [parts, sharedParts, Kind.children, hleaf]
  have hsequence : lists 1 = [1, 2, 3, 2, 3, 3] := by
    rw [hlists 1 (by decide)]
    simp [parts, sharedParts, Kind.children, hleaf, hunary]
  have hroot : lists root = [0, 1, 2, 3, 2, 3, 3] := by
    rw [hlists root (by decide)]
    simp [parts, root, sharedParts, Kind.children, hsequence]
  obtain ⟨hwalk, hfuel⟩ := hall lists hlists root (by decide)
  rw [hroot] at hwalk hfuel
  exact ⟨hranked, hwalk, hfuel 7, hfuel 6⟩

end Tree

end Pare
