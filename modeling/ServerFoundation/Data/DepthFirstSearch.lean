import Mathlib.Data.Finset.Card
import Mathlib.Logic.Relation

/-!
# Depth-first search with a shared list of visited nodes

A search that follows the successors of a node in order, stops at the first node
with a result and never visits a node twice. `visit` is the search as it is
usually written, with the visited nodes threaded through the loop over the
successors; `walk` lists the nodes in the order in which the search would visit
them if nothing had a result.

The depth of the recursion is bounded by fuel. As soon as there is more fuel than
unvisited nodes, the fuel makes no difference and the walk reaches every node
that can be reached at all.
-/

namespace ServerFoundation.DepthFirst

universe u v

variable {Node : Type u} {Result : Type v}

/-- Visit nodes one after another until one of the visits has a result. -/
def visitAll (visit : List Node → Node → List Node × Option Result) :
    List Node → List Node → List Node × Option Result
  | seen, [] => (seen, none)
  | seen, node :: rest =>
      match visit seen node with
      | (seen, some result) => (seen, some result)
      | (seen, none) => visitAll visit seen rest

/-- Walk from nodes one after another. -/
def walkAll (walk : List Node → Node → List Node) : List Node → List Node → List Node
  | _, [] => []
  | seen, node :: rest => walk seen node ++ walkAll walk ((walk seen node).reverse ++ seen) rest

variable [DecidableEq Node] (successors : Node → List Node) (hit : Node → Option Result)

/-- The nodes visited so far, and the first result. -/
def visit : ℕ → List Node → Node → List Node × Option Result
  | 0, seen, _ => (seen, none)
  | fuel + 1, seen, node =>
      if node ∈ seen then (seen, none)
      else
        match hit node with
        | some result => (node :: seen, some result)
        | none => visitAll (visit fuel) (node :: seen) (successors node)

/-- The nodes in the order in which a search without results visits them. -/
def walk : ℕ → List Node → Node → List Node
  | 0, _, _ => []
  | fuel + 1, seen, node =>
      if node ∈ seen then [] else node :: walkAll (walk fuel) (node :: seen) (successors node)

section Order

variable {successors}

/-- What the result of a visit and its visited nodes have to do with a walk. -/
def Follows (visited : List Node × Option Result) (walked seen : List Node) : Prop :=
  visited.2 = walked.findSome? hit ∧
    (walked.findSome? hit = none → visited.1 = walked.reverse ++ seen)

omit [DecidableEq Node] in
theorem visitAll_follows {visit : List Node → Node → List Node × Option Result}
    {walk : List Node → Node → List Node}
    (follows : ∀ seen node, Follows hit (visit seen node) (walk seen node) seen)
    (nodes seen : List Node) :
    Follows hit (visitAll visit seen nodes) (walkAll walk seen nodes) seen := by
  induction nodes generalizing seen with
  | nil => exact ⟨rfl, fun _ => rfl⟩
  | cons node rest ih =>
      rcases follows seen node with ⟨sameResult, sameSeen⟩
      simp only [visitAll, walkAll, Follows, List.findSome?_append]
      cases found : (walk seen node).findSome? hit with
      | some result =>
          rw [found] at sameResult
          rcases visited : visit seen node with ⟨after, outcome⟩
          rw [visited] at sameResult
          subst sameResult
          simp
      | none =>
          rw [found] at sameResult
          have after := sameSeen found
          rcases visited : visit seen node with ⟨reached, outcome⟩
          rw [visited] at sameResult after
          subst sameResult after
          rcases ih ((walk seen node).reverse ++ seen) with ⟨laterResult, laterSeen⟩
          refine ⟨by simpa using laterResult, fun none => ?_⟩
          rw [laterSeen (by simpa using none)]
          simp

theorem visit_follows (fuel : ℕ) (seen : List Node) (node : Node) :
    Follows hit (visit successors hit fuel seen node) (walk successors fuel seen node)
      seen := by
  induction fuel generalizing seen node with
  | zero => exact ⟨rfl, fun _ => rfl⟩
  | succ fuel ih =>
      simp only [visit, walk]
      split_ifs
      · exact ⟨rfl, fun _ => rfl⟩
      · cases found : hit node with
        | some result => simp [Follows, found]
        | none =>
            rcases visitAll_follows hit ih (successors node) (node :: seen) with
              ⟨sameResult, sameSeen⟩
            simp only [Follows, List.findSome?_cons, found]
            refine ⟨sameResult, fun none => ?_⟩
            rw [sameSeen none]
            simp

end Order

section Reach

variable {successors} {graph : Finset Node}

/-- The number of nodes that have not been visited. -/
def unseen (graph : Finset Node) (seen : List Node) : ℕ := (graph \ seen.toFinset).card

theorem unseen_le {seen later : List Node} (subset : seen ⊆ later) :
    unseen graph later ≤ unseen graph seen := by
  apply Finset.card_le_card
  apply Finset.sdiff_subset_sdiff (Finset.Subset.refl _)
  intro node mem
  rw [List.mem_toFinset] at mem ⊢
  exact subset mem

theorem unseen_cons_lt {seen : List Node} {node : Node} (mem : node ∈ graph)
    (isNew : node ∉ seen) : unseen graph (node :: seen) < unseen graph seen := by
  apply Finset.card_lt_card
  rw [Finset.ssubset_iff_of_subset (Finset.sdiff_subset_sdiff (Finset.Subset.refl _) (by simp))]
  exact ⟨node, by simp [mem, isNew], by simp⟩

variable (closed : ∀ node ∈ graph, ∀ next ∈ successors node, next ∈ graph)
include closed

theorem walk_fuel (fuel other : ℕ) {seen : List Node} {node : Node} (mem : node ∈ graph)
    (enough : unseen graph seen < fuel) (alsoEnough : unseen graph seen < other) :
    walk successors fuel seen node = walk successors other seen node := by
  induction fuel generalizing other seen node with
  | zero => omega
  | succ fuel ih =>
      cases other with
      | zero => omega
      | succ other =>
          simp only [walk]
          split_ifs with visited
          · rfl
          · have fewer := unseen_cons_lt mem visited
            congr 1
            have all : ∀ nodes : List Node, (∀ next ∈ nodes, next ∈ graph) →
                ∀ later : List Node, node :: seen ⊆ later →
                walkAll (walk successors fuel) later nodes =
                  walkAll (walk successors other) later nodes := by
              intro nodes
              induction nodes with
              | nil => intros; rfl
              | cons next rest restIh =>
                  intro among later grown
                  have bound := @unseen_le _ _ graph _ _ grown
                  have same := ih other (among next List.mem_cons_self)
                    (show unseen graph later < fuel by omega) (by omega)
                  simp only [walkAll, same]
                  congr 1
                  apply restIh (fun other mem => among other (List.mem_cons_of_mem _ mem))
                  exact List.subset_append_of_subset_right _ grown
            exact all _ (closed node mem) _ (List.Subset.refl _)

theorem walk_closed (fuel : ℕ) {seen : List Node} {node : Node} (mem : node ∈ graph)
    (enough : unseen graph seen < fuel) :
    node ∈ seen ++ walk successors fuel seen node ∧
      ∀ visited ∈ walk successors fuel seen node, ∀ next ∈ successors visited,
        next ∈ seen ++ walk successors fuel seen node := by
  induction fuel generalizing seen node with
  | zero => omega
  | succ fuel ih =>
      simp only [walk]
      split_ifs with visited
      · simp [visited]
      · have fewer := unseen_cons_lt mem visited
        have all : ∀ nodes : List Node, (∀ next ∈ nodes, next ∈ graph) →
            ∀ later : List Node, node :: seen ⊆ later →
            (∀ next ∈ nodes, next ∈ later ++ walkAll (walk successors fuel) later nodes) ∧
              ∀ visited ∈ walkAll (walk successors fuel) later nodes,
                ∀ next ∈ successors visited,
                  next ∈ later ++ walkAll (walk successors fuel) later nodes := by
          intro nodes
          induction nodes with
          | nil => simp [walkAll]
          | cons first rest restIh =>
              intro among later grown
              have bound := @unseen_le _ _ graph _ _ grown
              rcases ih (among first List.mem_cons_self)
                (show unseen graph later < fuel by omega) with ⟨reached, followed⟩
              rcases restIh (fun other mem => among other (List.mem_cons_of_mem _ mem))
                ((walk successors fuel later first).reverse ++ later)
                (List.subset_append_of_subset_right _ grown) with ⟨restReached, restFollowed⟩
              simp only [walkAll, List.mem_append, List.mem_reverse] at *
              have regroup : ∀ {visited before rest : Prop}, (visited ∨ before) ∨ rest →
                  before ∨ visited ∨ rest := fun either => by rwa [or_left_comm, ← or_assoc]
              constructor
              · intro next isNext
                rcases List.mem_cons.mp isNext with rfl | inRest
                · exact reached.imp_right Or.inl
                · exact regroup (restReached next inRest)
              · rintro other (inFirst | inRest) next isNext
                · exact (followed other inFirst next isNext).imp_right Or.inl
                · exact regroup (restFollowed other inRest next isNext)
        rcases all (successors node) (closed node mem) (node :: seen) (List.Subset.refl _) with
          ⟨reached, followed⟩
        simp only [List.cons_append, List.mem_cons, List.mem_append] at *
        refine ⟨by tauto, ?_⟩
        rintro other (rfl | inWalk) next isNext
        · have := reached next isNext
          tauto
        · have := followed other inWalk next isNext
          tauto

theorem mem_walk_of_reachable (fuel : ℕ) {start node : Node} (mem : start ∈ graph)
    (enough : graph.card < fuel)
    (reachable : Relation.ReflTransGen (fun before after => after ∈ successors before) start node) :
    node ∈ walk successors fuel [] start := by
  have enoughUnseen : unseen graph [] < fuel := by simpa [unseen] using enough
  rcases walk_closed closed fuel mem enoughUnseen with ⟨reached, followed⟩
  induction reachable with
  | refl => simpa using reached
  | tail _ edge ih => simpa using followed _ ih _ edge

end Reach

end ServerFoundation.DepthFirst
