/-
Rankings as stable sorts.  Two peers compare as their distances do, and a ranking
leaves peers of one identifier in the order in which they were given.  That
determines it, so any stable sort by distance makes the same ranking, and peers can
be left out before they are ranked or after.
-/
import Mathlib
import Kademlia.Proofs.Merging

namespace Kademlia

/-- The peers at a distance from a target, in the order given. -/
def atDistance (target : NodeId) (distance : Distance) (handles : List Handle) :
    List Handle :=
  handles.filter fun handle => handle.id.distance target = distance

/-- A list holds the given peers by distance, and those that are equally far in the
order given. -/
structure StableRanking (target : NodeId)
    (handles ranked : List Handle) : Prop where
  ordered : ranked.Pairwise (AsClose target)
  stable : ∀ distance, atDistance target distance ranked =
    atDistance target distance handles

section Comparison

variable {target : NodeId} {first second : Handle}

theorem NodeId.distance_left_inj {a b : NodeId} :
    a.distance target = b.distance target ↔ a = b := by
  constructor
  · intro h
    exact toNat_distance_left_inj.mp (congrArg Distance.toNat h)
  · rintro rfl
    rfl

/-- Peers tie exactly if they have one identifier. -/
theorem compareFrom_eq_eq_iff :
    compareFrom target first second = .eq ↔ first.id = second.id := by
  rw [compareFrom_eq_compare, Nat.compare_eq_eq, NodeId.toNat_distance_left_inj]

instance : Std.TransCmp (compareFrom target) := by
  have hdistance : compareFrom target =
      compareOn fun handle => (handle.id.distance target).toNat := by
    funext first second
    exact compareFrom_eq_compare target first second
  rw [hdistance]
  infer_instance

end Comparison

section Distances

variable {target : NodeId} {handles others : List Handle} {distance : Distance}
variable {handle : Handle}

theorem mem_atDistance :
    handle ∈ atDistance target distance handles ↔
      handle ∈ handles ∧ handle.id.distance target = distance := by
  simp [atDistance]

theorem atDistance_cons_self (handle : Handle) (handles : List Handle) :
    atDistance target (handle.id.distance target) (handle :: handles) =
      handle :: atDistance target (handle.id.distance target) handles :=
  List.filter_cons_of_pos (by simp)

theorem atDistance_cons_of_ne (h : handle.id.distance target ≠ distance)
    (handles : List Handle) :
    atDistance target distance (handle :: handles) =
      atDistance target distance handles :=
  List.filter_cons_of_neg (by simpa using h)

theorem atDistance_pairwise_asClose (target : NodeId) (distance : Distance)
    (handles : List Handle) :
    (atDistance target distance handles).Pairwise (AsClose target) := by
  apply List.pairwise_of_forall_mem_list
  intro first hfirst second hsecond
  have hequal : first.id.distance target = second.id.distance target :=
    (mem_atDistance.mp hfirst).2.trans (mem_atDistance.mp hsecond).2.symm
  exact Nat.le_of_eq (congrArg Distance.toNat hequal)

theorem perm_of_atDistance_eq
    (h : ∀ distance,
      atDistance target distance handles = atDistance target distance others) :
    handles.Perm others := by
  rw [List.perm_iff_count]
  intro handle
  have hsame := congrArg (List.count handle) (h (handle.id.distance target))
  rwa [atDistance, atDistance, List.count_filter (by simp),
    List.count_filter (by simp)] at hsame

/-- Ordered lists that agree on the peers at each distance are the same.  The first
peers of both are at the least distance there is, so they head what both have at
that distance. -/
theorem eq_of_atDistance_eq (hhandles : handles.Pairwise (AsClose target))
    (hothers : others.Pairwise (AsClose target))
    (h : ∀ distance,
      atDistance target distance handles = atDistance target distance others) :
    handles = others := by
  induction handles generalizing others with
  | nil => exact (perm_of_atDistance_eq h).nil_eq
  | cons a as ih =>
      have hperm := perm_of_atDistance_eq h
      cases others with
      | nil => exact hperm.eq_nil
      | cons b bs =>
          rw [List.pairwise_cons] at hhandles hothers
          have hab : AsClose target a b := by
            rcases List.mem_cons.mp (hperm.mem_iff.mpr List.mem_cons_self)
              with rfl | hmem
            · exact Nat.le_refl _
            · exact hhandles.1 b hmem
          have hba : AsClose target b a := by
            rcases List.mem_cons.mp (hperm.mem_iff.mp List.mem_cons_self)
              with rfl | hmem
            · exact Nat.le_refl _
            · exact hothers.1 a hmem
          have hid : a.id = b.id :=
            NodeId.toNat_distance_left_inj.mp (Nat.le_antisymm hab hba)
          obtain rfl : a = b := by
            have hheads := h (b.id.distance target)
            rw [atDistance_cons_self, ← hid, atDistance_cons_self] at hheads
            exact (List.cons.inj hheads).1
          congr 1
          apply ih hhandles.2 hothers.2
          intro distance
          by_cases hdistance : a.id.distance target = distance
          · subst hdistance
            have hsame := h (a.id.distance target)
            rw [atDistance_cons_self, atDistance_cons_self] at hsame
            exact (List.cons.inj hsame).2
          · have hsame := h distance
            rwa [atDistance_cons_of_ne hdistance,
              atDistance_cons_of_ne hdistance] at hsame

end Distances

namespace StableRanking

variable {target : NodeId} {handles ranked other : List Handle}

theorem perm (h : StableRanking target handles ranked) : ranked.Perm handles :=
  perm_of_atDistance_eq h.stable

theorem unique (h : StableRanking target handles ranked)
    (hother : StableRanking target handles other) : ranked = other :=
  eq_of_atDistance_eq h.ordered hother.ordered fun distance =>
    (h.stable distance).trans (hother.stable distance).symm

/-- To leave out peers of some kind spoils neither the order nor its stability. -/
theorem filter (h : StableRanking target handles ranked) (kind : Handle → Bool) :
    StableRanking target (handles.filter kind) (ranked.filter kind) := by
  constructor
  · exact h.ordered.filter kind
  · intro distance
    have hsame := h.stable distance
    rw [atDistance, atDistance] at hsame ⊢
    rw [List.filter_comm, hsame, List.filter_comm]

/-- A sort is stable if it keeps every part that is in order already. -/
theorem of_sublist (hperm : ranked.Perm handles)
    (hordered : ranked.Pairwise (AsClose target))
    (hkept : ∀ part : List Handle, part.Pairwise (AsClose target) →
      part.Sublist handles → part.Sublist ranked) :
    StableRanking target handles ranked := by
  refine ⟨hordered, ?_⟩
  intro distance
  have hpart : (atDistance target distance handles).Sublist ranked :=
    hkept _ (atDistance_pairwise_asClose target distance handles)
      List.filter_sublist
  have hall : atDistance target distance (atDistance target distance handles) =
      atDistance target distance handles :=
    List.filter_eq_self.mpr fun handle hmem => (List.mem_filter.mp hmem).2
  have hsub : (atDistance target distance handles).Sublist
      (atDistance target distance ranked) := by
    rw [← hall]
    exact hpart.filter _
  exact (hsub.eq_of_length (hperm.filter _).length_eq.symm).symm

end StableRanking

section Stability

theorem stableRanking_rankByDistance (target : NodeId) (handles : List Handle) :
    StableRanking target handles (rankByDistance target handles) := by
  apply StableRanking.of_sublist (rankByDistance_perm target handles)
    (rankByDistance_pairwise_asClose target handles)
  intro part hpart hsub
  rw [rankByDistance_eq_insertionSort]
  exact List.sublist_insertionSort hpart hsub

theorem stableRanking_mergeSort (target : NodeId) (handles : List Handle) :
    StableRanking target handles
      (handles.mergeSort fun first second =>
        decide (AsClose target first second)) := by
  apply StableRanking.of_sublist (List.mergeSort_perm _ _)
    (List.pairwise_mergeSort' (AsClose target) handles)
  intro part hpart hsub
  apply List.sublist_mergeSort _ _ _ hsub
  · simpa using fun first second third => trans_of (AsClose target)
  · simpa using total_of (AsClose target)
  · simpa using hpart

theorem filter_id_rankByDistance (target id : NodeId) (handles : List Handle) :
    (rankByDistance target handles).filter (·.id = id) =
      handles.filter (·.id = id) := by
  have hstable :=
    (stableRanking_rankByDistance target handles).stable (id.distance target)
  simpa only [atDistance, NodeId.distance_left_inj] using hstable

/-- Peers that may not be handed out can be left out before the others are ranked or
after. -/
theorem candidates_rankByDistance (roster : Roster) (target : NodeId)
    (handles : List Handle) :
    candidates roster (rankByDistance target handles) =
      rankByDistance target (candidates roster handles) :=
  ((stableRanking_rankByDistance target handles).filter _).unique
    (stableRanking_rankByDistance target _)

end Stability

/-- Peers compare by distance, and only those of one identifier tie.  The ranking of
a list is its only stable sort by distance, to rank it again changes nothing, and
the closest candidates are the first verified live peers in it. -/
theorem ranking_is_stable_sort (target : NodeId) (handles : List Handle) :
    let ranked := rankByDistance target handles
    Std.TransCmp (compareFrom target) ∧
    (∀ first second : Handle, compareFrom target first second =
      compare (first.id.distance target) (second.id.distance target)) ∧
    (∀ first second : Handle,
      compareFrom target first second = .eq ↔ first.id = second.id) ∧
    ranked.Perm handles ∧
    ranked.Pairwise (AsClose target) ∧
    (∀ id, ranked.filter (·.id = id) = handles.filter (·.id = id)) ∧
    (∀ other, StableRanking target handles other ↔ other = ranked) ∧
    (handles.mergeSort fun first second => decide (AsClose target first second)) =
      ranked ∧
    rankByDistance target ranked = ranked ∧
    ∀ roster max, closestCandidates roster target max handles =
      (ranked.filter fun handle =>
        (roster handle.slot).verified && (roster handle.slot).alive).take max := by
  intro ranked
  have hranked : StableRanking target handles ranked :=
    stableRanking_rankByDistance target handles
  refine ⟨inferInstance, compareFrom_eq_compare target,
    fun _ _ => compareFrom_eq_eq_iff,
    hranked.perm, hranked.ordered,
    fun id => filter_id_rankByDistance target id handles,
    ?_, ?_, rankByDistance_of_ranked hranked.ordered, ?_⟩
  · intro other
    constructor
    · intro hother
      exact hother.unique hranked
    · rintro rfl
      exact hranked
  · exact (stableRanking_mergeSort target handles).unique hranked
  · intro roster max
    rw [closestCandidates, ← candidates_rankByDistance]
    rfl

/-- Two handles of one identifier stay as they are while a closer peer moves before
them. -/
example :
    rankByDistance (.ofNat 0) [.sampleAt 0 4 1, .sampleAt 1 4 2, .sampleAt 2 1 3] =
      [.sampleAt 2 1 3, .sampleAt 0 4 1, .sampleAt 1 4 2] := by
  decide

end Kademlia
