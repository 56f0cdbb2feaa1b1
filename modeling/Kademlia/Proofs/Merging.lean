/-
Rankings merged.  The ranking of two lists together is the merge of their rankings,
and a merge begins with what the beginnings of its parts merge to.  So whoever owns
several buckets can merge their answers and has the answer of all their members.
-/
import Mathlib
import Kademlia.Proofs.Ranking

namespace Kademlia

/-- Two rankings merged into one.  Of peers that are equally close, those of the
first ranking come first. -/
def mergeRanked (target : NodeId) (first second : List Handle) : List Handle :=
  first.merge second fun a b => decide (AsClose target a b)

section Merge

variable {target : NodeId} {a b : Handle} {as bs : List Handle}

@[simp] theorem mergeRanked_nil_left (target : NodeId) (bs : List Handle) :
    mergeRanked target [] bs = bs :=
  List.nil_merge bs

@[simp] theorem mergeRanked_nil_right (target : NodeId) (as : List Handle) :
    mergeRanked target as [] = as :=
  List.merge_right as

theorem mergeRanked_of_asClose (h : AsClose target a b) :
    mergeRanked target (a :: as) (b :: bs) = a :: mergeRanked target as (b :: bs) :=
  List.cons_merge_cons_pos _ _ _ (decide_eq_true h)

theorem mergeRanked_of_not_asClose (h : ¬ AsClose target a b) :
    mergeRanked target (a :: as) (b :: bs) = b :: mergeRanked target (a :: as) bs :=
  List.cons_merge_cons_neg _ _ _ (by simpa using h)

/-- A peer can be put in its place before two rankings are merged or after: it comes
behind those of both that are closer. -/
theorem orderedInsert_mergeRanked (handle : Handle) (as bs : List Handle) :
    (mergeRanked target as bs).orderedInsert (AsClose target) handle =
      mergeRanked target (as.orderedInsert (AsClose target) handle) bs := by
  induction bs generalizing as with
  | nil => simp
  | cons b bs ihb =>
      induction as with
      | nil =>
          by_cases hb : AsClose target handle b
          · simp [mergeRanked_of_asClose, hb]
          · have hrest := ihb []
            rw [mergeRanked_nil_left, List.orderedInsert_nil] at hrest ⊢
            rw [List.orderedInsert_of_not_le _ _ hb,
              mergeRanked_of_not_asClose hb, hrest]
      | cons a as iha =>
          by_cases hab : AsClose target a b
          · rw [mergeRanked_of_asClose hab]
            by_cases ha : AsClose target handle a
            · have hb : AsClose target handle b := Nat.le_trans ha hab
              rw [List.orderedInsert_cons_of_le _ _ ha,
                List.orderedInsert_cons_of_le _ _ ha, mergeRanked_of_asClose hb,
                mergeRanked_of_asClose hab]
            · rw [List.orderedInsert_of_not_le _ _ ha,
                List.orderedInsert_of_not_le _ _ ha,
                mergeRanked_of_asClose hab, iha]
          · rw [mergeRanked_of_not_asClose hab]
            have hba : AsClose target b a := Nat.le_of_not_le hab
            by_cases hb : AsClose target handle b
            · have ha : AsClose target handle a := Nat.le_trans hb hba
              rw [List.orderedInsert_cons_of_le _ _ hb,
                List.orderedInsert_cons_of_le _ _ ha, mergeRanked_of_asClose hb,
                mergeRanked_of_not_asClose hab]
            · have hrest := ihb (a :: as)
              rw [List.orderedInsert_of_not_le _ _ hb, hrest]
              by_cases ha : AsClose target handle a
              · rw [List.orderedInsert_cons_of_le _ _ ha,
                  mergeRanked_of_not_asClose hb]
              · rw [List.orderedInsert_of_not_le _ _ ha,
                  mergeRanked_of_not_asClose hab]

/-- A merge begins with what beginnings of its parts merge to, if they are as
long. -/
theorem take_mergeRanked {max m n : Nat} (hm : max ≤ m) (hn : max ≤ n)
    (as bs : List Handle) :
    (mergeRanked target (as.take m) (bs.take n)).take max =
      (mergeRanked target as bs).take max := by
  induction max generalizing m n as bs with
  | zero => simp
  | succ max ih =>
      cases as with
      | nil =>
          rw [List.take_nil, mergeRanked_nil_left, mergeRanked_nil_left,
            List.take_take, Nat.min_eq_left hn]
      | cons a as =>
          cases bs with
          | nil =>
              rw [List.take_nil, mergeRanked_nil_right, mergeRanked_nil_right,
                List.take_take, Nat.min_eq_left hm]
          | cons b bs =>
              obtain ⟨m, rfl⟩ := Nat.exists_eq_add_of_le' (Nat.le_of_add_left_le hm)
              obtain ⟨n, rfl⟩ := Nat.exists_eq_add_of_le' (Nat.le_of_add_left_le hn)
              have hm' : max ≤ m := Nat.le_of_succ_le_succ hm
              have hn' : max ≤ n := Nat.le_of_succ_le_succ hn
              rw [List.take_succ_cons, List.take_succ_cons]
              by_cases hab : AsClose target a b
              · have hrest := ih hm' (Nat.le_succ_of_le hn') as (b :: bs)
                rw [List.take_succ_cons] at hrest
                rw [mergeRanked_of_asClose hab, mergeRanked_of_asClose hab,
                  List.take_succ_cons, List.take_succ_cons, hrest]
              · have hrest := ih (Nat.le_succ_of_le hm') hn' (a :: as) bs
                rw [List.take_succ_cons] at hrest
                rw [mergeRanked_of_not_asClose hab, mergeRanked_of_not_asClose hab,
                  List.take_succ_cons, List.take_succ_cons, hrest]

theorem rankByDistance_append (target : NodeId) (handles others : List Handle) :
    rankByDistance target (handles ++ others) =
      mergeRanked target (rankByDistance target handles)
        (rankByDistance target others) := by
  simp only [rankByDistance_eq_insertionSort]
  induction handles with
  | nil => simp
  | cons handle rest ih =>
      rw [List.cons_append, List.insertionSort_cons, List.insertionSort_cons, ih,
        orderedInsert_mergeRanked]

theorem rankByDistance_of_ranked {handles : List Handle}
    (h : handles.Pairwise (AsClose target)) :
    rankByDistance target handles = handles := by
  rw [rankByDistance_eq_insertionSort, h.insertionSort_eq]

/-- The closest of two lists are among the closest of each. -/
theorem closestCandidates_append (roster : Roster) (target : NodeId) (max : Nat)
    (handles others : List Handle) :
    closestCandidates roster target max (handles ++ others) =
      (mergeRanked target (closestCandidates roster target max handles)
        (closestCandidates roster target max others)).take max := by
  rw [closestCandidates, candidates, List.filter_append, rankByDistance_append]
  exact (take_mergeRanked (Nat.le_refl max) (Nat.le_refl max) _ _).symm

theorem candidates_closestCandidates (roster : Roster) (target : NodeId) (max : Nat)
    (handles : List Handle) :
    candidates roster (closestCandidates roster target max handles) =
      closestCandidates roster target max handles := by
  rw [candidates, List.filter_eq_self]
  intro handle hmem
  have hranked : handle ∈ candidates roster handles :=
    (rankByDistance_perm target _).mem_iff.mp (List.mem_of_mem_take hmem)
  exact (List.mem_filter.mp hranked).2

/-- The closest are a ranking already, so to look for the closest of them changes
nothing. -/
theorem closestCandidates_closestCandidates (roster : Roster) (target : NodeId)
    (max : Nat) (handles : List Handle) :
    closestCandidates roster target max
      (closestCandidates roster target max handles) =
      closestCandidates roster target max handles := by
  have hranked :
      (closestCandidates roster target max handles).Pairwise (AsClose target) :=
    (rankByDistance_pairwise_asClose target _).sublist (List.take_sublist _ _)
  rw [closestCandidates, candidates_closestCandidates,
    rankByDistance_of_ranked hranked, closestCandidates,
    List.take_take, Nat.min_self]

end Merge

/-- The closest candidates of two lists together are the closest of what is closest
in each, in the same order, also where peers of one identifier are in both.  So the
answers of any number of buckets have in them the answer of all their members. -/
theorem closest_of_parts (roster : Roster) (target : NodeId) (max : Nat) :
    (∀ handles others : List Handle,
      closestCandidates roster target max (handles ++ others) =
        closestCandidates roster target max
          (closestCandidates roster target max handles ++
            closestCandidates roster target max others)) ∧
    (∀ buckets : List Bucket,
      closestCandidates roster target max (buckets.flatMap Bucket.members) =
        closestCandidates roster target max
          (buckets.flatMap fun bucket => bucket.closest roster target max)) := by
  constructor
  · intro handles others
    rw [closestCandidates_append, closestCandidates_append,
      closestCandidates_closestCandidates, closestCandidates_closestCandidates]
  · intro buckets
    induction buckets with
    | nil => rfl
    | cons bucket rest ih =>
        rw [List.flatMap_cons, List.flatMap_cons, closestCandidates_append,
          closestCandidates_append, ih, Bucket.closest,
          closestCandidates_closestCandidates]

/-- Of two peers of one identifier, the one in the earlier list is kept. -/
example :
    closestCandidates .sample (.ofNat 0) 1
        ([.sampleAt 0 4 1, .sampleAt 1 2 1] ++ [.sampleAt 2 2 2, .sampleAt 3 8 2]) =
      [.sampleAt 1 2 1] := by
  decide

end Kademlia
