/-
The ranking of peers by their distance to a target.  It is an insertion sort by
distance alone, because no two identifiers are equally far from a target.  Hence
the members that a bucket hands out are determined by which of its members may be
handed out, whatever their order.
-/
import Mathlib
import Kademlia.NodeId.Value
import Kademlia.Proofs.Bounds

namespace Kademlia

/-- The first peer is closer to the target than the second. -/
def Closer (target : NodeId) (first second : Handle) : Prop :=
  (first.id.distance target).toNat < (second.id.distance target).toNat

/-- The first peer is at least as close to the target as the second. -/
def AsClose (target : NodeId) (first second : Handle) : Prop :=
  (first.id.distance target).toNat ≤ (second.id.distance target).toNat

section Orders

variable {target : NodeId} {first second : Handle}

instance : DecidableRel (Closer target) := fun _ _ =>
  inferInstanceAs (Decidable (_ < _))

instance : DecidableRel (AsClose target) := fun _ _ =>
  inferInstanceAs (Decidable (_ ≤ _))

instance : IsTrans Handle (AsClose target) where
  trans _ _ _ := Nat.le_trans

instance : Std.Total (AsClose target) where
  total first _ := Nat.le_total (first.id.distance target).toNat _

instance : Std.Irrefl (Closer target) where
  irrefl first := Nat.lt_irrefl (first.id.distance target).toNat

instance : Std.Antisymm (Closer target) where
  antisymm _ _ h hback := absurd hback (Nat.lt_asymm h)

theorem AsClose.closer (h : AsClose target first second)
    (hne : first.id ≠ second.id) : Closer target first second := by
  apply Nat.lt_of_le_of_ne h
  intro heq
  exact hne (NodeId.toNat_distance_left_inj.mp heq)

/-- The identifiers, which are compared after the distances, never decide: where the
distances are equal, so are they. -/
theorem compareFrom_eq_compare (target : NodeId) (first second : Handle) :
    compareFrom target first second =
      compare (first.id.distance target).toNat
        (second.id.distance target).toNat := by
  have hcompare : compareFrom target first second =
      (compare (first.id.distance target).toNat
        (second.id.distance target).toNat).then
        (compare first.id second.id) := rfl
  by_cases hid : first.id = second.id
  · have hself : compare second.id second.id = .eq :=
      Std.compare_self (a := second.id.bytes.toList)
    rw [hcompare, hid, hself, Ordering.then_eq]
  · rw [hcompare]
    cases htie : compare (first.id.distance target).toNat
        (second.id.distance target).toNat with
    | eq =>
        have hsame := NodeId.toNat_distance_left_inj.mp (Nat.compare_eq_eq.mp htie)
        exact absurd hsame hid
    | lt => rfl
    | gt => rfl

theorem isLE_compareFrom_iff :
    (compareFrom target first second).isLE = true ↔
      AsClose target first second := by
  rw [compareFrom_eq_compare, Nat.isLE_compare, AsClose]

end Orders

section Ranking

variable {target : NodeId} {roster : Roster} {handle : Handle}

theorem rankInsert_eq_orderedInsert (target : NodeId) (handle : Handle)
    (handles : List Handle) :
    rankInsert target handle handles =
      handles.orderedInsert (AsClose target) handle := by
  induction handles with
  | nil => rfl
  | cons first rest ih =>
      rw [rankInsert, List.orderedInsert_cons, ih]
      by_cases hclose : AsClose target handle first
      · rw [if_pos hclose, if_pos (isLE_compareFrom_iff.mpr hclose)]
      · have hnot : ¬ (compareFrom target handle first).isLE = true := by
          rw [isLE_compareFrom_iff]
          exact hclose
        rw [if_neg hclose, if_neg hnot]

theorem rankByDistance_eq_insertionSort (target : NodeId) (handles : List Handle) :
    rankByDistance target handles = handles.insertionSort (AsClose target) := by
  induction handles with
  | nil => rfl
  | cons handle rest ih =>
      show rankInsert target handle (rankByDistance target rest) = _
      rw [ih, rankInsert_eq_orderedInsert, List.insertionSort_cons]

theorem rankByDistance_perm (target : NodeId) (handles : List Handle) :
    (rankByDistance target handles).Perm handles := by
  rw [rankByDistance_eq_insertionSort]
  exact List.perm_insertionSort _ _

theorem rankByDistance_pairwise_asClose (target : NodeId) (handles : List Handle) :
    (rankByDistance target handles).Pairwise (AsClose target) := by
  rw [rankByDistance_eq_insertionSort]
  exact List.pairwise_insertionSort _ _

/-- Peers of different identifiers are ranked strictly. -/
theorem rankByDistance_pairwise_closer {handles : List Handle}
    (hdistinct : (handles.map Handle.id).Nodup) :
    (rankByDistance target handles).Pairwise (Closer target) := by
  have hranked : ((rankByDistance target handles).map Handle.id).Nodup :=
    ((rankByDistance_perm target handles).map Handle.id).nodup_iff.mpr hdistinct
  have hne : (rankByDistance target handles).Pairwise (fun first second =>
      first.id ≠ second.id) := List.pairwise_map.mp hranked
  exact ((rankByDistance_pairwise_asClose target handles).and hne).imp fun h =>
    h.1.closer h.2

/-- The ranking of peers of different identifiers does not depend on the order
they are given in. -/
theorem rankByDistance_congr {handles others : List Handle}
    (hdistinct : (handles.map Handle.id).Nodup)
    (hothers : (others.map Handle.id).Nodup)
    (hmem : ∀ handle, handle ∈ handles ↔ handle ∈ others) :
    rankByDistance target handles = rankByDistance target others := by
  apply (rankByDistance_pairwise_closer hdistinct).eq_of_mem_iff
    (rankByDistance_pairwise_closer hothers)
  intro handle
  rw [(rankByDistance_perm target handles).mem_iff,
    (rankByDistance_perm target others).mem_iff, hmem]

theorem closestCandidates_subperm (roster : Roster) (target : NodeId) (max : Nat)
    (handles : List Handle) :
    (closestCandidates roster target max handles).Subperm handles := by
  have htake : (closestCandidates roster target max handles).Sublist
      (rankByDistance target (candidates roster handles)) := List.take_sublist _ _
  have hranked := rankByDistance_perm target (candidates roster handles)
  have hfilter : (candidates roster handles).Sublist handles := List.filter_sublist
  exact (htake.subperm.trans hranked.subperm).trans hfilter.subperm

/-- Whoever is left out of a strict ranking that is cut off is farther than all
who are kept. -/
theorem closer_of_mem_take {ranked : List Handle} {max : Nat} {near far : Handle}
    (hranked : ranked.Pairwise (Closer target)) (hnear : near ∈ ranked.take max)
    (hfar : far ∈ ranked) (hout : far ∉ ranked.take max) :
    Closer target near far := by
  rw [← List.take_append_drop max ranked] at hranked hfar
  rcases List.mem_append.mp hfar with hkept | hdropped
  · exact absurd hkept hout
  · exact (List.pairwise_append.mp hranked).2.2 near hnear far hdropped

end Ranking

namespace Session

variable {session other : Session} {handle : Handle}

/-- A member that may be handed out: its peer is verified and alive. -/
def Offers (session : Session) (handle : Handle) : Prop :=
  handle ∈ session.bucket.members ∧
    (session.roster handle.slot).verified = true ∧
    (session.roster handle.slot).alive = true

instance (session : Session) : DecidablePred session.Offers := fun _ =>
  inferInstanceAs (Decidable (_ ∧ _ ∧ _))

/-- The members that may be handed out, the oldest first. -/
def offered (session : Session) : List Handle :=
  candidates session.roster session.bucket.members

theorem mem_offered : handle ∈ session.offered ↔ session.Offers handle := by
  simp [offered, candidates, Liveness.isCandidate, Offers]

theorem length_offered (session : Session) :
    session.offered.length = session.bucket.members.countP (session.Offers ·) := by
  rw [offered, candidates, ← List.countP_eq_length_filter]
  apply List.countP_congr
  intro handle hmem
  simp [Liveness.isCandidate, Offers, hmem]

theorem Reachable.distinct_offered (h : session.Reachable) :
    (session.offered.map Handle.id).Nodup :=
  h.bounded.distinct.sublist (List.filter_sublist.map Handle.id)

theorem closest_eq_take (session : Session) (target : NodeId) (max : Nat) :
    session.bucket.closest session.roster target max =
      (rankByDistance target session.offered).take max := rfl

theorem mem_rank_offered (target : NodeId) :
    handle ∈ rankByDistance target session.offered ↔ session.Offers handle := by
  rw [(rankByDistance_perm target session.offered).mem_iff, mem_offered]

end Session

/-- Asked for `max` peers, a bucket hands out verified live members, the closest
first, as many as were asked for or as there are, and all other verified live
members are farther.  Buckets with the same verified live members hand out the
same list, and whoever asks for fewer gets a beginning of it. -/
theorem closest_are_nearest {session : Session} (reached : session.Reachable)
    (target : NodeId) (max : Nat) :
    let nearest := session.bucket.closest session.roster target max
    (∀ handle ∈ nearest, session.Offers handle) ∧
    nearest.Pairwise (Closer target) ∧
    nearest.length = min max (session.bucket.members.countP (session.Offers ·)) ∧
    (∀ handle, session.Offers handle → handle ∉ nearest →
      ∀ near ∈ nearest, Closer target near handle) ∧
    (∀ other : Session, other.Reachable →
      (∀ handle, other.Offers handle ↔ session.Offers handle) →
      other.bucket.closest other.roster target max = nearest) ∧
    (∀ fewer ≤ max,
      session.bucket.closest session.roster target fewer <+: nearest) := by
  intro nearest
  have hdistinct := reached.distinct_offered
  have hranked : (rankByDistance target session.offered).Pairwise (Closer target) :=
    rankByDistance_pairwise_closer hdistinct
  refine ⟨?_, hranked.sublist (List.take_sublist _ _), ?_, ?_, ?_, ?_⟩
  · intro handle hnear
    exact (Session.mem_rank_offered target).mp (List.mem_of_mem_take hnear)
  · show ((rankByDistance target session.offered).take max).length = _
    rw [List.length_take, (rankByDistance_perm target session.offered).length_eq,
      session.length_offered]
  · intro handle hoffers hout near hnear
    exact closer_of_mem_take hranked hnear
      ((Session.mem_rank_offered target).mpr hoffers) hout
  · intro other hreached hsame
    have hmem : ∀ handle, handle ∈ other.offered ↔ handle ∈ session.offered := by
      intro handle
      rw [Session.mem_offered, Session.mem_offered, hsame]
    rw [other.closest_eq_take,
      rankByDistance_congr hreached.distinct_offered hdistinct hmem]
    rfl
  · intro fewer hfewer
    exact List.take_prefix_take_left hfewer

/-- One member that is not verified and one that is dead, both closer than all the
others, are passed over.  Another bucket, which met the others in another order
and has a dead member of its own, hands out the same two. -/
theorem closest_are_nearest_trial :
    let target : NodeId := .ofNat 6
    let far : Handle := .sampleAt 0 1 1
    let near : Handle := .sampleAt 1 4 2
    let middle : Handle := .sampleAt 2 2 3
    let empty := Session.mk (.start .standard (.fixed 7) 0) .sample
    let session := empty.final
      [(1, .add far), (2, .add near), (3, .add middle), (4, .add (.sampleAt 3 6 4)),
        (5, .change 3 (.setVerified false)), (6, .add (.sampleAt 4 7 5)),
        (7, .change 4 (.setAlive false))]
    let other := empty.final
      [(1, .add middle), (2, .add far), (3, .add (.sampleAt 5 5 1)), (4, .add near),
        (5, .change 5 (.setAlive false)), (6, .touch far.id)]
    session.Reachable ∧ other.Reachable ∧
      session.bucket.count = 5 ∧ other.bucket.count = 4 ∧
      (∀ handle, other.Offers handle ↔ session.Offers handle) ∧
      session.bucket.closest session.roster target 2 = [near, middle] ∧
      other.bucket.closest other.roster target 2 = [near, middle] ∧
      (∀ kept ∈ [near, middle], Closer target kept far) ∧
      session.bucket.closest session.roster target 1 <+: [near, middle] := by
  intro target far near middle empty session other
  have hreached : session.Reachable :=
    .of_usable (by decide) (by decide) (.fixed 7) 0 .sample _
  have hother : other.Reachable :=
    .of_usable (by decide) (by decide) (.fixed 7) 0 .sample _
  have hsame : ∀ handle, other.Offers handle ↔ session.Offers handle := by
    have hperm : other.offered.Perm session.offered := by decide
    intro handle
    rw [← Session.mem_offered, ← Session.mem_offered, hperm.mem_iff]
  have hclosest :
      session.bucket.closest session.roster target 2 = [near, middle] := by
    decide
  obtain ⟨_, _, _, hrest, hagree, hfewer⟩ := closest_are_nearest hreached target 2
  rw [hclosest] at hrest hagree hfewer
  refine ⟨hreached, hother, by decide, by decide, hsame, hclosest, ?_, ?_, ?_⟩
  · exact hagree other hother hsame
  · exact hrest far (by decide) (by decide)
  · exact hfewer 1 (by decide)

end Kademlia
