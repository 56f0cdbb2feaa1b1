/-
How many of a crowd of peers a bucket lets in.  Which ones get in depends on
who comes first, but their number does not: it is told by the identifiers that
are brought from each address.
-/
import Mathlib
import Kademlia.Proofs.Bounds

namespace Kademlia

/-- The identifiers that peers bring from one address. -/
def idsAt (handles : Multiset Handle) (ip : Ip) : Finset NodeId :=
  ((handles.filter fun handle => handle.ip = ip).map Handle.id).toFinset

section IdsAt

variable {handles : Multiset Handle} {handle : Handle} {id : NodeId} {ip : Ip}

theorem mem_idsAt :
    id ∈ idsAt handles ip ↔
      ∃ handle ∈ handles, handle.ip = ip ∧ handle.id = id := by
  simp [idsAt, and_assoc]

theorem idsAt_cons_self (handle : Handle) (handles : Multiset Handle) :
    idsAt (handle ::ₘ handles) handle.ip =
      insert handle.id (idsAt handles handle.ip) := by
  simp [idsAt]

theorem idsAt_cons_of_ne (handles : Multiset Handle) (h : handle.ip ≠ ip) :
    idsAt (handle ::ₘ handles) ip = idsAt handles ip := by
  simp [idsAt, h]

theorem idsAt_subset {others : Multiset Handle}
    (h : ∀ handle ∈ handles, handle ∈ others) (ip : Ip) :
    idsAt handles ip ⊆ idsAt others ip := by
  intro id hid
  obtain ⟨handle, hhandle, hip⟩ := mem_idsAt.mp hid
  exact mem_idsAt.mpr ⟨handle, h handle hhandle, hip⟩

end IdsAt

namespace Bucket

variable {bucket : Bucket}

/-- As no identifier is stored twice, members at an address can be counted by
their identifiers. -/
theorem Bounded.countFor_eq_card (h : bucket.Bounded) (ip : Ip) :
    bucket.countFor ip = (idsAt bucket.members ip).card := by
  have hdistinct :
      ((bucket.members.filter fun handle => handle.ip = ip).map Handle.id).Nodup :=
    h.distinct.sublist (List.filter_sublist.map Handle.id)
  have hcard := List.toFinset_card_of_nodup hdistinct
  rw [List.length_map, ← List.countP_eq_length_filter] at hcard
  simpa [idsAt, countFor] using hcard.symm

/-- The members are the members at each of the addresses together. -/
theorem count_eq_sum_countFor {ips : Finset Ip}
    (hips : ∀ handle ∈ bucket.members, handle.ip ∈ ips) :
    bucket.count = ∑ ip ∈ ips, bucket.countFor ip := by
  have hcount : ∀ ip, bucket.countFor ip =
      Multiset.count ip (bucket.members.map Handle.ip : Multiset Ip) := by
    intro ip
    rw [countFor, Multiset.coe_count, List.count, List.countP_map]
    rfl
  have hmem : ∀ ip ∈ (bucket.members.map Handle.ip : Multiset Ip), ip ∈ ips := by
    intro ip hip
    obtain ⟨handle, hhandle, rfl⟩ := List.mem_map.mp (Multiset.mem_coe.mp hip)
    exact hips handle hhandle
  calc
    bucket.count = Multiset.card (bucket.members.map Handle.ip : Multiset Ip) := by
      simp [count]
    _ = ∑ ip ∈ ips,
      Multiset.count ip (bucket.members.map Handle.ip : Multiset Ip) :=
      (Multiset.sum_count_eq_card hmem).symm
    _ = ∑ ip ∈ ips, bucket.countFor ip :=
      Finset.sum_congr rfl fun ip _ => (hcount ip).symm

/-- The state of a bucket after it has seen a crowd of peers.  Unless it is full,
each address holds as many members as it can: those turned away were repeated or
too many. -/
structure Settled (seen : Multiset Handle) (bucket : Bucket) : Prop where
  bounded : bucket.Bounded
  among : ∀ handle ∈ bucket.members, handle ∈ seen
  filled : bucket.count = bucket.limits.size ∨
    ∀ ip, bucket.countFor ip = min bucket.limits.perIp (idsAt seen ip).card

namespace Settled

variable {seen : Multiset Handle} {handle : Handle}

theorem countFor_le (h : Settled seen bucket) (ip : Ip) :
    bucket.countFor ip ≤ min bucket.limits.perIp (idsAt seen ip).card := by
  apply le_min
  · exact h.bounded.perIp ip
  · rw [h.bounded.countFor_eq_card]
    exact Finset.card_le_card (idsAt_subset h.among ip)

theorem count_eq (h : Settled seen bucket) :
    bucket.count = min bucket.limits.size
      (∑ ip ∈ (seen.map Handle.ip).toFinset,
        min bucket.limits.perIp (idsAt seen ip).card) := by
  have hsum : bucket.count =
      ∑ ip ∈ (seen.map Handle.ip).toFinset, bucket.countFor ip := by
    apply count_eq_sum_countFor
    intro handle hhandle
    exact Multiset.mem_toFinset.mpr
      (Multiset.mem_map_of_mem _ (h.among handle hhandle))
  rcases h.filled with hfull | hfilled
  · rw [← hfull, eq_comm, min_eq_left_iff, hsum]
    exact Finset.sum_le_sum fun ip _ => h.countFor_le ip
  · have heq : bucket.count = ∑ ip ∈ (seen.map Handle.ip).toFinset,
        min bucket.limits.perIp (idsAt seen ip).card :=
      hsum.trans (Finset.sum_congr rfl fun ip _ => hfilled ip)
    rw [← heq, min_eq_right h.bounded.size]

theorem of_members_eq_nil (hempty : bucket.members = []) : Settled 0 bucket := by
  refine ⟨.of_members_eq_nil hempty, ?_, Or.inr ?_⟩
  · simp [hempty]
  · intro ip
    simp [countFor, hempty, idsAt]

/-- An address with room left holds all that came from it. -/
theorem idsAt_members_eq (h : Settled seen bucket) {ip : Ip}
    (hsize : bucket.count < bucket.limits.size)
    (haddress : bucket.countFor ip < bucket.limits.perIp) :
    idsAt bucket.members ip = idsAt seen ip := by
  have hcount : bucket.countFor ip =
      min bucket.limits.perIp (idsAt seen ip).card :=
    h.filled.resolve_left (Nat.ne_of_lt hsize) ip
  have hcard : (idsAt seen ip).card ≤ (idsAt bucket.members ip).card := by
    rw [← h.bounded.countFor_eq_card]
    omega
  exact Finset.eq_of_subset_of_card_le (idsAt_subset h.among ip) hcard

/-- A newcomer that is let in is the first of its identifier. -/
theorem of_room (h : Settled seen bucket) (room : bucket.HasRoomFor handle)
    (now : Instant) :
    Settled (handle ::ₘ seen) { bucket with
      members := bucket.members ++ [handle]
      lastUpdated := now } := by
  refine ⟨h.bounded.of_admitted room rfl rfl, ?_, Or.inr ?_⟩
  · intro member hmember
    rcases List.mem_append.mp hmember with hold | hnew
    · exact Multiset.mem_cons_of_mem (h.among member hold)
    · rw [List.mem_singleton.mp hnew]
      exact Multiset.mem_cons_self handle seen
  · intro ip
    show List.countP _ (bucket.members ++ [handle]) = _
    rw [List.countP_append]
    by_cases hip : handle.ip = ip
    · subst hip
      have hroom := room.perIp
      have hall := h.idsAt_members_eq room.size room.perIp
      have hcard := h.bounded.countFor_eq_card handle.ip
      rw [hall] at hcard
      have hfresh : handle.id ∉ idsAt seen handle.ip := by
        rw [← hall, mem_idsAt]
        rintro ⟨member, hmember, _, hid⟩
        exact room.fresh member (Multiset.mem_coe.mp hmember) hid
      rw [idsAt_cons_self, Finset.card_insert_of_notMem hfresh, ← hcard]
      show bucket.countFor handle.ip + _ = _
      simp only [List.countP_singleton, decide_true, if_true]
      omega
    · have hcount := h.filled.resolve_left (Nat.ne_of_lt room.size) ip
      rw [idsAt_cons_of_ne seen hip, ← hcount]
      simp [countFor, hip]

/-- One that is turned away from a bucket that is not full was repeated or came
from an address without room. -/
theorem of_no_room (h : Settled seen bucket) (room : ¬ bucket.HasRoomFor handle)
    (agree : ∀ other ∈ seen, other.id = handle.id → other.ip = handle.ip) :
    Settled (handle ::ₘ seen) bucket := by
  refine ⟨h.bounded, fun member hmember =>
    Multiset.mem_cons_of_mem (h.among member hmember), ?_⟩
  rcases h.filled with hfull | hfilled
  · exact Or.inl hfull
  · by_cases hsize : bucket.count = bucket.limits.size
    · exact Or.inl hsize
    right
    intro ip
    by_cases hip : handle.ip = ip
    · subst hip
      rw [idsAt_cons_self]
      by_cases hstored : ∃ member ∈ bucket.members, member.id = handle.id
      · obtain ⟨member, hmember, hid⟩ := hstored
        have hseen := h.among member hmember
        have hmem : handle.id ∈ idsAt seen handle.ip :=
          mem_idsAt.mpr ⟨member, hseen, agree member hseen hid, hid⟩
        rw [Finset.insert_eq_of_mem hmem]
        exact hfilled handle.ip
      · have hfresh : ∀ member ∈ bucket.members, member.id ≠ handle.id :=
          fun member hmember hid => hstored ⟨member, hmember, hid⟩
        have hroom : bucket.count < bucket.limits.size :=
          Nat.lt_of_le_of_ne h.bounded.size hsize
        have haddress : bucket.limits.perIp ≤ bucket.countFor handle.ip := by
          by_contra hless
          exact room ⟨hfresh, hroom, Nat.lt_of_not_le hless⟩
        have hcount := hfilled handle.ip
        have hgrows := Finset.card_le_card
          (Finset.subset_insert handle.id (idsAt seen handle.ip))
        omega
    · rw [idsAt_cons_of_ne seen hip]
      exact hfilled ip

end Settled

end Bucket

/-- The actions of peers that come one after another. -/
def arrivals (queue : List (Instant × Handle)) : List (Instant × Action) :=
  queue.map fun (now, handle) => (now, .add handle)

theorem arrivals_concat (queue : List (Instant × Handle)) (now : Instant)
    (handle : Handle) :
    arrivals (queue ++ [(now, handle)]) =
      arrivals queue ++ [(now, .add handle)] := by
  simp [arrivals]

namespace Session

/-- The peers of a queue that are let in, one for each success. -/
def admissions (session : Session) (queue : List (Instant × Handle)) :
    List Handle :=
  (session.history (arrivals queue)).filterMap Entry.admitted?

variable {session : Session}

/-- Nobody leaves while peers only come. -/
theorem members_final_arrivals (hempty : session.bucket.members = [])
    (queue : List (Instant × Handle)) :
    (session.final (arrivals queue)).bucket.members = session.admissions queue := by
  induction queue using List.reverseRecOn with
  | nil => exact hempty
  | append_singleton queue entry ih =>
      obtain ⟨now, handle⟩ := entry
      rw [admissions, arrivals_concat, history_concat, List.filterMap_append,
        final_append, ← admissions, ← ih]
      by_cases room : (session.final (arrivals queue)).bucket.HasRoomFor handle
      · simp [step_add_of_room room, Entry.admitted?, Entry.mark?]
      · obtain ⟨error, hstep⟩ := step_add_of_no_room room now
        simp [hstep, Entry.admitted?, Entry.mark?]

/-- Whatever the order of arrival, the bucket ends as full as the crowd lets it
be. -/
theorem settled_final_arrivals (hempty : session.bucket.members = [])
    (queue : List (Instant × Handle))
    (agree : ∀ first ∈ queue.map Prod.snd, ∀ second ∈ queue.map Prod.snd,
      first.id = second.id → first.ip = second.ip) :
    Bucket.Settled (queue.map Prod.snd)
      (session.final (arrivals queue)).bucket := by
  induction queue using List.reverseRecOn with
  | nil => exact .of_members_eq_nil hempty
  | append_singleton queue entry ih =>
      obtain ⟨now, handle⟩ := entry
      have hseen : (((queue ++ [(now, handle)]).map Prod.snd : List Handle) :
          Multiset Handle) = handle ::ₘ (queue.map Prod.snd : List Handle) := by
        rw [List.map_append, ← Multiset.coe_add, add_comm]
        rfl
      have hold : ∀ other ∈ queue.map Prod.snd,
          other ∈ (queue ++ [(now, handle)]).map Prod.snd := by
        intro other hother
        rw [List.map_append]
        exact List.mem_append_left _ hother
      have hnew : handle ∈ (queue ++ [(now, handle)]).map Prod.snd := by simp
      have hsettled := ih fun first hfirst second hsecond =>
        agree first (hold first hfirst) second (hold second hsecond)
      rw [hseen, arrivals_concat, final_append, final_cons, final_nil]
      by_cases room : (session.final (arrivals queue)).bucket.HasRoomFor handle
      · rw [step_add_of_room room]
        exact hsettled.of_room room now
      · obtain ⟨error, hstep⟩ := step_add_of_no_room room now
        rw [hstep]
        exact hsettled.of_no_room room fun other hother hid =>
          agree other (hold other (Multiset.mem_coe.mp hother)) handle hnew hid

end Session

/-- However a crowd of peers is lined up before an empty bucket, the number of
those let in is the same: each address fills as many places as it may and as it
brings identifiers for, and the bucket as many as it has.  No two of those let in
have one identifier. -/
theorem admissions_independent_of_order {session : Session}
    (hempty : session.bucket.members = []) (handles : Multiset Handle)
    (agree : ∀ first ∈ handles, ∀ second ∈ handles,
      first.id = second.id → first.ip = second.ip)
    (queue : List (Instant × Handle))
    (hqueue : (queue.map Prod.snd : Multiset Handle) = handles) :
    (session.admissions queue).length = min session.bucket.limits.size
        (∑ ip ∈ (handles.map Handle.ip).toFinset,
          min session.bucket.limits.perIp (idsAt handles ip).card) ∧
      ((session.admissions queue).map Handle.id).toFinset.card =
        (session.admissions queue).length := by
  subst hqueue
  have hsettled := Session.settled_final_arrivals hempty queue agree
  have hmembers := Session.members_final_arrivals hempty queue
  have hcount := hsettled.count_eq
  have hdistinct := hsettled.bounded.distinct
  rw [Session.limits_final, Bucket.count, hmembers] at hcount
  rw [hmembers] at hdistinct
  refine ⟨hcount, ?_⟩
  rw [List.toFinset_card_of_nodup hdistinct, List.length_map]

/-- Four peers of one address, one of them twice, and one of another address:
two places at the first address are filled and one at the second. -/
theorem admissions_independent_of_order_trial :
    let session := Session.mk (.start .small (.fixed 7) 0) .sample
    let queue : List (Instant × Handle) :=
      [(1, .sampleAt 0 1 1), (2, .sampleAt 1 2 1), (3, .sampleAt 0 1 1),
        (4, .sampleAt 2 3 1), (5, .sampleAt 3 4 2)]
    let handles : Multiset Handle := (queue.map Prod.snd).reverse
    session.bucket.members = [] ∧
      (∀ first ∈ handles, ∀ second ∈ handles,
        first.id = second.id → first.ip = second.ip) ∧
      (queue.map Prod.snd : Multiset Handle) = handles ∧
      (session.admissions queue).length = 3 ∧
      (session.admissions queue).length = min session.bucket.limits.size
        (∑ ip ∈ (handles.map Handle.ip).toFinset,
          min session.bucket.limits.perIp (idsAt handles ip).card) ∧
      ((session.admissions queue).map Handle.id).toFinset.card =
        (session.admissions queue).length := by
  intro session queue handles
  have hempty : session.bucket.members = [] := rfl
  have hagree : ∀ first ∈ handles, ∀ second ∈ handles,
      first.id = second.id → first.ip = second.ip := by decide
  have hqueue : (queue.map Prod.snd : Multiset Handle) = handles :=
    (Multiset.coe_reverse _).symm
  refine ⟨hempty, hagree, hqueue, by decide, ?_⟩
  exact admissions_independent_of_order hempty handles hagree queue hqueue

end Kademlia
