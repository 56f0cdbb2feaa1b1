/-
How little one address can gain.  The limit on members of one address bounds its
part of the bucket, of the closest peers handed out, and of the random picks.
-/
import Mathlib
import Kademlia.Proofs.Admission
import Kademlia.Proofs.Draws
import Kademlia.Proofs.Observers
import Kademlia.Proofs.Ranking

namespace Kademlia

namespace Bucket

variable {bucket : Bucket}

/-- The addresses that members have. -/
def addresses (bucket : Bucket) : Finset Ip :=
  (bucket.members.map Handle.ip).toFinset

theorem Bounded.count_le_mul_card_addresses (h : bucket.Bounded) :
    bucket.count ≤ bucket.limits.perIp * bucket.addresses.card := by
  have hips : ∀ handle ∈ bucket.members, handle.ip ∈ bucket.addresses := by
    intro handle hmem
    exact List.mem_toFinset.mpr (List.mem_map_of_mem hmem)
  calc
    bucket.count = ∑ ip ∈ bucket.addresses, bucket.countFor ip :=
      count_eq_sum_countFor hips
    _ ≤ bucket.addresses.card • bucket.limits.perIp :=
      Finset.sum_le_card_nsmul _ _ _ fun ip _ => h.perIp ip
    _ = bucket.limits.perIp * bucket.addresses.card := by
      rw [smul_eq_mul, Nat.mul_comm]

/-- Of the closest peers no more have an address than of the members. -/
theorem countP_closest_le (bucket : Bucket) (roster : Roster) (target : NodeId)
    (max : Nat) (ip : Ip) :
    (bucket.closest roster target max).countP (·.ip = ip) ≤ bucket.countFor ip :=
  (closestCandidates_subperm roster target max bucket.members).countP_le _

end Bucket

/-- The members of a bucket come from at least as many addresses as the limit for
one address asks for.  No address has more peers than this limit among the closest,
or more of the words that a pick can read than the limit times an even share. -/
theorem eclipse_is_bounded {session : Session} (reached : session.Reachable)
    (ip : Ip) :
    let bucket := session.bucket
    bucket.count ≤ bucket.limits.perIp * bucket.addresses.card ∧
    (bucket.occupancy = .full →
      bucket.limits.size ⌈/⌉ bucket.limits.perIp ≤ bucket.addresses.card) ∧
    (∀ target max, (bucket.closest session.roster target max).countP (·.ip = ip) ≤
      bucket.limits.perIp) ∧
    (bucket.drawsFor (·.ip = ip)).card ≤
      bucket.limits.perIp * (2 ^ 64 ⌈/⌉ bucket.count) ∧
    (∀ bytes, bucket.entropy.read bucket.reads 8 = .ok bytes →
      (bytes.toNat ∈ bucket.drawsFor (·.ip = ip) ↔
        ∃ handle, bucket.pick.1 = .ok handle ∧ handle.ip = ip)) := by
  intro bucket
  have hbounded : bucket.Bounded := reached.bounded
  have hcount := hbounded.count_le_mul_card_addresses
  have hlimit : 0 < bucket.limits.perIp := reached.usable.1
  refine ⟨hcount, ?_, ?_, ?_, ?_⟩
  · intro full
    rw [ceilDiv_le_iff_le_mul hlimit]
    exact (Bucket.size_le_count_of_full full).trans hcount
  · intro target max
    exact (bucket.countP_closest_le session.roster target max ip).trans
      (hbounded.perIp ip)
  · exact (Bucket.card_drawsFor_le hbounded.nodup_members _).trans
      (Nat.mul_le_mul_right _ (hbounded.perIp ip))
  · intro bytes hread
    simpa using Bucket.toNat_mem_drawsFor_iff hread (·.ip = ip)

/-- A third peer of one address is turned away before the bucket is filled from
another, and the word at hand picks a member of the first address. -/
theorem eclipse_is_bounded_trial :
    let session := (Session.mk (.start .small (.fixed 5) 0) .sample).final
      [(1, .add (.sampleAt 0 1 1)), (2, .add (.sampleAt 1 2 1)),
        (3, .add (.sampleAt 2 3 1)), (4, .add (.sampleAt 3 4 2)),
        (5, .add (.sampleAt 4 5 2))]
    let bucket := session.bucket
    let ip : Ip := (Handle.sampleAt 0 1 1).ip
    session.Reachable ∧ bucket.occupancy = .full ∧ bucket.countFor ip = 2 ∧
      4 ≤ 2 * bucket.addresses.card ∧ 4 ⌈/⌉ 2 ≤ bucket.addresses.card ∧
      (∀ target max,
        (bucket.closest session.roster target max).countP (·.ip = ip) ≤ 2) ∧
      (bucket.drawsFor (·.ip = ip)).card ≤ 2 * (2 ^ 64 ⌈/⌉ 4) ∧
      (EntropySource.cycled 5 8).toNat ∈ bucket.drawsFor (·.ip = ip) := by
  intro session bucket ip
  have reached : session.Reachable :=
    .of_usable (by decide) (by decide) (.fixed 5) 0 .sample _
  have full : bucket.occupancy = .full := by decide
  obtain ⟨hcount, hfull, hclosest, hdraws, hpick⟩ := eclipse_is_bounded reached ip
  have hpicked : bucket.pick.1 = .ok (.sampleAt 1 2 1) := by decide
  refine ⟨reached, full, by decide, hcount, hfull full, hclosest, hdraws, ?_⟩
  exact (hpick (EntropySource.cycled 5 8) rfl).mpr
    ⟨.sampleAt 1 2 1, hpicked, by decide⟩

end Kademlia
