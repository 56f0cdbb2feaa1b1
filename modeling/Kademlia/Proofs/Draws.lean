/-
Random picks.  A pick reads eight bytes and takes them for a word; the remainder of
the word by the number of members is the position of the member picked.  So a
member is picked by as many words as leave its position.
-/
import Mathlib
import Kademlia.Bucket.Lemmas
import Kademlia.NodeId.Value

namespace Kademlia

namespace EntropySource

/-- Eight bytes of a repeated word are the word itself. -/
theorem toNat_cycled (word : UInt64) : (cycled word 8).toNat = word.toNat := by
  have hbytes : (cycled word 8).toList = toBigEndian 8 word.toNat := by
    apply List.ext_getElem
    · simp [cycled]
    · intro i _ hlength
      have hi : i < 8 := by simpa using hlength
      simp [cycled, Nat.mod_eq_of_lt hi, List.getElem?_eq_getElem hlength]
  rw [Octets.toNat, hbytes, ofBigEndian_toBigEndian]
  exact Nat.mod_eq_of_lt word.toNat_lt

end EntropySource

namespace Bucket

variable {bucket : Bucket} {handle : Handle} {draw : Nat}

/-- The bucket with a source that gives one word for ever. -/
def drawing (bucket : Bucket) (word : UInt64) : Bucket :=
  { bucket with entropy := .fixed word }

/-- The pick that reads a word gives a peer of some kind. -/
def picks (bucket : Bucket) (wanted : Handle → Bool) (word : UInt64) : Bool :=
  match (bucket.drawing word).pick.1 with
  | .ok handle => wanted handle
  | .error _ => false

/-- The words, as numbers, at which a pick gives a peer of some kind. -/
def drawsFor (bucket : Bucket) (wanted : Handle → Bool) : Finset Nat :=
  (Finset.range (2 ^ 64)).filter fun draw => bucket.picks wanted (.ofNat draw)

theorem pick_drawing (bucket : Bucket) (word : UInt64) :
    (bucket.drawing word).pick.1 = bucket.drawn word.toNat := by
  simp only [pick, drawing, EntropySource.fixed, EntropySource.toNat_cycled]
  rfl

theorem drawn_eq_ok_iff :
    bucket.drawn draw = .ok handle ↔
      bucket.members[draw % bucket.count]? = some handle := by
  unfold drawn
  cases bucket.members[draw % bucket.count]? with
  | none => simp
  | some found => simp

/-- A draw falls on some member unless there is none. -/
theorem exists_drawn_eq_ok (hmembers : bucket.members ≠ []) (draw : Nat) :
    ∃ handle, bucket.drawn draw = .ok handle := by
  have hcount : 0 < bucket.count := List.length_pos_iff.mpr hmembers
  have hposition : draw % bucket.count < bucket.members.length :=
    Nat.mod_lt draw hcount
  exact ⟨_, drawn_eq_ok_iff.mpr (List.getElem?_eq_getElem hposition)⟩

theorem mem_drawsFor {wanted : Handle → Bool} :
    draw ∈ bucket.drawsFor wanted ↔ draw < 2 ^ 64 ∧
      ∃ handle, bucket.members[draw % bucket.count]? = some handle ∧
        wanted handle = true := by
  rw [drawsFor, Finset.mem_filter, Finset.mem_range]
  apply and_congr_right
  intro hdraw
  have hword : (UInt64.ofNat draw).toNat = draw := by
    rw [UInt64.toNat_ofNat']
    exact Nat.mod_eq_of_lt hdraw
  rw [picks, pick_drawing, hword]
  simp only [← drawn_eq_ok_iff]
  cases bucket.drawn draw with
  | ok found => simp
  | error error => simp

/-- Whether the pick at hand gives a peer of some kind is told by the word that it
reads. -/
theorem toNat_mem_drawsFor_iff {bytes : Octets 8}
    (hread : bucket.entropy.read bucket.reads 8 = .ok bytes)
    (wanted : Handle → Bool) :
    bytes.toNat ∈ bucket.drawsFor wanted ↔
      ∃ handle, bucket.pick.1 = .ok handle ∧ wanted handle = true := by
  have hpick : bucket.pick.1 = bucket.drawn bytes.toNat := by
    simp only [pick, hread]
  rw [mem_drawsFor, hpick]
  simp only [drawn_eq_ok_iff, and_iff_right_iff_imp]
  intro _
  exact bytes.toNat_lt

end Bucket

/-- The numbers below a bound that leave a given remainder. -/
theorem card_filter_mod_eq {n i : Nat} (bound : Nat) (hi : i < n) :
    ((Finset.range bound).filter fun draw => draw % n = i).card =
      bound / n + if i < bound % n then 1 else 0 := by
  have hcount := Nat.count_modEq_card bound (Nat.zero_lt_of_lt hi) i
  rw [Nat.count_eq_card_filter_range] at hcount
  simpa [Nat.ModEq, Nat.mod_eq_of_lt hi] using hcount

theorem div_add_le_ceilDiv {n : Nat} (i bound : Nat) (hn : 0 < n) :
    (bound / n + if i < bound % n then 1 else 0) ≤ bound ⌈/⌉ n := by
  rw [Nat.ceilDiv_eq_add_pred_div, Nat.le_div_iff_mul_le hn]
  have hsplit := Nat.div_add_mod bound n
  split
  · rw [Nat.add_mul, Nat.mul_comm]
    omega
  · rw [Nat.add_zero, Nat.mul_comm]
    omega

namespace Bucket

variable {bucket : Bucket} {handle : Handle}

/-- How many words a member is picked by. -/
theorem card_drawsFor_eq (hdistinct : bucket.members.Nodup) {i : Nat}
    (hat : bucket.members[i]? = some handle) :
    (bucket.drawsFor (· = handle)).card =
      2 ^ 64 / bucket.count + if i < 2 ^ 64 % bucket.count then 1 else 0 := by
  obtain ⟨hi, _⟩ := List.getElem?_eq_some_iff.mp hat
  rw [← card_filter_mod_eq (n := bucket.count) (2 ^ 64) hi]
  apply congrArg Finset.card
  ext draw
  rw [mem_drawsFor, Finset.mem_filter, Finset.mem_range]
  apply and_congr_right
  intro _
  have hposition : draw % bucket.count < bucket.members.length :=
    Nat.mod_lt draw (Nat.zero_lt_of_lt hi)
  constructor
  · rintro ⟨found, hfound, heq⟩
    obtain rfl : found = handle := by simpa using heq
    exact (List.getElem?_inj hposition hdistinct).mp (hfound.trans hat.symm)
  · rintro rfl
    exact ⟨handle, hat, by simp⟩

theorem card_drawsFor_member_le (hdistinct : bucket.members.Nodup)
    (hmem : handle ∈ bucket.members) :
    (bucket.drawsFor (· = handle)).card ≤ 2 ^ 64 ⌈/⌉ bucket.count := by
  obtain ⟨i, hat⟩ := List.mem_iff_getElem?.mp hmem
  have hpositive : 0 < bucket.count := List.length_pos_of_mem hmem
  rw [card_drawsFor_eq hdistinct hat]
  exact div_add_le_ceilDiv i (2 ^ 64) hpositive

/-- A pick of some kind of peer is a pick of one of the members of the kind. -/
theorem drawsFor_eq_biUnion (bucket : Bucket) (wanted : Handle → Bool) :
    bucket.drawsFor wanted = (bucket.members.filter wanted).toFinset.biUnion
      fun handle => bucket.drawsFor (· = handle) := by
  ext draw
  simp only [Finset.mem_biUnion, List.mem_toFinset, List.mem_filter, mem_drawsFor]
  constructor
  · rintro ⟨hdraw, handle, hat, hwanted⟩
    exact ⟨handle, ⟨List.mem_of_getElem? hat, hwanted⟩, hdraw, handle, hat, by simp⟩
  · rintro ⟨handle, ⟨_, hwanted⟩, hdraw, found, hat, heq⟩
    obtain rfl : found = handle := by simpa using heq
    exact ⟨hdraw, found, hat, hwanted⟩

/-- Each member of a kind adds no more words than an even share rounded up. -/
theorem card_drawsFor_le (hdistinct : bucket.members.Nodup)
    (wanted : Handle → Bool) :
    (bucket.drawsFor wanted).card ≤
      bucket.members.countP wanted * (2 ^ 64 ⌈/⌉ bucket.count) := by
  have hshare : ∀ handle ∈ (bucket.members.filter wanted).toFinset,
      (bucket.drawsFor (· = handle)).card ≤ 2 ^ 64 ⌈/⌉ bucket.count := by
    intro handle hhandle
    have hmem := List.mem_of_mem_filter (List.mem_toFinset.mp hhandle)
    exact card_drawsFor_member_le hdistinct hmem
  have hkind : (bucket.members.filter wanted).toFinset.card ≤
      bucket.members.countP wanted := by
    rw [List.countP_eq_length_filter]
    exact List.toFinset_card_le _
  rw [drawsFor_eq_biUnion]
  exact (Finset.card_biUnion_le_card_mul _ _ _ hshare).trans
    (Nat.mul_le_mul_right _ hkind)

end Bucket

end Kademlia
