/-
How evenly random picks fall on the members.  The words that a pick can read are
dealt out to the members in turn, so no member has more than one word more than
another, and in a bucket of common size nobody's chance is noticeably off an even
one.
-/
import Mathlib
import Kademlia.Proofs.Bounds
import Kademlia.Proofs.Draws

namespace Kademlia

namespace Bucket

variable {bucket : Bucket} {handle first second : Handle} {i : Nat}

/-- How many of the words that a pick can read make it give a peer. -/
def share (bucket : Bucket) (handle : Handle) : Nat :=
  (bucket.drawsFor (· = handle)).card

/-- How likely a pick is to give a peer when all words are equally likely. -/
def chance (bucket : Bucket) (handle : Handle) : ℚ :=
  bucket.share handle / 2 ^ 64

/-- How far the chance of a peer is off an even chance, as a part of the latter. -/
def bias (bucket : Bucket) (handle : Handle) : ℚ :=
  |bucket.chance handle - 1 / bucket.count| / (1 / bucket.count)

theorem share_eq (hdistinct : bucket.members.Nodup)
    (hat : bucket.members[i]? = some handle) :
    bucket.share handle =
      2 ^ 64 / bucket.count + if i < 2 ^ 64 % bucket.count then 1 else 0 :=
  card_drawsFor_eq hdistinct hat

theorem div_le_share (hdistinct : bucket.members.Nodup)
    (hmem : handle ∈ bucket.members) :
    2 ^ 64 / bucket.count ≤ bucket.share handle := by
  obtain ⟨i, hat⟩ := List.mem_iff_getElem?.mp hmem
  rw [share_eq hdistinct hat]
  exact Nat.le_add_right _ _

theorem share_le_div_add_one (hdistinct : bucket.members.Nodup)
    (hmem : handle ∈ bucket.members) :
    bucket.share handle ≤ 2 ^ 64 / bucket.count + 1 := by
  obtain ⟨i, hat⟩ := List.mem_iff_getElem?.mp hmem
  rw [share_eq hdistinct hat]
  split
  · exact Nat.le_refl _
  · exact Nat.le_succ _

/-- As many times as there are members, a share makes up all words but for less than
one word for each member. -/
theorem share_mul_count_near (hdistinct : bucket.members.Nodup)
    (hmem : handle ∈ bucket.members) :
    bucket.share handle * bucket.count < 2 ^ 64 + bucket.count ∧
      2 ^ 64 < bucket.share handle * bucket.count + bucket.count := by
  obtain ⟨i, hat⟩ := List.mem_iff_getElem?.mp hmem
  have hpositive : 0 < bucket.count := List.length_pos_of_mem hmem
  have hsplit := Nat.div_add_mod (2 ^ 64) bucket.count
  have hremainder := Nat.mod_lt (2 ^ 64) hpositive
  rw [share_eq hdistinct hat, Nat.add_mul, Nat.mul_comm (2 ^ 64 / bucket.count)]
  split
  · omega
  · omega

theorem bias_eq (hcount : 0 < bucket.count) :
    bucket.bias handle =
      |(bucket.share handle : ℚ) * bucket.count - 2 ^ 64| / 2 ^ 64 := by
  have hpositive : (0 : ℚ) < bucket.count := by
    exact_mod_cast hcount
  calc
    bucket.bias handle =
      |bucket.chance handle - 1 / bucket.count| * bucket.count := by
      rw [bias, div_div_eq_mul_div, div_one]
    _ = |(bucket.chance handle - 1 / bucket.count) * bucket.count| := by
      rw [abs_mul, abs_of_pos hpositive]
    _ = |((bucket.share handle : ℚ) * bucket.count - 2 ^ 64) / 2 ^ 64| := by
      congr 1
      rw [chance, sub_mul, one_div_mul_cancel hpositive.ne', sub_div,
        div_self (by norm_num), div_mul_eq_mul_div]
    _ = |(bucket.share handle : ℚ) * bucket.count - 2 ^ 64| / 2 ^ 64 := by
      rw [abs_div, abs_of_pos (by norm_num : (0 : ℚ) < 2 ^ 64)]

theorem bias_lt (hdistinct : bucket.members.Nodup)
    (hmem : handle ∈ bucket.members) :
    bucket.bias handle < bucket.count / 2 ^ 64 := by
  obtain ⟨habove, hbelow⟩ := share_mul_count_near hdistinct hmem
  have habove :
      (bucket.share handle : ℚ) * bucket.count < 2 ^ 64 + bucket.count := by
    exact_mod_cast habove
  have hbelow :
      (2 ^ 64 : ℚ) < bucket.share handle * bucket.count + bucket.count := by
    exact_mod_cast hbelow
  rw [bias_eq (List.length_pos_of_mem hmem),
    div_lt_div_iff_of_pos_right (by norm_num), abs_lt]
  constructor
  · linarith
  · linarith

/-- Any member is picked by the word that is its own position. -/
theorem exists_word_of_mem (hsize : bucket.count < 2 ^ 64)
    (hmem : handle ∈ bucket.members) :
    ∃ word, (bucket.drawing word).pick.1 = .ok handle := by
  obtain ⟨i, hat⟩ := List.mem_iff_getElem?.mp hmem
  obtain ⟨hi, _⟩ := List.getElem?_eq_some_iff.mp hat
  have hword : (UInt64.ofNat i).toNat = i := by
    rw [UInt64.toNat_ofNat']
    exact Nat.mod_eq_of_lt (hi.trans hsize)
  have hposition : i % bucket.count = i := Nat.mod_eq_of_lt hi
  refine ⟨.ofNat i, ?_⟩
  rw [pick_drawing, drawn_eq_ok_iff, hword, hposition, hat]

end Bucket

/-- Of the words that a pick can read, every member has as many as any other or one
more, and it has one more exactly if its position is below the remainder.  With up
to sixteen members the bias of each chance is below `2 ^ -59`. -/
theorem picks_are_almost_even {session : Session} (reached : session.Reachable)
    (hsize : session.bucket.count < 2 ^ 64) :
    let bucket := session.bucket
    (∀ i handle, bucket.members[i]? = some handle →
      bucket.share handle =
        2 ^ 64 / bucket.count + if i < 2 ^ 64 % bucket.count then 1 else 0) ∧
    (bucket.members ≠ [] → ∀ word : UInt64,
      ∃ handle, bucket.members[word.toNat % bucket.count]? = some handle ∧
        (bucket.drawing word).pick.1 = .ok handle) ∧
    (∀ handle ∈ bucket.members, ∃ word, (bucket.drawing word).pick.1 = .ok handle) ∧
    (∀ first ∈ bucket.members, ∀ second ∈ bucket.members,
      bucket.share first ≤ bucket.share second + 1) ∧
    (bucket.count ≤ 16 →
      ∀ handle ∈ bucket.members, bucket.bias handle < 1 / 2 ^ 59) ∧
    (∀ bytes handle, bucket.entropy.read bucket.reads 8 = .ok bytes →
      (bucket.pick.1 = .ok handle ↔
        bytes.toNat ∈ bucket.drawsFor (· = handle))) := by
  intro bucket
  have hdistinct : bucket.members.Nodup := reached.bounded.nodup_members
  refine ⟨fun i handle => Bucket.share_eq hdistinct, ?_,
    fun handle => Bucket.exists_word_of_mem hsize, ?_, ?_, ?_⟩
  · intro hsome word
    obtain ⟨handle, hdrawn⟩ := Bucket.exists_drawn_eq_ok hsome word.toNat
    exact ⟨handle, Bucket.drawn_eq_ok_iff.mp hdrawn,
      (bucket.pick_drawing word).trans hdrawn⟩
  · intro first hfirst second hsecond
    exact (Bucket.share_le_div_add_one hdistinct hfirst).trans
      (Nat.succ_le_succ (Bucket.div_le_share hdistinct hsecond))
  · intro hfew handle hmem
    have hcount : (bucket.count : ℚ) ≤ 16 := by
      exact_mod_cast hfew
    calc
      bucket.bias handle < bucket.count / 2 ^ 64 := Bucket.bias_lt hdistinct hmem
      _ ≤ 16 / 2 ^ 64 := by gcongr
      _ < 1 / 2 ^ 59 := by norm_num
  · intro bytes handle hread
    rw [Bucket.toNat_mem_drawsFor_iff hread]
    simp

/-- Three members, the first of which was touched and is now the last: the words do
not divide by three, so the first position has one word more than the others.  The
word at hand falls on the last position. -/
theorem picks_are_almost_even_trial :
    let session := (Session.mk (.start .small (.fixed 5) 0) .sample).final
      [(1, .add (.sampleAt 0 1 1)), (2, .add (.sampleAt 1 2 1)),
        (3, .add (.sampleAt 2 3 2)), (4, .touch (.ofNat 1))]
    let bucket := session.bucket
    session.Reachable ∧ bucket.count < 2 ^ 64 ∧
      bucket.members = [.sampleAt 1 2 1, .sampleAt 2 3 2, .sampleAt 0 1 1] ∧
      bucket.share (.sampleAt 1 2 1) = 6148914691236517206 ∧
      bucket.share (.sampleAt 2 3 2) = 6148914691236517205 ∧
      bucket.share (.sampleAt 0 1 1) = 6148914691236517205 ∧
      bucket.bias (.sampleAt 1 2 1) < 1 / 2 ^ 59 ∧
      (EntropySource.cycled 5 8).toNat ∈ bucket.drawsFor (· = .sampleAt 0 1 1) := by
  intro session bucket
  have reached : session.Reachable :=
    .of_usable (by decide) (by decide) (.fixed 5) 0 .sample _
  have hsize : bucket.count < 2 ^ 64 := by decide
  obtain ⟨hshare, _, _, _, hbias, hpick⟩ := picks_are_almost_even reached hsize
  have hpicked : bucket.pick.1 = .ok (.sampleAt 0 1 1) := by decide
  refine ⟨reached, hsize, by decide, ?_, ?_, ?_, ?_, ?_⟩
  · exact (hshare 0 (.sampleAt 1 2 1) (by decide)).trans (by decide)
  · exact (hshare 1 (.sampleAt 2 3 2) (by decide)).trans (by decide)
  · exact (hshare 2 (.sampleAt 0 1 1) (by decide)).trans (by decide)
  · exact hbias (by decide) (.sampleAt 1 2 1) (by decide)
  · exact (hpick (EntropySource.cycled 5 8) _ rfl).mp hpicked

end Kademlia
