/-
Distances and the beginnings that identifiers share.  The leading zeros of a
distance count the bits, from the most significant one on, that two identifiers have
in common.  So the longer the common beginning the smaller the distance, and a
ranking by distance is one by common beginnings.
-/
import Mathlib
import Kademlia.Proofs.Metric
import Kademlia.Proofs.Ranking

namespace Kademlia

/-- The bits of a byte, the most significant first. -/
def byteBits (byte : UInt8) : List Bool :=
  (List.range 8).reverse.map byte.toNat.testBit

theorem testBit_ofBigEndian_concat (bytes : List UInt8) (byte : UInt8)
    (place : Nat) :
    (ofBigEndian (bytes ++ [byte])).testBit place =
      if place < 8 then byte.toNat.testBit place
      else (ofBigEndian bytes).testBit (place - 8) := by
  rw [ofBigEndian_concat]
  exact Nat.testBit_two_pow_mul_add (ofBigEndian bytes) byte.toNat_lt place

/-- The bits of the bytes, one after the other, are the bits of the number. -/
theorem flatMap_byteBits (bytes : List UInt8) :
    bytes.flatMap byteBits =
      (List.range (8 * bytes.length)).reverse.map (ofBigEndian bytes).testBit := by
  induction bytes using List.reverseRecOn with
  | nil => rfl
  | append_singleton bytes byte ih =>
      have hlower :
          (List.range 8).reverse.map (ofBigEndian (bytes ++ [byte])).testBit =
          byteBits byte := by
        rw [byteBits, List.map_inj_left]
        intro place hplace
        have hlt : place < 8 := List.mem_range.mp (List.mem_reverse.mp hplace)
        rw [testBit_ofBigEndian_concat, if_pos hlt]
      have hupper : (ofBigEndian (bytes ++ [byte])).testBit ∘ (8 + ·) =
          (ofBigEndian bytes).testBit := by
        funext place
        simp [testBit_ofBigEndian_concat]
      have hrange : List.range (8 * (bytes ++ [byte]).length) =
          List.range 8 ++ (List.range (8 * bytes.length)).map (8 + ·) := by
        rw [← List.range_add, List.length_append,
          List.length_singleton, Nat.mul_succ, Nat.add_comm]
      rw [List.flatMap_append, List.flatMap_singleton, ih, hrange,
        List.reverse_append, List.map_append, hlower, ← List.map_reverse,
        List.map_map, hupper]

namespace Distance

theorem leadingZeros_le (d : Distance) : d.leadingZeros ≤ 128 := by
  unfold leadingZeros
  split
  · exact Nat.le_refl 128
  · omega

/-- A distance has as many leading zeros as its number leaves bits unused. -/
theorem le_leadingZeros_iff {d : Distance} {n : Nat} (hn : n ≤ 128) :
    n ≤ d.leadingZeros ↔ d.toNat < 2 ^ (128 - n) := by
  unfold leadingZeros
  by_cases hzero : d.toNat = 0
  · rw [if_pos hzero, hzero]
    exact iff_of_true hn (Nat.two_pow_pos _)
  · have hhigh : d.toNat.log2 < 128 := (Nat.log2_lt hzero).mpr d.toNat_lt
    rw [if_neg hzero, ← Nat.log2_lt hzero]
    omega

theorem leadingZeros_antitone {d e : Distance} (h : d.toNat ≤ e.toNat) :
    e.leadingZeros ≤ d.leadingZeros := by
  have hbound :=
    (le_leadingZeros_iff e.leadingZeros_le).mp (Nat.le_refl e.leadingZeros)
  rw [le_leadingZeros_iff e.leadingZeros_le]
  exact Nat.lt_of_le_of_lt h hbound

theorem toNat_lt_of_leadingZeros_lt {d e : Distance}
    (h : e.leadingZeros < d.leadingZeros) : d.toNat < e.toNat := by
  by_contra hle
  exact Nat.not_le_of_lt h (leadingZeros_antitone (Nat.le_of_not_lt hle))

end Distance

namespace NodeId

variable {a b c : NodeId} {n : Nat}

/-- The bits of an identifier, byte by byte, the most significant first. -/
def bits (id : NodeId) : List Bool :=
  id.bytes.toList.flatMap byteBits

theorem bits_eq (id : NodeId) :
    id.bits = (List.range 128).reverse.map id.toNat.testBit := by
  rw [bits, flatMap_byteBits, id.bytes.length_toList]
  rfl

theorem take_bits_eq_iff :
    a.bits.take n = b.bits.take n ↔
      ∀ place, 128 - n ≤ place → place < 128 →
        a.toNat.testBit place = b.toNat.testBit place := by
  have hplaces : ∀ place, place ∈ (List.range 128).reverse.take n ↔
      128 - n ≤ place ∧ place < 128 := by
    intro place
    rw [List.take_reverse, List.mem_reverse, List.length_range,
      List.range_eq_range', List.drop_range', List.mem_range'_1]
    omega
  rw [bits_eq, bits_eq, ← List.map_take, ← List.map_take, List.map_inj_left]
  simp only [hplaces, and_imp]

/-- The distance is small where the bits agree. -/
theorem toNat_distance_lt_iff :
    (a.distance b).toNat < 2 ^ (128 - n) ↔ a.bits.take n = b.bits.take n := by
  rw [take_bits_eq_iff, toNat_distance]
  constructor
  · intro hlt place hplace _
    have hclear : (a.toNat ^^^ b.toNat).testBit place = false := by
      apply Nat.testBit_lt_two_pow
      exact Nat.lt_of_lt_of_le hlt (Nat.pow_le_pow_right (by decide) hplace)
    rw [Nat.testBit_xor] at hclear
    simpa using hclear
  · intro hagree
    apply Nat.lt_pow_two_of_testBit
    intro place hplace
    rw [Nat.testBit_xor]
    rcases Nat.lt_or_ge place 128 with hlt | hge
    · rw [hagree place hplace hlt, Bool.xor_self]
    · have hbound : 2 ^ 128 ≤ 2 ^ place := Nat.pow_le_pow_right (by decide) hge
      rw [Nat.testBit_lt_two_pow (Nat.lt_of_lt_of_le a.toNat_lt hbound),
        Nat.testBit_lt_two_pow (Nat.lt_of_lt_of_le b.toNat_lt hbound),
        Bool.xor_self]

theorem le_leadingZeros_distance_iff (hn : n ≤ 128) :
    n ≤ (a.distance b).leadingZeros ↔ a.bits.take n = b.bits.take n := by
  rw [Distance.le_leadingZeros_iff hn, toNat_distance_lt_iff]

theorem leadingZeros_distance_eq_iff :
    (a.distance b).leadingZeros = 128 ↔ a = b := by
  have hmax := (a.distance b).leadingZeros_le
  rw [Nat.eq_iff_le_and_ge, and_iff_right hmax,
    Distance.le_leadingZeros_iff (Nat.le_refl 128), Nat.sub_self, Nat.pow_zero,
    Nat.lt_one_iff, toNat_distance, Nat.xor_eq_zero_iff, toNat_inj]

/-- Bits that two identifiers share with a third one they share with each other. -/
theorem min_leadingZeros_le (a b c : NodeId) :
    min (a.distance b).leadingZeros (b.distance c).leadingZeros ≤
      (a.distance c).leadingZeros := by
  have hmax : min (a.distance b).leadingZeros (b.distance c).leadingZeros ≤ 128 :=
    (Nat.min_le_left _ _).trans (a.distance b).leadingZeros_le
  have hfirst := (le_leadingZeros_distance_iff hmax).mp (Nat.min_le_left _ _)
  have hsecond := (le_leadingZeros_distance_iff hmax).mp (Nat.min_le_right _ _)
  exact (le_leadingZeros_distance_iff hmax).mpr (hfirst.trans hsecond)

/-- Of three identifiers, the two closest to each other are equally far from the
third. -/
theorem leadingZeros_eq_min
    (hne : (a.distance b).leadingZeros ≠ (b.distance c).leadingZeros) :
    (a.distance c).leadingZeros =
      min (a.distance b).leadingZeros (b.distance c).leadingZeros := by
  have hac := min_leadingZeros_le a b c
  have hbc := min_leadingZeros_le b a c
  have hab := min_leadingZeros_le a c b
  rw [distance_comm b a] at hbc
  rw [distance_comm c b] at hab
  omega

end NodeId

/-- The bits that a peer shares with the target get fewer along a ranking. -/
theorem rankByDistance_pairwise_leadingZeros (target : NodeId)
    (handles : List Handle) :
    (rankByDistance target handles).Pairwise fun first second =>
      (second.id.distance target).leadingZeros ≤
        (first.id.distance target).leadingZeros :=
  (rankByDistance_pairwise_asClose target handles).imp
    Distance.leadingZeros_antitone

/-- A distance has at least `n` leading zeros exactly if the identifiers agree in
their first `n` bits.  Of the bits shared by three identifiers the fewest are shared
at least twice, and whoever shares more bits with a target is closer to it. -/
theorem distances_tell_shared_prefixes (a b c target : NodeId) :
    (∀ n ≤ 128, n ≤ (a.distance b).leadingZeros ↔ a.bits.take n = b.bits.take n) ∧
    ((a.distance b).leadingZeros = 128 ↔ a = b) ∧
    min (a.distance b).leadingZeros (b.distance c).leadingZeros ≤
      (a.distance c).leadingZeros ∧
    ((a.distance b).leadingZeros ≠ (b.distance c).leadingZeros →
      (a.distance c).leadingZeros =
        min (a.distance b).leadingZeros (b.distance c).leadingZeros) ∧
    ((b.distance target).leadingZeros < (a.distance target).leadingZeros →
      compare (a.distance target) (b.distance target) = .lt) ∧
    ∀ handles, (rankByDistance target handles).Pairwise fun first second =>
      (second.id.distance target).leadingZeros ≤
        (first.id.distance target).leadingZeros := by
  refine ⟨fun _ => NodeId.le_leadingZeros_distance_iff,
    NodeId.leadingZeros_distance_eq_iff, NodeId.min_leadingZeros_le a b c,
    NodeId.leadingZeros_eq_min, ?_, rankByDistance_pairwise_leadingZeros target⟩
  intro hshorter
  exact Nat.compare_eq_lt.mpr (Distance.toNat_lt_of_leadingZeros_lt hshorter)

/-- Two identifiers that differ in their sixteenth bit, one that differs from both
in the eighth, and a target that goes with the first for one bit more. -/
theorem distances_tell_shared_prefixes_trial :
    let a : NodeId := .ofNat 0x5a5a0000000000000000000000000001
    let b : NodeId := .ofNat 0x5a5b0000000000000000000000000001
    let c : NodeId := .ofNat 0x5b000000000000000000000000000000
    let target : NodeId := .ofNat 0x5a5a8000000000000000000000000000
    (a.distance b).leadingZeros = 15 ∧ (b.distance c).leadingZeros = 7 ∧
      a.bits.take 15 = b.bits.take 15 ∧ a.bits.take 16 ≠ b.bits.take 16 ∧
      (a.distance c).leadingZeros = 7 ∧
      (b.distance target).leadingZeros < (a.distance target).leadingZeros ∧
      compare (a.distance target) (b.distance target) = .lt := by
  intro a b c target
  obtain ⟨hagree, _, _, hmin, hcloser, _⟩ :=
    distances_tell_shared_prefixes a b c target
  have hab : (a.distance b).leadingZeros = 15 := by decide
  have hbc : (b.distance c).leadingZeros = 7 := by decide
  have hshorter : (b.distance target).leadingZeros <
      (a.distance target).leadingZeros := by decide
  rw [hab, hbc] at hmin
  rw [hab] at hagree
  refine ⟨hab, hbc, ?_, ?_, hmin (by decide), hshorter, hcloser hshorter⟩
  · exact (hagree 15 (by decide)).mp (Nat.le_refl 15)
  · exact fun hsame => absurd ((hagree 16 (by decide)).mpr hsame) (by decide)

end Kademlia
