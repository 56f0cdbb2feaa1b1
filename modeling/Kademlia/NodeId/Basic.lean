/-
Node identifiers: sixteen bytes, read as one 128-bit number with the most
significant byte first.  Equality is decided without stopping at the first
difference, and the order is that of the bytes.
-/
import Kademlia.Octets

namespace Kademlia

/-- How many bytes an identifier has. -/
abbrev NodeId.length : Nat := 16

structure NodeId where
  bytes : Octets NodeId.length

namespace NodeId

@[ext] theorem ext {a b : NodeId} (h : a.bytes = b.bytes) : a = b := by
  cases a
  cases b
  simpa using h

def toNat (id : NodeId) : Nat :=
  id.bytes.toNat

/-- The identifier with the given number, taken modulo `2 ^ 128`. -/
def ofNat (value : Nat) : NodeId :=
  ⟨Octets.ofNat value⟩

def zero : NodeId :=
  ⟨⟨List.replicate NodeId.length 0, rfl⟩⟩

theorem ofNat_toNat (id : NodeId) : ofNat id.toNat = id :=
  ext (Octets.ofNat_toNat id.bytes)

theorem toNat_inj {a b : NodeId} : a.toNat = b.toNat ↔ a = b :=
  ⟨fun h => ext (Octets.toNat_inj.mp h), fun h => by rw [h]⟩

/-- The bits in which the bytes of two identifiers differ, gathered into one
byte.  Every pair of bytes is read whatever the earlier ones held, so the work
done tells nothing about how long a beginning the two share. -/
def mismatch (a b : NodeId) : UInt8 :=
  (List.zipWith (· ^^^ ·) a.bytes.toList b.bytes.toList).foldl (· ||| ·) 0

theorem foldl_or_eq_zero_iff (bytes : List UInt8) (seen : UInt8) :
    bytes.foldl (· ||| ·) seen = 0 ↔ seen = 0 ∧ ∀ byte ∈ bytes, byte = 0 := by
  induction bytes generalizing seen with
  | nil => simp
  | cons byte rest ih =>
      rw [List.foldl_cons, ih, UInt8.or_eq_zero_iff]
      simp [and_assoc]

theorem zipWith_xor_eq_zero_iff :
    ∀ {as bs : List UInt8}, as.length = bs.length →
      ((∀ byte ∈ List.zipWith (· ^^^ ·) as bs, byte = 0) ↔ as = bs)
  | [], [], _ => by simp
  | a :: as, b :: bs, h => by
      have ih := zipWith_xor_eq_zero_iff (Nat.succ.inj h)
      simp only [List.zipWith_cons_cons, List.forall_mem_cons,
        UInt8.xor_eq_zero_iff, List.cons.injEq]
      rw [ih]

theorem length_bytes_eq (a b : NodeId) :
    a.bytes.toList.length = b.bytes.toList.length := by
  rw [a.bytes.length_toList, b.bytes.length_toList]

/-- Nothing differs exactly when the identifiers are the same. -/
theorem mismatch_eq_zero_iff {a b : NodeId} : a.mismatch b = 0 ↔ a = b := by
  rw [mismatch, foldl_or_eq_zero_iff, zipWith_xor_eq_zero_iff (length_bytes_eq a b)]
  constructor
  · exact fun h => ext (Octets.ext h.2)
  · exact fun h => ⟨rfl, by rw [h]⟩

instance : DecidableEq NodeId := fun a b =>
  decidable_of_iff (a.mismatch b = 0) mismatch_eq_zero_iff

/-- Byte by byte from the most significant, which is also numeric order. -/
instance : Ord NodeId where
  compare a b := compare a.bytes.toList b.bytes.toList

instance : LT NodeId := ltOfOrd

instance (a b : NodeId) : Decidable (a < b) :=
  inferInstanceAs (Decidable (compare a b = .lt))

end NodeId

end Kademlia
