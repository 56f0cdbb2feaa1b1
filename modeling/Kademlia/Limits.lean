/-
The limits a bucket keeps: how many peers it may hold and how many of them may
share an address.
-/

namespace Kademlia

structure Limits where
  size : Nat
  perIp : Nat
deriving DecidableEq

/-- Why limits are refused. -/
inductive LimitsError where
  | noRoom
  | noRoomPerIp
  | perIpAboveSize (perIp size : Nat)
deriving DecidableEq

def LimitsError.message : LimitsError → String
  | .noRoom => "max_bucket_size must be at least 1"
  | .noRoomPerIp => "max_peers_per_ip must be at least 1"
  | .perIpAboveSize perIp size =>
      s!"max_peers_per_ip ({perIp}) exceeds max_bucket_size ({size})"

namespace Limits

def standard : Limits :=
  ⟨16, 3⟩

/-- Small limits for trials. -/
def small : Limits :=
  ⟨4, 2⟩

/-- Limits a bucket can be filled under. -/
def Usable (limits : Limits) : Prop :=
  1 ≤ limits.perIp ∧ limits.perIp ≤ limits.size

instance (limits : Limits) : Decidable limits.Usable :=
  inferInstanceAs (Decidable (_ ∧ _))

/-- Refuse limits that are not usable.  A missing room is reported first. -/
def validate (limits : Limits) : Except LimitsError Unit :=
  if limits.size = 0 then .error .noRoom
  else if limits.perIp = 0 then .error .noRoomPerIp
  else if limits.size < limits.perIp then
    .error (.perIpAboveSize limits.perIp limits.size)
  else .ok ()

theorem validate_eq_ok_iff (limits : Limits) :
    limits.validate = .ok () ↔ limits.Usable := by
  unfold validate Usable
  split
  · simp
    omega
  · split
    · simp
      omega
    · split
      · simp
        omega
      · simp
        omega

end Limits

/-- Anything that bucket limits can be taken from. -/
class LimitsProvider (α : Type) where
  limits : α → Limits

/-- Limits given outright. -/
structure FixedLimits where
  limits : Limits := .standard

instance : LimitsProvider FixedLimits where
  limits := FixedLimits.limits

end Kademlia
