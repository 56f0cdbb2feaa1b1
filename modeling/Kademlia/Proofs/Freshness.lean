/-
What the history of a peer leaves of it.  Each thing known of its liveness is told
by one of its past changes, the last that had a say in it: the last contact tells
when the peer was seen, when it expires and of what kind it is, and each of the
flags has a last change of its own.
-/
import Mathlib
import Kademlia.Peer.Basic

namespace Kademlia

namespace Change

/-- The moment of the contact that a change records. -/
def contact? : Change → Option Instant
  | refreshAt now => some now
  | _ => none

/-- Whether the peer is alive, as far as a change says.  Whoever is heard from
is. -/
def aliveness? : Change → Option Bool
  | setAlive alive => some alive
  | refreshAt _ => some true
  | setVerified _ => none

/-- Whether the peer is verified, as far as a change says. -/
def verification? : Change → Option Bool
  | setVerified verified => some verified
  | _ => none

section LastTold

variable {α : Type} {told : Change → Option α} {changes : List Change}

/-- What the last change says that says anything. -/
def lastTold (told : Change → Option α) (changes : List Change) : Option α :=
  (changes.filterMap told).getLast?

theorem lastTold_concat (told : Change → Option α) (changes : List Change)
    (change : Change) :
    lastTold told (changes ++ [change]) =
      (told change).or (lastTold told changes) := by
  rw [lastTold, List.filterMap_append]
  cases h : told change with
  | none => simp [h, lastTold]
  | some said => simp [h]

theorem lastTold_contact?_eq_none_iff :
    lastTold contact? changes = none ↔ ∀ moment, refreshAt moment ∉ changes := by
  rw [lastTold, List.getLast?_eq_none_iff, List.filterMap_eq_nil_iff]
  constructor
  · intro hnone moment hmem
    cases hnone (refreshAt moment) hmem
  · intro hnone change hmem
    cases change with
    | setAlive alive => rfl
    | setVerified verified => rfl
    | refreshAt moment => exact absurd hmem (hnone moment)

end LastTold

end Change

namespace Liveness

open Change

variable {α β : Type}

/-- A change either says what becomes of a field, given when the peer was created,
or leaves the field alone. -/
def Follows (field : Liveness → β) (told : Change → Option α)
    (value : Instant → α → β) : Prop :=
  ∀ liveness change, field (apply liveness change) =
    (told change).elim (field liveness) (value liveness.createdAt)

theorem createdAt_foldl (liveness : Liveness) (changes : List Change) :
    (changes.foldl apply liveness).createdAt = liveness.createdAt := by
  induction changes generalizing liveness with
  | nil => rfl
  | cons change rest ih =>
      rw [List.foldl_cons, ih]
      cases change with
      | setAlive alive => rfl
      | setVerified verified => rfl
      | refreshAt now => rfl

/-- After many changes a field is what the last that had a say in it says. -/
theorem Follows.foldl {field : Liveness → β} {told : Change → Option α}
    {value : Instant → α → β} (h : Follows field told value) (liveness : Liveness)
    (changes : List Change) :
    field (changes.foldl apply liveness) =
      (lastTold told changes).elim (field liveness) (value liveness.createdAt) := by
  induction changes using List.reverseRecOn with
  | nil => rfl
  | append_singleton changes change ih =>
      rw [List.foldl_append, List.foldl_cons, List.foldl_nil, h, createdAt_foldl,
        lastTold_concat]
      cases told change with
      | none => exact ih
      | some said => rfl

theorem lastSeen_follows :
    Follows lastSeen contact? fun _ moment => some moment := by
  intro liveness change
  cases change <;> rfl

theorem expiresAt_follows :
    Follows expiresAt contact? fun _ moment => some (moment + peerTtl) := by
  intro liveness change
  cases change <;> rfl

theorem kind_follows : Follows kind contact?
    fun createdAt moment => .ofAge (moment - createdAt).toNat := by
  intro liveness change
  cases change <;> rfl

theorem alive_follows : Follows alive aliveness? fun _ alive => alive := by
  intro liveness change
  cases change <;> rfl

theorem verified_follows :
    Follows verified verification? fun _ verified => verified := by
  intro liveness change
  cases change <;> rfl

section Unseen

variable (createdAt : Instant) (verified alive : Bool) (changes : List Change)

theorem lastSeen_foldl_unseen :
    (changes.foldl apply (unseen createdAt verified alive)).lastSeen =
      lastTold contact? changes := by
  rw [lastSeen_follows.foldl]
  cases lastTold contact? changes with
  | none => rfl
  | some moment => rfl

theorem expiresAt_foldl_unseen :
    (changes.foldl apply (unseen createdAt verified alive)).expiresAt =
      (lastTold contact? changes).map fun moment : Instant => moment + peerTtl := by
  rw [expiresAt_follows.foldl]
  cases lastTold contact? changes with
  | none => rfl
  | some moment => rfl

theorem isExpired_foldl_unseen {now : Instant} :
    (changes.foldl apply (unseen createdAt verified alive)).isExpired now = true ↔
      lastTold contact? changes = none ∨
        ∃ moment, lastTold contact? changes = some moment ∧
          moment + peerTtl ≤ now := by
  rw [isExpired, expiresAt_foldl_unseen]
  cases lastTold contact? changes with
  | none => simp
  | some moment => simp

/-- A negative age counts as none. -/
theorem kind_foldl_unseen :
    (changes.foldl apply (unseen createdAt verified alive)).kind =
      (lastTold contact? changes).elim .fresh
        fun moment => .ofAge (max 0 (moment - createdAt)).toNat := by
  rw [kind_follows.foldl]
  cases lastTold contact? changes with
  | none => rfl
  | some moment =>
      have hage : (max 0 (moment - createdAt)).toNat =
          (moment - createdAt).toNat := by
        omega
      rw [Option.elim_some, Option.elim_some, hage]
      rfl

theorem alive_foldl_unseen :
    (changes.foldl apply (unseen createdAt verified alive)).alive =
      (lastTold aliveness? changes).getD alive := by
  rw [alive_follows.foldl]
  cases lastTold aliveness? changes with
  | none => rfl
  | some said => rfl

theorem verified_foldl_unseen :
    (changes.foldl apply (unseen createdAt verified alive)).verified =
      (lastTold verification? changes).getD verified := by
  rw [verified_follows.foldl]
  cases lastTold verification? changes with
  | none => rfl
  | some said => rfl

end Unseen

end Liveness

/-- Changes reach the liveness of a peer and nothing else. -/
theorem Peer.foldl_apply (peer : Peer) (changes : List Change) :
    changes.foldl Peer.apply peer =
      ⟨peer.contact, changes.foldl Liveness.apply peer.liveness⟩ := by
  induction changes generalizing peer with
  | nil => rfl
  | cons change rest ih => exact ih (peer.apply change)

open Change in
/-- However a peer is changed, with moments in any order, each field is told by the
last change that bears on it: the last contact for when it was seen, when it expires
and its kind, and also the last declaration for the two flags. -/
theorem liveness_told_by_last_changes (contact : Contact) (createdAt : Instant)
    (verified alive : Bool) (changes : List Change) :
    let peer := changes.foldl Peer.apply ⟨contact, .unseen createdAt verified alive⟩
    let last := lastTold contact? changes
    let hour : Instant := 3600 * 1000000000
    peer.contact = contact ∧ peer.liveness.createdAt = createdAt ∧
    (last = none ↔ ∀ moment, .refreshAt moment ∉ changes) ∧
    peer.liveness.lastSeen = last ∧
    peer.liveness.expiresAt = last.map (· + hour) ∧
    (∀ now, peer.liveness.isExpired now = true ↔
      last = none ∨ ∃ moment, last = some moment ∧ moment + hour ≤ now) ∧
    peer.liveness.kind =
      last.elim .fresh (fun moment => .ofAge (max 0 (moment - createdAt)).toNat) ∧
    peer.liveness.alive = (lastTold aliveness? changes).getD alive ∧
    peer.liveness.verified = (lastTold verification? changes).getD verified := by
  intro peer last hour
  have hpeer : peer = ⟨contact,
      changes.foldl Liveness.apply (.unseen createdAt verified alive)⟩ :=
    Peer.foldl_apply _ changes
  rw [hpeer]
  exact ⟨rfl, Liveness.createdAt_foldl _ changes, lastTold_contact?_eq_none_iff,
    Liveness.lastSeen_foldl_unseen createdAt verified alive changes,
    Liveness.expiresAt_foldl_unseen createdAt verified alive changes,
    fun _ => Liveness.isExpired_foldl_unseen createdAt verified alive changes,
    Liveness.kind_foldl_unseen createdAt verified alive changes,
    Liveness.alive_foldl_unseen createdAt verified alive changes,
    Liveness.verified_foldl_unseen createdAt verified alive changes⟩

/-- After a contact in the third hour, one dated before the creation and a
declaration of death, the second contact tells everything but the flag. -/
example :
    let peer : Peer :=
      [.refreshAt 7200000000001, .refreshAt (-5), .setAlive false].foldl
      Peer.apply ⟨(Peer.sample 1).contact, .unseen 0 false false⟩
    peer.liveness = ⟨false, false, 0, some (-5), some 3599999999995, .fresh⟩ := by
  decide

end Kademlia
