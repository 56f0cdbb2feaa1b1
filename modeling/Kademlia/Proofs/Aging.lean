/-
How the kind of a peer follows its age.  Whole seconds are taken of an age and whole
hours of these, yet the kinds change exactly at one and at two hours, to the
nanosecond.  A later contact never makes a peer younger, so neither does a run of
contacts in order.
-/
import Mathlib
import Kademlia.Bucket.Lemmas
import Kademlia.Proofs.Freshness

namespace Kademlia

namespace PeerKind

theorem rank_inj {first second : PeerKind} :
    first.rank = second.rank ↔ first = second := by
  cases first <;> cases second <;> decide

theorem isLE_compare_iff {first second : PeerKind} :
    (compare first second).isLE = true ↔ first.rank ≤ second.rank :=
  Nat.isLE_compare

/-- Seconds and then hours cut off are hours cut off. -/
theorem rank_ofAge (age : Nat) :
    (ofAge age).rank = min (age / 3600000000000) 2 := by
  have hhours : age / nanosPerSecond / secondsPerHour = age / 3600000000000 :=
    Nat.div_div_eq_div_mul age nanosPerSecond secondsPerHour
  rw [ofAge, hhours]
  generalize age / 3600000000000 = hours
  match hours with
  | 0 => rfl
  | 1 => rfl
  | more + 2 => exact (min_eq_right (Nat.le_add_left 2 more)).symm

/-! The limits between the kinds.  A negative age counts as none. -/

theorem ofAge_eq_iff {age : Nat} {kind : PeerKind} :
    ofAge age = kind ↔ min (age / 3600000000000) 2 = kind.rank := by
  rw [← rank_ofAge, rank_inj]

theorem ofAge_eq_fresh_iff {age : Int} :
    ofAge age.toNat = .fresh ↔ age < 3600 * 10 ^ 9 := by
  rw [ofAge_eq_iff, rank]
  omega

theorem ofAge_eq_established_iff {age : Int} :
    ofAge age.toNat = .established ↔ 3600 * 10 ^ 9 ≤ age ∧ age < 7200 * 10 ^ 9 := by
  rw [ofAge_eq_iff, rank]
  omega

theorem ofAge_eq_stable_iff {age : Int} :
    ofAge age.toNat = .stable ↔ 7200 * 10 ^ 9 ≤ age := by
  rw [ofAge_eq_iff, rank]
  omega

end PeerKind

namespace Liveness

open Change

variable {liveness : Liveness} {earlier later : Instant}

/-- A contact that is not earlier finds a peer not younger. -/
theorem rank_ofAge_le (createdAt : Instant) (h : earlier ≤ later) :
    (PeerKind.ofAge (earlier - createdAt).toNat).rank ≤
      (PeerKind.ofAge (later - createdAt).toNat).rank := by
  have hage : (earlier - createdAt).toNat ≤ (later - createdAt).toNat :=
    Int.toNat_le_toNat (Int.sub_le_sub_right h createdAt)
  rw [PeerKind.rank_ofAge, PeerKind.rank_ofAge]
  exact min_le_min_right 2 (Nat.div_le_div_right hage)

theorem kind_foldl (liveness : Liveness) (changes : List Change) :
    (changes.foldl apply liveness).kind =
      (lastTold contact? changes).elim liveness.kind
      fun moment => .ofAge (moment - liveness.createdAt).toNat :=
  kind_follows.foldl liveness changes

theorem kind_foldl_contact (liveness : Liveness) (changes : List Change)
    (now : Instant) :
    ((changes ++ [refreshAt now]).foldl apply liveness).kind =
      .ofAge (now - liveness.createdAt).toNat := by
  rw [kind_foldl, lastTold_concat]
  rfl

/-- Of contacts in order, the last one so far is not later than the last of all. -/
theorem rank_kind_foldl_le (hfresh : liveness.kind = .fresh)
    {first rest : List Change}
    (hclock : ((first ++ rest).filterMap contact?).Pairwise (· ≤ ·)) :
    (first.foldl apply liveness).kind.rank ≤
      ((first ++ rest).foldl apply liveness).kind.rank := by
  rw [kind_foldl, kind_foldl, lastTold, lastTold, List.filterMap_append,
    List.getLast?_append]
  rw [List.filterMap_append, List.pairwise_append] at hclock
  cases hfirst : (first.filterMap contact?).getLast? with
  | none =>
      rw [Option.elim_none, hfresh]
      exact Nat.zero_le _
  | some earlier =>
      cases hrest : (rest.filterMap contact?).getLast? with
      | none => exact Nat.le_refl _
      | some later =>
          have hle : earlier ≤ later :=
            hclock.2.2 earlier (List.mem_of_getLast? hfirst)
            later (List.mem_of_getLast? hrest)
          exact rank_ofAge_le liveness.createdAt hle

end Liveness

/-! What a run of a bucket does to the peer of one slot. -/

theorem Roster.update_slot (roster : Roster) (changed : Nat) (change : Change)
    (slot : Nat) : roster.update changed change slot =
      (if slot = changed then some change else none).toList.foldl Liveness.apply
        (roster slot) := by
  by_cases hslot : slot = changed
  · rw [if_pos hslot, hslot]
    exact roster.update_same changed change
  · rw [if_neg hslot]
    exact roster.update_other change hslot

namespace Session

/-- The change that an action makes to the peer of a slot: the touch of a member
refreshes that member. -/
def changeOf? (session : Session) (now : Instant) (slot : Nat) :
    Action → Option Change
  | .touch id =>
      match session.bucket.find? id with
      | some member => if slot = member.slot then some (.refreshAt now) else none
      | none => none
  | .change other change => if slot = other then some change else none
  | .refresh other => if slot = other then some (.refreshAt now) else none
  | _ => none

/-- The changes that a list of actions makes to the peer of a slot. -/
def changesOf (session : Session) (slot : Nat) :
    List (Instant × Action) → List Change
  | [] => []
  | (now, action) :: rest =>
      (session.changeOf? now slot action).toList ++
        (session.step now action).after.changesOf slot rest

theorem roster_step_slot (session : Session) (now : Instant) (action : Action)
    (slot : Nat) : (session.step now action).after.roster slot =
      (session.changeOf? now slot action).toList.foldl Liveness.apply
        (session.roster slot) := by
  cases action with
  | add handle =>
      rw [session.roster_after_add now handle]
      rfl
  | remove handle =>
      cases hfind : session.bucket.find? handle.id with
      | none =>
          rw [step_remove_of_absent hfind]
          rfl
      | some member =>
          rw [step_remove_of_find? hfind]
          rfl
  | touch id =>
      cases hfind : session.bucket.find? id with
      | none =>
          rw [step_touch_of_absent hfind, changeOf?, hfind]
          rfl
      | some member =>
          rw [step_touch_of_find? hfind, changeOf?, hfind]
          exact session.roster.update_slot member.slot (.refreshAt now) slot
  | change other change => exact session.roster.update_slot other change slot
  | refresh other => exact session.roster.update_slot other (.refreshAt now) slot
  | _ => rfl

theorem roster_final (session : Session) (log : List (Instant × Action))
    (slot : Nat) :
    (session.final log).roster slot =
      (session.changesOf slot log).foldl Liveness.apply (session.roster slot) := by
  induction log generalizing session with
  | nil => rfl
  | cons entry rest ih =>
      obtain ⟨now, action⟩ := entry
      rw [final_cons, ih, changesOf, List.foldl_append, roster_step_slot]

theorem changesOf_append (session : Session) (slot : Nat)
    (first rest : List (Instant × Action)) :
    session.changesOf slot (first ++ rest) =
      session.changesOf slot first ++
        (session.final first).changesOf slot rest := by
  induction first generalizing session with
  | nil => rfl
  | cons entry first ih =>
      obtain ⟨now, action⟩ := entry
      rw [List.cons_append, changesOf, changesOf, ih, List.append_assoc, final_cons]

end Session

open Change in
/-- A contact finds a peer fresh, established or stable exactly if its age then is
under an hour, under two or more, to the nanosecond.  Of two contacts the later one
finds it of no lower kind, and while contacts come in order its kind never falls. -/
theorem kinds_are_exact_and_never_fall :
    (∀ (peer : Peer) (now : Instant),
      let age := now - peer.liveness.createdAt
      let kind := (peer.apply (.refreshAt now)).liveness.kind
      (kind = .fresh ↔ age < 3600 * 10 ^ 9) ∧
        (kind = .established ↔ 3600 * 10 ^ 9 ≤ age ∧ age < 7200 * 10 ^ 9) ∧
        (kind = .stable ↔ 7200 * 10 ^ 9 ≤ age)) ∧
    (∀ (peer : Peer) (first second : List Change) (earlier later : Instant),
      earlier ≤ later →
      let kindAt (changes : List Change) (now : Instant) :=
        ((changes ++ [refreshAt now]).foldl Peer.apply peer).liveness.kind
      (compare (kindAt first earlier) (kindAt second later)).isLE = true) ∧
    (∀ (peer : Peer) (first rest : List Change), peer.liveness.kind = .fresh →
      ((first ++ rest).filterMap contact?).Pairwise (· ≤ ·) →
      let kindAfter (changes : List Change) :=
        (changes.foldl Peer.apply peer).liveness.kind
      (compare (kindAfter first) (kindAfter (first ++ rest))).isLE = true) ∧
    ∀ (session : Session) (slot : Nat) (first rest : List (Instant × Action)),
      (session.roster slot).kind = .fresh →
      ((session.changesOf slot (first ++ rest)).filterMap contact?).Pairwise
        (· ≤ ·) →
      let kindAfter (log : List (Instant × Action)) :=
        ((session.final log).roster slot).kind
      (compare (kindAfter first) (kindAfter (first ++ rest))).isLE = true := by
  refine ⟨?_, ?_, ?_, ?_⟩
  · intro peer now age kind
    exact ⟨PeerKind.ofAge_eq_fresh_iff, PeerKind.ofAge_eq_established_iff,
      PeerKind.ofAge_eq_stable_iff⟩
  · intro peer first second earlier later hle kindAt
    rw [PeerKind.isLE_compare_iff]
    simp only [kindAt, Peer.foldl_apply, Liveness.kind_foldl_contact]
    exact Liveness.rank_ofAge_le peer.liveness.createdAt hle
  · intro peer first rest hfresh hclock kindAfter
    rw [PeerKind.isLE_compare_iff]
    simp only [kindAfter, Peer.foldl_apply]
    exact Liveness.rank_kind_foldl_le hfresh hclock
  · intro session slot first rest hfresh hclock kindAfter
    rw [PeerKind.isLE_compare_iff]
    rw [Session.changesOf_append] at hclock
    simp only [kindAfter, Session.roster_final, Session.changesOf_append]
    exact Liveness.rank_kind_foldl_le hfresh hclock

/-- One nanosecond before the first hour, at it and at the second, with a contact
before the creation and a declaration of death between; and a bucket that refreshes
its member at one hour less a nanosecond, again at one hour, and then lets it go. -/
theorem kinds_are_exact_and_never_fall_trial :
    let hour : Instant := 3600 * 10 ^ 9
    let peer : Peer := ⟨(Peer.sample 1).contact, .unseen 5 false false⟩
    let first : List Change :=
      [.refreshAt (-7), .setVerified true, .refreshAt (4 + hour)]
    let rest : List Change := [.setAlive false, .refreshAt (5 + 2 * hour)]
    let member : Handle := .sampleAt 0 1 1
    let session :=
      Session.mk (.start .small (.fixed 7) 0) fun _ => .unseen 0 false false
    let begun : List (Instant × Action) :=
      [(1, .add member), (hour - 1, .touch member.id), (hour, .refresh 1)]
    let ended : List (Instant × Action) :=
      [(hour, .touch member.id), (hour + 1, .remove member), (0, .touch member.id)]
    ((peer.apply (.refreshAt (4 + hour))).liveness.kind = .fresh ∧
      (peer.apply (.refreshAt (5 + hour))).liveness.kind = .established ∧
      (peer.apply (.refreshAt (5 + 2 * hour))).liveness.kind = .stable) ∧
    (compare
      ((first ++ [Change.refreshAt (-7)]).foldl Peer.apply peer).liveness.kind
      ((rest ++ [Change.refreshAt hour]).foldl Peer.apply peer).liveness.kind
        ).isLE = true ∧
    ((first ++ rest).filterMap Change.contact? = [-7, 4 + hour, 5 + 2 * hour] ∧
      (compare (first.foldl Peer.apply peer).liveness.kind
        ((first ++ rest).foldl Peer.apply peer).liveness.kind).isLE = true) ∧
    (session.changesOf 0 (begun ++ ended)).filterMap Change.contact? =
      [hour - 1, hour] ∧
      (compare ((session.final begun).roster 0).kind
        ((session.final (begun ++ ended)).roster 0).kind).isLE = true := by
  intro hour peer first rest member session begun ended
  obtain ⟨hexact, hcontacts, hchanges, hruns⟩ := kinds_are_exact_and_never_fall
  have hmoments : (first ++ rest).filterMap Change.contact? =
      [-7, 4 + hour, 5 + 2 * hour] := by decide
  have htouches : (session.changesOf 0 (begun ++ ended)).filterMap Change.contact? =
      [hour - 1, hour] := by decide
  refine ⟨⟨?_, ?_, ?_⟩, ?_, ⟨hmoments, ?_⟩, htouches, ?_⟩
  · exact (hexact peer (4 + hour)).1.mpr (by decide)
  · exact (hexact peer (5 + hour)).2.1.mpr (by decide)
  · exact (hexact peer (5 + 2 * hour)).2.2.mpr (by decide)
  · exact hcontacts peer first rest (-7) hour (by decide)
  · exact hchanges peer first rest rfl (by rw [hmoments]; decide)
  · exact hruns session 0 begun ended rfl (by rw [htouches]; decide)

end Kademlia
