/-
One identifier, one member.  Whatever a bucket is asked under an identifier, it
finds nobody or always the same handle, also when other handles carry the
identifier; and of all shared peers it only ever changes that of the member found.
-/
import Mathlib
import Kademlia.Proofs.Bounds

namespace Kademlia

/-- Changes a shared peer without the bucket. -/
def Action.direct : Action → Bool
  | .change _ _ | .refresh _ => true
  | _ => false

namespace Session

variable {session : Session} {id : NodeId} {member : Handle}

/-- Nobody is stored under an identifier, and every path says so. -/
structure Unknown (session : Session) (id : NodeId) : Prop where
  stored : (session.bucket.members.filter fun other => other.id = id) = []
  contains : ∀ now, (session.step now (.contains id)).answer = .flag false
  get : ∀ now, (session.step now (.get id)).answer = .refused .notFound
  touch : ∀ now, (session.step now (.touch id)).answer = .refused .notFound
  remove : ∀ now handle, handle.id = id →
    (session.step now (.remove handle)).answer = .refused .notFound
  add : ∀ now handle found, handle.id = id →
    (session.step now (.add handle)).answer ≠ .refused (.duplicate found)

/-- Exactly one handle is stored under an identifier, and every path leads to it,
whichever handle of the identifier it is asked with. -/
structure Known (session : Session) (id : NodeId) (member : Handle) : Prop where
  stored : (session.bucket.members.filter fun other => other.id = id) = [member]
  contains : ∀ now, (session.step now (.contains id)).answer = .flag true
  get : ∀ now, (session.step now (.get id)).answer = .peer member
  remove : ∀ now handle, handle.id = id →
    (session.step now (.remove handle)).answer = .peer member
  add : ∀ now handle, handle.id = id →
    (session.step now (.add handle)).answer = .refused (.duplicate id) ∧
      (session.step now (.add handle)).after = session
  touch : ∀ now, (session.step now (.touch id)).answer = .done
  refreshed : ∀ now, (session.step now (.touch id)).after.roster member.slot =
    { verified := (session.roster member.slot).verified
      alive := true
      createdAt := (session.roster member.slot).createdAt
      lastSeen := some now
      expiresAt := some (now + peerTtl)
      kind := .ofAge (now - (session.roster member.slot).createdAt).toNat }
  candidate : ∀ now,
    ((session.step now (.touch id)).after.roster member.slot).isCandidate =
      (session.roster member.slot).verified
  newest : ∀ now,
    (session.step now (.touch id)).after.bucket.members.getLast? = some member

theorem unknown_of_find? (h : session.bucket.find? id = none) :
    session.Unknown id := by
  have habsent := Bucket.find?_eq_none_iff.mp h
  have hcontains := Bucket.contains_eq_false_iff.mpr habsent
  constructor
  · rw [List.filter_eq_nil_iff]
    simpa using habsent
  · intro now
    simp [step, hcontains]
  · intro now
    simp [step, Bucket.get, h, Answer.ofLookup]
  · intro now
    rw [step_touch_of_absent h]
  · rintro now handle rfl
    rw [step_remove_of_absent h]
  · rintro now handle found rfl hanswer
    rw [answer_add_eq_refused_iff, Bucket.add_eq_duplicate_iff,
      hcontains] at hanswer
    exact absurd hanswer.1 (by decide)

theorem roster_touch (h : session.bucket.find? id = some member) (now : Instant) :
    (session.step now (.touch id)).after.roster member.slot =
      (session.roster member.slot).refresh now := by
  rw [step_touch_of_find? h]
  exact Roster.update_same session.roster member.slot (.refreshAt now)

theorem known_of_find? (hdistinct : (session.bucket.members.map Handle.id).Nodup)
    (h : session.bucket.find? id = some member) : session.Known id member := by
  have hget := Bucket.get_eq_ok_iff.mpr h
  have hcontains : session.bucket.contains id = true := by
    simp [Bucket.contains, h]
  constructor
  · exact Bucket.filter_id_eq_singleton hdistinct h
  · intro now
    simp [step, hcontains]
  · intro now
    simp [step, hget, Answer.ofLookup]
  · rintro now handle rfl
    rw [step_remove_of_find? h]
  · rintro now handle rfl
    rw [step_add_of_error (Bucket.add_of_stored hcontains now)]
    exact ⟨rfl, rfl⟩
  · intro now
    rw [step_touch_of_find? h]
  · intro now
    rw [roster_touch h]
    rfl
  · intro now
    rw [roster_touch h]
    simp [Liveness.refresh, Liveness.isCandidate]
  · intro now
    rw [step_touch_of_find? h]
    simp

/-- Of the actions on a bucket, only the touch of a member changes a peer, that of
the member. -/
theorem roster_step (session : Session) (now : Instant) {action : Action}
    (hdirect : action.direct = false) :
    (session.step now action).after.roster = session.roster ∨
      ∃ id member, action = .touch id ∧ session.bucket.find? id = some member ∧
        (session.step now action).after.roster =
          session.roster.update member.slot (.refreshAt now) := by
  cases action with
  | add handle => exact Or.inl (session.roster_after_add now handle)
  | remove handle =>
      cases hfind : session.bucket.find? handle.id with
      | none =>
          rw [step_remove_of_absent hfind]
          exact Or.inl rfl
      | some member =>
          rw [step_remove_of_find? hfind]
          exact Or.inl rfl
  | touch id =>
      cases hfind : session.bucket.find? id with
      | none =>
          rw [step_touch_of_absent hfind]
          exact Or.inl rfl
      | some member =>
          rw [step_touch_of_find? hfind]
          exact Or.inr ⟨id, member, rfl, hfind, rfl⟩
  | change slot change => cases hdirect
  | refresh slot => cases hdirect
  | _ => exact Or.inl rfl

end Session

/-- In whatever state a bucket is, under an identifier either nobody is stored,
and every path reports that, or exactly one handle is, and every path leads to it,
also when it is asked with other handles of the identifier.  Of all peers, in the
bucket or not, its actions only ever change the one found by a touch. -/
theorem id_paths_agree {session : Session} (reached : session.Reachable) :
    (∀ id, Xor (session.Unknown id) (∃ member, session.Known id member)) ∧
    ∀ now action slot, action.direct = false →
      (session.step now action).after.roster slot ≠ session.roster slot →
      ∃ id member, action = .touch id ∧ session.Known id member ∧
        slot = member.slot := by
  have hdistinct := reached.bounded.distinct
  constructor
  · intro id
    cases hfind : session.bucket.find? id with
    | none =>
        have hunknown := Session.unknown_of_find? hfind
        refine Or.inl ⟨hunknown, ?_⟩
        rintro ⟨member, hknown⟩
        cases hunknown.stored.symm.trans hknown.stored
    | some member =>
        have hknown := Session.known_of_find? hdistinct hfind
        refine Or.inr ⟨⟨member, hknown⟩, ?_⟩
        intro hunknown
        cases hunknown.stored.symm.trans hknown.stored
  · intro now action slot hdirect hchanged
    rcases session.roster_step now hdirect with
      hkept | ⟨id, member, htouch, hfind, hupdate⟩
    · exact absurd (congrFun hkept slot) hchanged
    · refine ⟨id, member, htouch, Session.known_of_find? hdistinct hfind, ?_⟩
      by_contra hne
      rw [hupdate, Roster.update_other session.roster _ hne] at hchanged
      exact hchanged rfl

/-- Two peers of one identifier at different addresses, of which the first is
stored and dead.  Touched by their common identifier, only that one is refreshed. -/
theorem id_paths_agree_trial :
    let stored : Handle := .sampleAt 0 1 1
    let twin : Handle := .sampleAt 2 1 3
    let session := (Session.mk (.start .small (.fixed 7) 0) .sample).final
      [(1, .add stored), (2, .add twin), (3, .add (.sampleAt 1 2 2)),
        (4, .change 0 (.setAlive false)), (5, .change 2 (.setAlive false))]
    session.Reachable ∧ twin.id = stored.id ∧ twin.ip ≠ stored.ip ∧
      session.Known stored.id stored ∧ session.Unknown (.ofNat 9) ∧
      ((session.step 6 (.touch twin.id)).after.roster stored.slot).alive = true ∧
      (session.step 6 (.touch twin.id)).after.roster twin.slot =
        session.roster twin.slot := by
  intro stored twin session
  have reached : session.Reachable :=
    .of_usable (by decide) (by decide) (.fixed 7) 0 .sample _
  obtain ⟨hpaths, hframe⟩ := id_paths_agree reached
  have hget : (session.step 6 (.get stored.id)).answer = .peer stored := by decide
  have honly : ∀ member, session.Known stored.id member → member = stored := by
    intro member hknown
    exact Answer.peer.inj ((hknown.get 6).symm.trans hget)
  have hknown : session.Known stored.id stored := by
    rcases hpaths stored.id with ⟨hunknown, _⟩ | ⟨⟨member, hknown⟩, _⟩
    · exact absurd (hunknown.contains 6) (by decide)
    · rw [honly member hknown] at hknown
      exact hknown
  have hunknown : session.Unknown (.ofNat 9) := by
    rcases hpaths (.ofNat 9) with ⟨hunknown, _⟩ | ⟨⟨member, hknown⟩, _⟩
    · exact hunknown
    · exact absurd (hknown.contains 6) (by decide)
  refine ⟨reached, rfl, by decide, hknown, hunknown, ?_, ?_⟩
  · have hrefreshed := hknown.refreshed 6
    exact congrArg Liveness.alive hrefreshed
  · by_contra hchanged
    obtain ⟨id, member, htouch, hmember, hslot⟩ :=
      hframe 6 (.touch twin.id) twin.slot rfl hchanged
    obtain rfl : twin.id = id := Action.touch.inj htouch
    rw [honly member hmember] at hslot
    exact absurd hslot (by decide)

end Kademlia
