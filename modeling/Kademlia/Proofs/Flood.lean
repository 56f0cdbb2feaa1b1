/-
A flood of candidates against the members of a bucket.  A member that is alive
outlasts any number of candidates, and a full bucket of live members only turns
round under them.
-/
import Mathlib
import Kademlia.Bucket.Challenge
import Kademlia.Bucket.Lemmas

namespace Kademlia

namespace Bucket

/-- The answer of a full bucket in which nobody makes room. -/
def denial (bucket : Bucket) (candidate : Handle) : Answer :=
  if bucket.contains candidate.id then .refused (.duplicate candidate.id)
  else .refused (.full bucket.limits.size)

/-- Who is denied how depends on who is a member, not on their order. -/
theorem denial_congr {bucket after : Bucket}
    (hmem : ∀ handle, handle ∈ after.members ↔ handle ∈ bucket.members)
    (hlimits : after.limits = bucket.limits) : after.denial = bucket.denial := by
  funext candidate
  have hcontains : after.contains candidate.id = bucket.contains candidate.id := by
    rw [Bool.eq_iff_iff, contains_iff, contains_iff]
    simp [hmem]
  rw [denial, denial, hcontains, hlimits]

end Bucket

namespace Session

variable {session : Session} {handle : Handle} {offer : Offer}

/-- What a challenge comes to.  A candidate that is not refused for want of room
has its answer at once; for one that is, the oldest member decides. -/
inductive Challenged (session : Session) (offer : Offer) (turn : Turn) : Prop
  | settled
      (elsewhere : ∀ capacity, turn.answer ≠ .refused (.full capacity))
      (outcome : turn = session.step offer.offeredAt (.add offer.candidate))
  | kept (oldest : Handle) (rest : List Handle)
      (fresh : session.bucket.contains offer.candidate.id = false)
      (members : session.bucket.members = oldest :: rest)
      (alive : (session.roster oldest.slot).alive = true)
      (answer : turn.answer = .refused (.full session.bucket.limits.size))
      (outcome : turn.after =
        { bucket := { session.bucket with
            members := rest ++ [oldest]
            lastUpdated := offer.challengedAt }
          roster := session.roster.update oldest.slot
            (.refreshAt offer.challengedAt) })
  | replaced (oldest : Handle) (rest : List Handle)
      (members : session.bucket.members = oldest :: rest)
      (dead : (session.roster oldest.slot).alive = false)
      (outcome : turn.after =
        (Session.step
          { session with
            bucket := { session.bucket with
              members := rest
              lastUpdated := offer.challengedAt } }
          offer.retriedAt (.add offer.candidate)).after)
  | nobody (fresh : session.bucket.contains offer.candidate.id = false)
      (members : session.bucket.members = [])
      (answer : turn.answer = .refused (.full session.bucket.limits.size))
      (outcome : turn.after = session)

/-- Only a lack of room leads to a challenge. -/
theorem challenge_eq_step
    (h : ∀ capacity, session.bucket.add offer.candidate offer.offeredAt ≠
      .error (.full capacity)) :
    session.challenge offer =
      session.step offer.offeredAt (.add offer.candidate) := by
  cases hadd : session.bucket.add offer.candidate offer.offeredAt with
  | ok bucket => simp [challenge, step, hadd]
  | error error =>
      cases error with
      | full capacity => exact absurd hadd (h capacity)
      | _ => simp [challenge, step, hadd]

theorem challenged_of_full
    (hadd : session.bucket.add offer.candidate offer.offeredAt =
      .error (.full session.bucket.limits.size)) :
    session.Challenged offer (session.challenge offer) := by
  have hfirst := step_add_of_error hadd
  have hrefused := Bucket.add_eq_full_iff.mp hadd
  cases hmembers : session.bucket.members with
  | nil =>
      have hagain : session.bucket.add offer.candidate offer.retriedAt =
          .error (.full session.bucket.limits.size) :=
        Bucket.add_eq_full_iff.mpr hrefused
      have hretry := step_add_of_error hagain
      apply Challenged.nobody hrefused.1 hmembers
      · simp [challenge, hfirst, Bucket.oldest?, hmembers, Turn.andThen, hretry]
      · simp [challenge, hfirst, Bucket.oldest?, hmembers, Turn.andThen, hretry]
  | cons oldest rest =>
      have hfind := Bucket.find?_oldest hmembers
      have hwithout := Bucket.without_oldest hmembers
      by_cases halive : (session.roster oldest.slot).alive = true
      · have htouch := step_touch_of_find? hfind offer.challengedAt
        rw [hwithout] at htouch
        apply Challenged.kept oldest rest hrefused.1 hmembers halive
        · simp [challenge, hfirst, Bucket.oldest?, hmembers, halive]
        · simp [challenge, hfirst, Bucket.oldest?, hmembers, halive,
            Turn.andThen, htouch]
      · have hremove := step_remove_of_find? hfind offer.challengedAt
        rw [hwithout] at hremove
        apply Challenged.replaced oldest rest hmembers (by simpa using halive)
        simp [challenge, hfirst, Bucket.oldest?, hmembers, halive,
          Turn.andThen, hremove]

theorem challenge_challenged (session : Session) (offer : Offer) :
    session.Challenged offer (session.challenge offer) := by
  by_cases hfull : session.bucket.add offer.candidate offer.offeredAt =
      .error (.full session.bucket.limits.size)
  · exact challenged_of_full hfull
  · have helsewhere : ∀ capacity,
        session.bucket.add offer.candidate offer.offeredAt ≠
          .error (.full capacity) := by
      intro capacity hadd
      obtain rfl := (Bucket.add_eq_full_iff.mp hadd).2.2
      exact hfull hadd
    have houtcome := challenge_eq_step helsewhere
    refine .settled ?_ houtcome
    intro capacity hanswer
    rw [houtcome, answer_add_eq_refused_iff] at hanswer
    exact helsewhere capacity hanswer

/-- Coming newcomers take nobody's place. -/
theorem mem_after_add (hmem : handle ∈ session.bucket.members) (now : Instant)
    (newcomer : Handle) :
    handle ∈ (session.step now (.add newcomer)).after.bucket.members := by
  by_cases room : session.bucket.HasRoomFor newcomer
  · rw [step_add_of_room room]
    exact List.mem_append_left [newcomer] hmem
  · obtain ⟨error, hstep⟩ := step_add_of_no_room room now
    rw [hstep]
    exact hmem

/-- Only a change that declares the peer dead makes it so. -/
theorem alive_update {roster : Roster} {slot : Nat} {change : Change}
    (halive : (roster handle.slot).alive = true)
    (hspared : (Visit.change slot change).clears handle = false) :
    (roster.update slot change handle.slot).alive = true := by
  by_cases hslot : handle.slot = slot
  · subst hslot
    rw [Roster.update_same]
    cases change with
    | setAlive alive =>
        cases alive with
        | false => simp [Visit.clears] at hspared
        | true => rfl
    | setVerified verified => exact halive
    | refreshAt now => rfl
  · rw [Roster.update_other roster change hslot]
    exact halive

/-- A live member stays through a challenge and is alive after it.  The member
that makes room for a candidate is a dead one. -/
theorem challenge_keeps (hmem : handle ∈ session.bucket.members)
    (halive : (session.roster handle.slot).alive = true) (offer : Offer) :
    handle ∈ (session.challenge offer).after.bucket.members ∧
      ((session.challenge offer).after.roster handle.slot).alive = true := by
  cases session.challenge_challenged offer with
  | settled _ outcome =>
      rw [outcome, roster_after_add]
      exact ⟨mem_after_add hmem offer.offeredAt offer.candidate, halive⟩
  | kept oldest rest _ members _ _ outcome =>
      rw [outcome]
      constructor
      · rw [members] at hmem
        exact (List.perm_append_singleton oldest rest).mem_iff.mpr hmem
      · exact alive_update halive rfl
  | replaced oldest rest members dead outcome =>
      have hne : handle ≠ oldest := by
        intro heq
        rw [heq, dead] at halive
        exact absurd halive (by decide)
      have hrest : handle ∈ rest := by
        rw [members] at hmem
        exact (List.mem_cons.mp hmem).resolve_left hne
      rw [outcome, roster_after_add]
      exact ⟨mem_after_add hrest offer.retriedAt offer.candidate, halive⟩
  | nobody _ _ _ outcome =>
      rw [outcome]
      exact ⟨hmem, halive⟩

theorem flood_keeps {visits : List Visit} (hmem : handle ∈ session.bucket.members)
    (halive : (session.roster handle.slot).alive = true)
    (hspared : ∀ visit ∈ visits, visit.clears handle = false) :
    handle ∈ (session.flood visits).2.bucket.members := by
  induction visits generalizing session with
  | nil => exact hmem
  | cons visit rest ih =>
      have hlater : ∀ visit ∈ rest, visit.clears handle = false := by
        intro later hrest
        exact hspared later (List.mem_cons_of_mem visit hrest)
      cases visit with
      | offer offer =>
          obtain ⟨hkept, hstill⟩ := challenge_keeps hmem halive offer
          exact ih hkept hstill hlater
      | change slot change =>
          have hnow := hspared _ List.mem_cons_self
          exact ih hmem (alive_update halive hnow) hlater

/-- All members are alive. -/
def Lively (session : Session) : Prop :=
  ∀ handle ∈ session.bucket.members, (session.roster handle.slot).alive = true

/-- A candidate before a full bucket of live members is denied.  Unless it is
stored already, the oldest member becomes the newest. -/
theorem challenge_of_lively (full : session.bucket.isFull = true)
    (lively : session.Lively) (offer : Offer) :
    (session.challenge offer).answer = session.bucket.denial offer.candidate ∧
      (session.challenge offer).after.bucket.limits = session.bucket.limits ∧
      (session.challenge offer).after.bucket.members =
        session.bucket.members.rotate
          (if session.bucket.contains offer.candidate.id then 0 else 1) ∧
      (session.challenge offer).after.Lively := by
  have hsize : session.bucket.count = session.bucket.limits.size := by
    simpa [Bucket.isFull] using full
  cases session.challenge_challenged offer with
  | settled elsewhere outcome =>
      have hstored : session.bucket.contains offer.candidate.id = true := by
        by_contra hnot
        have hadd : session.bucket.add offer.candidate offer.offeredAt =
            .error (.full session.bucket.limits.size) :=
          Bucket.add_eq_full_iff.mpr ⟨by simpa using hnot, hsize.ge, rfl⟩
        rw [outcome] at elsewhere
        exact elsewhere _ (answer_add_eq_refused_iff.mpr hadd)
      have hstep :=
        step_add_of_error (Bucket.add_of_stored hstored offer.offeredAt)
      rw [outcome, hstep]
      exact ⟨by simp [Bucket.denial, hstored], rfl, by simp [hstored], lively⟩
  | kept oldest rest fresh members alive answer outcome =>
      refine ⟨by simp [Bucket.denial, fresh, answer], by rw [outcome], ?_, ?_⟩
      · simp [outcome, members, fresh]
      · intro handle hmem
        rw [outcome] at hmem ⊢
        have hold : handle ∈ session.bucket.members := by
          rw [members]
          exact (List.perm_append_singleton oldest rest).mem_iff.mp hmem
        exact alive_update (lively handle hold) rfl
  | replaced oldest rest members dead outcome =>
      have halive := lively oldest (by simp [members])
      rw [dead] at halive
      exact absurd halive (by decide)
  | nobody fresh members answer outcome =>
      rw [outcome]
      exact ⟨by simp [Bucket.denial, fresh, answer], rfl, by simp [members], lively⟩

/-- How often a candidate was refused for want of room. -/
def timesFull (answers : List (Handle × Answer)) (capacity : Nat) : Nat :=
  answers.countP fun answered => answered.2 = .refused (.full capacity)

theorem timesFull_denial_cons (bucket : Bucket) (candidate : Handle)
    (answers : List (Handle × Answer)) :
    timesFull ((candidate, bucket.denial candidate) :: answers) bucket.limits.size =
      (if bucket.contains candidate.id then 0 else 1) +
        timesFull answers bucket.limits.size := by
  by_cases hstored : bucket.contains candidate.id = true
  · simp [timesFull, Bucket.denial, hstored]
  · simp [timesFull, Bucket.denial, hstored, Nat.add_comm]

theorem flood_offer (session : Session) (offer : Offer) (rest : List Visit) :
    session.flood (.offer offer :: rest) =
      ((offer.candidate, (session.challenge offer).answer) ::
          ((session.challenge offer).after.flood rest).1,
        ((session.challenge offer).after.flood rest).2) := rfl

/-- Under a flood a full bucket of live members denies every candidate, and its
list turns by one for each that is not stored. -/
theorem flood_of_lively {visits : List Visit} (full : session.bucket.isFull = true)
    (lively : session.Lively)
    (hspared : ∀ handle ∈ session.bucket.members, ∀ visit ∈ visits,
      visit.clears handle = false) :
    (session.flood visits).1 = (visits.filterMap Visit.candidate?).map
      (fun candidate => (candidate, session.bucket.denial candidate)) ∧
    (session.flood visits).2.bucket.members = session.bucket.members.rotate
      (timesFull (session.flood visits).1 session.bucket.limits.size) := by
  induction visits generalizing session with
  | nil => simp [flood, timesFull]
  | cons visit rest ih =>
      have hlater : ∀ handle ∈ session.bucket.members, ∀ visit ∈ rest,
          visit.clears handle = false := by
        intro handle hmem later hrest
        exact hspared handle hmem later (List.mem_cons_of_mem visit hrest)
      cases visit with
      | offer offer =>
          obtain ⟨hanswer, hlimits, hmembers, hlively⟩ :=
            challenge_of_lively full lively offer
          have hmem : ∀ handle,
              handle ∈ (session.challenge offer).after.bucket.members ↔
                handle ∈ session.bucket.members := by
            intro handle
            rw [hmembers, List.mem_rotate]
          have hfull : (session.challenge offer).after.bucket.isFull = true := by
            simpa [Bucket.isFull, Bucket.count, hlimits, hmembers] using full
          obtain ⟨hanswers, hrotated⟩ := ih hfull hlively fun handle hafter =>
            hlater handle ((hmem handle).mp hafter)
          rw [Bucket.denial_congr hmem hlimits] at hanswers
          rw [hmembers, hlimits, List.rotate_rotate] at hrotated
          rw [flood_offer, hanswer, timesFull_denial_cons]
          refine ⟨?_, hrotated⟩
          rw [hanswers]
          rfl
      | change slot change =>
          have hlively : (session.change slot change).after.Lively := by
            intro handle hmem
            have hnow := hspared handle hmem _ List.mem_cons_self
            exact alive_update (lively handle hmem) hnow
          exact ih full hlively hlater

end Session

/-- However many candidates are offered, a member that is alive and that nobody
declares dead is never lost.  If a full bucket has only such members, every
candidate is refused, and each refusal for want of room turns the list by one. -/
theorem flood_cannot_flush_live_members (session : Session) (visits : List Visit) :
    (∀ handle ∈ session.bucket.members,
      (session.roster handle.slot).alive = true →
      (∀ visit ∈ visits, visit.clears handle = false) →
      handle ∈ (session.flood visits).2.bucket.members) ∧
    (session.bucket.isFull = true →
      (∀ handle ∈ session.bucket.members,
        (session.roster handle.slot).alive = true ∧
          ∀ visit ∈ visits, visit.clears handle = false) →
      (∀ handle, handle ∈ (session.flood visits).2.bucket.members ↔
        handle ∈ session.bucket.members) ∧
      (session.flood visits).1 =
        (visits.filterMap Visit.candidate?).map (fun candidate =>
          (candidate,
            if session.bucket.contains candidate.id then
              .refused (.duplicate candidate.id)
            else .refused (.full session.bucket.limits.size))) ∧
      (session.flood visits).2.bucket.members = session.bucket.members.rotate
        (Session.timesFull (session.flood visits).1
          session.bucket.limits.size)) := by
  constructor
  · intro handle hmem halive hspared
    exact Session.flood_keeps hmem halive hspared
  · intro full hlive
    obtain ⟨hanswers, hrotated⟩ := Session.flood_of_lively full
      (fun handle hmem => (hlive handle hmem).1)
        (fun handle hmem => (hlive handle hmem).2)
    refine ⟨?_, hanswers, hrotated⟩
    intro handle
    rw [hrotated, List.mem_rotate]

/-- A full bucket of live members under five candidates, one of them stored
already, while a candidate is declared dead: four refusals turn the four members
once round.  When instead the oldest member is dead and the next one is declared
dead meanwhile, both make room and a live member stays. -/
theorem flood_cannot_flush_live_members_trial :
    let members : List Handle :=
      [.sampleAt 0 1 1, .sampleAt 1 2 1, .sampleAt 2 3 2, .sampleAt 3 4 2]
    let bucket : Bucket := { Bucket.start .small (.fixed 7) 0 with members }
    let session := Session.mk bucket .sample
    let visits : List Visit :=
      [.offer ⟨.sampleAt 4 5 3, 1, 2, 3⟩, .offer ⟨.sampleAt 5 1 3, 4, 5, 6⟩,
        .change 4 (.setAlive false), .offer ⟨.sampleAt 4 5 3, 7, 8, 9⟩,
        .offer ⟨.sampleAt 6 7 3, 10, 11, 12⟩, .offer ⟨.sampleAt 7 8 3, 13, 14, 15⟩]
    let silent := Session.mk bucket (Roster.sample.update 0 (.setAlive false))
    let newcomers : List Visit :=
      [.offer ⟨.sampleAt 4 5 3, 1, 2, 3⟩, .change 1 (.setAlive false),
        .offer ⟨.sampleAt 5 6 3, 4, 5, 6⟩, .offer ⟨.sampleAt 6 7 4, 7, 8, 9⟩]
    (session.bucket.isFull = true ∧
      (∀ handle ∈ session.bucket.members,
        (session.roster handle.slot).alive = true ∧
          ∀ visit ∈ visits, visit.clears handle = false) ∧
      Session.timesFull (session.flood visits).1 session.bucket.limits.size = 4 ∧
      (session.flood visits).2.bucket.members = members.rotate 4) ∧
    (silent.flood newcomers).2.bucket.members =
        [.sampleAt 3 4 2, .sampleAt 4 5 3, .sampleAt 5 6 3, .sampleAt 2 3 2] ∧
      .sampleAt 2 3 2 ∈ (silent.flood newcomers).2.bucket.members := by
  intro members bucket session visits silent newcomers
  have hfull : session.bucket.isFull = true := rfl
  have hlive : ∀ handle ∈ session.bucket.members,
      (session.roster handle.slot).alive = true ∧
        ∀ visit ∈ visits, visit.clears handle = false := by
    decide
  have htimes : Session.timesFull (session.flood visits).1
      session.bucket.limits.size = 4 := by
    decide
  have hrotated :=
    ((flood_cannot_flush_live_members session visits).2 hfull hlive).2.2
  rw [htimes] at hrotated
  have hstays := (flood_cannot_flush_live_members silent newcomers).1
    (.sampleAt 2 3 2) (by decide) (by decide) (by decide)
  exact ⟨⟨hfull, hlive, htimes, hrotated⟩, by decide, hstays⟩

end Kademlia
