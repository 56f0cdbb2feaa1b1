/-
Which read of its source a pick uses.  Every pick takes the next read, whatever the
picks before it came to, and nothing else reads the source; what a pick answers
depends on its own read and on the members at that time.
-/
import Mathlib
import Kademlia.Proofs.Draws
import Kademlia.Proofs.Recency
import Kademlia.Proofs.Updates

namespace Kademlia

/-- How many picks there are among the actions of a list. -/
def picksIn (log : List (Instant × Action)) : Nat :=
  log.countP fun entry => entry.2.picks

namespace Bucket

variable {bucket : Bucket} {handle : Handle} {draw : Nat} {bytes : Octets 8}
variable {cause : EntropyError}

theorem Built.reads_eq_zero (h : bucket.Built) : bucket.reads = 0 := by
  obtain ⟨_, _, entropy, now, heq⟩ := h.eq_start
  rw [heq]
  rfl

theorem drawn_of_members_eq_nil (hmembers : bucket.members = []) (draw : Nat) :
    bucket.drawn draw = .error .empty := by
  simp [drawn, hmembers]

theorem pick_of_error (hread : bucket.entropy.read bucket.reads 8 = .error cause) :
    bucket.pick.1 = .error (.noEntropy cause) := by
  simp only [pick, hread]

theorem pick_of_ok (hread : bucket.entropy.read bucket.reads 8 = .ok bytes) :
    bucket.pick.1 = bucket.drawn bytes.toNat := by
  simp only [pick, hread]

/-- A pick looks at one read and at the members. -/
theorem pick_congr {other : Bucket}
    (hread : other.entropy.read other.reads 8 = bucket.entropy.read bucket.reads 8)
    (hmembers : other.members = bucket.members) : other.pick.1 = bucket.pick.1 := by
  cases h : bucket.entropy.read bucket.reads 8 with
  | error cause => rw [pick_of_error h, pick_of_error (hread.trans h)]
  | ok bytes =>
      rw [pick_of_ok h, pick_of_ok (hread.trans h), drawn, drawn, count,
        count, hmembers]

end Bucket

/-- The answer of a pick, told by what it reads and by the members it picks from. -/
structure Answer.FollowsRead (answer : Answer)
    (read : Except EntropyError (Octets 8)) (members : List Handle) : Prop where
  failed : ∀ cause, answer = .refused (.noEntropy cause) ↔ read = .error cause
  nobody : answer = .refused .empty ↔ (∃ bytes, read = .ok bytes) ∧ members = []
  member : ∀ bytes, read = .ok bytes → members ≠ [] →
    ∃ handle, members[bytes.toNat % members.length]? = some handle ∧
      answer = .peer handle

namespace Session

variable {session : Session} {now : Instant}

theorem entropy_final (session : Session) (log : List (Instant × Action)) :
    (session.final log).bucket.entropy = session.bucket.entropy := by
  induction log generalizing session with
  | nil => rfl
  | cons entry rest ih =>
      have hstep := congrArg Bucket.entropy (session.bucket_step entry.1 entry.2)
      exact (ih _).trans hstep

theorem reads_final (session : Session) (log : List (Instant × Action)) :
    (session.final log).bucket.reads = session.bucket.reads + picksIn log := by
  induction log generalizing session with
  | nil => rfl
  | cons entry rest ih =>
      have hstep := congrArg Bucket.reads (session.bucket_step entry.1 entry.2)
      simp only at hstep
      rw [final_cons, ih, hstep, picksIn, picksIn, List.countP_cons]
      omega

/-- The same session with another source of entropy. -/
def drawingFrom (session : Session) (source : EntropySource) : Session :=
  { session with bucket := { session.bucket with entropy := source } }

theorem answer_pick (session : Session) (now : Instant) :
    (session.step now .pick).answer = .ofLookup session.bucket.pick.1 := rfl

theorem followsRead_pick (session : Session) (now : Instant) :
    (session.step now .pick).answer.FollowsRead
      (session.bucket.entropy.read session.bucket.reads 8)
      session.bucket.members := by
  rw [answer_pick]
  cases hread : session.bucket.entropy.read session.bucket.reads 8 with
  | error cause =>
      rw [Bucket.pick_of_error hread]
      constructor
      · simp [Answer.ofLookup]
      · simp [Answer.ofLookup]
      · intro bytes hbytes
        cases hbytes
  | ok bytes =>
      rw [Bucket.pick_of_ok hread]
      by_cases hmembers : session.bucket.members = []
      · rw [Bucket.drawn_of_members_eq_nil hmembers]
        constructor
        · simp [Answer.ofLookup]
        · simp [Answer.ofLookup, hmembers]
        · intro _ _ hsome
          exact absurd hmembers hsome
      · obtain ⟨handle, hdrawn⟩ := Bucket.exists_drawn_eq_ok hmembers bytes.toNat
        rw [hdrawn]
        constructor
        · simp [Answer.ofLookup]
        · simp [Answer.ofLookup, hmembers]
        · intro read hok _
          obtain rfl := Except.ok.inj hok
          exact ⟨handle, Bucket.drawn_eq_ok_iff.mp hdrawn, rfl⟩

/-- Of two sources that agree on the read that is due, it does not matter which one
a bucket has had all along. -/
theorem answer_pick_drawingFrom {source : EntropySource}
    {log : List (Instant × Action)}
    (hsource : source.read (session.final log).bucket.reads 8 =
      (session.final log).bucket.entropy.read (session.final log).bucket.reads 8)
    (now : Instant) :
    (((session.drawingFrom source).final log).step now .pick).answer =
      ((session.final log).step now .pick).answer := by
  have hreads : ((session.drawingFrom source).final log).bucket.reads =
      (session.final log).bucket.reads := by
    rw [reads_final, reads_final]
    rfl
  have hentropy :
      ((session.drawingFrom source).final log).bucket.entropy = source :=
    entropy_final (session.drawingFrom source) log
  have hmembers : ((session.drawingFrom source).final log).bucket.members =
      (session.final log).bucket.members :=
    @members_final_congr (session.drawingFrom source) session rfl rfl log
  rw [answer_pick, answer_pick]
  apply congrArg Answer.ofLookup
  apply Bucket.pick_congr _ hmembers
  rw [hentropy, hreads, hsource]

end Session

/-- Over every run from a bucket just made, the `k`-th pick uses the `k`-th read and
no other action uses any.  A read that failed is reported, also by an empty bucket;
else the pick falls on the member at the remainder of the bytes by the count. -/
theorem picks_follow_reads {bucket : Bucket} (built : bucket.Built)
    (roster : Roster) (log : List (Instant × Action)) :
    let session := Session.mk bucket roster
    (session.final log).bucket.reads = picksIn log ∧
    ∀ i now, log[i]? = some (now, .pick) →
      let k := picksIn (log.take i)
      let members := (session.final (log.take i)).bucket.members
      ∃ turn, (session.run log)[i]? = some turn ∧
        turn.answer.FollowsRead (bucket.entropy.read k 8) members ∧
        (∀ source : EntropySource, source.read k 8 = bucket.entropy.read k 8 →
          (((session.drawingFrom source).run log)[i]?.map Turn.answer) =
            some turn.answer) ∧
        (∀ word, bucket.entropy = .fixed word → members ≠ [] →
          ∃ handle, members[word.toNat % members.length]? = some handle ∧
            turn.answer = .peer handle) := by
  intro session
  have hreads : ∀ log, (session.final log).bucket.reads = picksIn log := by
    intro log
    rw [Session.reads_final, built.reads_eq_zero, Nat.zero_add]
  refine ⟨hreads log, ?_⟩
  intro i now hpick k members
  have hentropy : (session.final (log.take i)).bucket.entropy = bucket.entropy :=
    session.entropy_final (log.take i)
  have hfollows := (session.final (log.take i)).followsRead_pick now
  rw [hentropy, hreads] at hfollows
  refine ⟨(session.final (log.take i)).step now .pick, ?_, hfollows, ?_, ?_⟩
  · rw [Session.getElem?_run, hpick]
    rfl
  · intro source hsource
    rw [Session.getElem?_run, hpick]
    apply congrArg some
    apply Session.answer_pick_drawingFrom
    rw [hentropy, hreads, hsource]
  · intro word hword hsome
    have hread : bucket.entropy.read k 8 = .ok (EntropySource.cycled word 8) := by
      rw [hword]
      rfl
    have hmember := hfollows.member _ hread hsome
    rwa [EntropySource.toNat_cycled] at hmember

/-- A failed read and a lost one before anybody is stored, a move of the older of
two members, and a third read that falls on it.  A source that repeats the third
word gives the same third pick. -/
theorem picks_follow_reads_trial :
    let source : EntropySource := .scripted [.fail "not yet", .draw 4, .draw 5]
    let bucket := Bucket.start .small source 0
    let session := Session.mk bucket .sample
    let log : List (Instant × Action) :=
      [(1, .pick), (2, .pick), (3, .add (.sampleAt 0 1 1)),
        (4, .add (.sampleAt 1 2 1)), (5, .touch (.ofNat 1)),
        (6, .contains (.ofNat 2)), (7, .pick)]
    bucket.Built ∧ (session.final log).bucket.reads = 3 ∧
      (session.run log)[0]?.map Turn.answer =
        some (.refused (.noEntropy (.unavailable "not yet"))) ∧
      (session.run log)[1]?.map Turn.answer = some (.refused .empty) ∧
      (session.run log)[6]?.map Turn.answer = some (.peer (.sampleAt 0 1 1)) ∧
      ((session.drawingFrom (.fixed 5)).run log)[6]?.map Turn.answer =
        some (.peer (.sampleAt 0 1 1)) := by
  intro source bucket session log
  have built : bucket.Built :=
    .created (Bucket.create_eq_ok_iff.mpr ⟨by decide, by decide, rfl⟩)
  obtain ⟨hreads, hpicks⟩ := picks_follow_reads built .sample log
  obtain ⟨first, hfirst, hfailed, _, _⟩ := hpicks 0 1 rfl
  obtain ⟨second, hsecond, hnobody, _, _⟩ := hpicks 1 2 rfl
  obtain ⟨third, hthird, hmember, hsource, _⟩ := hpicks 6 7 rfl
  have hread : source.read 2 8 = .ok (EntropySource.cycled 5 8) := rfl
  obtain ⟨handle, hposition, hpeer⟩ := hmember.member _ hread (by decide)
  have hhandle : handle = .sampleAt 0 1 1 :=
    Option.some.inj (hposition.symm.trans (by decide))
  rw [hfirst, hsecond, hthird]
  refine ⟨built, hreads, ?_, ?_, ?_, ?_⟩
  · exact congrArg some ((hfailed.failed _).mpr rfl)
  · exact congrArg some
      (hnobody.nobody.mpr ⟨⟨EntropySource.cycled 4 8, rfl⟩, by decide⟩)
  · exact congrArg some (hpeer.trans (by rw [hhandle]))
  · rw [hsource (.fixed 5) rfl, hpeer, hhandle]

end Kademlia
