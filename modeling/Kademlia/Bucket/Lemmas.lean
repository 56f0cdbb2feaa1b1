/-
What each operation does to the members of a bucket.  Every operation either
leaves the bucket as it was or changes the list of members in one way, and the
statements here say when and how.
-/
import Kademlia.Bucket.History

namespace Kademlia

namespace Bucket

variable {bucket after : Bucket} {handle : Handle} {id : NodeId} {now : Instant}

theorem id_of_find? (h : bucket.find? id = some handle) : handle.id = id := by
  simpa using List.find?_some h

theorem find?_eq_none_iff :
    bucket.find? id = none ↔ ∀ handle ∈ bucket.members, handle.id ≠ id := by
  simp [find?]

theorem contains_iff :
    bucket.contains id = true ↔ ∃ handle ∈ bucket.members, handle.id = id := by
  simp [contains, find?]

theorem contains_eq_false_iff :
    bucket.contains id = false ↔ ∀ handle ∈ bucket.members, handle.id ≠ id := by
  rw [← Bool.not_eq_true, contains_iff]
  simp

theorem get_eq_ok_iff :
    bucket.get id = .ok handle ↔ bucket.find? id = some handle := by
  unfold get
  cases bucket.find? id with
  | none => simp
  | some found => simp

/-! A walk over the members finds what two separate questions would find. -/

theorem stored_survey (newcomer : Handle) (members : List Handle) :
    (survey newcomer members).stored =
      (members.find? fun handle => handle.id = newcomer.id).isSome := by
  induction members with
  | nil => rfl
  | cons handle rest ih =>
      by_cases hid : handle.id = newcomer.id
      · simp [survey, hid]
      · by_cases hip : handle.ip = newcomer.ip
        · simpa [survey, hid, hip] using ih
        · simpa [survey, hid, hip] using ih

/-- The count of a walk that does not meet the newcomer is complete. -/
theorem sharing_survey {newcomer : Handle} {members : List Handle}
    (hnew : ∀ handle ∈ members, handle.id ≠ newcomer.id) :
    (survey newcomer members).sharing =
      members.countP fun handle => handle.ip = newcomer.ip := by
  induction members with
  | nil => rfl
  | cons handle rest ih =>
      have hid := hnew handle List.mem_cons_self
      have hrest := ih fun other hother =>
        hnew other (List.mem_cons_of_mem handle hother)
      by_cases hip : handle.ip = newcomer.ip
      · simp [survey, hid, hip, hrest]
      · simp [survey, hid, hip, hrest]

/-- Admission put as three questions about the bucket.  The count of a walk that
was broken off is never looked at. -/
theorem add_eq (bucket : Bucket) (handle : Handle) (now : Instant) :
    bucket.add handle now =
      if bucket.contains handle.id then .error (.duplicate handle.id)
      else if bucket.limits.size ≤ bucket.count then
        .error (.full bucket.limits.size)
      else if bucket.limits.perIp ≤ bucket.countFor handle.ip then
        .error (.tooManyFrom handle.ip bucket.limits.perIp)
      else
        .ok { bucket with
          members := bucket.members ++ [handle]
          lastUpdated := now } := by
  have hstored : (survey handle bucket.members).stored =
      bucket.contains handle.id := stored_survey handle bucket.members
  by_cases hmember : bucket.contains handle.id = true
  · simp [add, hstored, hmember]
  · have hfresh := contains_eq_false_iff.mp (by simpa using hmember)
    have hsharing : (survey handle bucket.members).sharing =
        bucket.countFor handle.ip := sharing_survey hfresh
    simp only [add, hstored, hsharing]

theorem add_of_stored (h : bucket.contains handle.id = true) (now : Instant) :
    bucket.add handle now = .error (.duplicate handle.id) := by
  simp [add_eq, h]

theorem add_eq_duplicate_iff {found : NodeId} :
    bucket.add handle now = .error (.duplicate found) ↔
      bucket.contains handle.id = true ∧ found = handle.id := by
  rw [add_eq]
  by_cases hstored : bucket.contains handle.id = true
  · simp [hstored, eq_comm]
  · by_cases hroom : bucket.limits.size ≤ bucket.count
    · simp [hstored, hroom]
    · by_cases haddress : bucket.limits.perIp ≤ bucket.countFor handle.ip
      · simp [hstored, hroom, haddress]
      · simp [hstored, hroom, haddress]

theorem add_eq_full_iff {capacity : Nat} :
    bucket.add handle now = .error (.full capacity) ↔
      bucket.contains handle.id = false ∧ bucket.limits.size ≤ bucket.count ∧
        capacity = bucket.limits.size := by
  rw [add_eq]
  by_cases hstored : bucket.contains handle.id = true
  · simp [hstored]
  · by_cases hroom : bucket.limits.size ≤ bucket.count
    · simp [hstored, hroom, eq_comm]
    · by_cases haddress : bucket.limits.perIp ≤ bucket.countFor handle.ip
      · simp [hstored, hroom, haddress]
      · simp [hstored, hroom, haddress]

theorem add_eq_tooManyFrom_iff {ip : Ip} {limit : Nat} :
    bucket.add handle now = .error (.tooManyFrom ip limit) ↔
      bucket.contains handle.id = false ∧ bucket.count < bucket.limits.size ∧
        bucket.limits.perIp ≤ bucket.countFor handle.ip ∧ ip = handle.ip ∧
        limit = bucket.limits.perIp := by
  rw [add_eq, ← Nat.not_le]
  by_cases hstored : bucket.contains handle.id = true
  · simp [hstored]
  · by_cases hroom : bucket.limits.size ≤ bucket.count
    · simp [hstored, hroom]
    · by_cases haddress : bucket.limits.perIp ≤ bucket.countFor handle.ip
      · simp [hstored, hroom, haddress, eq_comm]
      · simp [hstored, hroom, haddress]

theorem error_of_add {error : BucketError}
    (h : bucket.add handle now = .error error) :
    error = .duplicate handle.id ∨ error = .full bucket.limits.size ∨
      error = .tooManyFrom handle.ip bucket.limits.perIp := by
  rw [add_eq] at h
  split at h
  · exact Or.inl (Except.error.inj h).symm
  · split at h
    · exact Or.inr (Or.inl (Except.error.inj h).symm)
    · split at h
      · exact Or.inr (Or.inr (Except.error.inj h).symm)
      · cases h

/-- What a bucket asks of a newcomer: that it is not stored yet, and that there
is room for it in the bucket and at its address. -/
structure HasRoomFor (bucket : Bucket) (handle : Handle) : Prop where
  fresh : ∀ member ∈ bucket.members, member.id ≠ handle.id
  size : bucket.count < bucket.limits.size
  perIp : bucket.countFor handle.ip < bucket.limits.perIp

theorem add_eq_ok_iff :
    bucket.add handle now = .ok after ↔
      bucket.HasRoomFor handle ∧
        after = { bucket with
          members := bucket.members ++ [handle]
          lastUpdated := now } := by
  rw [add_eq]
  constructor
  · intro hadd
    by_cases hstored : bucket.contains handle.id = true
    · simp [hstored] at hadd
    · by_cases hroom : bucket.limits.size ≤ bucket.count
      · simp [hstored, hroom] at hadd
      · by_cases haddress : bucket.limits.perIp ≤ bucket.countFor handle.ip
        · simp [hstored, hroom, haddress] at hadd
        · simp only [hstored, hroom, haddress, if_false, Bool.false_eq_true,
            Except.ok.injEq] at hadd
          have hfresh := contains_eq_false_iff.mp (by simpa using hstored)
          exact ⟨⟨hfresh, Nat.lt_of_not_le hroom, Nat.lt_of_not_le haddress⟩,
            hadd.symm⟩
  · rintro ⟨room, rfl⟩
    have hstored := contains_eq_false_iff.mpr room.fresh
    simp [hstored, Nat.not_le_of_lt room.size, Nat.not_le_of_lt room.perIp]

theorem add_of_room (room : bucket.HasRoomFor handle) (now : Instant) :
    bucket.add handle now = .ok { bucket with
      members := bucket.members ++ [handle]
      lastUpdated := now } :=
  add_eq_ok_iff.mpr ⟨room, rfl⟩

/-- Nothing but the members and the limits is asked. -/
theorem HasRoomFor.congr {other : Bucket} (room : bucket.HasRoomFor handle)
    (hmembers : other.members = bucket.members)
    (hlimits : other.limits = bucket.limits) : other.HasRoomFor handle := by
  constructor
  · rw [hmembers]
    exact room.fresh
  · rw [count, hmembers, hlimits]
    exact room.size
  · rw [countFor, hmembers, hlimits]
    exact room.perIp

/-- Removal gives back the member that has the identifier. -/
theorem remove_eq_ok_iff :
    bucket.remove id now = .ok (handle, after) ↔
      bucket.find? id = some handle ∧
        after = { bucket with
          members := bucket.without id
          lastUpdated := now } := by
  unfold remove
  cases bucket.find? id with
  | none => simp
  | some found => simp [eq_comm]

/-- A member that is moved becomes the newest. -/
theorem moveToEnd_eq_ok (h : bucket.find? id = some handle) (now : Instant) :
    bucket.moveToEnd id now = .ok { bucket with
      members := bucket.without id ++ [handle]
      lastUpdated := now } := by
  simp [moveToEnd, h]

/-- A member that is found parts the members into older and newer ones. -/
theorem split_of_find? (h : bucket.find? id = some handle) :
    ∃ older newer, bucket.members = older ++ handle :: newer ∧
      bucket.without id = older ++ newer ∧ ∀ other ∈ older, other.id ≠ id := by
  obtain ⟨_, older, newer, hsplit, holder⟩ := List.find?_eq_some_iff_append.mp h
  refine ⟨older, newer, hsplit, ?_, by simpa using holder⟩
  rw [without, hsplit, List.eraseP_append_right _ (by simpa using holder),
    List.eraseP_cons_of_pos (by simpa using id_of_find? h)]

/-- What is left is the list without the one member that was found. -/
theorem without_eq_erase (h : bucket.find? id = some handle) :
    bucket.without id = bucket.members.erase handle := by
  obtain ⟨older, newer, hmembers, hwithout, holder⟩ := split_of_find? h
  have hnot : handle ∉ older := fun hmem => holder handle hmem (id_of_find? h)
  rw [hwithout, hmembers, List.erase_append_right _ hnot, List.erase_cons_head]

theorem perm_of_find? (h : bucket.find? id = some handle) :
    (bucket.without id ++ [handle]).Perm bucket.members := by
  obtain ⟨older, newer, hmembers, hwithout, _⟩ := split_of_find? h
  rw [hmembers, hwithout]
  exact (List.perm_append_singleton handle (older ++ newer)).trans
    List.perm_middle.symm

theorem members_without_sublist (bucket : Bucket) (id : NodeId) :
    (bucket.without id).Sublist bucket.members :=
  List.eraseP_sublist

/-- Where no identifier is repeated, only the one member goes. -/
theorem without_eq_filter (hdistinct : (bucket.members.map Handle.id).Nodup) :
    bucket.without id = bucket.members.filter fun handle => handle.id ≠ id := by
  unfold without
  generalize bucket.members = members at hdistinct
  induction members with
  | nil => rfl
  | cons first rest ih =>
      rw [List.map_cons, List.nodup_cons] at hdistinct
      by_cases hid : first.id = id
      · have hrest : ∀ handle ∈ rest, decide (handle.id ≠ id) = true := by
          intro handle hmem
          have hne : handle.id ≠ first.id := by
            intro heq
            exact hdistinct.1 (heq ▸ List.mem_map_of_mem hmem)
          simpa [hid] using hne
        have hfirst : decide (first.id ≠ id) = false := by simp [hid]
        rw [List.eraseP_cons_of_pos (by simpa using hid), List.filter_cons, hfirst,
          List.filter_eq_self.mpr hrest]
        rfl
      · rw [List.eraseP_cons_of_neg (by simpa using hid), List.filter_cons,
          ih hdistinct.2]
        simp [hid]

theorem mem_without_iff (hdistinct : (bucket.members.map Handle.id).Nodup) :
    handle ∈ bucket.without id ↔ handle ∈ bucket.members ∧ handle.id ≠ id := by
  rw [without_eq_filter hdistinct]
  simp

/-- Where no identifier is repeated, the member that is found is the only one. -/
theorem filter_id_eq_singleton (hdistinct : (bucket.members.map Handle.id).Nodup)
    (h : bucket.find? id = some handle) :
    (bucket.members.filter fun member => member.id = id) = [handle] := by
  have hothers :
      ((bucket.without id).filter fun member => member.id = id) = [] := by
    rw [List.filter_eq_nil_iff]
    intro member hmem
    simpa using ((mem_without_iff hdistinct).mp hmem).2
  have hperm := (perm_of_find? h).filter fun member => decide (member.id = id)
  rw [List.filter_append, hothers] at hperm
  rw [← List.perm_singleton]
  simpa [id_of_find? h] using hperm.symm

theorem find?_of_mem (hdistinct : (bucket.members.map Handle.id).Nodup)
    (h : handle ∈ bucket.members) : bucket.find? handle.id = some handle := by
  cases hfind : bucket.find? handle.id with
  | none => exact absurd rfl (find?_eq_none_iff.mp hfind handle h)
  | some found =>
      have honly := filter_id_eq_singleton hdistinct hfind
      have hmem : handle ∈ bucket.members.filter fun member =>
          member.id = handle.id :=
        List.mem_filter.mpr ⟨h, by simp⟩
      rw [honly, List.mem_singleton] at hmem
      rw [hmem]

theorem find?_oldest {rest : List Handle} (h : bucket.members = handle :: rest) :
    bucket.find? handle.id = some handle := by
  simp [find?, h]

theorem without_oldest {rest : List Handle} (h : bucket.members = handle :: rest) :
    bucket.without handle.id = rest := by
  simp [without, h]

@[simp] theorem members_pick (bucket : Bucket) :
    bucket.pick.2.members = bucket.members := rfl

@[simp] theorem reads_pick (bucket : Bucket) :
    bucket.pick.2.reads = bucket.reads + 1 := rfl

end Bucket

/-- What a step does to a session, told by the mark that its entry leaves.  A
step without a mark leaves the bucket as it was, but for the reads of its source. -/
inductive Session.Shift (session : Session) (now : Instant) (mark : Option Mark)
    (after : Session) : Prop
  | admitted (handle : Handle) (marked : mark = some (.admitted handle))
      (room : session.bucket.HasRoomFor handle)
      (outcome : after = { session with
        bucket := { session.bucket with
          members := session.bucket.members ++ [handle]
          lastUpdated := now } })
  | removed (id : NodeId) (handle : Handle) (marked : mark = some (.removed id))
      (found : session.bucket.find? id = some handle)
      (outcome : after = { session with
        bucket := { session.bucket with
          members := session.bucket.without id
          lastUpdated := now } })
  | moved (id : NodeId) (handle : Handle) (marked : mark = some (.moved id))
      (found : session.bucket.find? id = some handle)
      (outcome : after =
        { bucket := { session.bucket with
            members := session.bucket.without id ++ [handle]
            lastUpdated := now }
          roster := session.roster.update handle.slot (.refreshAt now) })
  | kept (marked : mark = none)
      (outcome : after.bucket =
        { session.bucket with reads := after.bucket.reads })

namespace Session

theorem step_add_of_room {session : Session} {handle : Handle}
    (room : session.bucket.HasRoomFor handle) (now : Instant) :
    session.step now (.add handle) =
      ⟨.done,
        { session with
          bucket := { session.bucket with
            members := session.bucket.members ++ [handle]
            lastUpdated := now } },
        [.added handle.contact (session.bucket.count + 1)]⟩ := by
  simp [step, Bucket.add_of_room room, Bucket.count]

/-- A newcomer that is turned away changes nothing. -/
theorem step_add_of_error {session : Session} {handle : Handle} {now : Instant}
    {error : BucketError} (h : session.bucket.add handle now = .error error) :
    session.step now (.add handle) =
      ⟨.refused error, session, Event.ofRefusal handle error⟩ := by
  simp [step, h]

theorem answer_add_eq_refused_iff {session : Session} {handle : Handle}
    {now : Instant} {error : BucketError} :
    (session.step now (.add handle)).answer = .refused error ↔
      session.bucket.add handle now = .error error := by
  cases hadd : session.bucket.add handle now with
  | ok bucket => simp [step, hadd]
  | error other => simp [step_add_of_error hadd]

theorem answer_add_eq_done_iff {session : Session} {handle : Handle}
    {now : Instant} :
    (session.step now (.add handle)).answer = .done ↔
      session.bucket.HasRoomFor handle := by
  cases hadd : session.bucket.add handle now with
  | ok bucket => simp [step, hadd, (Bucket.add_eq_ok_iff.mp hadd).1]
  | error error =>
      have hnone : ¬ session.bucket.HasRoomFor handle := by
        intro room
        cases hadd.symm.trans (Bucket.add_of_room room now)
      simp [step_add_of_error hadd, hnone]

theorem step_add_of_no_room {session : Session} {handle : Handle}
    (room : ¬ session.bucket.HasRoomFor handle) (now : Instant) :
    ∃ error, session.step now (.add handle) =
      ⟨.refused error, session, Event.ofRefusal handle error⟩ := by
  cases hadd : session.bucket.add handle now with
  | ok bucket => exact absurd (Bucket.add_eq_ok_iff.mp hadd).1 room
  | error error => exact ⟨error, step_add_of_error hadd⟩

theorem roster_after_add (session : Session) (now : Instant) (newcomer : Handle) :
    (session.step now (.add newcomer)).after.roster = session.roster := by
  by_cases room : session.bucket.HasRoomFor newcomer
  · rw [step_add_of_room room]
  · obtain ⟨error, hstep⟩ := step_add_of_no_room room now
    rw [hstep]

theorem step_remove_of_absent {session : Session} {handle : Handle}
    (h : session.bucket.find? handle.id = none) (now : Instant) :
    session.step now (.remove handle) = ⟨.refused .notFound, session, []⟩ := by
  simp [step, Bucket.remove, h, quietly]

theorem step_remove_of_find? {session : Session} {handle member : Handle}
    (h : session.bucket.find? handle.id = some member) (now : Instant) :
    session.step now (.remove handle) =
      ⟨.peer member,
        { session with
          bucket := { session.bucket with
            members := session.bucket.without handle.id
            lastUpdated := now } },
        [.removed member.contact]⟩ := by
  have hremove : session.bucket.remove handle.id now = .ok (member, _) :=
    Bucket.remove_eq_ok_iff.mpr ⟨h, rfl⟩
  simp only [step, hremove]

/-- Touching nobody is noticed before any peer is refreshed. -/
theorem step_touch_of_absent {session : Session} {id : NodeId}
    (h : session.bucket.find? id = none) (now : Instant) :
    session.step now (.touch id) = ⟨.refused .notFound, session, [.lookup id]⟩ := by
  simp [step, Bucket.get, h]

/-- Touching a member refreshes the peer and makes it the newest member; the
second look at the bucket finds what the first one did. -/
theorem step_touch_of_find? {session : Session} {id : NodeId} {handle : Handle}
    (h : session.bucket.find? id = some handle) (now : Instant) :
    session.step now (.touch id) =
      ⟨.done,
        { bucket := { session.bucket with
            members := session.bucket.without id ++ [handle]
            lastUpdated := now }
          roster := session.roster.update handle.slot (.refreshAt now) },
        [.lookup id]⟩ := by
  have hid := Bucket.id_of_find? h
  have hget := Bucket.get_eq_ok_iff.mpr h
  have hmove := Bucket.moveToEnd_eq_ok h now
  simp only [step, hget, hid, hmove]

theorem step_shift (session : Session) (now : Instant) (action : Action) :
    session.Shift now (Entry.mark? ⟨action, (session.step now action).answer⟩)
      (session.step now action).after := by
  cases action with
  | add handle =>
      cases hadd : session.bucket.add handle now with
      | error error =>
          have hstep := step_add_of_error hadd
          exact .kept (by simp [hstep, Entry.mark?]) (by rw [hstep])
      | ok bucket =>
          obtain ⟨room, rfl⟩ := Bucket.add_eq_ok_iff.mp hadd
          exact .admitted handle (by simp [step, hadd, Entry.mark?]) room
            (by simp [step, hadd])
  | remove handle =>
      cases hfind : session.bucket.find? handle.id with
      | none =>
          have hstep := step_remove_of_absent hfind now
          exact .kept (by simp [hstep, Entry.mark?]) (by rw [hstep])
      | some member =>
          have hstep := step_remove_of_find? hfind now
          exact .removed handle.id member (by simp [hstep, Entry.mark?]) hfind
            (by rw [hstep])
  | touch id =>
      cases hfind : session.bucket.find? id with
      | none =>
          have hstep := step_touch_of_absent hfind now
          exact .kept (by simp [hstep, Entry.mark?]) (by rw [hstep])
      | some handle =>
          have hstep := step_touch_of_find? hfind now
          exact .moved id handle (by simp [hstep, Entry.mark?]) hfind
            (by rw [hstep])
  | _ => exact .kept rfl rfl

theorem limits_step (session : Session) (now : Instant) (action : Action) :
    (session.step now action).after.bucket.limits = session.bucket.limits := by
  cases session.step_shift now action with
  | admitted handle _ _ outcome => rw [outcome]
  | removed id handle _ _ outcome => rw [outcome]
  | moved id handle _ _ outcome => rw [outcome]
  | kept _ outcome => rw [outcome]

@[simp] theorem final_nil (session : Session) : session.final [] = session :=
  rfl

@[simp] theorem final_cons (session : Session) (now : Instant) (action : Action)
    (rest : List (Instant × Action)) :
    session.final ((now, action) :: rest) =
      (session.step now action).after.final rest := rfl

theorem final_append (session : Session) (first rest : List (Instant × Action)) :
    session.final (first ++ rest) = (session.final first).final rest := by
  induction first generalizing session with
  | nil => rfl
  | cons entry first ih => exact ih (session.step entry.1 entry.2).after

theorem limits_final (session : Session) (log : List (Instant × Action)) :
    (session.final log).bucket.limits = session.bucket.limits := by
  induction log generalizing session with
  | nil => rfl
  | cons entry rest ih => exact (ih _).trans (limits_step session entry.1 entry.2)

theorem history_concat (session : Session) (log : List (Instant × Action))
    (now : Instant) (action : Action) :
    session.history (log ++ [(now, action)]) =
      session.history log ++
        [⟨action, ((session.final log).step now action).answer⟩] := by
  induction log generalizing session with
  | nil => rfl
  | cons entry rest ih =>
      exact congrArg (List.cons _) (ih (session.step entry.1 entry.2).after)

@[simp] theorem length_run (session : Session) (log : List (Instant × Action)) :
    (session.run log).length = log.length := by
  induction log generalizing session with
  | nil => rfl
  | cons entry rest ih =>
      exact congrArg Nat.succ (ih (session.step entry.1 entry.2).after)

theorem getElem?_run (session : Session) (log : List (Instant × Action)) (i : Nat) :
    (session.run log)[i]? = log[i]?.map fun entry =>
      (session.final (log.take i)).step entry.1 entry.2 := by
  induction log generalizing session i with
  | nil => rfl
  | cons entry rest ih =>
      cases i with
      | zero => rfl
      | succ i => exact ih (session.step entry.1 entry.2).after i

end Session

end Kademlia
