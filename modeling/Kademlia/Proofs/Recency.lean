/-
The order of the members told from the history of a bucket.  From the marks of a
run alone follows who is a member and in which order: each member stands at the
index of its last admission or move.
-/
import Mathlib
import Kademlia.Bucket.Lemmas

namespace Kademlia

namespace History

variable {history : List Entry} {entry : Entry} {here later : Mark → Prop}
variable {handle first second : Handle} {id : NodeId} {i j : Nat}

theorem lt_length_of_markAt? {mark : Mark} (h : markAt? history i = some mark) :
    i < history.length := by
  obtain ⟨entry, hentry, _⟩ := Option.bind_eq_some_iff.mp h
  exact (List.getElem?_eq_some_iff.mp hentry).1

theorem markAt?_concat_length (history : List Entry) (entry : Entry) :
    markAt? (history ++ [entry]) history.length = entry.mark? := by
  simp [markAt?]

theorem markAt?_concat_of_ne (history : List Entry) (entry : Entry)
    (h : i ≠ history.length) :
    markAt? (history ++ [entry]) i = markAt? history i := by
  rcases Nat.lt_or_gt_of_ne h with hlt | hgt
  · rw [markAt?, markAt?, List.getElem?_append_left hlt]
  · have hshort : (history ++ [entry]).length ≤ i := by
      simpa using hgt
    rw [markAt?, markAt?, List.getElem?_eq_none hshort,
      List.getElem?_eq_none (Nat.le_of_lt hgt)]

/-- A further entry either is the last one itself or leaves the index alone,
unless it undoes what was there. -/
theorem lastAt_concat :
    LastAt (history ++ [entry]) here later i ↔
      (i = history.length ∧ ∃ mark, entry.mark? = some mark ∧ here mark) ∨
        ((∀ mark, entry.mark? = some mark → ¬ later mark) ∧
          LastAt history here later i) := by
  constructor
  · rintro ⟨⟨mark, hmark, hhere⟩, hlater⟩
    by_cases hi : i = history.length
    · left
      rw [hi, markAt?_concat_length] at hmark
      exact ⟨hi, mark, hmark, hhere⟩
    · right
      rw [markAt?_concat_of_ne history entry hi] at hmark
      have hlt := lt_length_of_markAt? hmark
      refine ⟨?_, ⟨mark, hmark, hhere⟩, ?_⟩
      · intro last hlast
        exact hlater history.length last hlt
          ((markAt?_concat_length history entry).trans hlast)
      · intro j other hij hother
        have hj : j ≠ history.length :=
          Nat.ne_of_lt (lt_length_of_markAt? hother)
        exact hlater j other hij
          ((markAt?_concat_of_ne history entry hj).trans hother)
  · rintro (⟨rfl, mark, hmark, hhere⟩ | ⟨hentry, ⟨mark, hmark, hhere⟩, hlater⟩)
    · refine ⟨⟨mark, (markAt?_concat_length history entry).trans hmark, hhere⟩, ?_⟩
      intro j other hij hother
      have hj := lt_length_of_markAt? hother
      rw [List.length_append, List.length_singleton] at hj
      omega
    · have hi : i ≠ history.length := Nat.ne_of_lt (lt_length_of_markAt? hmark)
      refine ⟨⟨mark, (markAt?_concat_of_ne history entry hi).trans hmark, hhere⟩,
        ?_⟩
      intro j other hij hother
      by_cases hj : j = history.length
      · rw [hj, markAt?_concat_length] at hother
        exact hentry other hother
      · rw [markAt?_concat_of_ne history entry hj] at hother
        exact hlater j other hij hother

theorem LastAt.lt_length (h : LastAt history here later i) :
    i < history.length := by
  obtain ⟨⟨mark, hmark, _⟩, _⟩ := h
  exact lt_length_of_markAt? hmark

theorem standing_concat :
    Standing (history ++ [entry]) handle ↔
      entry.mark? = some (.admitted handle) ∨
        ((∀ mark, entry.mark? = some mark → ¬ mark.Settles handle.id) ∧
          Standing history handle) := by
  simp only [Standing, lastAt_concat]
  constructor
  · rintro ⟨i, ⟨_, mark, hmark, rfl⟩ | ⟨hentry, hlast⟩⟩
    · exact Or.inl hmark
    · exact Or.inr ⟨hentry, i, hlast⟩
  · rintro (hmark | ⟨hentry, i, hlast⟩)
    · exact ⟨history.length, Or.inl ⟨rfl, _, hmark, rfl⟩⟩
    · exact ⟨i, Or.inr ⟨hentry, hlast⟩⟩

theorem refreshedAt_concat :
    RefreshedAt (history ++ [entry]) id i ↔
      (i = history.length ∧
          ∃ mark, entry.mark? = some mark ∧ mark.refreshed? = some id) ∨
        ((∀ mark, entry.mark? = some mark → mark.refreshed? ≠ some id) ∧
          RefreshedAt history id i) :=
  lastAt_concat

theorem RefreshedAt.unique (hi : RefreshedAt history id i)
    (hj : RefreshedAt history id j) : i = j := by
  obtain ⟨⟨mark, hmark, hhere⟩, hlater⟩ := hi
  obtain ⟨⟨other, hother, hthere⟩, hlast⟩ := hj
  rcases Nat.lt_trichotomy i j with hlt | heq | hgt
  · exact absurd hthere (hlater j other hlt hother)
  · exact heq
  · exact absurd hhere (hlast i mark hgt hmark)

/-- Whoever is a member has been refreshed, by its admission if by nothing
else. -/
theorem Standing.exists_refreshedAt (h : Standing history handle) :
    ∃ i, RefreshedAt history handle.id i := by
  induction history using List.reverseRecOn with
  | nil =>
      obtain ⟨i, hlast⟩ := h
      exact absurd hlast.lt_length (Nat.not_lt_zero i)
  | append_singleton history entry ih =>
      by_cases hfresh : ∃ mark, entry.mark? = some mark ∧
          mark.refreshed? = some handle.id
      · exact ⟨history.length, refreshedAt_concat.mpr (Or.inl ⟨rfl, hfresh⟩)⟩
      · rcases standing_concat.mp h with hmark | ⟨_, hbefore⟩
        · exact absurd ⟨_, hmark, rfl⟩ hfresh
        · obtain ⟨i, hi⟩ := ih hbefore
          refine ⟨i, refreshedAt_concat.mpr (Or.inr ⟨?_, hi⟩)⟩
          intro mark hmark hrefreshed
          exact hfresh ⟨mark, hmark, hrefreshed⟩

/-! The order by last refresh is strict. -/

theorem Older.id_ne (h : Older history first second) : first.id ≠ second.id := by
  obtain ⟨i, j, hi, hj, hlt⟩ := h
  intro heq
  rw [heq] at hi
  exact Nat.ne_of_lt hlt (hi.unique hj)

theorem Older.asymm (h : Older history first second) :
    ¬ Older history second first := by
  obtain ⟨i, j, hi, hj, hlt⟩ := h
  rintro ⟨k, l, hk, hl, hkl⟩
  rw [hj.unique hk, hi.unique hl] at hlt
  exact Nat.lt_asymm hlt hkl

instance : Std.Irrefl (Older history) where
  irrefl _ h := h.id_ne rfl

instance : Std.Antisymm (Older history) where
  antisymm _ _ h hback := absurd hback h.asymm

/-- An entry that refreshes neither of two handles keeps their order. -/
theorem Older.concat (h : Older history first second)
    (hfirst : ∀ mark, entry.mark? = some mark → mark.refreshed? ≠ some first.id)
    (hsecond : ∀ mark, entry.mark? = some mark →
      mark.refreshed? ≠ some second.id) :
    Older (history ++ [entry]) first second := by
  obtain ⟨i, j, hi, hj, hlt⟩ := h
  exact ⟨i, j, refreshedAt_concat.mpr (Or.inr ⟨hfirst, hi⟩),
    refreshedAt_concat.mpr (Or.inr ⟨hsecond, hj⟩), hlt⟩

/-- A list holds the members that a history leaves, in the order of their last
refresh. -/
structure Recorded (history : List Entry) (members : List Handle) : Prop where
  mem_iff : ∀ handle, handle ∈ members ↔ Standing history handle
  ordered : members.Pairwise (Older history)

namespace Recorded

variable {members kept : List Handle}

theorem nil : Recorded [] [] := by
  refine ⟨?_, List.Pairwise.nil⟩
  intro handle
  constructor
  · intro hmem
    exact absurd hmem List.not_mem_nil
  · rintro ⟨i, hlast⟩
    exact absurd hlast.lt_length (Nat.not_lt_zero i)

theorem distinct (h : Recorded history members) :
    (members.map Handle.id).Nodup :=
  List.pairwise_map.mpr (h.ordered.imp Older.id_ne)

/-- There is only one such list. -/
theorem unique (h : Recorded history members) (hkept : Recorded history kept) :
    members = kept :=
  h.ordered.eq_of_mem_iff hkept.ordered fun handle =>
    (h.mem_iff handle).trans (hkept.mem_iff handle).symm

/-- An entry that refreshes nobody keeps the order of those who stay. -/
theorem ordered_of_quiet (h : Recorded history members)
    (hsub : kept.Sublist members)
    (hquiet : ∀ mark, entry.mark? = some mark → mark.refreshed? = none) :
    kept.Pairwise (Older (history ++ [entry])) := by
  have hnone : ∀ handle : Handle, ∀ mark, entry.mark? = some mark →
      mark.refreshed? ≠ some handle.id := by
    intro handle mark hmark
    simp [hquiet mark hmark]
  exact (h.ordered.sublist hsub).imp fun hold =>
    hold.concat (hnone _) (hnone _)

/-- The handle that an entry refreshes belongs behind all the others. -/
theorem ordered_of_newest (h : Recorded history members)
    (hsub : kept.Sublist members) (hothers : ∀ other ∈ kept, other.id ≠ handle.id)
    {mark : Mark} (hmark : entry.mark? = some mark)
    (hrefreshed : mark.refreshed? = some handle.id) :
    (kept ++ [handle]).Pairwise (Older (history ++ [entry])) := by
  have hspared : ∀ other ∈ kept, ∀ mark, entry.mark? = some mark →
      mark.refreshed? ≠ some other.id := by
    intro other hother mark' hmark' hrefreshed'
    obtain rfl : mark' = mark := Option.some.inj (hmark'.symm.trans hmark)
    have hid : handle.id = other.id :=
      Option.some.inj (hrefreshed.symm.trans hrefreshed')
    exact hothers other hother hid.symm
  rw [List.pairwise_append]
  refine ⟨?_, List.pairwise_singleton _ _, ?_⟩
  · exact (h.ordered.sublist hsub).imp_of_mem fun hfirst hsecond hold =>
      hold.concat (hspared _ hfirst) (hspared _ hsecond)
  · intro other hother newest hnewest
    obtain rfl := List.mem_singleton.mp hnewest
    have hstanding := (h.mem_iff other).mp (hsub.subset hother)
    obtain ⟨i, hi⟩ := hstanding.exists_refreshedAt
    exact ⟨i, history.length,
      refreshedAt_concat.mpr (Or.inr ⟨hspared other hother, hi⟩),
      refreshedAt_concat.mpr (Or.inl ⟨rfl, mark, hmark, hrefreshed⟩), hi.lt_length⟩

end Recorded

/-- One step keeps the members in step with the history.  A removal only loses
its own member; a newcomer and a moved member go behind the others. -/
theorem Recorded.step {session : Session}
    (h : Recorded history session.bucket.members) (now : Instant)
    (action : Action) :
    Recorded (history ++ [⟨action, (session.step now action).answer⟩])
      (session.step now action).after.bucket.members := by
  cases session.step_shift now action with
  | admitted newcomer marked room outcome =>
      rw [outcome]
      refine ⟨?_, h.ordered_of_newest (.refl _) room.fresh marked rfl⟩
      intro handle
      rw [List.mem_append, List.mem_singleton, standing_concat, marked, h.mem_iff]
      constructor
      · rintro (hstanding | rfl)
        · refine Or.inr ⟨?_, hstanding⟩
          rintro mark hmark hsettles
          obtain rfl := Option.some.inj hmark
          exact room.fresh handle ((h.mem_iff handle).mpr hstanding) hsettles.symm
        · exact Or.inl rfl
      · rintro (hmark | ⟨_, hstanding⟩)
        · have heq : newcomer = handle := by simpa using hmark
          exact Or.inr heq.symm
        · exact Or.inl hstanding
  | removed id gone marked found outcome =>
      rw [outcome]
      refine ⟨?_, h.ordered_of_quiet (session.bucket.members_without_sublist id) ?_⟩
      · intro handle
        rw [Bucket.mem_without_iff h.distinct, standing_concat, marked, h.mem_iff]
        simp [Mark.Settles, and_comm, eq_comm]
      · intro mark hmark
        obtain rfl := Option.some.inj (marked.symm.trans hmark)
        rfl
  | moved id handle marked found outcome =>
      have hid : handle.id = id := Bucket.id_of_find? found
      have hothers : ∀ other ∈ session.bucket.without id, other.id ≠ handle.id := by
        intro other hother
        rw [hid]
        exact ((Bucket.mem_without_iff h.distinct).mp hother).2
      rw [outcome]
      refine ⟨?_, h.ordered_of_newest (session.bucket.members_without_sublist id)
        hothers marked (by rw [Mark.refreshed?, hid])⟩
      intro other
      rw [(Bucket.perm_of_find? found).mem_iff, standing_concat, marked, h.mem_iff]
      simp [Mark.Settles]
  | kept marked outcome =>
      rw [outcome]
      refine ⟨?_, h.ordered_of_quiet (.refl _) (by simp [marked])⟩
      intro handle
      rw [standing_concat, marked, h.mem_iff]
      simp

/-- The members after a run from an empty bucket are those that the history of
the run tells, in the order that it tells. -/
theorem recorded_final {session : Session} (hempty : session.bucket.members = [])
    (log : List (Instant × Action)) :
    Recorded (session.history log) (session.final log).bucket.members := by
  induction log using List.reverseRecOn with
  | nil =>
      rw [Session.final_nil, hempty]
      exact .nil
  | append_singleton log entry ih =>
      rw [Session.history_concat, Session.final_append]
      exact ih.step entry.1 entry.2

theorem Recorded.head?_eq_none_iff {members : List Handle}
    (h : Recorded history members) :
    members.head? = none ↔ ∀ handle, ¬ Standing history handle := by
  rw [List.head?_eq_none_iff, List.eq_nil_iff_forall_not_mem]
  exact forall_congr' fun handle => not_congr (h.mem_iff handle)

/-- The first of some members in order is the one whose last refresh is the
earliest. -/
theorem Older.head?_eq_some_iff {list : List Handle}
    (h : list.Pairwise (Older history)) :
    list.head? = some handle ↔ handle ∈ list ∧
      ∀ other ∈ list, other ≠ handle → Older history handle other := by
  cases list with
  | nil => simp
  | cons oldest rest =>
      have holdest : ∀ other ∈ oldest :: rest, other ≠ oldest →
          Older history oldest other := by
        intro other hmem hne
        rcases List.mem_cons.mp hmem with heq | hrest
        · exact absurd heq hne
        · exact (List.pairwise_cons.mp h).1 other hrest
      rw [List.head?_cons, Option.some.injEq]
      constructor
      · rintro rfl
        exact ⟨List.mem_cons_self, holdest⟩
      · rintro ⟨hmem, hfirst⟩
        by_contra hne
        have hbefore := holdest handle hmem (Ne.symm hne)
        have hafter := hfirst oldest List.mem_cons_self hne
        exact hafter.asymm hbefore

/-- The first of the members is the one whose last refresh is the earliest. -/
theorem Recorded.head?_eq_some_iff {members : List Handle}
    (h : Recorded history members) :
    members.head? = some handle ↔ Standing history handle ∧
      ∀ other, Standing history other → other ≠ handle →
        Older history handle other := by
  rw [Older.head?_eq_some_iff h.ordered]
  simp only [h.mem_iff]

end History

namespace Session

variable {first second : Session}

/-- The members after a step depend on the members and the limits before it and
on nothing else. -/
theorem members_step_congr (hmembers : first.bucket.members = second.bucket.members)
    (hlimits : first.bucket.limits = second.bucket.limits) (now : Instant)
    (action : Action) :
    (first.step now action).after.bucket.members =
      (second.step now action).after.bucket.members := by
  have hfind : ∀ id, first.bucket.find? id = second.bucket.find? id := by
    intro id
    rw [Bucket.find?, Bucket.find?, hmembers]
  cases action with
  | add handle =>
      by_cases room : second.bucket.HasRoomFor handle
      · rw [step_add_of_room (room.congr hmembers hlimits), step_add_of_room room,
          hmembers]
      · have hnone : ¬ first.bucket.HasRoomFor handle := by
          intro hroom
          exact room (hroom.congr hmembers.symm hlimits.symm)
        obtain ⟨_, hfirst⟩ := step_add_of_no_room hnone now
        obtain ⟨_, hsecond⟩ := step_add_of_no_room room now
        rw [hfirst, hsecond, hmembers]
  | remove handle =>
      cases hfound : second.bucket.find? handle.id with
      | none =>
          rw [step_remove_of_absent hfound,
            step_remove_of_absent ((hfind handle.id).trans hfound), hmembers]
      | some gone =>
          rw [step_remove_of_find? hfound,
            step_remove_of_find? ((hfind handle.id).trans hfound)]
          simp [Bucket.without, hmembers]
  | touch id =>
      cases hfound : second.bucket.find? id with
      | none =>
          rw [step_touch_of_absent hfound,
            step_touch_of_absent ((hfind id).trans hfound), hmembers]
      | some handle =>
          rw [step_touch_of_find? hfound,
            step_touch_of_find? ((hfind id).trans hfound)]
          simp [Bucket.without, hmembers]
  | _ => exact hmembers

theorem members_final_congr
    (hmembers : first.bucket.members = second.bucket.members)
    (hlimits : first.bucket.limits = second.bucket.limits)
    (log : List (Instant × Action)) :
    (first.final log).bucket.members = (second.final log).bucket.members := by
  induction log generalizing first second with
  | nil => exact hmembers
  | cons entry rest ih =>
      apply ih
      · exact members_step_congr hmembers hlimits entry.1 entry.2
      · rw [limits_step, limits_step, hlimits]

/-- A step without a mark can be left out of a run. -/
theorem members_final_of_unmarked {session : Session} {now : Instant}
    {action : Action} (rest : List (Instant × Action))
    (hquiet : Entry.mark? ⟨action, (session.step now action).answer⟩ = none) :
    (session.final ((now, action) :: rest)).bucket.members =
      (session.final rest).bucket.members := by
  have hbucket : (session.step now action).after.bucket =
      { session.bucket with
        reads := (session.step now action).after.bucket.reads } := by
    cases session.step_shift now action with
    | admitted handle marked _ _ => simp [hquiet] at marked
    | removed id handle marked _ _ => simp [hquiet] at marked
    | moved id handle marked _ _ => simp [hquiet] at marked
    | kept _ outcome => exact outcome
  rw [final_cons]
  apply members_final_congr
  · rw [hbucket]
  · rw [hbucket]

end Session

open History in
/-- After any run from an empty bucket the members are exactly the handles that were
last admitted under their identifiers and not removed since, in the order of their
last admission or move.  Other steps might as well not have been taken. -/
theorem members_are_recency_order {session : Session}
    (hempty : session.bucket.members = []) (log : List (Instant × Action)) :
    let history := session.history log
    let reached := (session.final log).bucket
    (∀ members, reached.members = members ↔
      (∀ handle, handle ∈ members ↔ Standing history handle) ∧
        members.Pairwise (Older history)) ∧
    (reached.oldest? = none ↔ ∀ handle, ¬ Standing history handle) ∧
    (∀ handle, reached.oldest? = some handle ↔ Standing history handle ∧
      ∀ other, Standing history other → other ≠ handle →
        Older history handle other) ∧
    (∀ before now action rest, log = before ++ (now, action) :: rest →
      Entry.mark? ⟨action, ((session.final before).step now action).answer⟩ = none →
      reached.members = (session.final (before ++ rest)).bucket.members) := by
  intro history reached
  have hrecorded : Recorded history reached.members := recorded_final hempty log
  refine ⟨?_, hrecorded.head?_eq_none_iff, fun _ => hrecorded.head?_eq_some_iff, ?_⟩
  · intro members
    constructor
    · rintro rfl
      exact ⟨hrecorded.mem_iff, hrecorded.ordered⟩
    · rintro ⟨hmem, hordered⟩
      exact hrecorded.unique ⟨hmem, hordered⟩
  · rintro before now action rest rfl hquiet
    rw [Session.final_append]
    show ((session.final (before ++ (now, action) :: rest)).bucket.members) = _
    rw [Session.final_append]
    exact Session.members_final_of_unmarked rest hquiet

open History in
/-- Two handles of one identifier, the first of which goes before the second is
let in; a member touched in between becomes the newest. -/
theorem members_are_recency_order_trial :
    let session := Session.mk (.start .small (.fixed 7) 0) .sample
    let log : List (Instant × Action) :=
      [(1, .add (.sampleAt 0 1 1)), (2, .add (.sampleAt 1 2 2)),
        (3, .remove (.sampleAt 0 1 1)), (4, .add (.sampleAt 2 1 3)),
        (5, .touch (.ofNat 2)), (6, .add (.sampleAt 0 1 1))]
    let order : List Handle := [.sampleAt 2 1 3, .sampleAt 1 2 2]
    session.bucket.members = [] ∧
      (∀ handle, handle ∈ order ↔ Standing (session.history log) handle) ∧
      order.Pairwise (Older (session.history log)) := by
  intro session log order
  have hempty : session.bucket.members = [] := rfl
  refine ⟨hempty, ?_⟩
  exact ((members_are_recency_order hempty log).1 order).mp (by decide)

end Kademlia
