/-
From limits to full buckets.  Limits given outright and limits read from a text are
accepted by the same rule, that they are usable.  Of usable limits a bucket is made,
unless no allocation has room for so many members, and a bucket takes in any crowd
that its limits allow, until it is full.
-/
import Mathlib
import Kademlia.Config.File
import Kademlia.NodeId.Value
import Kademlia.Proofs.Admission
import Kademlia.Proofs.Observers

namespace Kademlia

/-- A crowd that fills a bucket exactly: as many peers as there are places, all of
different identifiers, and of no address more than may share one. -/
structure Limits.FilledBy (limits : Limits) (handles : List Handle) : Prop where
  size : handles.length = limits.size
  distinct : (handles.map Handle.id).Nodup
  perIp : ∀ ip, (handles.countP fun handle => handle.ip = ip) ≤ limits.perIp

/-- Only the addresses of the crowd itself have to be looked at. -/
theorem Limits.filledBy_iff {limits : Limits} {handles : List Handle} :
    limits.FilledBy handles ↔ handles.length = limits.size ∧
      (handles.map Handle.id).Nodup ∧ ∀ member ∈ handles,
        (handles.countP fun handle => handle.ip = member.ip) ≤ limits.perIp := by
  constructor
  · intro h
    exact ⟨h.size, h.distinct, fun member _ => h.perIp member.ip⟩
  · rintro ⟨hsize, hdistinct, hmembers⟩
    refine ⟨hsize, hdistinct, ?_⟩
    intro ip
    by_cases hsome : ∃ member ∈ handles, member.ip = ip
    · obtain ⟨member, hmember, rfl⟩ := hsome
      exact hmembers member hmember
    · have hnone : (handles.countP fun handle => handle.ip = ip) = 0 := by
        simpa [List.countP_eq_zero] using hsome
      omega

instance (limits : Limits) (handles : List Handle) :
    Decidable (limits.FilledBy handles) :=
  decidable_of_iff _ Limits.filledBy_iff.symm

/-- The handle of a slot whose number is its identifier and its address as well. -/
def Handle.numbered (slot : Nat) : Handle where
  slot := slot
  contact := ⟨⟨.ofNat slot⟩, .v6 (.ofNat slot), 0, 0⟩

theorem Octets.nodup_map_ofNat_range {length bound : Nat}
    (h : bound ≤ 256 ^ length) :
    ((List.range bound).map (ofNat : Nat → Octets length)).Nodup := by
  apply List.Nodup.map_on _ List.nodup_range
  intro i hi j hj heq
  have hvalue := congrArg toNat heq
  have hbelow : i < 256 ^ length := (List.mem_range.mp hi).trans_le h
  have hbelow' : j < 256 ^ length := (List.mem_range.mp hj).trans_le h
  rwa [toNat_ofNat, toNat_ofNat, Nat.mod_eq_of_lt hbelow, Nat.mod_eq_of_lt hbelow']
    at hvalue

/-- There are crowds enough: peers of as many addresses as identifiers. -/
theorem Limits.Usable.filledBy_numbered {limits : Limits} (h : limits.Usable)
    (hsize : limits.size ≤ 2 ^ 128) :
    limits.FilledBy ((List.range limits.size).map Handle.numbered) := by
  have hwidth : (256 : Nat) ^ 16 = 2 ^ 128 := by norm_num
  have hoctets :
      ((List.range limits.size).map (Octets.ofNat : Nat → Octets 16)).Nodup :=
    Octets.nodup_map_ofNat_range (hsize.trans hwidth.ge)
  constructor
  · simp
  · have hids := hoctets.map fun _ _ h => NodeId.mk.inj h
    rwa [List.map_map] at hids ⊢
  · intro ip
    have hips := hoctets.map fun _ _ h => Ip.v6.inj h
    have hcount := List.nodup_iff_count_le_one.mp hips ip
    rw [List.map_map, List.count, List.countP_map] at hcount
    rw [List.countP_map]
    exact hcount.trans h.1

namespace Bucket

variable {bucket : Bucket} {handle : Handle}

section Create

variable {limits : Limits} {entropy : EntropySource} {now : Instant}

theorem lt_iff_le_maxCapacity {size : Nat} :
    size < 2 ^ 60 ↔ size ≤ maxCapacity := by
  rw [maxCapacity]
  omega

theorem exists_create_eq_ok_iff :
    (∃ bucket, create limits entropy now = .ok bucket) ↔
      limits.Usable ∧ limits.size < 2 ^ 60 := by
  rw [lt_iff_le_maxCapacity]
  constructor
  · rintro ⟨bucket, h⟩
    obtain ⟨husable, hroom, _⟩ := create_eq_ok_iff.mp h
    exact ⟨husable, hroom⟩
  · rintro ⟨husable, hroom⟩
    exact ⟨_, create_eq_ok_iff.mpr ⟨husable, hroom, rfl⟩⟩

/-- Limits that leave no room for a bucket are found usable, and stop the
program. -/
theorem create_eq_capacityOverflow_iff :
    create limits entropy now = .error .capacityOverflow ↔
      limits.Usable ∧ 2 ^ 60 ≤ limits.size := by
  rw [← not_lt, lt_iff_le_maxCapacity]
  rcases create_cases limits entropy now with
    ⟨_, hroom, h⟩ | ⟨husable, hroom, h⟩ | ⟨husable, cause, h⟩
  · simp [h, hroom]
  · simp [h, husable, hroom]
  · simp [h, husable]

theorem exists_create_eq_refused_iff :
    (∃ cause, create limits entropy now = .error (.refused cause)) ↔
      ¬ limits.Usable := by
  rcases create_cases limits entropy now with
    ⟨husable, _, h⟩ | ⟨husable, _, h⟩ | ⟨husable, cause, h⟩
  · simp [h, husable]
  · simp [h, husable]
  · simp [h, husable]

theorem limits_of_create (h : create limits entropy now = .ok bucket) :
    bucket.limits = limits := by
  obtain ⟨_, _, rfl⟩ := create_eq_ok_iff.mp h
  rfl

/-- Limits accepted from a text make a bucket if there is room for it. -/
theorem exists_ofProvider_file_iff (file : FileLimits) (entropy : EntropySource)
    (now : Instant) :
    (∃ bucket, ofProvider file entropy now = .ok bucket ∧
      bucket.limits = file.limits) ↔ file.limits.size < 2 ^ 60 := by
  constructor
  · rintro ⟨bucket, h, _⟩
    exact (exists_create_eq_ok_iff.mp ⟨bucket, h⟩).2
  · intro hroom
    obtain ⟨bucket, h⟩ : ∃ bucket, ofProvider file entropy now = .ok bucket :=
      exists_create_eq_ok_iff.mpr ⟨file.usable, hroom⟩
    exact ⟨bucket, h, limits_of_create h⟩

theorem ofProvider_file_eq_capacityOverflow_iff (file : FileLimits)
    (entropy : EntropySource) (now : Instant) :
    ofProvider file entropy now = .error .capacityOverflow ↔
      2 ^ 60 ≤ file.limits.size :=
  create_eq_capacityOverflow_iff.trans (and_iff_right file.usable)

/-- Some crowd fills every bucket. -/
theorem Built.exists_filledBy (h : bucket.Built) :
    ∃ handles, bucket.limits.FilledBy handles := by
  have hsize : bucket.limits.size < 2 ^ 60 := lt_iff_le_maxCapacity.mpr h.size_le
  exact ⟨_, h.usable.filledBy_numbered (by omega)⟩

end Create

end Bucket

namespace Session

variable {session : Session}

/-- Peers that could be members together are all let in, one after another. -/
theorem arrivals_admitted (hempty : session.bucket.members = [])
    (queue : List (Instant × Handle))
    (h : Bucket.Bounded { session.bucket with members := queue.map Prod.snd }) :
    (session.final (arrivals queue)).bucket.members = queue.map Prod.snd ∧
      ∀ entry ∈ session.history (arrivals queue), entry.answer = .done := by
  induction queue using List.reverseRecOn with
  | nil => exact ⟨hempty, fun _ hmem => absurd hmem List.not_mem_nil⟩
  | append_singleton queue entry ih =>
      obtain ⟨now, handle⟩ := entry
      rw [List.map_append, List.map_singleton] at h
      have hbefore :
          Bucket.Bounded { session.bucket with members := queue.map Prod.snd } :=
        h.of_subperm rfl (List.sublist_append_left _ _).subperm
      obtain ⟨hmembers, hdone⟩ := ih hbefore
      have hlast :
          Bucket.HasRoomFor
            { session.bucket with members := queue.map Prod.snd } handle :=
        .of_bounded h
      have hroom : (session.final (arrivals queue)).bucket.HasRoomFor handle :=
        hlast.congr hmembers (session.limits_final _)
      have hstep := step_add_of_room hroom now
      rw [arrivals_concat, final_append, history_concat, final_cons,
        final_nil, hstep]
      constructor
      · simp [hmembers]
      · intro entry hentry
        rcases List.mem_append.mp hentry with hold | hnew
        · exact hdone entry hold
        · rw [List.mem_singleton.mp hnew]

/-- A crowd that fills the bucket is let in to the last, in whatever order. -/
theorem full_of_filledBy (hempty : session.bucket.members = [])
    (husable : session.bucket.limits.Usable) {queue : List (Instant × Handle)}
    (h : session.bucket.limits.FilledBy (queue.map Prod.snd)) :
    (∀ entry ∈ session.history (arrivals queue), entry.answer = .done) ∧
      (session.final (arrivals queue)).bucket.occupancy = .full := by
  have hbounded :
      Bucket.Bounded { session.bucket with members := queue.map Prod.snd } :=
    ⟨h.distinct, h.perIp, h.size.le⟩
  obtain ⟨hmembers, hdone⟩ := arrivals_admitted hempty queue hbounded
  have hlimits := session.limits_final (arrivals queue)
  have husable' : (session.final (arrivals queue)).bucket.limits.Usable := by
    rw [hlimits]
    exact husable
  refine ⟨hdone, (Bucket.occupancy_eq_full_iff husable').mpr ?_⟩
  rw [Bucket.count, hmembers, hlimits]
  exact h.size.ge

end Session

/-- Limits make a bucket exactly if they are usable and the size is below `2 ^ 60`:
larger ones pass every check, also as a text, and stop the program.  A text is
malformed exactly if its reader does not understand it.  Every bucket lets in
whoever its limits allow, until it is full. -/
theorem usable_limits_make_fillable_buckets_or_overflow (limits : Limits)
    (read? : String → Option WrittenLimits) (text : String)
    (entropy : EntropySource) (now : Instant) :
    let made := Bucket.create limits entropy now
    let outcome := FileLimits.ofTextBy read? text
    ((∃ bucket, made = .ok bucket) ↔
      (1 ≤ limits.perIp ∧ limits.perIp ≤ limits.size) ∧ limits.size < 2 ^ 60) ∧
    (made = .error .capacityOverflow ↔
      (1 ≤ limits.perIp ∧ limits.perIp ≤ limits.size) ∧ 2 ^ 60 ≤ limits.size) ∧
    ((∃ cause, made = .error (.refused cause)) ↔
      ¬ (1 ≤ limits.perIp ∧ limits.perIp ≤ limits.size)) ∧
    (∀ bucket, made = .ok bucket → bucket.limits = limits) ∧
    Bucket.ofProvider (FixedLimits.mk limits) entropy now = made ∧
    (outcome = .error .malformed ↔ read? text = none) ∧
    (∀ written, read? text = some written →
      let size := written.size.getD 16
      let perIp := written.perIp.getD 3
      ((∃ file, outcome = .ok file) ↔ 1 ≤ perIp ∧ perIp ≤ size) ∧
      ((∃ cause, outcome = .error (.outOfRange cause)) ↔
        ¬ (1 ≤ perIp ∧ perIp ≤ size)) ∧
      ∀ file, outcome = .ok file → file.limits = ⟨size, perIp⟩) ∧
    (∀ file, outcome = .ok file →
      let provided := Bucket.ofProvider file entropy now
      ((∃ bucket, provided = .ok bucket ∧ bucket.limits = file.limits) ↔
        file.limits.size < 2 ^ 60) ∧
      (provided = .error .capacityOverflow ↔ 2 ^ 60 ≤ file.limits.size)) ∧
    FileLimits.ofText = FileLimits.ofTextBy WrittenLimits.ofText? ∧
    ∀ bucket : Bucket, bucket.Built →
      (∀ (roster : Roster) (queue : List (Instant × Handle)),
        bucket.limits.FilledBy (queue.map Prod.snd) →
        let session := Session.mk bucket roster
        (∀ entry ∈ session.history (arrivals queue), entry.answer = .done) ∧
          (session.final (arrivals queue)).bucket.occupancy = .full) ∧
      ∃ handles, bucket.limits.FilledBy handles := by
  intro made outcome
  refine ⟨Bucket.exists_create_eq_ok_iff, Bucket.create_eq_capacityOverflow_iff,
    Bucket.exists_create_eq_refused_iff, fun _ => Bucket.limits_of_create, rfl,
    FileLimits.ofTextBy_eq_malformed_iff, ?_, ?_, rfl, ?_⟩
  · intro written hread size perIp
    have houtcome : outcome = FileLimits.ofLimits ⟨size, perIp⟩ :=
      FileLimits.ofTextBy_of_some hread
    rw [houtcome]
    exact ⟨FileLimits.exists_ofLimits_eq_ok_iff,
      FileLimits.exists_ofLimits_eq_outOfRange_iff,
      fun _ => FileLimits.limits_of_ofLimits⟩
  · intro file _ provided
    exact ⟨Bucket.exists_ofProvider_file_iff file entropy now,
      Bucket.ofProvider_file_eq_capacityOverflow_iff file entropy now⟩
  · intro bucket built
    refine ⟨?_, built.exists_filledBy⟩
    intro roster queue hfilled
    exact Session.full_of_filledBy built.members_eq_nil built.usable hfilled

/-- Two limits from a text make a bucket that four peers of two addresses fill.
With the standard limit for one address, two places are too few. -/
theorem usable_limits_make_fillable_buckets_or_overflow_trial :
    let text := "[kbucket]\nmax_bucket_size = 4\nmax_peers_per_ip = 2\n"
    let narrow := "[kbucket]\nmax_bucket_size = 2\n"
    let queue : List (Instant × Handle) :=
      [(1, .sampleAt 0 1 1), (2, .sampleAt 1 2 2), (3, .sampleAt 2 3 1),
        (4, .sampleAt 3 4 2)]
    (∃ file bucket, FileLimits.ofText text = .ok file ∧
      Bucket.ofProvider file (.fixed 7) 0 = .ok bucket ∧ bucket.limits = ⟨4, 2⟩ ∧
      ((Session.mk bucket .sample).final (arrivals queue)).bucket.occupancy =
        .full) ∧
    (∃ cause, FileLimits.ofText narrow = .error (.outOfRange cause)) ∧
    FileLimits.ofText "[kbucket" = .error .malformed := by
  intro text narrow queue
  have hall (text : String) :=
    usable_limits_make_fillable_buckets_or_overflow ⟨4, 2⟩
      WrittenLimits.ofText? text (.fixed 7) 0
  obtain ⟨_, _, _, _, _, _, hlimits, hbucket, _, hfill⟩ := hall text
  obtain ⟨hok, _, hsame⟩ := hlimits ⟨some 4, some 2⟩ (by decide +kernel)
  obtain ⟨file, hfile⟩ := hok.mpr (by decide)
  have hfour : file.limits = ⟨4, 2⟩ := hsame file hfile
  obtain ⟨bucket, hmade, hkept⟩ :=
    (hbucket file hfile).1.mpr (by rw [hfour]; decide)
  have hbounds : bucket.limits = ⟨4, 2⟩ := hkept.trans hfour
  have hfilled : bucket.limits.FilledBy (queue.map Prod.snd) := by
    rw [hbounds]
    decide
  have hfull := ((hfill bucket (.provided hmade)).1 .sample queue hfilled).2
  refine ⟨⟨file, bucket, hfile, hmade, hbounds, hfull⟩, ?_, ?_⟩
  · obtain ⟨_, _, _, _, _, _, hnarrow, _⟩ := hall narrow
    exact (hnarrow ⟨some 2, none⟩ (by decide +kernel)).2.1.mpr (by decide)
  · obtain ⟨_, _, _, _, _, hmalformed, _⟩ := hall "[kbucket"
    exact hmalformed.mpr (by decide +kernel)

/-- `2 ^ 60` places, one for an address, are usable limits and are accepted from a
text, but no bucket is made of them, given outright or by a provider. -/
theorem usable_limits_overflow :
    let limits : Limits := ⟨1152921504606846976, 1⟩
    let text := "[kbucket]\nmax_bucket_size = 1152921504606846976\n" ++
      "max_peers_per_ip = 1\n"
    (1 ≤ limits.perIp ∧ limits.perIp ≤ limits.size) ∧
    Bucket.create limits (.fixed 7) 0 = .error .capacityOverflow ∧
    Bucket.ofProvider (FixedLimits.mk limits) (.fixed 7) 0 =
      .error .capacityOverflow ∧
    ∃ file, FileLimits.ofText text = .ok file ∧ file.limits = limits ∧
      Bucket.ofProvider file (.fixed 7) 0 = .error .capacityOverflow := by
  intro limits text
  have husable : limits.Usable := by decide
  have hoverflow : Bucket.create limits (.fixed 7) 0 = .error .capacityOverflow :=
    Bucket.create_eq_capacityOverflow_iff.mpr ⟨husable, by decide⟩
  have hread : WrittenLimits.ofText? text = some ⟨some limits.size, some 1⟩ := by
    decide +kernel
  have htext : FileLimits.ofText text = .ok ⟨limits, husable⟩ :=
    (FileLimits.ofTextBy_of_some hread).trans
      (FileLimits.ofLimits_of_usable husable)
  exact ⟨husable, hoverflow, hoverflow, ⟨limits, husable⟩, htext, rfl, hoverflow⟩

end Kademlia
