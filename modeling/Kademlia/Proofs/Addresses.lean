/-
Whom an address finds.  It is the oldest member that the address belongs to, so
among members that share an address each packet makes the next one answer: whoever
is found is heard from and goes behind the others.
-/
import Mathlib
import Kademlia.Bucket.Packet
import Kademlia.Proofs.Bounds
import Kademlia.Proofs.Recency

namespace Kademlia

namespace Contact

variable {contact : Contact}

theorem isAt_udpEndpoint_iff {other : Contact} :
    other.IsAt (.udp contact.udpEndpoint) ↔
      other.ip = contact.ip ∧ other.udpPort = contact.udpPort := by
  simp [IsAt, udpEndpoint]

theorem isAt_tcpEndpoint_iff {other : Contact} :
    other.IsAt (.tcp contact.tcpEndpoint) ↔
      other.ip = contact.ip ∧ other.tcpPort = contact.tcpPort := by
  simp [IsAt, tcpEndpoint]

theorem isAt_udpEndpoint (contact : Contact) :
    contact.IsAt (.udp contact.udpEndpoint) :=
  isAt_udpEndpoint_iff.mpr ⟨rfl, rfl⟩

theorem isAt_tcpEndpoint (contact : Contact) :
    contact.IsAt (.tcp contact.tcpEndpoint) :=
  isAt_tcpEndpoint_iff.mpr ⟨rfl, rfl⟩

theorem IsAt.ip?_eq {address : NetAddress} (h : contact.IsAt address) :
    address.ip? = some contact.ip := by
  cases address with
  | udp endpoint => exact congrArg some h.1.symm
  | tcp endpoint => exact congrArg some h.1.symm
  | bare ip => exact h.elim
  | unix path => exact h.elim

end Contact

namespace Bucket

variable {bucket : Bucket} {handle : Handle} {address : NetAddress} {i : Nat}

theorem mem_membersAt :
    handle ∈ bucket.membersAt address ↔
      handle ∈ bucket.members ∧ handle.contact.IsAt address := by
  simp [membersAt]

theorem membersAt_eq_nil_iff :
    bucket.membersAt address = [] ↔
      ∀ handle ∈ bucket.members, ¬ handle.contact.IsAt address := by
  simp [membersAt]

theorem getAt_eq_ok_iff {port : Contact → UInt16} {endpoint : Endpoint} :
    bucket.getAt port endpoint = .ok handle ↔
      (bucket.members.find? fun handle =>
        handle.ip = endpoint.ip ∧ port handle.contact = endpoint.port) =
          some handle := by
  unfold getAt
  cases bucket.members.find? fun handle =>
      handle.ip = endpoint.ip ∧ port handle.contact = endpoint.port with
  | none => simp
  | some found => simp

theorem getAt_eq_notFound_iff {port : Contact → UInt16} {endpoint : Endpoint} :
    bucket.getAt port endpoint = .error .notFound ↔
      ∀ handle ∈ bucket.members,
        ¬ (handle.ip = endpoint.ip ∧ port handle.contact = endpoint.port) := by
  unfold getAt
  cases hfind : bucket.members.find? fun handle =>
      handle.ip = endpoint.ip ∧ port handle.contact = endpoint.port with
  | none => simpa using List.find?_eq_none.mp hfind
  | some found =>
      have hmem := List.mem_of_find?_eq_some hfind
      have hat : found.ip = endpoint.ip ∧ port found.contact = endpoint.port := by
        simpa using List.find?_some hfind
      simpa using ⟨found, hmem, hat⟩

/-- A lookup by address gives the first of the members at the address. -/
theorem getByAddress_eq_ok_iff :
    bucket.getByAddress address = .ok handle ↔
      (bucket.membersAt address).head? = some handle := by
  cases address with
  | udp endpoint =>
      rw [membersAt, List.head?_filter]
      exact getAt_eq_ok_iff
  | tcp endpoint =>
      rw [membersAt, List.head?_filter]
      exact getAt_eq_ok_iff
  | bare ip =>
      have hnobody : bucket.membersAt (.bare ip) = [] :=
        membersAt_eq_nil_iff.mpr fun _ _ => id
      simp [getByAddress, hnobody]
  | unix path =>
      have hnobody : bucket.membersAt (.unix path) = [] :=
        membersAt_eq_nil_iff.mpr fun _ _ => id
      simp [getByAddress, hnobody]

theorem ip?_of_getByAddress (h : bucket.getByAddress address = .ok handle) :
    address.ip? = some handle.ip :=
  (mem_membersAt.mp (List.mem_of_head? (getByAddress_eq_ok_iff.mp h))).2.ip?_eq

section Transport

variable {transport : Endpoint → NetAddress} {endpoint : Endpoint}

theorem ip_of_getByAddress (htransport : transport ∈ [.udp, .tcp])
    (h : bucket.getByAddress (transport endpoint) = .ok handle) :
    handle.ip = endpoint.ip := by
  have hfamily := ip?_of_getByAddress h
  rcases List.mem_pair.mp htransport with rfl | rfl
  · exact (Option.some.inj hfamily).symm
  · exact (Option.some.inj hfamily).symm

theorem getByAddress_eq_notFound_iff (htransport : transport ∈ [.udp, .tcp]) :
    bucket.getByAddress (transport endpoint) = .error .notFound ↔
      ∀ handle ∈ bucket.members, ¬ handle.contact.IsAt (transport endpoint) := by
  rcases List.mem_pair.mp htransport with rfl | rfl
  · exact getAt_eq_notFound_iff
  · exact getAt_eq_notFound_iff

/-- Only the address and the port of an endpoint count. -/
theorem getByAddress_congr {other : Endpoint}
    (htransport : transport ∈ [.udp, .tcp])
    (hip : endpoint.ip = other.ip) (hport : endpoint.port = other.port) :
    bucket.getByAddress (transport endpoint) =
      bucket.getByAddress (transport other) := by
  rcases List.mem_pair.mp htransport with rfl | rfl
  · rw [getByAddress, getByAddress, getAt, getAt, hip, hport]
  · rw [getByAddress, getByAddress, getAt, getAt, hip, hport]

end Transport

/-- The first of the members at the address is the one at the lowest position. -/
theorem getByAddress_eq_ok_iff_getElem? :
    bucket.getByAddress address = .ok handle ↔
      ∃ i : Nat, bucket.members[i]? = some handle ∧ handle.contact.IsAt address ∧
        ∀ j < i, ∀ other : Handle, bucket.members[j]? = some other →
          ¬ other.contact.IsAt address := by
  rw [getByAddress_eq_ok_iff, membersAt, List.head?_filter,
    List.find?_eq_some_iff_getElem]
  simp only [decide_eq_true_eq, Bool.not_eq_true', decide_eq_false_iff_not]
  constructor
  · rintro ⟨hat, i, hi, hhandle, hfirst⟩
    refine ⟨i, List.getElem?_eq_some_iff.mpr ⟨hi, hhandle⟩, hat, ?_⟩
    intro j hj other hother
    obtain ⟨_, rfl⟩ := List.getElem?_eq_some_iff.mp hother
    exact hfirst j hj
  · rintro ⟨i, hposition, hat, hfirst⟩
    obtain ⟨hi, hhandle⟩ := List.getElem?_eq_some_iff.mp hposition
    refine ⟨hat, i, hi, hhandle, ?_⟩
    intro j hj
    exact hfirst j hj _ (List.getElem?_eq_getElem (hj.trans hi))

/-- A member at the address is found itself if none before it is at the address. -/
theorem getByAddress_eq_ok_self_iff (hdistinct : bucket.members.Nodup)
    (hposition : bucket.members[i]? = some handle)
    (hat : handle.contact.IsAt address) :
    bucket.getByAddress address = .ok handle ↔
      ∀ j < i, ∀ other : Handle, bucket.members[j]? = some other →
        ¬ other.contact.IsAt address := by
  rw [getByAddress_eq_ok_iff_getElem?]
  constructor
  · rintro ⟨k, hk, _, hfirst⟩
    have hi := (List.getElem?_eq_some_iff.mp hposition).1
    obtain rfl : i = k :=
      (List.getElem?_inj hi hdistinct).mp (hposition.trans hk.symm)
    exact hfirst
  · intro hfirst
    exact ⟨i, hposition, hat, hfirst⟩

/-- An address of a member finds somebody. -/
theorem exists_getByAddress_eq_ok (hmem : handle ∈ bucket.membersAt address) :
    ∃ found, bucket.getByAddress address = .ok found := by
  cases hat : bucket.membersAt address with
  | nil =>
      rw [hat] at hmem
      exact absurd hmem List.not_mem_nil
  | cons first rest => exact ⟨first, getByAddress_eq_ok_iff.mpr (by rw [hat]; rfl)⟩

/-- The first of the members at the address is the one whose last refresh is the
earliest. -/
theorem getByAddress_eq_ok_iff_older {history : List Entry}
    (hrecorded : History.Recorded history bucket.members) :
    bucket.getByAddress address = .ok handle ↔
      handle ∈ bucket.membersAt address ∧
        ∀ other ∈ bucket.membersAt address, other ≠ handle →
          History.Older history handle other := by
  rw [getByAddress_eq_ok_iff]
  exact History.Older.head?_eq_some_iff
    (hrecorded.ordered.sublist List.filter_sublist)

/-- When a member is moved to the end, it goes behind the others at its address. -/
theorem membersAt_moved {first : Handle} {rest : List Handle} {now : Instant}
    (hfind : bucket.find? first.id = some first)
    (hat : bucket.membersAt address = first :: rest) :
    membersAt { bucket with
      members := bucket.without first.id ++ [first]
      lastUpdated := now } address = rest ++ [first] := by
  have hfirst : first.contact.IsAt address :=
    (mem_membersAt.mp (hat ▸ List.mem_cons_self)).2
  rw [membersAt] at hat ⊢
  rw [List.filter_append, without_eq_erase hfind, ← List.erase_filter, hat,
    List.erase_cons_head, List.filter_singleton]
  simp [hfirst]

end Bucket

namespace Session

variable {session : Session} {address : NetAddress} {first : Handle}
  {rest : List Handle}

/-- The first of the members at the address answers a packet and then goes behind
the others there. -/
theorem receive_of_membersAt (hbounded : session.bucket.Bounded)
    (hat : session.bucket.membersAt address = first :: rest) (arrival : Arrival) :
    (session.receive address arrival).answer = .peer first ∧
      (session.receive address arrival).after.bucket.Bounded ∧
      (session.receive address arrival).after.bucket.membersAt address =
        rest ++ [first] := by
  have hfound : session.bucket.getByAddress address = .ok first :=
    Bucket.getByAddress_eq_ok_iff.mpr (by rw [hat]; rfl)
  have hmem : first ∈ session.bucket.members :=
    (Bucket.mem_membersAt.mp (hat ▸ List.mem_cons_self)).1
  have hfind := Bucket.find?_of_mem hbounded.distinct hmem
  have hlookup : session.step arrival.lookedUpAt (.getByAddress address) =
      ⟨.peer first, session, Event.ofAddress address⟩ := by
    simp [step, hfound, Answer.ofLookup]
  have hafter : (session.receive address arrival).after =
      (session.step arrival.heardAt (.touch first.id)).after := by
    simp [receive, hlookup, Turn.andThen]
  refine ⟨by simp [receive, hlookup, Turn.andThen], ?_, ?_⟩
  · rw [hafter]
    exact bounded_step hbounded arrival.heardAt (.touch first.id)
  · rw [hafter, step_touch_of_find? hfind]
    exact Bucket.membersAt_moved hfind hat

/-- Packets from one address are answered by the members there in turn. -/
theorem receiveAll_of_membersAt (hbounded : session.bucket.Bounded)
    (hsome : session.bucket.membersAt address ≠ []) (arrivals : List Arrival) :
    let turns := session.bucket.membersAt address
    (session.receiveAll address arrivals).1.length = arrivals.length ∧
      (∀ i < arrivals.length, (session.receiveAll address arrivals).1[i]? =
        turns[i % turns.length]?.map Answer.peer) ∧
      (session.receiveAll address arrivals).2.bucket.membersAt address =
        turns.rotate arrivals.length := by
  induction arrivals generalizing session with
  | nil => simp [receiveAll]
  | cons arrival arrivals ih =>
      intro turns
      obtain ⟨first, rest, hat⟩ := List.exists_cons_of_ne_nil hsome
      obtain ⟨hanswer, hafter, hmoved⟩ := receive_of_membersAt hbounded hat arrival
      have hrotated :
          (session.receive address arrival).after.bucket.membersAt address =
          turns.rotate 1 := by
        rw [hmoved]
        simp [turns, hat]
      have hlater :
          (session.receive address arrival).after.bucket.membersAt address ≠
            [] := by
        simp [hmoved]
      obtain ⟨hlength, hanswers, hfinal⟩ := ih hafter hlater
      simp only [hrotated, List.length_rotate, List.rotate_rotate]
        at hanswers hfinal
      refine ⟨by simp [receiveAll, hlength], ?_, ?_⟩
      · intro i hi
        cases i with
        | zero => simp [receiveAll, hanswer, turns, hat]
        | succ i =>
            have hposition : i % turns.length < turns.length :=
              Nat.mod_lt i (List.length_pos_iff.mpr hsome)
            have hnext := hanswers i (Nat.lt_of_succ_lt_succ hi)
            rw [List.getElem?_rotate hposition, Nat.mod_add_mod] at hnext
            exact hnext
      · rw [List.length_cons, Nat.add_comm]
        exact hfinal

end Session

open History in
/-- A lookup by address finds the oldest member with this internet address and this
port for the transport, whatever the flow label and scope.  The own address of a
member finds that member unless an older one shares it, and packets from one address
are answered in turn by all the members there. -/
theorem addresses_find_oldest_member {bucket : Bucket} (built : bucket.Built)
    (roster : Roster) (log : List (Instant × Action)) :
    let history := (Session.mk bucket roster).history log
    let session := (Session.mk bucket roster).final log
    let members := session.bucket.members
    let found := session.bucket.getByAddress
    (∀ ip, found (.bare ip) = .error (.unsupportedAddress "ip")) ∧
    (∀ path, found (.unix path) = .error (.unsupportedAddress "unix")) ∧
    (∀ address handle, found address = .ok handle ↔
      ∃ i : Nat, members[i]? = some handle ∧ handle.contact.IsAt address ∧
        ∀ j < i, ∀ other : Handle, members[j]? = some other →
          ¬ other.contact.IsAt address) ∧
    (∀ address handle, found address = .ok handle ↔
      (handle ∈ members ∧ handle.contact.IsAt address) ∧
        ∀ other ∈ members, other.contact.IsAt address → other ≠ handle →
          Older history handle other) ∧
    (∀ transport ∈ [NetAddress.udp, NetAddress.tcp],
      (∀ endpoint, found (transport endpoint) = .error .notFound ↔
        ∀ handle ∈ members, ¬ handle.contact.IsAt (transport endpoint)) ∧
      (∀ bytes port flow scope flow' scope',
        found (transport (.v6 bytes port flow scope)) =
          found (transport (.v6 bytes port flow' scope'))) ∧
      (∀ bytes port handle, found (transport (.v4 bytes port)) = .ok handle →
        handle.ip = .v4 bytes) ∧
      (∀ bytes port flow scope handle,
        found (transport (.v6 bytes port flow scope)) = .ok handle →
          handle.ip = .v6 bytes)) ∧
    (∀ (i : Nat) (handle : Handle), members[i]? = some handle →
      ((∃ other, found (.udp handle.contact.udpEndpoint) = .ok other) ∧
        (found (.udp handle.contact.udpEndpoint) = .ok handle ↔
          ∀ j < i, ∀ other : Handle, members[j]? = some other →
            ¬ (other.ip = handle.ip ∧
              other.contact.udpPort = handle.contact.udpPort))) ∧
      ((∃ other, found (.tcp handle.contact.tcpEndpoint) = .ok other) ∧
        (found (.tcp handle.contact.tcpEndpoint) = .ok handle ↔
          ∀ j < i, ∀ other : Handle, members[j]? = some other →
            ¬ (other.ip = handle.ip ∧
              other.contact.tcpPort = handle.contact.tcpPort)))) ∧
    (∀ address (arrivals : List Arrival),
      let turns := session.bucket.membersAt address
      turns ≠ [] →
        let answers := (session.receiveAll address arrivals).1
        let after := (session.receiveAll address arrivals).2
        answers.length = arrivals.length ∧
        (∀ i < arrivals.length, answers[i]? = turns[i % turns.length]?.map .peer) ∧
        after.bucket.membersAt address = turns.rotate arrivals.length) := by
  intro history session members found
  have hrecorded : Recorded history members :=
    recorded_final built.members_eq_nil log
  have hbounded : session.bucket.Bounded :=
    ((Session.Reachable.start built roster).final log).bounded
  refine ⟨fun _ => rfl, fun _ => rfl,
    fun _ _ => Bucket.getByAddress_eq_ok_iff_getElem?,
    ?_, ?_, ?_, ?_⟩
  · intro address handle
    rw [Bucket.getByAddress_eq_ok_iff_older hrecorded]
    simp only [Bucket.mem_membersAt, and_imp]
    rfl
  · intro transport htransport
    refine ⟨fun _ => Bucket.getByAddress_eq_notFound_iff htransport, ?_,
      fun _ _ _ => Bucket.ip_of_getByAddress htransport,
      fun _ _ _ _ _ => Bucket.ip_of_getByAddress htransport⟩
    intro bytes port flow scope flow' scope'
    exact Bucket.getByAddress_congr htransport rfl rfl
  · intro i handle hposition
    have hmem : handle ∈ members := List.mem_of_getElem? hposition
    refine ⟨⟨?_, ?_⟩, ?_, ?_⟩
    · exact Bucket.exists_getByAddress_eq_ok
        (Bucket.mem_membersAt.mpr ⟨hmem, handle.contact.isAt_udpEndpoint⟩)
    · simpa only [Contact.isAt_udpEndpoint_iff] using
        Bucket.getByAddress_eq_ok_self_iff hbounded.nodup_members hposition
          handle.contact.isAt_udpEndpoint
    · exact Bucket.exists_getByAddress_eq_ok
        (Bucket.mem_membersAt.mpr ⟨hmem, handle.contact.isAt_tcpEndpoint⟩)
    · simpa only [Contact.isAt_tcpEndpoint_iff] using
        Bucket.getByAddress_eq_ok_self_iff hbounded.nodup_members hposition
          handle.contact.isAt_tcpEndpoint
  · intro address arrivals turns hsome
    exact Session.receiveAll_of_membersAt hbounded hsome arrivals

/-- Three of four members share an address, and the one admitted first has been
touched since.  Five packets go round them once and then to the first two again. -/
theorem addresses_find_oldest_member_trial :
    let bucket := Bucket.start ⟨5, 3⟩ (.fixed 7) 0
    let log : List (Instant × Action) :=
      [(1, .add (.sampleAt 0 1 1)), (2, .add (.sampleAt 1 2 1)),
        (3, .add (.sampleAt 2 3 9)), (4, .add (.sampleAt 3 4 1)),
        (5, .touch (.ofNat 1))]
    let session := (Session.mk bucket .sample).final log
    let address := NetAddress.udp (.v4 ⟨[10, 0, 0, 1], rfl⟩ 4672)
    let turns : List Handle := [.sampleAt 1 2 1, .sampleAt 3 4 1, .sampleAt 0 1 1]
    let arrivals : List Arrival := [⟨6, 6⟩, ⟨7, 8⟩, ⟨9, 9⟩, ⟨10, 10⟩, ⟨11, 12⟩]
    let answers := (session.receiveAll address arrivals).1
    let after := (session.receiveAll address arrivals).2
    bucket.Built ∧
      session.bucket.membersAt address = turns ∧
      session.bucket.getByAddress address = .ok (.sampleAt 1 2 1) ∧
      (∀ i < arrivals.length, answers[i]? = turns[i % turns.length]?.map .peer) ∧
      after.bucket.membersAt address =
        [.sampleAt 0 1 1, .sampleAt 1 2 1, .sampleAt 3 4 1] := by
  intro bucket log session address turns arrivals answers after
  have made : Bucket.create ⟨5, 3⟩ (.fixed 7) 0 = .ok bucket := rfl
  have built : bucket.Built := .created made
  have hturns : session.bucket.membersAt address = turns := by decide
  have hsome : session.bucket.membersAt address ≠ [] := by
    rw [hturns]
    exact List.cons_ne_nil _ _
  obtain ⟨_, _, hfirst, _, _, _, hround⟩ :=
    addresses_find_oldest_member built .sample log
  have hturn := hround address arrivals hsome
  rw [hturns] at hturn
  obtain ⟨_, hanswers, hafter⟩ := hturn
  refine ⟨built, hturns, ?_, hanswers, ?_⟩
  · refine (hfirst address (.sampleAt 1 2 1)).mpr ⟨0, by decide, by decide, ?_⟩
    intro j hj
    exact absurd hj (Nat.not_lt_zero j)
  · rw [hafter]
    decide

end Kademlia
