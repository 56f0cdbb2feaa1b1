/-
Limits from a configuration text in TOML.  The table `kbucket` may set each
limit; one that is not set keeps its standard value.  Everything else in the
text is ignored, but the text has to be valid as a whole.
-/
import Kademlia.Config.Error
import Kademlia.Config.Storage
import Kademlia.Toml.Document

namespace Kademlia

/-- The limits that a text sets. -/
structure WrittenLimits where
  size : Option Nat
  perIp : Option Nat
deriving DecidableEq

namespace WrittenLimits

/-- A limit is written as an integer that is not negative. -/
def limit? : Toml.Value → Option Nat
  | .number (.integer (.ofNat value)) => some value
  | _ => none

/-- The limit under a key of a table, if the key is there. -/
def field? (entries : Toml.Entries) (key : String) : Option (Option Nat) :=
  match entries.value? key.toList with
  | none => some none
  | some value => some <$> limit? value

/-- Read the value of `kbucket`.  An array stands for its first two items, and
a date or time sets nothing. -/
def ofValue? : Toml.Value → Option WrittenLimits
  | .table _ entries => do
      let size ← field? entries "max_bucket_size"
      let perIp ← field? entries "max_peers_per_ip"
      some ⟨size, perIp⟩
  | .array (size :: perIp :: _) => do
      let size ← limit? size
      let perIp ← limit? perIp
      some ⟨some size, some perIp⟩
  | .dateTime _ => some ⟨none, none⟩
  | _ => none

/-- Read the limits in a text, or nothing if the text is not valid. -/
def ofText? (text : String) : Option WrittenLimits := do
  let entries ← Toml.Entries.ofText? text
  match entries.value? "kbucket".toList with
  | none => some ⟨none, none⟩
  | some value => ofValue? value

/-- Fill in the standard limits. -/
def complete (written : WrittenLimits) : Limits where
  size := written.size.getD Limits.standard.size
  perIp := written.perIp.getD Limits.standard.perIp

end WrittenLimits

/-- Usable limits taken from a text. -/
structure FileLimits where
  limits : Limits
  usable : limits.Usable

instance : LimitsProvider FileLimits where
  limits := FileLimits.limits

namespace FileLimits

/-- Accept limits that are usable. -/
def ofLimits (limits : Limits) : Except ConfigError FileLimits :=
  match h : limits.validate with
  | .ok () => .ok ⟨limits, (limits.validate_eq_ok_iff).mp h⟩
  | .error cause => .error (.outOfRange cause)

theorem ofLimits_of_usable {limits : Limits} (h : limits.Usable) :
    ofLimits limits = .ok ⟨limits, h⟩ := by
  have hvalid := (limits.validate_eq_ok_iff).mpr h
  unfold ofLimits
  split
  · rfl
  · next cause hcause =>
      rw [hvalid] at hcause
      cases hcause

theorem ofLimits_of_not_usable {limits : Limits} (h : ¬ limits.Usable) :
    ∃ cause, limits.validate = .error cause ∧
      ofLimits limits = .error (.outOfRange cause) := by
  unfold ofLimits
  split
  · next hvalid => exact absurd ((limits.validate_eq_ok_iff).mp hvalid) h
  · next cause hcause => exact ⟨cause, hcause, rfl⟩

theorem limits_of_ofLimits {limits : Limits} {file : FileLimits}
    (h : ofLimits limits = .ok file) : file.limits = limits := by
  by_cases husable : limits.Usable
  · rw [ofLimits_of_usable husable] at h
    cases h
    rfl
  · obtain ⟨cause, _, hrefused⟩ := ofLimits_of_not_usable husable
    rw [hrefused] at h
    cases h

theorem exists_ofLimits_eq_ok_iff {limits : Limits} :
    (∃ file, ofLimits limits = .ok file) ↔ limits.Usable := by
  constructor
  · rintro ⟨file, h⟩
    rw [← limits_of_ofLimits h]
    exact file.usable
  · exact fun husable => ⟨_, ofLimits_of_usable husable⟩

theorem exists_ofLimits_eq_outOfRange_iff {limits : Limits} :
    (∃ cause, ofLimits limits = .error (.outOfRange cause)) ↔ ¬ limits.Usable := by
  constructor
  · rintro ⟨cause, h⟩ husable
    rw [ofLimits_of_usable husable] at h
    cases h
  · intro hnot
    obtain ⟨cause, _, hrefused⟩ := ofLimits_of_not_usable hnot
    exact ⟨cause, hrefused⟩

/-- Take limits from a text, as a reader of texts understands it.  A text that it
does not understand is reported before limits that are not usable. -/
def ofTextBy (read? : String → Option WrittenLimits) (text : String) :
    Except ConfigError FileLimits :=
  match read? text with
  | some written => ofLimits written.complete
  | none => .error .malformed

theorem ofTextBy_of_some {read? : String → Option WrittenLimits} {text : String}
    {written : WrittenLimits} (h : read? text = some written) :
    ofTextBy read? text = ofLimits written.complete := by
  simp [ofTextBy, h]

theorem ofTextBy_eq_malformed_iff {read? : String → Option WrittenLimits}
    {text : String} :
    ofTextBy read? text = .error .malformed ↔ read? text = none := by
  cases h : read? text with
  | none => simp [ofTextBy, h]
  | some written =>
      rw [ofTextBy_of_some h]
      by_cases husable : written.complete.Usable
      · simp [ofLimits_of_usable husable]
      · obtain ⟨cause, _, hrefused⟩ := ofLimits_of_not_usable husable
        simp [hrefused]

/-- Take limits from a text in TOML. -/
def ofText (text : String) : Except ConfigError FileLimits :=
  ofTextBy WrittenLimits.ofText? text

/-- Take limits from a file. -/
def load (store : FileStore) (path : String) : Except ConfigError FileLimits :=
  match store.readText path with
  | .ok text => ofText text
  | .error error => .error (.unreadable path error.message)

end FileLimits

end Kademlia
