/-
Limits as they are written by hand: the header of the table, and below it a line for
each limit that is set, in either order.  What is written so is read back as it was,
unless a number has no place in 64 bits.
-/
import Mathlib
import Kademlia.Config.File
import Kademlia.Proofs.PlainToml

namespace Kademlia

namespace WrittenLimits

variable {written : WrittenLimits} {sizeFirst : Bool}

/-- A limit under its name, if it is set. -/
def setting (name : String) (value : Option Nat) : List (String × Nat) :=
  value.toList.map fun value => (name, value)

/-- The limits that are set, in the order of their lines. -/
def settings (written : WrittenLimits) (sizeFirst : Bool) : List (String × Nat) :=
  let size := setting "max_bucket_size" written.size
  let perIp := setting "max_peers_per_ip" written.perIp
  if sizeFirst then size ++ perIp else perIp ++ size

/-- The text of some limits.  The break behind the last line may be missing. -/
def toText (written : WrittenLimits) (sizeFirst ended : Bool) : String :=
  let lines :=
    (written.settings sizeFirst).map fun setting => s!"{setting.1} = {setting.2}"
  "\n".intercalate ("[kbucket]" :: lines) ++ if ended then "\n" else ""

example : toText ⟨some 20, some 2⟩ true true =
    "[kbucket]\nmax_bucket_size = 20\nmax_peers_per_ip = 2\n" := by
  decide +kernel

/-! The settings of a text by their names. -/

theorem mem_setting_iff {name : String} {value : Option Nat}
    {entry : String × Nat} :
    entry ∈ setting name value ↔ entry.1 = name ∧ value = some entry.2 := by
  obtain ⟨key, number⟩ := entry
  simp [setting, and_comm, eq_comm]

theorem find?_setting (name key : String) (value : Option Nat) :
    ((setting name value).find? fun entry => entry.1 = key).map Prod.snd =
      if name = key then value else none := by
  cases value with
  | none => simp [setting]
  | some number => by_cases h : name = key <;> simp [setting, h]

theorem mem_settings_iff {entry : String × Nat} :
    entry ∈ written.settings sizeFirst ↔
    (entry.1 = "max_bucket_size" ∧ written.size = some entry.2) ∨
      (entry.1 = "max_peers_per_ip" ∧ written.perIp = some entry.2) := by
  cases sizeFirst with
  | false => simp [settings, mem_setting_iff, or_comm]
  | true => simp [settings, mem_setting_iff]

theorem bare_of_mem_settings {entry : String × Nat}
    (h : entry ∈ written.settings sizeFirst) : Toml.Bare entry.1.toList := by
  rcases mem_settings_iff.mp h with ⟨hname, _⟩ | ⟨hname, _⟩
  · rw [hname]
    decide
  · rw [hname]
    decide

theorem nodup_settings (written : WrittenLimits) (sizeFirst : Bool) :
    ((written.settings sizeFirst).map Prod.fst).Nodup := by
  have honce : ∀ name value, ((setting name value).map Prod.fst).Nodup := by
    intro name value
    cases value with
    | none => simp [setting]
    | some number => simp [setting]
  cases sizeFirst with
  | false => simp [settings, List.nodup_append, honce, mem_setting_iff]
  | true => simp [settings, List.nodup_append, honce, mem_setting_iff]

/-- The settings as the parts of a plain text. -/
def plainSettings (written : WrittenLimits) (sizeFirst : Bool) :
    List (Toml.Key × Nat) :=
  (written.settings sizeFirst).map fun entry => (entry.1.toList, entry.2)

theorem value?_plainSettings (key : String) :
    Toml.Entries.value?
      ((written.plainSettings sizeFirst).map Toml.naturalEntry) key.toList =
      ((written.settings sizeFirst).find? fun entry => entry.1 = key).map
        fun entry => .number (.integer entry.2) := by
  have hname : ((fun entry => decide (entry.1 = key.toList)) ∘ Toml.naturalEntry ∘
      fun entry : String × Nat => (entry.1.toList, entry.2)) =
        fun entry => decide (entry.1 = key) := by
    funext entry
    simp [Toml.naturalEntry, String.toList_inj]
  rw [Toml.Entries.value?, plainSettings, List.map_map, List.find?_map, hname,
    Option.map_map]
  rfl

theorem field?_plainSettings (key : String) :
    field? ((written.plainSettings sizeFirst).map Toml.naturalEntry) key =
      some (((written.settings sizeFirst).find? fun entry => entry.1 = key).map
        Prod.snd) := by
  rw [field?, value?_plainSettings]
  cases (written.settings sizeFirst).find? fun entry => entry.1 = key with
  | none => rfl
  | some entry => rfl

/-- Each limit is found under its name, in whichever order they come. -/
theorem ofValue?_plainSettings (written : WrittenLimits) (sizeFirst : Bool) :
    ofValue? (.table .header
      ((written.plainSettings sizeFirst).map Toml.naturalEntry)) =
      some written := by
  rw [ofValue?, field?_plainSettings, field?_plainSettings]
  cases sizeFirst with
  | false => simp [settings, List.find?_append, Option.map_or, find?_setting]
  | true => simp [settings, List.find?_append, Option.map_or, find?_setting]

theorem toList_toText (written : WrittenLimits) (sizeFirst ended : Bool) :
    (written.toText sizeFirst ended).toList =
      ['\n'].intercalate ((Toml.plainLines "kbucket".toList
        (written.plainSettings sizeFirst)).map Toml.PlainLine.text) ++
          if ended then ['\n'] else [] := by
  have hheader :
      "[kbucket]".toList = (Toml.PlainLine.header "kbucket".toList).text := rfl
  have hline : ∀ entry : String × Nat, s!"{entry.1} = {entry.2}".toList =
      (Toml.PlainLine.setting entry.1.toList entry.2).text := by
    intro entry
    change (entry.1 ++ " = " ++ entry.2.repr).toList = _
    rw [String.toList_append, String.toList_append, Nat.toList_repr,
      List.append_assoc]
    rfl
  have hbreak :
      (if ended then "\n" else "").toList = if ended then ['\n'] else [] := by
    cases ended with
    | false => rfl
    | true => rfl
  rw [toText, String.toList_append, String.toList_intercalate, hbreak,
    Toml.plainLines, plainSettings, List.map_cons, List.map_cons, hheader,
    List.map_map, List.map_map, List.map_map]
  simp only [Function.comp_def, hline]
  rfl

/-- What is written is read back, if each number has its place in 64 bits. -/
theorem ofText?_toText (written : WrittenLimits) (sizeFirst ended : Bool) :
    ofText? (written.toText sizeFirst ended) =
      if ∀ entry ∈ written.settings sizeFirst, entry.2 < Toml.integerLimit then
        some written
      else none := by
  have hbare : ∀ entry ∈ written.plainSettings sizeFirst, Toml.Bare entry.1 := by
    intro entry hmem
    obtain ⟨setting, hsetting, rfl⟩ := List.mem_map.mp hmem
    exact bare_of_mem_settings hsetting
  have hdistinct : ((written.plainSettings sizeFirst).map Prod.fst).Nodup := by
    rw [plainSettings, List.map_map]
    have hnames :=
      (written.nodup_settings sizeFirst).map fun _ _ => String.toList_injective
    rwa [List.map_map] at hnames
  have htext := Toml.Entries.ofText?_plain (by decide) hbare hdistinct ended
    (written.toList_toText sizeFirst ended)
  have hplace :
      (∀ entry ∈ written.plainSettings sizeFirst, entry.2 < Toml.integerLimit) ↔
      ∀ entry ∈ written.settings sizeFirst, entry.2 < Toml.integerLimit := by
    rw [plainSettings, List.forall_mem_map]
  simp only [hplace] at htext
  rw [ofText?, htext]
  split
  · exact written.ofValue?_plainSettings sizeFirst
  · rfl

/-- A number is written that 64 bits with a sign do not hold. -/
def TooLarge (written : WrittenLimits) : Prop :=
  ∃ value, (written.size = some value ∨ written.perIp = some value) ∧
    2 ^ 63 - 1 < value

theorem not_tooLarge_iff (sizeFirst : Bool) : ¬ written.TooLarge ↔
    ∀ entry ∈ written.settings sizeFirst, entry.2 < Toml.integerLimit := by
  constructor
  · intro hnot entry hmem
    by_contra hplace
    have hlarge : 2 ^ 63 - 1 < entry.2 :=
      Nat.lt_of_lt_of_le (by decide) (Nat.not_lt.mp hplace)
    rcases mem_settings_iff.mp hmem with ⟨_, hsize⟩ | ⟨_, hperIp⟩
    · exact hnot ⟨entry.2, .inl hsize, hlarge⟩
    · exact hnot ⟨entry.2, .inr hperIp, hlarge⟩
  · rintro hplace ⟨value, hset, hlarge⟩
    have hbelow : value < Toml.integerLimit := by
      rcases hset with hsize | hperIp
      · exact hplace ("max_bucket_size", value)
          (mem_settings_iff.mpr (.inl ⟨rfl, hsize⟩))
      · exact hplace ("max_peers_per_ip", value)
          (mem_settings_iff.mpr (.inr ⟨rfl, hperIp⟩))
    exact absurd (Nat.le_pred_of_lt hbelow) (Nat.not_le_of_lt hlarge)

end WrittenLimits

namespace FileLimits

variable {written : WrittenLimits}

theorem ofText_toText_eq_malformed_iff (sizeFirst ended : Bool) :
    ofText (written.toText sizeFirst ended) = .error .malformed ↔
      written.TooLarge := by
  rw [ofText, ofTextBy_eq_malformed_iff, written.ofText?_toText,
    ite_eq_right_iff, ← WrittenLimits.not_tooLarge_iff sizeFirst]
  simp

/-- Limits with a place for each number are completed, and then checked. -/
theorem ofText_of_not_tooLarge (h : ¬ written.TooLarge) (sizeFirst ended : Bool) :
    ofText (written.toText sizeFirst ended) = ofLimits written.complete := by
  apply ofTextBy_of_some
  rw [written.ofText?_toText,
    if_pos ((WrittenLimits.not_tooLarge_iff sizeFirst).mp h)]

end FileLimits

/-- A text of limits is malformed exactly if a number is too large, whatever the
other one is.  Otherwise the limits are taken as they are written, with 16 and 3 for
one left out, exactly if an address may take a place and at most all places of the
bucket, and are out of range if not. -/
theorem written_limits_are_read_back (written : WrittenLimits)
    (sizeFirst ended : Bool) :
    let size := written.size.getD 16
    let perIp := written.perIp.getD 3
    let outcome := FileLimits.ofText (written.toText sizeFirst ended)
    (outcome = .error .malformed ↔ written.TooLarge) ∧
    ((∃ file, outcome = .ok file ∧ file.limits = ⟨size, perIp⟩) ↔
      ¬ written.TooLarge ∧ 1 ≤ perIp ∧ perIp ≤ size) ∧
    ((∃ cause, outcome = .error (.outOfRange cause)) ↔
      ¬ written.TooLarge ∧ ¬ (1 ≤ perIp ∧ perIp ≤ size)) := by
  intro size perIp outcome
  have hmalformed : outcome = .error .malformed ↔ written.TooLarge :=
    FileLimits.ofText_toText_eq_malformed_iff sizeFirst ended
  refine ⟨hmalformed, ?_⟩
  by_cases hlarge : written.TooLarge
  · simp [hmalformed.mpr hlarge, hlarge]
  · have hchecked : outcome = FileLimits.ofLimits ⟨size, perIp⟩ :=
      FileLimits.ofText_of_not_tooLarge hlarge sizeFirst ended
    simp only [hchecked, hlarge, not_false_eq_true, true_and]
    refine ⟨?_, FileLimits.exists_ofLimits_eq_outOfRange_iff⟩
    constructor
    · rintro ⟨file, htaken, _⟩
      exact FileLimits.exists_ofLimits_eq_ok_iff.mp ⟨file, htaken⟩
    · intro hlimits
      have husable : Limits.Usable ⟨size, perIp⟩ := hlimits
      exact ⟨⟨⟨size, perIp⟩, husable⟩, FileLimits.ofLimits_of_usable husable, rfl⟩

end Kademlia
