/-
What plain texts in TOML say: a header, and below it lines that give bare keys
natural numbers.  Every reader is followed along such a line to its end, and a line
that is read is one statement of the document.
-/
import Mathlib
import Kademlia.Toml.Document

namespace Kademlia.Toml

/-- The text is at the end of a line, and so much follows it. -/
inductive LineEnd : List Char → List Char → Prop
  | text : LineEnd [] []
  | line (next : List Char) : LineEnd ('\n' :: next) next

namespace LineEnd

variable {rest next : List Char}

theorem lineEnd?_eq (h : LineEnd rest next) : lineEnd? rest = some next := by
  cases h with
  | text => rfl
  | line next => rfl

theorem length_le (h : LineEnd rest next) : next.length ≤ rest.length := by
  cases h with
  | text => exact Nat.le_refl _
  | line next => exact Nat.le_succ _

theorem ne_cons (h : LineEnd rest next) {c : Char} (hc : c ≠ '\n')
    (more : List Char) :
    rest ≠ c :: more := by
  cases h with
  | text => exact (List.cons_ne_nil c more).symm
  | line next =>
      intro heq
      exact hc (List.cons.inj heq).1.symm

end LineEnd

/-! Natural numbers in decimal. -/

theorem cons_ne_cons {c other : Char} (h : c ≠ other) (text more : List Char) :
    c :: text ≠ other :: more :=
  fun heq => h (List.cons.inj heq).1

/-- A character of a class is none that is not. -/
theorem ne_of_class {isMember : Char → Bool} {c other : Char}
    (hc : isMember c = true) (hother : isMember other = false) : c ≠ other := by
  apply ne_of_apply_ne isMember
  simp [hc, hother]

/-- Only the number zero begins with a zero, since without its last digit a number
begins as before. -/
theorem eq_zero_of_toDigits {value : Nat} {digits : List Char}
    (h : Nat.toDigits 10 value = '0' :: digits) : value = 0 := by
  induction value using Nat.strongRecOn generalizing digits with
  | ind value ih =>
      by_cases hlow : value < 10
      · rw [Nat.toDigits_of_lt_base hlow] at h
        interval_cases value <;> simp_all
      · have hten : 10 ≤ value := Nat.le_of_not_lt hlow
        rw [Nat.toDigits_of_base_le (by decide) hten] at h
        obtain ⟨first, more, hfirst⟩ := List.exists_cons_of_ne_nil
          (Nat.toDigits_ne_nil (n := value / 10) (b := 10))
        rw [hfirst, List.cons_append, List.cons.injEq] at h
        have hzero : value / 10 = 0 :=
          ih (value / 10) (Nat.div_lt_self (by omega) (by decide)) (h.1 ▸ hfirst)
        omega

section Numeral

variable {digits rest next : List Char}

theorem digitRun_append (hdigits : ∀ c ∈ digits, c.isDigit = true)
    (hne : digits ≠ []) (hend : LineEnd rest next) :
    digitRun Char.isDigit (digits ++ rest) = some (digits, rest) := by
  induction digits with
  | nil => exact absurd rfl hne
  | cons first more ih =>
      have hfirst := hdigits first List.mem_cons_self
      cases more with
      | nil =>
          cases hend with
          | text => simp [digitRun, hfirst]
          | line next => simp [digitRun, hfirst]
      | cons second more =>
          have hsecond := hdigits second (by simp)
          have hmore := ih (fun c hc => hdigits c (List.mem_cons_of_mem first hc))
            (List.cons_ne_nil _ _)
          have hmark : second ≠ '_' := ne_of_class hsecond (by decide)
          rw [List.cons_append] at hmore
          simp [digitRun, hfirst, hsecond, hmark, hmore]

/-- The first character that is no digit is the first behind the digits. -/
theorem dropWhile_isDigit_append (hdigits : ∀ c ∈ digits, c.isDigit = true)
    (hend : LineEnd rest next) :
    (digits ++ rest).dropWhile Char.isDigit = rest := by
  rw [List.dropWhile_append_of_pos hdigits]
  cases hend with
  | text => rfl
  | line next => rfl

end Numeral

section Decimal

variable {rest next : List Char}

theorem isDigit_of_mem_toDigits (value : Nat) :
    ∀ c ∈ Nat.toDigits 10 value, c.isDigit = true :=
  fun _ hmem => Nat.isDigit_of_mem_toDigits (by decide) (by decide) hmem

theorem exists_toDigits_eq_cons (value : Nat) : ∃ first more,
    Nat.toDigits 10 value = first :: more ∧ first.isDigit = true := by
  obtain ⟨first, more, h⟩ := List.exists_cons_of_ne_nil
    (Nat.toDigits_ne_nil (n := value) (b := 10))
  exact ⟨first, more, h,
    isDigit_of_mem_toDigits value first (h ▸ List.mem_cons_self)⟩

theorem wholeDigits_toDigits (value : Nat) (hend : LineEnd rest next) :
    wholeDigits (Nat.toDigits 10 value ++ rest) =
      some (Nat.toDigits 10 value, rest) := by
  have hrun :=
    digitRun_append (isDigit_of_mem_toDigits value) Nat.toDigits_ne_nil hend
  obtain ⟨first, more, h, _⟩ := exists_toDigits_eq_cons value
  by_cases hzero : first = '0'
  · subst hzero
    obtain rfl := eq_zero_of_toDigits h
    rfl
  · rw [h, List.cons_append] at hrun ⊢
    unfold wholeDigits
    split
    · next heq => exact absurd (List.cons.inj heq).1 hzero
    · exact hrun

theorem decimalValue_toDigits (value : Nat) :
    decimalValue (Nat.toDigits 10 value) = value :=
  Nat.ofDigitChars_toDigits (by decide) (by decide)

theorem decimal_toDigits (value : Nat) (hend : LineEnd rest next) :
    decimal false (Nat.toDigits 10 value ++ rest) =
      (integer? false value).map fun number => (number, rest) := by
  have hwhole := wholeDigits_toDigits value hend
  have hplain : fractionPart rest = some (none, rest) ∧
      exponentPart rest = some (none, rest) := by
    cases hend with
    | text => exact ⟨rfl, rfl⟩
    | line next => exact ⟨rfl, rfl⟩
  simp only [decimal, hwhole, hplain, Option.bind_eq_bind, Option.bind_some,
    decimalValue_toDigits]
  cases integer? false value with
  | none => rfl
  | some number => rfl

/-- Behind the digits a line ends, so a zero among them marks no other base. -/
theorem number_toDigits (value : Nat) (hend : LineEnd rest next) :
    number (Nat.toDigits 10 value ++ rest) =
      (integer? false value).map fun number => (number, rest) := by
  have hrest := dropWhile_isDigit_append (isDigit_of_mem_toDigits value) hend
  rw [← decimal_toDigits value hend]
  obtain ⟨first, more, h, hfirst⟩ := exists_toDigits_eq_cons value
  rw [h, List.cons_append] at hrest ⊢
  have hother :
      ∀ c : Char, c.isDigit = false → ∀ tail, first :: (more ++ rest) ≠ c :: tail :=
    fun c hc => cons_ne_cons (ne_of_class hfirst hc) _
  have hbase : ∀ c : Char, c.isDigit = false → c ≠ '\n' → ∀ tail,
      first :: (more ++ rest) ≠ '0' :: c :: tail := by
    intro c hc hbreak tail heq
    rw [heq, List.dropWhile_cons_of_pos (by decide),
      List.dropWhile_cons_of_neg (by simp [hc])] at hrest
    exact hend.ne_cons hbreak tail hrest.symm
  have hsign :
      sign (first :: (more ++ rest)) = (none, first :: (more ++ rest)) := by
    unfold sign
    split
    · next heq => exact absurd heq (hother '+' (by decide) _)
    · next heq => exact absurd heq (hother '-' (by decide) _)
    · rfl
  simp only [number, hsign]
  split
  · next heq => exact absurd heq (hother 'i' (by decide) _)
  · next heq => exact absurd heq (hother 'n' (by decide) _)
  · next heq => exact absurd heq (hbase 'x' (by decide) (by decide) _)
  · next heq => exact absurd heq (hbase 'o' (by decide) (by decide) _)
  · next heq => exact absurd heq (hbase 'b' (by decide) (by decide) _)
  · rfl

theorem startsDate_eq_false {text : List Char}
    (hend : LineEnd (text.dropWhile Char.isDigit) next) :
    startsDate text = false := by
  unfold startsDate
  split
  · next a b c d tail =>
      rw [← Bool.not_eq_true]
      intro hdigits
      simp only [List.all_cons, List.all_nil, Bool.and_true,
        Bool.and_eq_true] at hdigits
      obtain ⟨ha, hb, hc, hd⟩ := hdigits
      simp only [List.dropWhile_cons, ha, hb, hc, hd, if_true] at hend
      exact hend.ne_cons (by decide) tail rfl
  · rfl

theorem startsTime_eq_false {text : List Char}
    (hend : LineEnd (text.dropWhile Char.isDigit) next) :
    startsTime text = false := by
  unfold startsTime
  split
  · next a b tail =>
      rw [← Bool.not_eq_true]
      intro hdigits
      simp only [List.all_cons, List.all_nil, Bool.and_true,
        Bool.and_eq_true] at hdigits
      obtain ⟨ha, hb⟩ := hdigits
      simp only [List.dropWhile_cons, ha, hb, if_true] at hend
      exact hend.ne_cons (by decide) tail rfl
  · rfl

theorem numeric_toDigits (value : Nat) (hend : LineEnd rest next) :
    numeric (Nat.toDigits 10 value ++ rest) =
      (integer? false value).map fun number => (.number number, rest) := by
  have hrest := dropWhile_isDigit_append (isDigit_of_mem_toDigits value) hend
  rw [numeric, startsDate_eq_false (hrest ▸ hend),
    startsTime_eq_false (hrest ▸ hend), number_toDigits value hend]
  cases integer? false value with
  | none => rfl
  | some number => rfl

theorem scalar_toDigits (value : Nat) (hend : LineEnd rest next) :
    scalar (Nat.toDigits 10 value ++ rest) =
      (integer? false value).map fun number => (.number number, rest) := by
  rw [← numeric_toDigits value hend]
  obtain ⟨first, more, h, hfirst⟩ := exists_toDigits_eq_cons value
  have hother : ∀ c : Char, c.isDigit = false → first ≠ c :=
    fun c => ne_of_class hfirst
  rw [h, List.cons_append]
  simp [scalar, hother]

/-- The blank before a number is skipped, and nothing else. -/
theorem skipBlank_toDigits (value : Nat) (rest : List Char) :
    skipBlank (' ' :: (Nat.toDigits 10 value ++ rest)) =
      Nat.toDigits 10 value ++ rest := by
  obtain ⟨first, more, h, hfirst⟩ := exists_toDigits_eq_cons value
  have hspace : first ≠ ' ' := ne_of_class hfirst (by decide)
  have htab : first ≠ '\t' := ne_of_class hfirst (by decide)
  rw [h, skipBlank, List.dropWhile_cons_of_pos (by decide), List.cons_append,
    List.dropWhile_cons_of_neg (by simp [isBlank, hspace, htab])]

/-- A natural number is read as it is however deep arrays and tables may nest. -/
theorem value_toDigits (depth value : Nat) (hend : LineEnd rest next) :
    Toml.value depth (Nat.toDigits 10 value ++ rest) =
      (integer? false value).map fun number => (.number number, rest) := by
  have hscalar := scalar_toDigits value hend
  obtain ⟨first, more, h, hfirst⟩ := exists_toDigits_eq_cons value
  rw [h, List.cons_append] at hscalar ⊢
  cases depth with
  | zero => exact hscalar
  | succ depth =>
      unfold Toml.value
      split
      · next heq =>
          exact absurd heq (cons_ne_cons (ne_of_class hfirst (by decide)) _ _)
      · next heq =>
          exact absurd heq (cons_ne_cons (ne_of_class hfirst (by decide)) _ _)
      · exact hscalar

end Decimal

/-! Keys without quotes. -/

section Bare

variable {key : Key}

/-- A key that may be written without quotes. -/
structure Bare (key : Key) : Prop where
  ne_nil : key ≠ []
  all : ∀ c ∈ key, isBare c = true

instance (key : Key) : Decidable (Bare key) :=
  decidable_of_iff (key ≠ [] ∧ key.all isBare = true)
    ⟨fun h => ⟨h.1, List.all_eq_true.mp h.2⟩,
      fun h => ⟨h.ne_nil, List.all_eq_true.mpr h.all⟩⟩

theorem Bare.exists_cons (h : Bare key) : ∃ first more,
    key = first :: more ∧ isBare first = true := by
  obtain ⟨first, more, rfl⟩ := List.exists_cons_of_ne_nil h.ne_nil
  exact ⟨first, more, rfl, h.all first List.mem_cons_self⟩

theorem simpleKey_append (h : Bare key) {mark : Char} (hmark : isBare mark = false)
    (more : List Char) :
    simpleKey (key ++ mark :: more) = some (key, mark :: more) := by
  have htake : (key ++ mark :: more).takeWhile isBare = key := by
    rw [List.takeWhile_append_of_pos h.all,
      List.takeWhile_cons_of_neg (by simp [hmark]), List.append_nil]
  have hdrop : (key ++ mark :: more).dropWhile isBare = mark :: more := by
    rw [List.dropWhile_append_of_pos h.all,
      List.dropWhile_cons_of_neg (by simp [hmark])]
  obtain ⟨first, rest, hkey, hfirst⟩ := h.exists_cons
  unfold simpleKey
  split
  · next heq =>
      rw [hkey] at heq
      exact absurd heq (cons_ne_cons (ne_of_class hfirst (by decide)) _ _)
  · next heq =>
      rw [hkey] at heq
      exact absurd heq (cons_ne_cons (ne_of_class hfirst (by decide)) _ _)
  · rw [htake, hdrop]
    exact if_neg h.ne_nil

theorem skipBlank_append (h : Bare key) (rest : List Char) :
    skipBlank (key ++ rest) = key ++ rest := by
  obtain ⟨first, more, rfl, hfirst⟩ := h.exists_cons
  have hspace : first ≠ ' ' := ne_of_class hfirst (by decide)
  have htab : first ≠ '\t' := ne_of_class hfirst (by decide)
  rw [skipBlank, List.cons_append,
    List.dropWhile_cons_of_neg (by simp [isBlank, hspace, htab])]

/-- A key alone is a path, whatever follows it but a dot. -/
theorem keyPath_append (h : Bare key) {mark stop : Char} {more rest : List Char}
    (hmark : isBare mark = false) (hrest : skipBlank (mark :: more) = stop :: rest)
    (hstop : stop ≠ '.') :
    keyPath (key ++ mark :: more) = some ([key], stop :: rest) := by
  have hkeys : keys (key ++ mark :: more) = some ([key], stop :: rest) := by
    rw [keys, skipBlank_append h, simpleKey_append h hmark]
    simp only [hrest]
    split
    · next heq => exact absurd heq (cons_ne_cons hstop _ _)
    · rfl
  simp [keyPath, hkeys]

end Bare

/-- A line of a plain text. -/
inductive PlainLine where
  | header (key : Key)
  | setting (key : Key) (value : Nat)

namespace PlainLine

variable {line : PlainLine} {rest next : List Char}

def key : PlainLine → Key
  | header key => key
  | setting key _ => key

def text : PlainLine → List Char
  | header key => '[' :: (key ++ [']'])
  | setting key value => key ++ ([' ', '=', ' '] ++ Nat.toDigits 10 value)

/-- What a line says, unless its number has no place in 64 bits. -/
def statement? : PlainLine → Option Statement
  | header key => some (.openTable [key])
  | setting key value =>
      (integer? false value).map fun number => .assign [key] (.number number)

/-- A line starts neither like a blank one nor like a comment. -/
theorem exists_text_eq_cons (h : Bare line.key) :
    ∃ first more, line.text = first :: more ∧
    first ∉ [' ', '\t', '#', '\n', '\r'] := by
  cases line with
  | header key => exact ⟨'[', key ++ [']'], rfl, by decide⟩
  | setting key value =>
      obtain ⟨first, more, rfl, hfirst⟩ := h.exists_cons
      have hnone : [' ', '\t', '#', '\n', '\r'].any isBare = false := by decide
      refine ⟨first, _, rfl, ?_⟩
      intro hmem
      cases (List.any_eq_true.mpr ⟨first, hmem, hfirst⟩).symm.trans hnone

theorem skipBlank_text (h : Bare line.key) (rest : List Char) :
    skipBlank (line.text ++ rest) = line.text ++ rest := by
  obtain ⟨first, more, htext, hfirst⟩ := exists_text_eq_cons h
  simp only [List.mem_cons, not_or] at hfirst
  rw [htext, skipBlank, List.cons_append,
    List.dropWhile_cons_of_neg (by simp [isBlank, hfirst])]

theorem lineEnd?_text (h : Bare line.key) (rest : List Char) :
    lineEnd? (line.text ++ rest) = none := by
  obtain ⟨first, more, htext, hfirst⟩ := exists_text_eq_cons h
  simp only [List.mem_cons, not_or] at hfirst
  obtain ⟨_, _, hhash, hfeed, hreturn, _⟩ := hfirst
  rw [lineEnd?, skipBlank_text h, htext, List.cons_append]
  simp [skipComment, newline?, hhash, hfeed, hreturn]

theorem statement_text (h : Bare line.key) (hend : LineEnd rest next) :
    statement (line.text ++ rest) = line.statement?.map fun said =>
      (said, rest) := by
  obtain ⟨first, more, hkey, hfirst⟩ := h.exists_cons
  have hbracket : first ≠ '[' := ne_of_class hfirst (by decide)
  cases line with
  | header key =>
      have hpath : keyPath (key ++ ']' :: rest) = some ([key], ']' :: rest) :=
        keyPath_append h (by decide) rfl (by decide)
      change statement ('[' :: (key ++ [']'] ++ rest)) =
        some (.openTable [key], rest)
      rw [List.append_assoc, List.singleton_append]
      unfold statement
      split
      · next heq =>
          change key = first :: more at hkey
          rw [hkey] at heq
          exact absurd (List.cons.inj heq).2 (cons_ne_cons hbracket _ _)
      · next heq =>
          obtain ⟨_, rfl⟩ := List.cons.inj heq
          rw [hpath]
          rfl
      · next hother => exact absurd rfl (hother _)
  | setting key value =>
      have hpath :
          keyPath (key ++ ' ' :: '=' :: ' ' :: (Nat.toDigits 10 value ++ rest)) =
          some ([key], '=' :: ' ' :: (Nat.toDigits 10 value ++ rest)) :=
        keyPath_append h (by decide) rfl (by decide)
      have hvalue := value_toDigits depthLimit value hend
      have hbracket' : ∀ tail, (setting key value).text ++ rest ≠ '[' :: tail := by
        intro tail
        change key = first :: more at hkey
        rw [text, hkey]
        exact cons_ne_cons hbracket _ _
      unfold statement
      split
      · next heq => exact absurd heq (hbracket' _)
      · next heq => exact absurd heq (hbracket' _)
      · rw [text, List.append_assoc, List.append_assoc]
        change assignment (Toml.value depthLimit)
          (key ++ ' ' :: '=' :: ' ' :: (Nat.toDigits 10 value ++ rest)) >>= _ = _
        simp only [assignment, hpath, expect, Option.bind_eq_bind,
          Option.bind_some, if_true]
        rw [skipBlank_toDigits, hvalue, statement?]
        cases integer? false value with
        | none => rfl
        | some number => rfl

/-- The first line of a text is its first statement, or makes the text invalid. -/
theorem statements_text (h : Bare line.key) (hend : LineEnd rest next) :
    statements (line.text ++ rest) =
      line.statement?.bind fun said => (said :: ·) <$> statements next := by
  have hblank := lineEnd?_text h rest
  have hskip := skipBlank_text h rest
  have hsaid := statement_text h hend
  obtain ⟨first, more, htext, _⟩ := exists_text_eq_cons h
  rw [htext, List.cons_append] at hblank hskip hsaid ⊢
  rw [statements]
  split
  · next heq => cases hblank.symm.trans heq
  · rw [hskip, hsaid]
    cases line.statement? with
    | none => rfl
    | some said =>
        have hlength : next.length ≤ (more ++ rest).length := by
          have := hend.length_le
          simp
          omega
        simp only [Option.map_some, hend.lineEnd?_eq, if_pos hlength,
          Option.bind_some]

theorem mapM_statement?_cons (line : PlainLine) (more : List PlainLine) :
    (line :: more).mapM statement? =
      line.statement?.bind fun said => (said :: ·) <$> more.mapM statement? := by
  rw [List.mapM_cons]
  cases line.statement? with
  | none => rfl
  | some said =>
      cases more.mapM statement? with
      | none => rfl
      | some others => rfl

/-- A text of lines is a list of statements, or none of it is valid.  The break
behind the last line may be missing. -/
theorem statements_lines (line : PlainLine) (more : List PlainLine)
    (hbare : ∀ other ∈ line :: more, Bare other.key) (ended : Bool) :
    statements (['\n'].intercalate ((line :: more).map text) ++
      if ended then ['\n'] else []) = (line :: more).mapM statement? := by
  induction more generalizing line with
  | nil =>
      have hend : LineEnd (if ended then ['\n'] else []) [] := by
        cases ended with
        | false => exact .text
        | true => exact .line []
      have hnone : statements [] = [].mapM statement? := by
        rw [statements, List.mapM_nil]
        rfl
      rw [List.map_singleton, List.intercalate_singleton,
        mapM_statement?_cons, ← hnone,
        statements_text (hbare line List.mem_cons_self) hend]
  | cons second more ih =>
      have hmore :=
        ih second fun other hmem => hbare other (List.mem_cons_of_mem line hmem)
      rw [mapM_statement?_cons, ← hmore, List.map_cons, List.map_cons,
        List.intercalate_cons_cons, List.append_assoc, List.append_assoc,
        List.singleton_append,
        statements_text (hbare line List.mem_cons_self) (.line _)]

end PlainLine

/-! The table of a plain text. -/

/-- A key with its natural number, as an entry of a table. -/
def naturalEntry (setting : Key × Nat) : Key × Value :=
  (setting.1, .number (.integer setting.2))

/-- The lines of a table of natural numbers. -/
def plainLines (name : Key) (settings : List (Key × Nat)) : List PlainLine :=
  .header name :: settings.map fun setting => .setting setting.1 setting.2

/-- One number without a place in 64 bits makes the text invalid. -/
theorem mapM_statement?_settings (settings : List (Key × Nat)) :
    (settings.map fun setting => PlainLine.setting setting.1 setting.2).mapM
        PlainLine.statement? =
      if ∀ setting ∈ settings, setting.2 < integerLimit then
        some ((settings.map naturalEntry).map
          fun entry => .assign [entry.1] entry.2)
      else none := by
  induction settings with
  | nil => rfl
  | cons setting more ih =>
      have hfirst : (PlainLine.setting setting.1 setting.2).statement? =
          if setting.2 < integerLimit then
            some (.assign [setting.1] (naturalEntry setting).2) else none := by
        simp only [PlainLine.statement?, integer?, Bool.false_eq_true, if_false]
        split
        · rfl
        · rfl
      rw [List.map_cons, PlainLine.mapM_statement?_cons, ih, hfirst]
      simp only [List.forall_mem_cons]
      by_cases hplace : setting.2 < integerLimit
      · by_cases hmore : ∀ other ∈ more, other.2 < integerLimit
        · simp only [if_pos hplace, if_pos hmore, if_pos (And.intro hplace hmore)]
          rfl
        · have hnot :
              ¬ (setting.2 < integerLimit ∧
                ∀ other ∈ more, other.2 < integerLimit) :=
            fun h => hmore h.2
          simp only [if_neg hmore, if_neg hnot]
          exact Option.bind_fun_none _
      · have hnot :
            ¬ (setting.2 < integerLimit ∧ ∀ other ∈ more, other.2 < integerLimit) :=
          fun h => hplace h.1
        simp only [if_neg hplace, if_neg hnot]
        rfl

namespace Entries

theorem value?_eq_none_iff {entries : Entries} {key : Key} :
    entries.value? key = none ↔ key ∉ entries.map Prod.fst := by
  rw [value?, Option.map_eq_none_iff, List.find?_eq_none, List.mem_map]
  constructor
  · rintro hnone ⟨entry, hmem, hkey⟩
    exact hnone entry hmem (decide_eq_true hkey)
  · intro hnone entry hmem hkey
    exact hnone ⟨entry, hmem, of_decide_eq_true hkey⟩

theorem assign_of_not_mem {entries : Entries} {key : Key}
    (h : key ∉ entries.map Prod.fst) (value : Value) :
    assign value [key] entries = some (entries ++ [(key, value)]) := by
  rw [assign, value?_eq_none_iff.mpr h]
  rfl

/-- New keys are taken in, one entry behind the other. -/
theorem assignAll_of_nodup {entries fresh : Entries}
    (hdistinct : ((entries ++ fresh).map Prod.fst).Nodup) :
    entries.assignAll (fresh.map fun entry => ([entry.1], entry.2)) =
      some (entries ++ fresh) := by
  induction fresh generalizing entries with
  | nil =>
      rw [List.append_nil]
      rfl
  | cons entry more ih =>
      have hnew : entry.1 ∉ entries.map Prod.fst := by
        rw [List.map_append, List.nodup_append] at hdistinct
        intro hmem
        exact hdistinct.2.2 entry.1 hmem entry.1 List.mem_cons_self rfl
      rw [List.append_cons] at hdistinct ⊢
      rw [← ih hdistinct, List.map_cons, assignAll, List.foldlM_cons,
        assign_of_not_mem hnew entry.2]
      rfl

theorem leadingFields_assign (entries : Entries) :
    leadingFields (entries.map fun entry => .assign [entry.1] entry.2) =
      (entries.map fun entry => ([entry.1], entry.2), []) := by
  induction entries with
  | nil => rfl
  | cons entry more ih => rw [List.map_cons, leadingFields, ih, List.map_cons]

/-- A header and lines with keys of their own make one table. -/
theorem ofStatements?_plain (name : Key) {entries : Entries}
    (hdistinct : (entries.map Prod.fst).Nodup) :
    ofStatements? (.openTable [name] ::
        entries.map fun entry => .assign [entry.1] entry.2) =
      some [(name, .table .header entries)] := by
  have hfields :
      assignAll [] (entries.map fun entry => ([entry.1], entry.2)) = some entries :=
    assignAll_of_nodup hdistinct
  change addSections [] (.openTable [name] :: _) = _
  rw [addSections, leadingFields_assign]
  change (openTable _ name [] >>= fun entries => addSections entries []) = _
  rw [openTable, hfields]
  exact addSections.eq_1 _

/-- A plain text whose keys differ is one table, if each number has its place in 64
bits, and is not valid otherwise. -/
theorem ofText?_plain {text : String} {name : Key} {settings : List (Key × Nat)}
    (hname : Bare name) (hbare : ∀ setting ∈ settings, Bare setting.1)
    (hdistinct : (settings.map Prod.fst).Nodup) (ended : Bool)
    (htext : text.toList =
      ['\n'].intercalate ((plainLines name settings).map PlainLine.text) ++
        if ended then ['\n'] else []) :
    ofText? text =
      if ∀ setting ∈ settings, setting.2 < integerLimit then
        some [(name, .table .header (settings.map naturalEntry))]
      else none := by
  have hlines : ∀ line ∈ plainLines name settings, Bare line.key := by
    intro line hmem
    rcases List.mem_cons.mp hmem with rfl | hsetting
    · exact hname
    · obtain ⟨setting, hmember, rfl⟩ := List.mem_map.mp hsetting
      exact hbare setting hmember
  have hmark : skipByteOrderMark text.toList = text.toList := by
    obtain ⟨more, hmore⟩ : ∃ more, text.toList = '[' :: more := by
      rw [htext]
      cases settings with
      | nil => exact ⟨_, rfl⟩
      | cons setting others => exact ⟨_, rfl⟩
    rw [hmore]
    rfl
  have hkeys : ((settings.map naturalEntry).map Prod.fst).Nodup := by
    rwa [List.map_map]
  rw [ofText?, hmark, htext, plainLines, PlainLine.statements_lines _ _ hlines,
    PlainLine.mapM_statement?_cons, mapM_statement?_settings]
  split
  · exact ofStatements?_plain name hkeys
  · rfl

end Entries

end Kademlia.Toml
