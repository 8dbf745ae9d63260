import CompilerSession.Version

/-
Which version a text names.

The search goes through a text from the left and stops at the first place where a run of digits, a
dot, a run, a dot and a digit stand (`Begins`). Only that place counts. The runs that begin there
are taken as long as they go (`Runs`); a dot is no digit, so the first two cannot be taken in
another way, and whether runs begin somewhere can be told without knowing where the last one ends
(`begins_iff`).

What the runs are worth is another question than where they are. A run may have digits of any
script in it, but only ASCII digits have a value, and the value has to fit (`word?_eq`). The text
of a version has runs that are worth its numbers, so it is found again in any text that has no
digits before it and does not go on with one behind it (`findIn?_text`).
-/

set_option autoImplicit false

namespace CompilerSession

namespace Text

/-! ## Digits -/

theorem isDigit_dot : isDigit '.' = false := by decide

/-- The ASCII digits are among the digits of the pattern. -/
theorem isDigit_of_ascii {c : Char} (ascii : c.isDigit = true) : isDigit c = true := by
  rw [Char.isDigit, Bool.and_eq_true, decide_eq_true_eq, decide_eq_true_eq] at ascii
  exact (digitRanges.holds_iff c).mpr ⟨_, List.mem_cons_self, ascii⟩

/-- Only the ASCII digits have values. -/
theorem digitValue?_eq (c : Char) :
    digitValue? c = if c.isDigit then some (c.toNat - '0'.toNat) else none := by
  have same : ('0' ≤ c ∧ c ≤ '9') ↔ c.isDigit = true := by
    rw [Char.isDigit, Bool.and_eq_true, decide_eq_true_eq, decide_eq_true_eq]
    rfl
  rw [digitValue?]
  simp only [same]

/-- **The number of a run** of ASCII digits. -/
def runValue (run : List Char) : Nat :=
  Nat.ofDigitChars 10 run 0

/-- A run of digits is a number, if all are ASCII. -/
theorem foldl_digits (run : List Char) (n : Nat) :
    run.foldl (fun sum c => do return (← sum) * 10 + (← digitValue? c)) (some n) =
      if run.all Char.isDigit then some (Nat.ofDigitChars 10 run n) else none := by
  have lost (run : List Char) :
      run.foldl (fun sum c => do return (← sum) * 10 + (← digitValue? c)) none =
        (none : Option Nat) := by
    induction run with
    | nil => rfl
    | cons c run ih => rwa [List.foldl_cons]
  induction run generalizing n with
  | nil => rfl
  | cons c run ih =>
    rw [List.foldl_cons, digitValue?_eq]
    by_cases ascii : c.isDigit = true
    · rw [if_pos ascii, Nat.ofDigitChars_cons, Nat.mul_comm 10]
      rw [List.all_cons, ascii, Bool.true_and]
      exact ih _
    · rw [if_neg ascii, List.all_cons, Bool.eq_false_iff.mpr ascii, Bool.false_and]
      exact lost run

/-- **A run is a number** if all its digits are ASCII. -/
theorem decimalValue?_eq {run : List Char} (filled : run ≠ []) :
    decimalValue? run =
      if run.all Char.isDigit then some (runValue run) else none := by
  rw [decimalValue?.eq_def]
  cases run with
  | nil => exact absurd rfl filled
  | cons c run => exact foldl_digits (c :: run) 0

end Text

namespace Version

open Text (isDigit runValue)

/-! ## Runs at the front of a text -/

/-- A run of digits. -/
def Run (run : List Char) : Prop :=
  run ≠ [] ∧ ∀ c ∈ run, isDigit c = true

/-- **Three runs begin here**: a run, a dot, a run, a dot and a digit. -/
def Begins (s : List Char) : Prop :=
  ∃ a b d rest, Run a ∧ Run b ∧ isDigit d = true ∧ s = a ++ '.' :: (b ++ '.' :: d :: rest)

/-- **The three runs at the front of a text**, each of them as long as it goes. -/
structure Runs (s : List Char) (t : Triple) : Prop where
  major : Run t.major
  minor : Run t.minor
  patch : Run t.patch
  stand : ∃ rest, s = t.major ++ '.' :: (t.minor ++ '.' :: (t.patch ++ rest)) ∧
    ∀ c ∈ rest.head?, isDigit c = false

/-- A run is split off where its digits end. -/
theorem splitRun_append {run rest : List Char} (digits : ∀ c ∈ run, isDigit c = true)
    (ends : ∀ c ∈ rest.head?, isDigit c = false) : splitRun (run ++ rest) = (run, rest) := by
  rw [splitRun, List.takeWhile_append_of_pos digits, List.dropWhile_append_of_pos digits]
  cases rest with
  | nil => simp
  | cons c rest => rw [List.takeWhile_cons_of_neg (by simp [ends c rfl]), List.append_nil,
      List.dropWhile_cons_of_neg (by simp [ends c rfl])]

/-- What is split off are digits, and no digit follows. -/
theorem splitRun_spec (s : List Char) :
    s = (splitRun s).1 ++ (splitRun s).2 ∧ (∀ c ∈ (splitRun s).1, isDigit c = true) ∧
      ∀ c ∈ (splitRun s).2.head?, isDigit c = false := by
  refine ⟨List.takeWhile_append_dropWhile.symm, List.all_eq_true.mp List.all_takeWhile, ?_⟩
  intro c first
  have behind := List.head?_dropWhile_not isDigit s
  rw [splitRun] at first
  rw [Option.mem_def.mp first] at behind
  simpa using behind

/-- A run before a dot is found if it is there. -/
theorem runDot?_eq_some_iff {s run rest : List Char} :
    runDot? s = some (run, rest) ↔ Run run ∧ s = run ++ '.' :: rest := by
  constructor
  · intro h
    obtain ⟨whole, digits, -⟩ := splitRun_spec s
    rw [runDot?] at h
    split at h
    · rename_i c run' rest' split
      obtain ⟨rfl, rfl⟩ := Prod.mk.inj (Option.some.inj h)
      rw [split] at whole digits
      exact ⟨⟨nofun, digits⟩, whole⟩
    · cases h
  · rintro ⟨⟨filled, digits⟩, rfl⟩
    rw [runDot?, splitRun_append digits fun c first => ?_]
    · cases run with
      | nil => exact absurd rfl filled
      | cons c run => rfl
    · obtain rfl := Option.some.inj first
      exact Text.isDigit_dot

/-- **A triple is found where its runs stand.** -/
theorem tripleAt?_eq_some_iff {s : List Char} {t : Triple} : tripleAt? s = some t ↔ Runs s t := by
  constructor
  · intro h
    rw [tripleAt?] at h
    split at h
    · cases h
    · rename_i major s₁ first
      obtain ⟨firstRun, rfl⟩ := runDot?_eq_some_iff.mp first
      split at h
      · cases h
      · rename_i minor s₂ second
        obtain ⟨secondRun, rfl⟩ := runDot?_eq_some_iff.mp second
        -- two runs are followed by dots, and the third one ends where its digits do
        obtain ⟨whole, digits, ends⟩ := splitRun_spec s₂
        split at h
        · cases h
        · rename_i c run third
          obtain rfl := Option.some.inj h
          rw [third] at digits
          rw [third] at whole
          exact ⟨firstRun, secondRun, ⟨nofun, digits⟩, _, by rw [← whole], ends⟩
  · rintro ⟨first, second, ⟨filled, digits⟩, rest, rfl, ends⟩
    rw [tripleAt?, runDot?_eq_some_iff.mpr ⟨first, rfl⟩]
    dsimp only
    rw [runDot?_eq_some_iff.mpr ⟨second, rfl⟩]
    dsimp only
    rw [splitRun_append digits ends]
    obtain ⟨major, minor, patch⟩ := t
    cases patch with
    | nil => exact absurd rfl filled
    | cons c run => rfl

/-- **Where three runs begin, there are three runs.** -/
theorem begins_iff {s : List Char} : Begins s ↔ ∃ t, Runs s t := by
  constructor
  · rintro ⟨a, b, d, rest, first, second, digit, rfl⟩
    obtain ⟨whole, digits, ends⟩ := splitRun_spec (d :: rest)
    refine ⟨⟨a, b, (splitRun (d :: rest)).1⟩, first, second, ⟨?_, digits⟩, _, by rw [← whole],
      ends⟩
    rw [splitRun, List.takeWhile_cons_of_pos digit]
    nofun
  · rintro ⟨⟨major, minor, patch⟩, first, second, ⟨filled, digits⟩, rest, rfl, -⟩
    cases patch with
    | nil => exact absurd rfl filled
    | cons d run =>
      exact ⟨major, minor, d, run ++ rest, first, second, digits d List.mem_cons_self, rfl⟩

/-- No triple is found where none begins. -/
theorem tripleAt?_eq_none_iff {s : List Char} : tripleAt? s = none ↔ ¬ Begins s := by
  rw [begins_iff, Option.eq_none_iff_forall_ne_some, not_exists]
  simp only [ne_eq, tripleAt?_eq_some_iff]

instance (s : List Char) : Decidable (Begins s) :=
  decidable_of_iff (tripleAt? s ≠ none) (by rw [ne_eq, tripleAt?_eq_none_iff, Classical.not_not])

/-! ## The leftmost runs -/

theorem not_begins_nil : ¬ Begins [] := by
  rintro ⟨a, b, d, rest, -, -, -, same⟩
  simp at same

/-- The first triple begins here, or further on. -/
theorem firstTriple?_cons (c : Char) (rest : List Char) :
    firstTriple? (c :: rest) = (tripleAt? (c :: rest)).or (firstTriple? rest) := by
  rw [firstTriple?]
  cases tripleAt? (c :: rest) <;> rfl

/-- There is no first triple if none begins anywhere. -/
theorem firstTriple?_eq_none {s : List Char} (nowhere : ∀ i, ¬ Begins (s.drop i)) :
    firstTriple? s = none := by
  induction s with
  | nil => rfl
  | cons c s ih =>
    have notHere : ¬ Begins (c :: s) := nowhere 0
    rw [firstTriple?_cons, tripleAt?_eq_none_iff.mpr notHere]
    exact ih fun i => nowhere (i + 1)

/-- **The search stops at the first place where runs begin.** -/
theorem firstTriple?_eq_some {s : List Char} {i : Nat} {t : Triple} (runs : Runs (s.drop i) t)
    (earlier : ∀ j < i, ¬ Begins (s.drop j)) : firstTriple? s = some t := by
  induction s generalizing i with
  | nil =>
    rw [List.drop_nil] at runs
    exact absurd (begins_iff.mpr ⟨t, runs⟩) not_begins_nil
  | cons c s ih =>
    rw [firstTriple?_cons]
    cases i with
    | zero =>
      have here : Runs (c :: s) t := runs
      rw [tripleAt?_eq_some_iff.mpr here, Option.some_or]
    | succ i =>
      have notHere : ¬ Begins (c :: s) := earlier 0 (Nat.succ_pos i)
      rw [tripleAt?_eq_none_iff.mpr notHere, Option.none_or]
      exact ih runs fun j less => earlier (j + 1) (Nat.succ_lt_succ less)

/-! ## Values -/

/-- The run is a number below `2^32`. -/
def InRange (run : List Char) : Prop :=
  run.all Char.isDigit = true ∧ runValue run ≤ 4294967295

instance (run : List Char) : Decidable (InRange run) :=
  inferInstanceAs (Decidable (run.all Char.isDigit = true ∧ runValue run ≤ 4294967295))

/-- A run is a word if its number is in range. -/
theorem word?_eq {run : List Char} (filled : run ≠ []) :
    word? run = if InRange run then some (UInt32.ofNat (runValue run)) else none := by
  rw [word?, Text.decimalValue?_eq filled]
  by_cases digits : run.all Char.isDigit = true
  · rw [if_pos digits]
    dsimp only
    have size : runValue run < UInt32.size ↔ InRange run := by
      rw [InRange, and_iff_right digits]
      exact Nat.lt_succ_iff
    simp only [size]
  · rw [if_neg digits, if_neg fun range => digits range.1]

/-- The version that a triple is worth. -/
def Triple.version (t : Triple) : Version where
  major := .ofNat (runValue t.major)
  minor := .ofNat (runValue t.minor)
  patch := .ofNat (runValue t.patch)

/-- **Three runs are a version** if all are in range. -/
theorem ofTriple?_eq {s : List Char} {t : Triple} (runs : Runs s t) :
    ofTriple? t = if InRange t.major ∧ InRange t.minor ∧ InRange t.patch then some t.version
      else none := by
  rw [ofTriple?, word?_eq runs.major.1, word?_eq runs.minor.1, word?_eq runs.patch.1]
  by_cases major : InRange t.major
  · by_cases minor : InRange t.minor
    · by_cases patch : InRange t.patch
      · simp only [major, minor, patch, and_self, if_true]
        rfl
      · simp only [major, minor, patch, and_false, if_true, if_false]
    · simp only [major, minor, false_and, and_false, if_true, if_false]
  · simp only [major, false_and, if_false]

/-! ## The text of a version -/

theorem run_toDigits (n : Nat) : Run (Nat.toDigits 10 n) :=
  ⟨Nat.toDigits_ne_nil, fun _ member => Text.isDigit_of_ascii
    (Nat.isDigit_of_mem_toDigits (by decide) (by decide) member)⟩

theorem runValue_toDigits (n : Nat) : runValue (Nat.toDigits 10 n) = n :=
  Nat.ofDigitChars_ten_toDigits

theorem inRange_toDigits (w : UInt32) : InRange (Nat.toDigits 10 w.toNat) := by
  refine ⟨List.all_eq_true.mpr fun _ member =>
    Nat.isDigit_of_mem_toDigits (by decide) (by decide) member, ?_⟩
  rw [runValue_toDigits]
  exact Nat.le_of_lt_succ w.toNat_lt

/-- The runs that the text of a version is made of. -/
def triple (v : Version) : Triple where
  major := Nat.toDigits 10 v.major.toNat
  minor := Nat.toDigits 10 v.minor.toNat
  patch := Nat.toDigits 10 v.patch.toNat

/-- The runs of a version tell the version. -/
theorem version_triple (v : Version) : v.triple.version = v := by
  simp [triple, Triple.version, runValue_toDigits]

/-- The text of a version begins with its runs. -/
theorem runs_text (v : Version) {rest : List Char} (ends : ∀ c ∈ rest.head?, isDigit c = false) :
    Runs (v.text.toList ++ rest) v.triple := by
  refine ⟨run_toDigits _, run_toDigits _, run_toDigits _, rest, ?_, ends⟩
  simp [text, triple]

/-- **A version is found in its text**, whatever stands around it, as long as no digit stands
before it or follows at once. -/
theorem findIn?_text (v : Version) {before behind : List Char}
    (plain : ∀ c ∈ before, isDigit c = false) (ends : ∀ c ∈ behind.head?, isDigit c = false) :
    findIn? (before ++ (v.text.toList ++ behind)) = some v := by
  have runs : Runs ((before ++ (v.text.toList ++ behind)).drop before.length) v.triple := by
    rw [List.drop_left]
    exact runs_text v ends
  have earlier : ∀ j < before.length,
      ¬ Begins ((before ++ (v.text.toList ++ behind)).drop j) := by
    rintro j less ⟨a, b, d, rest, ⟨filled, digits⟩, -, -, same⟩
    rw [List.drop_append_of_le_length (Nat.le_of_lt less), List.drop_eq_getElem_cons less] at same
    cases a with
    | nil => exact filled rfl
    | cons c a =>
      have first := (List.cons.inj same).1
      have digit := digits c List.mem_cons_self
      rw [← first, plain _ (List.getElem_mem less)] at digit
      cases digit
  rw [findIn?, firstTriple?_eq_some runs earlier, Option.bind_some, ofTriple?_eq runs,
    version_triple, if_pos]
  exact ⟨inRange_toDigits _, inRange_toDigits _, inRange_toDigits _⟩

/-- **The version in a text is told by the leftmost runs.**

Where no runs begin, there is no version. Otherwise the first place where they do decides: the
runs there, each as long as it goes, are the version if all of them are numbers in range, and if
not there is none, whatever stands further right. So a version is found again in its own text, with
anything around it but digits before it or right behind it. -/
theorem leftmost_runs_tell_the_version (s : String) :
    ((∀ i, ¬ Begins (s.toList.drop i)) → find? s = none) ∧
    (∀ i, Begins (s.toList.drop i) → (∀ j < i, ¬ Begins (s.toList.drop j)) →
      ∃ t, Runs (s.toList.drop i) t ∧
        find? s = if InRange t.major ∧ InRange t.minor ∧ InRange t.patch then some t.version
          else none) ∧
    ∀ (v : Version) (before behind : String), s = before ++ v.text ++ behind →
      (∀ c ∈ before.toList, isDigit c = false) →
      (∀ c ∈ behind.toList.head?, isDigit c = false) → find? s = some v := by
  refine ⟨?_, ?_, ?_⟩
  · intro nowhere
    rw [find?, findIn?, firstTriple?_eq_none nowhere, Option.bind_none]
  · intro i begins earlier
    obtain ⟨t, runs⟩ := begins_iff.mp begins
    refine ⟨t, runs, ?_⟩
    rw [find?, findIn?, firstTriple?_eq_some runs earlier, Option.bind_some, ofTriple?_eq runs]
  · rintro v before behind rfl plain ends
    rw [find?, String.toList_append, String.toList_append, List.append_assoc]
    exact findIn?_text v plain ends

/-- Foreign digits make runs that are no numbers, and hide the version behind them; a version
stands in a line of text; two numbers are too few. -/
theorem foreign_runs_hide_a_version :
    find? "1.2..٣.4.5 6.7.8" = none ∧
    find? "Compiler 5.0.04-rc.1" = some ⟨5, 0, 4⟩ ∧
    find? "Compiler 5.0.4-rc.1" = some ⟨5, 0, 4⟩ ∧ find? "4.2" = none := by
  refine ⟨?_, ?_, ?_, ?_⟩
  · obtain ⟨t, runs, found⟩ :=
      (leftmost_runs_tell_the_version "1.2..٣.4.5 6.7.8").2.1 5 (by decide) (by decide)
    obtain rfl : Triple.mk ['٣'] ['4'] ['5'] = t :=
      Option.some.inj (tripleAt?_eq_some_iff.mpr runs)
    exact found.trans (if_neg (by decide))
  · obtain ⟨t, runs, found⟩ :=
      (leftmost_runs_tell_the_version "Compiler 5.0.04-rc.1").2.1 9 (by decide) (by decide)
    obtain rfl : Triple.mk ['5'] ['0'] ['0', '4'] = t :=
      Option.some.inj (tripleAt?_eq_some_iff.mpr runs)
    exact found.trans (if_pos (by decide))
  · have plain : "Compiler ".toList.all (fun c => !isDigit c) = true := by decide
    refine (leftmost_runs_tell_the_version _).2.2 ⟨5, 0, 4⟩ "Compiler " "-rc.1" (by decide) ?_ ?_
    · exact fun c member => by simpa using List.all_eq_true.mp plain c member
    · exact fun c first => Option.some.inj first ▸ (by decide : isDigit '-' = false)
  · refine (leftmost_runs_tell_the_version "4.2").1 fun i => ?_
    by_cases inside : i < 3
    · revert i
      decide
    · rw [List.drop_eq_nil_of_le (Nat.le_of_not_lt inside)]
      exact not_begins_nil

end Version

end CompilerSession
