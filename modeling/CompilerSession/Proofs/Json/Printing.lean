import CompilerSession.Json.Tree
import CompilerSession.Proofs.Json.Scanning

/-
A printed value is read as itself.

Both printed forms of a value have the same tokens and differ only in their blanks, so the argument
has two halves that meet at `valueTokens`: what the scanner makes of either text, and what the
reader makes of the tokens. Each half is one induction over the value, its items and its members.

Floating-point numbers are left out (`Value.Whole`): whether their shortest text reads back is a
question about rounding and not about the text around them.
-/

set_option autoImplicit false

namespace CompilerSession.Json

/-! ## Values as tokens -/

mutual

/-- The tokens of a value. -/
def valueTokens : Value → List Token
  | .null => [.null]
  | .bool b => [.bool b]
  | .number n => [.number n]
  | .text s => [.text s]
  | .array items => .leftBracket :: (itemTokens items ++ [.rightBracket])
  | .object members => .leftBrace :: (memberTokens members ++ [.rightBrace])

def itemTokens : List Value → List Token
  | [] => []
  | [x] => valueTokens x
  | x :: y :: rest => valueTokens x ++ .comma :: itemTokens (y :: rest)

def memberTokens : List (String × Value) → List Token
  | [] => []
  | [(k, x)] => .text k :: .colon :: valueTokens x
  | (k, x) :: m :: rest => .text k :: .colon :: (valueTokens x ++ .comma :: memberTokens (m :: rest))

end

/-- No value begins with a closing bracket. -/
theorem valueTokens_front (v : Value) : ∃ t ts, valueTokens v = t :: ts ∧ t ≠ .rightBracket := by
  cases v <;> exact ⟨_, _, rfl, nofun⟩

mutual

/-- All numbers in the value are integers of 64 bits. -/
def Value.Whole : Value → Prop
  | .number n => n.Whole
  | .array items => wholeItems items
  | .object members => wholeMembers members
  | _ => True

def wholeItems : List Value → Prop
  | [] => True
  | x :: rest => x.Whole ∧ wholeItems rest

def wholeMembers : List (String × Value) → Prop
  | [] => True
  | (_, x) :: rest => x.Whole ∧ wholeMembers rest

end

theorem wholeMembers_iff {ms : List (String × Value)} : wholeMembers ms ↔ ∀ m ∈ ms, m.2.Whole := by
  induction ms with
  | nil => exact iff_of_true trivial nofun
  | cons m ms ih => rw [List.forall_mem_cons, ← ih, wholeMembers]

theorem wholeItems_iff {xs : List Value} : wholeItems xs ↔ ∀ x ∈ xs, x.Whole := by
  induction xs with
  | nil => exact iff_of_true trivial nofun
  | cons x xs ih => rw [List.forall_mem_cons, ← ih, wholeItems]

theorem Value.texts_whole (xs : List String) : (Value.texts xs).Whole := by
  refine wholeItems_iff.mpr fun x member => ?_
  obtain ⟨s, -, rfl⟩ := List.mem_map.mp member
  trivial

theorem Value.ofMap_whole (m : List (String × String)) : (Value.ofMap m).Whole := by
  refine wholeMembers_iff.mpr fun x member => ?_
  obtain ⟨e, -, rfl⟩ := List.mem_map.mp member
  trivial

/-! ## The compact text -/

mutual

/-- **The compact text has the tokens of the value.** -/
theorem scans_compactChars : (v : Value) → v.Whole → {s : List Char} → Stops s →
    Scans (compactChars v ++ s) (valueTokens v) s
  | .null, _, s, _ => .token rfl rfl nofun (Nat.le_add_right s.length 3) (.done s)
  | .bool true, _, s, _ => .token rfl rfl nofun (Nat.le_add_right s.length 3) (.done s)
  | .bool false, _, s, _ => .token rfl rfl nofun (Nat.le_add_right s.length 4) (.done s)
  | .number n, whole, s, stops => scans_number whole stops
  | .text x, _, s, _ => scans_text x s
  | .array items, whole, s, _ => by
    rw [compactChars, List.cons_append, List.append_assoc]
    exact .brackets (b := []) nofun
      (scans_compactItems items whole (stops_cons (c := ']') (by decide)))
  | .object members, whole, s, _ => by
    rw [compactChars, List.cons_append, List.append_assoc]
    exact .braces (b := []) nofun
      (scans_compactMembers members whole (stops_cons (c := '}') (by decide)))

/-- The items of a list that is printed compactly are scanned in turn. -/
theorem scans_compactItems : (xs : List Value) → wholeItems xs → {s : List Char} → Stops s →
    Scans (compactItems xs ++ s) (itemTokens xs) s
  | [], _, s, _ => .done s
  | [x], whole, s, stops => scans_compactChars x whole.1 stops
  | x :: y :: rest, whole, s, stops => by
    have more := scans_compactItems (y :: rest) whole.2 stops
    rw [compactItems, List.append_assoc]
    exact (scans_compactChars x whole.1 (stops_cons (by decide))).append more.comma

/-- The members of an object that is printed compactly are scanned in turn. -/
theorem scans_compactMembers : (ms : List (String × Value)) → wholeMembers ms → {s : List Char} →
    Stops s → Scans (compactMembers ms ++ s) (memberTokens ms) s
  | [], _, s, _ => .done s
  | [(k, x)], whole, s, stops => by
    rw [compactMembers, List.append_assoc]
    exact (scans_text k _).append (scans_compactChars x whole.1 stops).colon
  | (k, x) :: m :: rest, whole, s, stops => by
    have more := scans_compactMembers (m :: rest) whole.2 stops
    rw [compactMembers, List.append_assoc, List.cons_append, List.append_assoc]
    exact (scans_text k _).append
      ((scans_compactChars x whole.1 (stops_cons (by decide))).append more.comma).colon

end

/-! ## The wide text -/

/-- A line that begins is blank up to where the text is. -/
theorem newLine_blank {level : Nat} : ∀ c ∈ newLine level, isSpace c = true := by
  intro c member
  rcases List.mem_cons.mp member with rfl | member
  · rfl
  · obtain ⟨-, rfl⟩ := List.mem_replicate.mp member
    rfl

/-- Blanks do not matter before a value. -/
theorem Scans.blankValue {b s : List Char} {v : Value} {final : List Char}
    (scans : Scans s (valueTokens v) final) (blank : ∀ c ∈ b, isSpace c = true) :
    Scans (b ++ s) (valueTokens v) final := by
  obtain ⟨t, ts, front, -⟩ := valueTokens_front v
  rw [front] at scans ⊢
  exact scans.blank blank

mutual

/-- **So has the wide text**, at every level. -/
theorem scans_wideChars (level : Nat) : (v : Value) → v.Whole → {s : List Char} → Stops s →
    Scans (wideChars level v ++ s) (valueTokens v) s
  | .null, _, s, _ => .token rfl rfl nofun (Nat.le_add_right s.length 3) (.done s)
  | .bool true, _, s, _ => .token rfl rfl nofun (Nat.le_add_right s.length 3) (.done s)
  | .bool false, _, s, _ => .token rfl rfl nofun (Nat.le_add_right s.length 4) (.done s)
  | .number n, whole, s, stops => scans_number whole stops
  | .text x, _, s, _ => scans_text x s
  | .array [], _, s, _ => .brackets (b := []) nofun (.done _)
  | .array (x :: rest), whole, s, _ => by
    rw [wideChars, List.cons_append, List.append_assoc, List.append_assoc]
    exact .brackets newLine_blank
      (scans_wideItems (level + 1) (x :: rest) whole (stops_cons (by decide)))
  | .object [], _, s, _ => .braces (b := []) nofun (.done _)
  | .object (m :: rest), whole, s, _ => by
    rw [wideChars, List.cons_append, List.append_assoc, List.append_assoc]
    exact .braces newLine_blank
      (scans_wideMembers (level + 1) (m :: rest) whole (stops_cons (by decide)))

/-- Items on lines of their own are scanned in turn. -/
theorem scans_wideItems (level : Nat) : (xs : List Value) → wholeItems xs → {s : List Char} →
    Stops s → Scans (wideItems level xs ++ s) (itemTokens xs) s
  | [], _, s, _ => .done s
  | [x], whole, s, stops => by
    rw [wideItems, List.append_assoc]
    exact (scans_wideChars level x whole.1 stops).blankValue newLine_blank
  | x :: y :: rest, whole, s, stops => by
    have more := scans_wideItems level (y :: rest) whole.2 stops
    rw [wideItems, List.append_assoc, List.append_assoc]
    exact ((scans_wideChars level x whole.1 (stops_cons (by decide))).blankValue
      newLine_blank).append more.comma

/-- Members on lines of their own are scanned in turn. -/
theorem scans_wideMembers (level : Nat) : (ms : List (String × Value)) → wholeMembers ms →
    {s : List Char} → Stops s → Scans (wideMembers level ms ++ s) (memberTokens ms) s
  | [], _, s, _ => .done s
  | [(k, x)], whole, s, stops => by
    have value := scans_wideChars level x whole.1 stops
    have spaced : Scans (' ' :: (wideChars level x ++ s)) (valueTokens x) s :=
      value.blankValue (List.forall_mem_singleton.mpr rfl)
    rw [wideMembers, List.append_assoc, List.append_assoc]
    exact .blank newLine_blank ((scans_text k _).append spaced.colon)
  | (k, x) :: m :: rest, whole, s, stops => by
    have more := scans_wideMembers level (m :: rest) whole.2 stops
    have spaced : Scans (' ' :: (wideChars level x ++ ',' :: (wideMembers level (m :: rest) ++ s)))
        (valueTokens x) (',' :: (wideMembers level (m :: rest) ++ s)) :=
      (scans_wideChars level x whole.1 (stops_cons (by decide))).blankValue
        (List.forall_mem_singleton.mpr rfl)
    rw [wideMembers, List.append_assoc, List.append_assoc, List.cons_append, List.cons_append,
      List.append_assoc, List.cons_append]
    exact .blank newLine_blank ((scans_text k _).append (spaced.append more.comma).colon)

end

/-! ## Trees -/

/-- No item begins with a closing bracket. -/
theorem itemTokens_front (x : Value) (rest : List Value) :
    ∃ t ts, itemTokens (x :: rest) = t :: ts ∧ t ≠ .rightBracket := by
  obtain ⟨t, ts, front, other⟩ := valueTokens_front x
  cases rest with
  | nil => exact ⟨t, ts, by rw [itemTokens, front], other⟩
  | cons y rest => exact ⟨t, _, by rw [itemTokens, front, List.cons_append], other⟩

/-- A member begins with its name. -/
theorem memberTokens_front (k : String) (x : Value) (rest : List (String × Value)) :
    ∃ ts, memberTokens ((k, x) :: rest) = .text k :: .colon :: ts := by
  cases rest with
  | nil => exact ⟨_, by rw [memberTokens]⟩
  | cons m rest => exact ⟨_, by rw [memberTokens]⟩

mutual

/-- **The reader finds the value back**, in no more steps than there are tokens. -/
theorem readTree_valueTokens : (v : Value) → {fuel : Nat} → {ts : List Token} →
    (valueTokens v).length ≤ fuel → readTree fuel (valueTokens v ++ ts) = (Tree.ofValue v, ts)
  | _, 0, _, enough => by
    obtain ⟨t, us, front, -⟩ := valueTokens_front ‹_›
    rw [front] at enough
    cases enough
  | .null, _ + 1, _, _ => rfl
  | .bool _, _ + 1, _, _ => rfl
  | .number _, _ + 1, _, _ => rfl
  | .text _, _ + 1, _, _ => rfl
  | .array [], _ + 1, _, _ => rfl
  | .array (x :: rest), fuel + 1, ts, enough => by
    rw [valueTokens, List.length_cons, List.length_append, List.length_singleton] at enough
    have items : readItems fuel (itemTokens (x :: rest) ++ .rightBracket :: ts) = _ :=
      readItems_itemTokens x rest (by omega)
    -- no item begins with the bracket by which an empty array is told
    obtain ⟨t, us, front, other⟩ := itemTokens_front x rest
    rw [valueTokens, List.cons_append, List.append_assoc, List.singleton_append]
    rw [front, List.cons_append] at items ⊢
    rw [readTree.eq_def]
    dsimp only
    split
    · rename_i is
      exact absurd (List.cons.inj is).1 other
    · rw [items, Tree.ofValue]
  | .object [], _ + 1, _, _ => rfl
  | .object ((k, x) :: rest), fuel + 1, ts, enough => by
    rw [valueTokens, List.length_cons, List.length_append, List.length_singleton] at enough
    have members : readMembers fuel (memberTokens ((k, x) :: rest) ++ .rightBrace :: ts) = _ :=
      readMembers_memberTokens k x rest (by omega)
    obtain ⟨us, front⟩ := memberTokens_front k x rest
    rw [valueTokens, List.cons_append, List.append_assoc, List.singleton_append]
    rw [front, List.cons_append] at members ⊢
    rw [readTree.eq_def]
    dsimp only
    rw [members, Tree.ofValue]

/-- **Items are read back** up to the closing bracket. -/
theorem readItems_itemTokens : (x : Value) → (rest : List Value) → {fuel : Nat} →
    {ts : List Token} → (itemTokens (x :: rest)).length < fuel →
    readItems fuel (itemTokens (x :: rest) ++ .rightBracket :: ts) =
      (Tree.ofValues (x :: rest), true, ts)
  | x, [], fuel + 1, ts, enough => by
    rw [itemTokens] at enough ⊢
    rw [readItems, readTree_valueTokens x (by omega), Tree.ofValues, Tree.ofValues]
  | x, y :: rest, fuel + 1, ts, enough => by
    rw [itemTokens, List.length_append, List.length_cons] at enough
    rw [itemTokens, List.append_assoc, List.cons_append, readItems,
      readTree_valueTokens x (by omega)]
    dsimp only
    rw [readItems_itemTokens y rest (by omega)]
    rfl

/-- **Members are read back** up to the closing brace. -/
theorem readMembers_memberTokens : (k : String) → (x : Value) → (rest : List (String × Value)) →
    {fuel : Nat} → {ts : List Token} → (memberTokens ((k, x) :: rest)).length < fuel →
    readMembers fuel (memberTokens ((k, x) :: rest) ++ .rightBrace :: ts) =
      (Tree.ofMembers ((k, x) :: rest), true, ts)
  | k, x, [], fuel + 1, ts, enough => by
    rw [memberTokens, List.length_cons, List.length_cons] at enough
    rw [memberTokens, List.cons_append, List.cons_append, readMembers]
    dsimp only
    rw [readTree_valueTokens x (by omega), Tree.ofMembers, Tree.ofMembers]
  | k, x, (k', y) :: rest, fuel + 1, ts, enough => by
    rw [memberTokens, List.length_cons, List.length_cons, List.length_append,
      List.length_cons] at enough
    rw [memberTokens, List.cons_append, List.cons_append, List.append_assoc, List.cons_append,
      readMembers]
    dsimp only
    rw [readTree_valueTokens x (by omega)]
    dsimp only
    rw [readMembers_memberTokens k' y rest (by omega)]
    rfl

end

/-- A text is read as the value whose tokens it is scanned to. -/
theorem ofText_of_tokens {s : List Char} {v : Value} (scanned : tokens s = valueTokens v) :
    Document.ofText s = ⟨Tree.ofValue v, false⟩ := by
  have read : readTree (2 * (valueTokens v).length + 2) (valueTokens v ++ []) = _ :=
    readTree_valueTokens v (by omega)
  rw [List.append_nil] at read
  rw [Document.ofText, scanned, read]
  rfl

/-- **A printed value is read as itself.** -/
theorem ofText_compact {v : Value} (whole : v.Whole) :
    Document.ofText v.compact.toList = ⟨Tree.ofValue v, false⟩ := by
  have scanned := scans_compactChars v whole (s := []) nofun
  rw [List.append_nil] at scanned
  rw [Value.compact, String.toList_ofList]
  exact ofText_of_tokens scanned.tokens_eq

/-- **What is printed wide is read back.** -/
theorem ofText_wide {v : Value} (whole : v.Whole) :
    Document.ofText v.wide.toList = ⟨Tree.ofValue v, false⟩ := by
  have scanned := scans_wideChars 0 v whole (s := []) nofun
  rw [List.append_nil] at scanned
  rw [Value.wide, String.toList_ofList]
  exact ofText_of_tokens scanned.tokens_eq

end CompilerSession.Json
