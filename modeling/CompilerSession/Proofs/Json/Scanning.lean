import CompilerSession.Json.Printer
import CompilerSession.Json.Token
import Mathlib.Data.List.Basic

/-
How the scanner reads what the printer writes, token by token.

A string is printed with escapes, and the scanner undoes them one character at a time
(`scanString_escapeChar`). A number is printed in decimal digits. Its end is not marked, so that it
is read as itself only if what follows cannot be part of it (`Stops`); in JSON text that is a comma,
a bracket, a blank or nothing.

`Scans` says that a text begins with certain tokens, whatever follows them. It is put together along
the text, and says nothing of the number of steps, which only matters at the end
(`Scans.tokens_eq`).
-/

set_option autoImplicit false

namespace CompilerSession.Json

/-! ## Strings -/

/-- A hexadecimal digit has the value that it was written for. -/
theorem hexValue?_hexDigit : ∀ n < 16, hexValue? (hexDigit n) = some n := by decide

/-- What a character stands as in a string: itself, or the unit that its escape names. -/
def elementOf (c : Char) : Element :=
  if c = '\n' ∨ c = '\r' ∨ c = '\t' ∨ c.toNat = 8 ∨ c.toNat = 12 then .char c
  else if c.toNat < 32 then .unit c.toNat
  else .char c

/-- **An escape is undone**: one printed character is one element of the string. -/
theorem scanString_escapeChar (c : Char) (s : List Char) :
    scanString (escapeChar c ++ s) =
      (scanString s).map fun (es, left) => (elementOf c :: es, left) := by
  have named (n : Nat) (is : c.toNat = n) : c = Char.ofNat n := by rw [← is, Char.ofNat_toNat]
  -- the cases are those of the escape: a short one, a control character, any other character
  rw [escapeChar]
  split
  · subst c; rfl
  split
  · subst c; rfl
  split
  · subst c; rfl
  split
  · subst c; rfl
  split
  · subst c; rfl
  split
  · obtain rfl := named 8 ‹_›; rfl
  split
  · obtain rfl := named 12 ‹_›; rfl
  split
  · rename_i newline return_ tab backspace feed control
    -- a control character is below 32, so two hexadecimal digits tell it
    have unit : hexUnit? '0' '0' (hexDigit (c.toNat / 16)) (hexDigit (c.toNat % 16)) =
        some c.toNat := by
      have zero : hexValue? '0' = some 0 := by decide
      rw [hexUnit?, zero, hexValue?_hexDigit _ (by omega), hexValue?_hexDigit _ (by omega)]
      change some _ = _
      congr 1
      omega
    have element : elementOf c = .unit c.toNat := by
      rw [elementOf, if_neg (by tauto), if_pos control]
    simp only [List.cons_append, List.nil_append]
    rw [scanString, unit, element]
  · rename_i quote backslash newline return_ tab backspace feed control
    have element : elementOf c = .char c := by
      rw [elementOf, if_neg (by tauto), if_neg control]
    rw [element]
    simp only [List.cons_append, List.nil_append]
    rw [scanString, if_neg (not_or.mpr ⟨backslash, control⟩)]
    · exact quote
    · exact fun _ _ _ _ _ is => absurd is backslash
    · exact fun _ _ is => absurd is backslash

/-- **A text that was escaped is scanned** up to the quotation mark. -/
theorem scanString_escaped (cs s : List Char) :
    scanString (cs.flatMap escapeChar ++ '"' :: s) = some (cs.map elementOf, s) := by
  induction cs with
  | nil => rfl
  | cons c cs ih => rw [List.flatMap_cons, List.append_assoc, scanString_escapeChar, ih]; rfl

/-- The elements of a text make up the text. -/
theorem joinUnits?_elements (cs : List Char) : joinUnits? (cs.map elementOf) = some cs := by
  induction cs with
  | nil => rfl
  | cons c cs ih =>
    rw [List.map_cons, elementOf]
    split
    · rw [joinUnits?, ih]
      rfl
    split
    · rename_i control
      have high : isHighHalf c.toNat = false := by
        simp only [isHighHalf, Bool.and_eq_false_iff, decide_eq_false_iff_not]
        omega
      have low : isLowHalf c.toNat = false := by
        simp only [isLowHalf, Bool.and_eq_false_iff, decide_eq_false_iff_not]
        omega
      rw [joinUnits?.eq_def]
      simp only [high, low, Bool.false_eq_true, if_false, ih, Char.ofNat_toNat, Option.map_some]
    · rw [joinUnits?, ih]
      rfl

/-! ## Numbers -/

/-- A number does not go on here. -/
def Stops (s : List Char) : Prop :=
  ∀ c ∈ s.head?, isAsciiDigit c = false ∧ c ≠ '.' ∧ c ≠ 'e' ∧ c ≠ 'E'

/-- The digits of a number, as they are written. -/
def digitsOf (n : Nat) : List Nat :=
  (Nat.toDigits 10 n).map fun c => c.toNat - 48

theorem stops_cons {c : Char} {s : List Char}
    (mark : isAsciiDigit c = false ∧ c ≠ '.' ∧ c ≠ 'e' ∧ c ≠ 'E') : Stops (c :: s) := by
  intro x first
  obtain rfl := Option.some.inj first
  exact mark

/-- The digits of a number are digits. -/
theorem isAsciiDigit_of_mem_toDigits {n : Nat} {c : Char} (member : c ∈ Nat.toDigits 10 n) :
    isAsciiDigit c = true :=
  Nat.isDigit_of_mem_toDigits (by decide) (by decide) member

/-- The digits of a number are scanned up to where they end. -/
theorem scanDigits_toDigits {n : Nat} {s : List Char} (stops : Stops s) :
    scanDigits (Nat.toDigits 10 n ++ s) = (digitsOf n, s) := by
  have digits (c : Char) (member : c ∈ Nat.toDigits 10 n) := isAsciiDigit_of_mem_toDigits member
  have behind : s.takeWhile isAsciiDigit = [] ∧ s.dropWhile isAsciiDigit = s := by
    cases s with
    | nil => exact ⟨rfl, rfl⟩
    | cons c s =>
      have other := (stops c rfl).1
      exact ⟨by rw [List.takeWhile_cons, other]; rfl, by rw [List.dropWhile_cons, other]; rfl⟩
  rw [scanDigits, List.takeWhile_append_of_pos digits, List.dropWhile_append_of_pos digits,
    behind.1, behind.2, List.append_nil, digitsOf]

/-- A positive number does not begin with a zero. -/
theorem head_digitsOf_ne_zero {n : Nat} (positive : 0 < n) : (digitsOf n).head? ≠ some 0 := by
  induction n using Nat.strongRecOn with
  | ind n ih =>
    rcases Nat.lt_or_ge n 10 with small | large
    · rw [digitsOf, Nat.toDigits_of_lt_base small, List.map_singleton, List.head?_cons,
        Nat.toNat_digitChar_sub_48_of_lt_ten small, ne_eq, Option.some.injEq]
      omega
    · have shorter : (digitsOf (n / 10)).head? = (digitsOf n).head? := by
        rw [digitsOf, digitsOf, Nat.toDigits_of_base_le (by decide) large, List.map_append,
          List.head?_append_of_ne_nil]
        exact mt List.map_eq_nil_iff.mp Nat.toDigits_ne_nil
      rw [← shorter]
      exact ih _ (by omega) (by omega)

/-- The digits of a number have no zero in front. -/
theorem scanWhole?_toDigits {n : Nat} {s : List Char} (stops : Stops s) :
    scanWhole? (Nat.toDigits 10 n ++ s) = some (digitsOf n, s) := by
  rw [scanWhole?, scanDigits_toDigits stops]
  have some : digitsOf n ≠ [] := mt List.map_eq_nil_iff.mp Nat.toDigits_ne_nil
  have leading := head_digitsOf_ne_zero (n := n)
  have zero : digitsOf 0 = [0] := rfl
  split
  · rename_i is
    exact absurd (congrArg Prod.fst is) some
  · rename_i d ds _ is
    have is : digitsOf n = 0 :: d :: ds := congrArg Prod.fst is
    rcases n.eq_zero_or_pos with rfl | positive
    · cases is
    · exact absurd (congrArg List.head? is) (leading positive)
  · rfl

/-- The digits of a number are its spelling, with a sign or without. -/
theorem scanNumber?_toDigits {n : Nat} {s : List Char} (stops : Stops s) :
    scanNumber? (Nat.toDigits 10 n ++ s) = some (⟨false, digitsOf n, none, none⟩, s) ∧
    scanNumber? ('-' :: (Nat.toDigits 10 n ++ s)) = some (⟨true, digitsOf n, none, none⟩, s) := by
  -- what follows is no part of the number, neither a fraction nor an exponent
  have fraction : scanFraction? s = some (none, s) := by
    cases s with
    | nil => rfl
    | cons c s =>
      have other := (stops c rfl).2.1
      rw [scanFraction?]
      rintro _ is
      exact other (List.cons.inj is).1
  have exponent : scanExponent? s = some (none, s) := by
    cases s with
    | nil => rfl
    | cons c s =>
      obtain ⟨-, -, small, large⟩ := stops c rfl
      rw [scanExponent?, if_neg (not_or.mpr ⟨small, large⟩)]
  have whole := scanWhole?_toDigits (n := n) stops
  constructor
  · have sign : ∀ rest, Nat.toDigits 10 n ++ s ≠ '-' :: rest := by
      intro rest is
      have some : Nat.toDigits 10 n ≠ [] := Nat.toDigits_ne_nil
      obtain ⟨c, ds, digits⟩ := List.exists_cons_of_ne_nil some
      rw [digits] at is
      obtain ⟨rfl, -⟩ := List.cons.inj is
      have digit := isAsciiDigit_of_mem_toDigits (n := n) (c := '-')
        (digits ▸ List.mem_cons_self)
      exact absurd digit (by decide)
    rw [scanNumber?]
    · simp only [whole, fraction, exponent, Option.bind_eq_bind, Option.bind_some]
      rfl
    · exact sign
  · rw [scanNumber?]
    simp only [whole, fraction, exponent, Option.bind_eq_bind, Option.bind_some]
    rfl

/-- Digits are collected to the end if their number is not too large. -/
theorem collect_eq {ds : List Nat} {sum : Nat}
    (fits : ds.foldl (fun sum d => sum * 10 + d) sum ≤ Spelling.limit) :
    Spelling.collect sum ds = (ds.foldl (fun sum d => sum * 10 + d) sum, []) := by
  have grows (ds : List Nat) (sum : Nat) : sum ≤ ds.foldl (fun sum d => sum * 10 + d) sum := by
    induction ds generalizing sum with
    | nil => exact Nat.le_refl _
    | cons d ds ih => exact Nat.le_trans (by omega) (ih (sum * 10 + d))
  induction ds generalizing sum with
  | nil => rfl
  | cons d ds ih =>
    have next := Nat.le_trans (grows ds (sum * 10 + d)) fits
    rw [Spelling.collect, if_neg (Nat.not_lt.mpr next)]
    exact ih fits

/-- The digits of a number that fits are collected to the number. -/
theorem collect_digitsOf {n : Nat} (fits : n ≤ Spelling.limit) :
    Spelling.collect 0 (digitsOf n) = (n, []) := by
  have value : (digitsOf n).foldl (fun sum d => sum * 10 + d) 0 = n := by
    rw [digitsOf, List.foldl_map]
    have digits : (Nat.toDigits 10 n).foldl (fun sum c => 10 * sum + (c.toNat - 48)) 0 = n :=
      Nat.ofDigitChars_ten_toDigits
    simpa only [Nat.mul_comm 10] using digits
  rw [collect_eq (by rw [value]; exact fits), value]

/-- **The value of the digits is the number that they were written for.** -/
theorem value?_digitsOf {n : Nat} :
    (n ≤ Spelling.limit → Spelling.value? ⟨false, digitsOf n, none, none⟩ = some (.integer n)) ∧
    (0 < n → n ≤ 0x8000000000000000 →
      Spelling.value? ⟨true, digitsOf n, none, none⟩ = some (.integer (-(n : Int)))) := by
  constructor
  · intro fits
    simp only [Spelling.value?, collect_digitsOf fits, Bool.false_eq_true, if_false]
  · intro positive fits
    have fits' : n ≤ Spelling.limit := Nat.le_trans fits (by decide)
    simp only [Spelling.value?, collect_digitsOf fits', if_true]
    rw [if_neg (by omega)]

/-- An integer of 64 bits, signed or unsigned. -/
def Number.Whole : Number → Prop
  | .integer n => -0x8000000000000000 ≤ n ∧ n < 0x10000000000000000
  | .double _ => False

/-- A sign or a digit begins a number. -/
theorem nextToken_of_sign_or_digit {c : Char} {rest : List Char}
    (number : c = '-' ∨ isAsciiDigit c = true) :
    nextToken c rest = match scanNumber? (c :: rest) with
      | some (spelling, left) => (numberToken spelling, left)
      | none => (.bad, []) := by
  have other (x : Char) (mark : x ≠ '-' ∧ isAsciiDigit x = false) : c ≠ x := by
    rintro rfl
    rcases number with is | is
    · exact mark.1 is
    · exact absurd (is.symm.trans mark.2) (by decide)
  rw [nextToken, if_neg (other _ (by decide)), if_neg (other _ (by decide)),
    if_neg (other _ (by decide)), if_neg (other _ (by decide)), if_neg (other _ (by decide)),
    if_neg (other _ (by decide)), if_neg (other _ (by decide))]
  exact if_pos number

/-- **A printed number is read as itself**, whatever follows that is no part of it. -/
theorem nextToken_number {n : Number} (whole : n.Whole) {s : List Char} (stops : Stops s) :
    ∃ c rest, n.text ++ s = c :: rest ∧ isSpace c = false ∧ s.length ≤ rest.length ∧
      nextToken c rest = (.number n, s) := by
  obtain v | bits := n
  · obtain ⟨low, high⟩ := whole
    rw [Number.text]
    -- a sign and digits, or digits alone
    by_cases negative : v < 0
    · refine ⟨'-', Nat.toDigits 10 v.natAbs ++ s, by rw [if_pos negative]; rfl, by decide, ?_, ?_⟩
      · rw [List.length_append]
        omega
      · have value := (value?_digitsOf (n := v.natAbs)).2 (by omega) (by omega)
        rw [nextToken_of_sign_or_digit (.inl rfl), (scanNumber?_toDigits stops).2]
        simp only [numberToken, value]
        rw [show (-(v.natAbs : Int)) = v by omega]
    · have some : Nat.toDigits 10 v.natAbs ≠ [] := Nat.toDigits_ne_nil
      obtain ⟨c, rest, digits⟩ := List.exists_cons_of_ne_nil some
      have digit : isAsciiDigit c = true :=
        isAsciiDigit_of_mem_toDigits (n := v.natAbs) (by rw [digits]; exact List.mem_cons_self)
      have text : Nat.toDigits 10 v.natAbs ++ s = c :: (rest ++ s) := by rw [digits]; rfl
      refine ⟨c, rest ++ s, by rw [if_neg negative, text], ?_, ?_, ?_⟩
      · rw [Bool.eq_false_iff]
        rintro space
        simp only [isSpace, Bool.or_eq_true, decide_eq_true_eq] at space
        obtain ((rfl | rfl) | rfl) | rfl := space <;> cases digit
      · rw [List.length_append]
        omega
      · have fits : v.natAbs ≤ Spelling.limit := by
          rw [Spelling.limit, UInt64.size]
          omega
        have value := value?_digitsOf.1 fits
        rw [nextToken_of_sign_or_digit (.inr digit), ← text, (scanNumber?_toDigits stops).1]
        simp only [numberToken, value]
        rw [show (v.natAbs : Int) = v by omega]
  · exact whole.elim

/-! ## Tokens -/

/-- **Tokens at the front of a text**, and what is behind them. Every token takes a character, so
that the scanner gets to the end of them. -/
inductive Scans : List Char → List Token → List Char → Prop where
  | done (s : List Char) : Scans s [] s
  | token {s rest left final : List Char} {c : Char} {t : Token} {ts : List Token} :
      s.dropWhile isSpace = c :: rest → nextToken c rest = (t, left) → t ≠ .bad →
      left.length ≤ rest.length → Scans left ts final → Scans s (t :: ts) final

/-- One scan after the other is one scan. -/
theorem Scans.append {s middle final : List Char} {ts us : List Token} (first : Scans s ts middle)
    (second : Scans middle us final) : Scans s (ts ++ us) final := by
  induction first with
  | done => exact second
  | token front next fine shorter _ ih => exact .token front next fine shorter (ih second)

/-- Blanks do not matter before a token. -/
theorem Scans.blank {b s final : List Char} {t : Token} {ts : List Token}
    (blank : ∀ c ∈ b, isSpace c = true) (scans : Scans s (t :: ts) final) :
    Scans (b ++ s) (t :: ts) final := by
  cases scans with
  | token front next fine shorter more =>
    exact .token ((List.dropWhile_append_of_pos blank).trans front) next fine shorter more

/-- What is scanned up to the end is all of the tokens. -/
theorem Scans.tokens_eq {s : List Char} {ts : List Token} (scans : Scans s ts []) :
    tokens s = ts := by
  have steps (s final : List Char) (ts : List Token) (scans : Scans s ts final)
      (none : final = []) (fuel : Nat) (enough : s.length < fuel) : scan fuel s = ts := by
    induction scans generalizing fuel with
    | done s =>
      subst none
      obtain ⟨fuel, rfl⟩ := Nat.exists_eq_add_one_of_ne_zero (Nat.ne_zero_of_lt enough)
      rfl
    | @token s rest left final c t ts front next fine shorter more ih =>
      obtain ⟨fuel, rfl⟩ := Nat.exists_eq_add_one_of_ne_zero (Nat.ne_zero_of_lt enough)
      have shrinks := (List.dropWhile_suffix isSpace (l := s)).length_le
      rw [front, List.length_cons] at shrinks
      rw [scan, front]
      dsimp only
      rw [next]
      split
      · rename_i is
        exact absurd (congrArg Prod.fst is) fine
      · rename_i is
        obtain ⟨rfl, rfl⟩ := Prod.mk.inj is
        rw [ih none fuel (by omega)]
  exact steps s [] ts scans rfl _ (Nat.lt_succ_self _)

/-- A token that is known by its first character. -/
theorem Scans.mark {s final : List Char} {c : Char} {t : Token} {ts : List Token}
    (more : Scans s ts final) (space : isSpace c = false)
    (next : ∀ rest, nextToken c rest = (t, rest)) (fine : t ≠ .bad) :
    Scans (c :: s) (t :: ts) final :=
  .token (List.dropWhile_cons_of_neg (by rw [space]; decide)) (next s) fine (Nat.le_refl _) more

theorem Scans.comma {s final : List Char} {ts : List Token} (more : Scans s ts final) :
    Scans (',' :: s) (.comma :: ts) final :=
  more.mark (by decide) (fun _ => rfl) (by decide)

theorem Scans.colon {s final : List Char} {ts : List Token} (more : Scans s ts final) :
    Scans (':' :: s) (.colon :: ts) final :=
  more.mark (by decide) (fun _ => rfl) (by decide)

/-- Brackets are scanned around what is inside. -/
theorem Scans.brackets {b s final : List Char} {ts : List Token}
    (blank : ∀ c ∈ b, isSpace c = true) (inside : Scans s ts (b ++ ']' :: final)) :
    Scans ('[' :: s) (.leftBracket :: (ts ++ [.rightBracket])) final :=
  have closed : Scans (']' :: final) [.rightBracket] final :=
    (Scans.done final).mark (by decide) (fun _ => rfl) (by decide)
  (inside.append (closed.blank blank)).mark (by decide) (fun _ => rfl) (by decide)

/-- Braces are scanned around what is inside. -/
theorem Scans.braces {b s final : List Char} {ts : List Token}
    (blank : ∀ c ∈ b, isSpace c = true) (inside : Scans s ts (b ++ '\x7d' :: final)) :
    Scans ('\x7b' :: s) (.leftBrace :: (ts ++ [.rightBrace])) final :=
  have closed : Scans ('\x7d' :: final) [.rightBrace] final :=
    (Scans.done final).mark (by decide) (fun _ => rfl) (by decide)
  (inside.append (closed.blank blank)).mark (by decide) (fun _ => rfl) (by decide)

/-- **A text is scanned as one token.** -/
theorem scans_text (x : String) (s : List Char) : Scans (stringText x ++ s) [.text x] s := by
  have scanned (rest : List Char) (is : rest = x.toList.flatMap escapeChar ++ '"' :: s) :
      nextToken '"' rest = (.text x, s) := by
    have token : stringToken (x.toList.map elementOf) = .text x := by
      rw [stringToken, joinUnits?_elements]
      exact congrArg Token.text (String.ofList_toList)
    rw [is, nextToken, if_neg (by decide), if_neg (by decide), if_neg (by decide),
      if_neg (by decide), if_neg (by decide), if_neg (by decide), if_pos rfl, scanString_escaped]
    exact congrArg (·, s) token
  have text : stringText x ++ s = '"' :: (x.toList.flatMap escapeChar ++ '"' :: s) := by
    rw [stringText, List.cons_append, List.append_assoc]
    rfl
  rw [text]
  refine .token (List.dropWhile_cons_of_neg (by decide)) (scanned _ rfl) nofun ?_ (.done s)
  rw [List.length_append, List.length_cons]
  omega

/-- **A number is scanned as one token**, if something comes after it at which numbers stop. -/
theorem scans_number {n : Number} (whole : n.Whole) {s : List Char} (stops : Stops s) :
    Scans (n.text ++ s) [.number n] s := by
  obtain ⟨c, rest, text, space, shorter, next⟩ := nextToken_number whole stops
  rw [text]
  exact .token (List.dropWhile_cons_of_neg (by rw [space]; decide)) next nofun shorter (.done s)

end CompilerSession.Json
