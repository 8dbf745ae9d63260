import CompilerSession.Text.Utf8
import Mathlib.Data.List.Basic

/-
Where text stands in bytes.

Lenient reading takes any bytes, so what can be said of it has to hold of bytes that are no text as
well. Two things can. An ASCII byte is a character of its own wherever it stands: a piece that has
begun before it ends there, as it would at the end of the bytes (`front_interrupted`), and so bytes
can be read up to it and behind it apart (`decodeLossy_append`). And an ASCII character comes from
no other bytes than its own (`mem_decodeLossy_iff`, `head?_decodeLossy_iff`,
`getLast?_decodeLossy_iff`), because a character is never written longer than it need be
(`lead?_spec`).

The last part is about bytes that are text. Each character is read back from the bytes that it is
encoded in, whatever stands behind them (`front_utf8EncodeChar`), so text is read back whole
(`decodeLossy_encode`, `decode?_encode`).
-/

set_option autoImplicit false

namespace CompilerSession.Utf8

/-! ## Lead bytes -/

/-- **A lead byte** is not ASCII, nor is the byte after it, and together they rule out characters
that a shorter form could hold. -/
theorem lead?_spec {b : UInt8} {more : Nat} {lo hi : UInt8} (h : lead? b = some (more, lo, hi)) :
    128 ≤ b.toNat ∧ 128 ≤ lo.toNat ∧ hi.toNat < 192 ∧
      (more = 1 ∧ 2 ≤ b.toNat % 32 ∨ more = 2 ∧ (1 ≤ b.toNat % 16 ∨ 160 ≤ lo.toNat) ∨
        more = 3 ∧ (1 ≤ b.toNat % 8 ∨ 144 ≤ lo.toNat)) := by
  unfold lead? at h
  simp only [UInt8.le_iff_toNat_le, UInt8.reduceToNat, ← UInt8.toNat_inj] at h
  repeat' split at h
  all_goals cases h
  all_goals
    simp only [UInt8.reduceToNat, true_and]
    omega

/-! ## Pieces end at ASCII bytes -/

section Ascii

variable {a : UInt8} (ascii : a < 0x80)

include ascii

/-- No byte of ASCII continues a character. -/
theorem isContinuation_ascii : isContinuation a = false := by
  have low : ¬ 0x80 ≤ a := UInt8.not_le.mpr ascii
  simp [isContinuation, low]

/-- **A piece ends where an ASCII byte stands**, as it does where the bytes end. -/
theorem front_interrupted (b : UInt8) (p q : Bytes) : front b (p ++ a :: q) = front b p := by
  unfold front
  by_cases hb : b < 0x80
  · rw [if_pos hb, if_pos hb]
  · rw [if_neg hb, if_neg hb]
    cases lead : lead? b with
    | none => rfl
    | some opened =>
      obtain ⟨more, lo, hi⟩ := opened
      have outside : ¬ (lo ≤ a ∧ a ≤ hi) := by
        intro within
        have low := (lead?_spec lead).2.1
        have above := UInt8.le_iff_toNat_le.mp within.1
        have below : a.toNat < 128 := UInt8.lt_iff_toNat_lt.mp ascii
        omega
      have other := isContinuation_ascii ascii
      -- no more than three bytes are looked at, so the byte is met among these or not at all
      match p with
      | [] => simp [outside]
      | [b₁] => simp [other]
      | [b₁, b₂] => simp [other]
      | b₁ :: b₂ :: b₃ :: p => rfl

omit ascii in
/-- A piece does not go beyond the bytes. -/
theorem front_le (b : UInt8) (rest : Bytes) : (front b rest).2 ≤ rest.length := by
  unfold front
  repeat' split
  all_goals simp

/-- A byte of ASCII is a piece of its own. -/
theorem pieces_cons (q : Bytes) :
    pieces (a :: q) = .character (Char.ofNat a.toNat) :: pieces q := by
  rw [pieces, piecesFrom, front, if_pos ascii]
  rfl

/-- **A byte of ASCII cuts the bytes in two**, whatever comes before it. -/
theorem piecesFrom_append (p q : Bytes) {skip : Nat} (h : skip ≤ p.length) :
    piecesFrom skip (p ++ a :: q) = piecesFrom skip p ++ pieces (a :: q) := by
  induction p generalizing skip with
  | nil =>
    obtain rfl : skip = 0 := Nat.le_zero.mp h
    rfl
  | cons b p ih =>
    cases skip with
    | zero =>
      rw [List.cons_append, piecesFrom, piecesFrom, front_interrupted ascii b p q]
      simp only [List.cons_append]
      rw [ih (front_le b p)]
    | succ n =>
      rw [List.cons_append, piecesFrom, piecesFrom]
      exact ih (Nat.le_of_succ_le_succ h)

/-- **What stands before an ASCII byte and what stands behind it are read apart.** -/
theorem decodeLossy_append (p q : Bytes) :
    decodeLossy (p ++ a :: q) = decodeLossy p ++ Char.ofNat a.toNat :: decodeLossy q := by
  rw [decodeLossy, pieces, piecesFrom_append ascii p q (Nat.zero_le _), pieces_cons ascii,
    List.map_append, List.map_cons]
  rfl

end Ascii

/-! ## ASCII characters come from ASCII bytes -/

/-- Characters of ASCII have their numbers. -/
theorem toNat_ofNat_ascii {n : Nat} (h : n < 128) : (Char.ofNat n).toNat = n := by
  have valid : n.isValidChar := .inl (Nat.lt_trans h (by decide))
  rw [Char.ofNat, dif_pos valid]
  rfl

/-- The character of a number beyond ASCII is not ASCII, or no character has that number. -/
theorem toNat_ofNat_high {n : Nat} (h : 128 ≤ n) :
    (Char.ofNat n).toNat = 0 ∨ 128 ≤ (Char.ofNat n).toNat := by
  by_cases valid : n.isValidChar
  · rw [Char.ofNat, dif_pos valid]
    exact .inr h
  · rw [Char.ofNat, dif_neg valid]
    exact .inl rfl

/-- **Every longer form stands for a number beyond ASCII.** -/
theorem front_character {b : UInt8} {rest : Bytes} {c : Char} {n : Nat}
    (h : front b rest = (.character c, n)) :
    b < 0x80 ∧ c = Char.ofNat b.toNat ∨ ∃ m, 128 ≤ m ∧ c = Char.ofNat m := by
  have beyond {m k : Nat} (high : 128 ≤ m)
      (same : (Piece.character (Char.ofNat m), k) = (Piece.character c, n)) :
      ∃ m, 128 ≤ m ∧ c = Char.ofNat m :=
    ⟨m, high, (Piece.character.inj (Prod.mk.inj same).1).symm⟩
  unfold front at h
  split at h
  · rename_i ascii
    exact .inl ⟨ascii, (Piece.character.inj (Prod.mk.inj h).1).symm⟩
  · refine .inr ?_
    split at h
    · cases h
    · rename_i more lo hi lead
      obtain ⟨-, loHigh, hiLow, shape⟩ := lead?_spec lead
      split at h
      · cases h
      · rename_i b₁ rest₁
        split at h
        · cases h
        · rename_i within
          rw [Decidable.not_not, UInt8.le_iff_toNat_le, UInt8.le_iff_toNat_le] at within
          have bits : low6 b₁ = b₁.toNat % 64 := rfl
          -- the bounds on the second byte keep each form beyond the shorter ones
          rcases shape with ⟨rfl, two⟩ | ⟨rfl, three⟩ | ⟨rfl, four⟩
          · rw [if_pos rfl] at h
            exact beyond (by omega) h
          · rw [if_neg (by decide)] at h
            split at h
            · cases h
            · split at h
              · cases h
              · rw [if_pos rfl] at h
                exact beyond (by omega) h
          · rw [if_neg (by decide)] at h
            split at h
            · cases h
            · split at h
              · cases h
              · rw [if_neg (by decide)] at h
                split at h
                · cases h
                · split at h
                  · cases h
                  · exact beyond (by omega) h

/-- **An ASCII character is one byte.** -/
theorem front_low {b : UInt8} {rest : Bytes} {c : Char} {n : Nat}
    (h : front b rest = (.character c, n)) (pos : 0 < c.toNat) (low : c.toNat < 128) :
    b.toNat = c.toNat := by
  rcases front_character h with ⟨ascii, rfl⟩ | ⟨m, high, rfl⟩
  · exact (toNat_ofNat_ascii (UInt8.lt_iff_toNat_lt.mp ascii)).symm
  · exfalso
    rcases toNat_ofNat_high high with zero | high
    · omega
    · omega

/-- A piece is the front of what stands somewhere in the bytes. -/
theorem exists_front_of_mem {p : Bytes} {skip : Nat} {x : Piece} (h : x ∈ piecesFrom skip p) :
    ∃ b rest n, b ∈ p ∧ front b rest = (x, n) := by
  induction p generalizing skip with
  | nil => cases h
  | cons b p ih =>
    cases skip with
    | zero =>
      rcases List.mem_cons.mp h with rfl | later
      · exact ⟨b, p, _, List.mem_cons_self, rfl⟩
      · obtain ⟨b', rest, n, member, same⟩ := ih later
        exact ⟨b', rest, n, List.mem_cons_of_mem _ member, same⟩
    | succ skip =>
      obtain ⟨b', rest, n, member, same⟩ := ih h
      exact ⟨b', rest, n, List.mem_cons_of_mem _ member, same⟩

section Low

variable {a : UInt8} (pos : 0 < a) (ascii : a < 0x80)

include pos ascii

/-- Its byte stands at the front of what is read as an ASCII character. -/
theorem front_eq_ascii {b : UInt8} {rest : Bytes} {n : Nat} {x : Piece} (h : front b rest = (x, n))
    (read : x.toChar = Char.ofNat a.toNat) : b = a := by
  have low : a.toNat < 128 := UInt8.lt_iff_toNat_lt.mp ascii
  have number : (Char.ofNat a.toNat).toNat = a.toNat := toNat_ofNat_ascii low
  cases x with
  | fault =>
    -- the replacement character is not ASCII
    have other : replacement.toNat = a.toNat := by
      rw [← number, ← read]
      rfl
    have high : 128 ≤ replacement.toNat := by decide
    omega
  | character c =>
    obtain rfl : c = Char.ofNat a.toNat := read
    rw [← UInt8.toNat_inj, front_low h (by rwa [number]) (by rwa [number]), number]

/-- **An ASCII character is read where its byte stands**, and nowhere else. -/
theorem mem_decodeLossy_iff {p : Bytes} : Char.ofNat a.toNat ∈ decodeLossy p ↔ a ∈ p := by
  constructor
  · intro h
    obtain ⟨x, member, read⟩ := List.mem_map.mp h
    obtain ⟨b, rest, n, hb, same⟩ := exists_front_of_mem member
    rwa [← front_eq_ascii pos ascii same read]
  · intro h
    obtain ⟨p, q, rfl⟩ := List.append_of_mem h
    rw [decodeLossy_append ascii]
    simp

/-- The first character is one of ASCII if the first byte is. -/
theorem head?_decodeLossy_iff {p : Bytes} :
    (decodeLossy p).head? = some (Char.ofNat a.toNat) ↔ p.head? = some a := by
  constructor
  · intro h
    cases p with
    | nil => cases h
    | cons b p =>
      rw [decodeLossy, pieces, piecesFrom] at h
      exact congrArg some (front_eq_ascii pos ascii rfl (Option.some.inj h))
  · intro h
    obtain ⟨q, rfl⟩ := List.head?_eq_some_iff.mp h
    rw [decodeLossy, pieces_cons ascii]
    rfl

/-- The last character is one of ASCII if the last byte is. -/
theorem getLast?_decodeLossy_iff {p : Bytes} :
    (decodeLossy p).getLast? = some (Char.ofNat a.toNat) ↔ p.getLast? = some a := by
  constructor
  · intro h
    have member : a ∈ p := (mem_decodeLossy_iff pos ascii).mp (List.mem_of_getLast? h)
    obtain ⟨r, q, cut, behind⟩ := List.eq_append_cons_of_mem (List.mem_reverse.mpr member)
    have same : p = q.reverse ++ a :: r.reverse := by
      rw [← List.reverse_reverse p, cut]
      simp
    -- nothing behind its last occurrence is read as this character
    cases nothing : r.reverse with
    | nil => rw [same, nothing, List.getLast?_concat]
    | cons b s =>
      exfalso
      rw [same, decodeLossy_append ascii, List.getLast?_append_of_ne_nil _ (List.cons_ne_nil _ _),
        ← List.singleton_append, List.getLast?_append_of_ne_nil _ (by rw [nothing]; nofun)] at h
      have again := (mem_decodeLossy_iff pos ascii).mp (List.mem_of_getLast? h)
      exact behind (List.mem_reverse.mp again)
  · intro h
    obtain ⟨q, rfl⟩ := List.getLast?_eq_some_iff.mp h
    rw [decodeLossy_append ascii]
    exact List.getLast?_concat

end Low

/-! ## Text is read back

The lead byte of a character tells how many bytes follow, and what the first of them may be. -/

section Forms

variable {b b₁ b₂ b₃ lo hi : UInt8} (rest : Bytes)

/-- What leads a character is no byte of ASCII. -/
theorem not_ascii_of_lead? {more : Nat} (lead : lead? b = some (more, lo, hi)) : ¬ b < 0x80 := by
  rw [UInt8.lt_iff_toNat_lt]
  exact Nat.not_lt_of_le (lead?_spec lead).1

/-- What two bytes make up, if the second one may follow the first. -/
theorem front_two (lead : lead? b = some (1, lo, hi)) (second : lo ≤ b₁ ∧ b₁ ≤ hi) :
    front b (b₁ :: rest) = (.character (Char.ofNat (b.toNat % 32 * 64 + low6 b₁)), 1) := by
  rw [front, if_neg (not_ascii_of_lead? lead), lead]
  dsimp only
  rw [if_neg (not_not_intro second), if_pos rfl]

/-- What three bytes make up, if the others may follow the first. -/
theorem front_three (lead : lead? b = some (2, lo, hi)) (second : lo ≤ b₁ ∧ b₁ ≤ hi)
    (third : isContinuation b₂ = true) :
    front b (b₁ :: b₂ :: rest) =
      (.character (Char.ofNat (b.toNat % 16 * 4096 + low6 b₁ * 64 + low6 b₂)), 2) := by
  rw [front, if_neg (not_ascii_of_lead? lead), lead]
  dsimp only
  rw [if_neg (not_not_intro second), if_neg (by decide), if_neg (not_not_intro third), if_pos rfl]

/-- What four bytes make up, if the others may follow the first. -/
theorem front_four (lead : lead? b = some (3, lo, hi)) (second : lo ≤ b₁ ∧ b₁ ≤ hi)
    (third : isContinuation b₂ = true) (fourth : isContinuation b₃ = true) :
    front b (b₁ :: b₂ :: b₃ :: rest) =
      (.character (Char.ofNat
        (b.toNat % 8 * 262144 + low6 b₁ * 4096 + low6 b₂ * 64 + low6 b₃)), 3) := by
  rw [front, if_neg (not_ascii_of_lead? lead), lead]
  dsimp only
  rw [if_neg (not_not_intro second), if_neg (by decide), if_neg (not_not_intro third),
    if_neg (by decide), if_neg (not_not_intro fourth)]

end Forms

/-- The bytes that lead characters of two bytes. -/
theorem lead?_two : ∀ n < 32, 2 ≤ n →
    lead? (UInt8.ofNat (n + 0xC0)) = some (1, UInt8.ofNat 0x80, UInt8.ofNat 0xBF) := by
  decide

/-- The bytes that lead characters of three bytes, and what may follow some of them. -/
theorem lead?_three : ∀ n < 16,
    lead? (UInt8.ofNat (n + 0xE0)) = some (2, UInt8.ofNat (if n = 0 then 0xA0 else 0x80),
      UInt8.ofNat (if n = 13 then 0x9F else 0xBF)) := by
  decide

/-- The bytes that lead characters of four bytes, and what may follow some of them. -/
theorem lead?_four : ∀ n < 5,
    lead? (UInt8.ofNat (n + 0xF0)) = some (3, UInt8.ofNat (if n = 0 then 0x90 else 0x80),
      UInt8.ofNat (if n = 4 then 0x8F else 0xBF)) := by
  decide

theorem isContinuation_ofNat : ∀ n < 64, isContinuation (UInt8.ofNat (n + 0x80)) = true := by
  decide

theorem low6_ofNat : ∀ n < 64, low6 (UInt8.ofNat (n + 0x80)) = n := by
  decide

theorem toNat_ofNat_byte {n : Nat} (h : n < 256) : (UInt8.ofNat n).toNat = n := by
  rw [UInt8.toNat_ofNat']
  exact Nat.mod_eq_of_lt h

theorem ofNat_within {m n k : Nat} (lo : m ≤ n) (hi : n ≤ k) (byte : k < 256) :
    UInt8.ofNat m ≤ UInt8.ofNat n ∧ UInt8.ofNat n ≤ UInt8.ofNat k := by
  rw [UInt8.le_iff_toNat_le, UInt8.le_iff_toNat_le, toNat_ofNat_byte (by omega),
    toNat_ofNat_byte (by omega), toNat_ofNat_byte byte]
  exact ⟨lo, hi⟩

/-- **A character is read back** from the bytes that it is encoded in, whatever stands behind
them. -/
theorem front_utf8EncodeChar (c : Char) (rest : Bytes) :
    ∃ b more, String.utf8EncodeChar c = b :: more ∧
      front b (more ++ rest) = (.character c, more.length) := by
  have valid : c.toNat < 0xD800 ∨ 0xDFFF < c.toNat ∧ c.toNat < 0x110000 := c.valid
  have bytes := String.utf8EncodeChar.eq_1 c
  rw [show c.val.toNat = c.toNat from rfl] at bytes
  -- the four forms differ in how many groups of six bits follow the lead byte
  split at bytes
  · rename_i one
    refine ⟨_, _, bytes, ?_⟩
    have ascii : UInt8.ofNat c.toNat < 0x80 := by
      rw [UInt8.lt_iff_toNat_lt, toNat_ofNat_byte (by omega)]
      exact Nat.lt_succ_of_le one
    rw [front, if_pos ascii, toNat_ofNat_byte (by omega), Char.ofNat_toNat]
    rfl
  · split at bytes
    · rename_i above two
      refine ⟨_, _, bytes, ?_⟩
      have number : (c.toNat / 64 % 32 + 0xC0) % 32 * 64 + c.toNat % 64 = c.toNat := by omega
      rw [List.cons_append, front_two _ (lead?_two _ (by omega) (by omega))
        (ofNat_within (by omega) (by omega) (by omega)), low6_ofNat _ (by omega),
        toNat_ofNat_byte (by omega), number, Char.ofNat_toNat]
      rfl
    · split at bytes
      · rename_i above three
        refine ⟨_, _, bytes, ?_⟩
        have number : (c.toNat / 4096 % 16 + 0xE0) % 16 * 4096 + c.toNat / 64 % 64 * 64 +
            c.toNat % 64 = c.toNat := by
          omega
        rw [List.cons_append, List.cons_append, front_three _ (lead?_three _ (by omega))
          (ofNat_within (by split <;> omega) (by split <;> omega) (by split <;> omega))
          (isContinuation_ofNat _ (by omega)), low6_ofNat _ (by omega), low6_ofNat _ (by omega),
          toNat_ofNat_byte (by omega), number, Char.ofNat_toNat]
        rfl
      · rename_i above
        refine ⟨_, _, bytes, ?_⟩
        have number : (c.toNat / 262144 % 8 + 0xF0) % 8 * 262144 + c.toNat / 4096 % 64 * 4096 +
            c.toNat / 64 % 64 * 64 + c.toNat % 64 = c.toNat := by
          omega
        rw [List.cons_append, List.cons_append, List.cons_append,
          front_four _ (lead?_four _ (by omega))
            (ofNat_within (by split <;> omega) (by split <;> omega) (by split <;> omega))
            (isContinuation_ofNat _ (by omega)) (isContinuation_ofNat _ (by omega)),
          low6_ofNat _ (by omega), low6_ofNat _ (by omega), low6_ofNat _ (by omega),
          toNat_ofNat_byte (by omega), number, Char.ofNat_toNat]
        rfl

/-- Bytes that are to be skipped are skipped. -/
theorem piecesFrom_length (p q : Bytes) : piecesFrom p.length (p ++ q) = pieces q := by
  induction p with
  | nil => rfl
  | cons b p ih =>
    rw [List.length_cons, List.cons_append, piecesFrom]
    exact ih

/-- **A character that was encoded is one piece.** -/
theorem pieces_utf8EncodeChar (c : Char) (rest : Bytes) :
    pieces (String.utf8EncodeChar c ++ rest) = .character c :: pieces rest := by
  obtain ⟨b, more, bytes, read⟩ := front_utf8EncodeChar c rest
  rw [bytes, List.cons_append, pieces, piecesFrom, read]
  dsimp only
  rw [piecesFrom_length]

theorem toList_loop (bytes : ByteArray) (i : Nat) (r : Bytes) :
    ByteArray.toList.loop bytes i r = r.reverse ++ bytes.data.toList.drop i := by
  fun_induction ByteArray.toList.loop bytes i r with
  | case1 i r h ih =>
    have hi : i < bytes.data.toList.length := by simpa using h
    rw [ih, List.drop_eq_getElem_cons hi]
    simp [ByteArray.get!, h]
  | case2 i r h =>
    rw [List.drop_eq_nil_of_le (by simpa using h), List.append_nil]

/-- **The bytes of a text** are those of its characters. -/
theorem encode_eq (s : String) : encode s = s.toList.flatMap String.utf8EncodeChar := by
  rw [encode, String.toUTF8_eq_toByteArray, ← String.utf8Encode_toList, ByteArray.toList,
    toList_loop, List.utf8Encode, List.toList_data_toByteArray]
  rfl

/-- **The pieces of a text** are its characters. -/
theorem pieces_encode (s : String) : pieces (encode s) = s.toList.map .character := by
  rw [encode_eq]
  induction s.toList with
  | nil => rfl
  | cons c cs ih => rw [List.flatMap_cons, pieces_utf8EncodeChar, ih, List.map_cons]

/-- **Text is read back whole**, leniently and strictly. -/
theorem decodeLossy_encode (s : String) : decodeLossy (encode s) = s.toList := by
  rw [decodeLossy, pieces_encode, List.map_map]
  exact List.map_id _

/-- Strict reading takes the bytes whose pieces are all characters. -/
theorem decode?_eq_some_iff {p : Bytes} {cs : List Char} :
    decode? p = some cs ↔ pieces p = cs.map .character := by
  rw [decode?]
  generalize pieces p = xs
  induction xs generalizing cs with
  | nil => cases cs <;> simp
  | cons x xs ih =>
    rw [List.mapM_cons]
    cases x with
    -- a fault ends strict reading, and is no character
    | fault => cases cs <;> simp
    | character c =>
      constructor
      · intro h
        obtain ⟨c', first, more⟩ := Option.bind_eq_some_iff.mp h
        obtain ⟨cs', rest, same⟩ := Option.bind_eq_some_iff.mp more
        obtain rfl := Option.some.inj first
        obtain rfl := Option.some.inj same
        rw [List.map_cons, ih.mp rest]
      · intro h
        cases cs with
        | nil => cases h
        | cons d cs =>
          obtain ⟨same, rest⟩ := List.cons.inj h
          obtain rfl := Piece.character.inj same
          rw [ih.mpr rest]
          rfl

/-- **What was encoded is decoded.** -/
theorem decode?_encode (s : String) : decode? (encode s) = some s.toList :=
  decode?_eq_some_iff.mpr (pieces_encode s)

/-- Where nothing is lost, both decoders agree. -/
theorem decodeLossy_of_decode? {p : Bytes} {cs : List Char} (h : decode? p = some cs) :
    decodeLossy p = cs := by
  rw [decodeLossy, decode?_eq_some_iff.mp h, List.map_map]
  exact List.map_id _

end CompilerSession.Utf8
