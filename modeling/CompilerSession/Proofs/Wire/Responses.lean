import CompilerSession.Proofs.Text.Utf8
import CompilerSession.Wire

/-
How a response is read.

A response becomes text as a whole before it is cut into lines, and its bytes need not be text. It
can still be read line by line (`decodeResponse_append`): a line feed is read where its byte stands
and nowhere else, and what is behind the last one is a line unless it is empty. So the answer of a
payload is the answers of its lines, one after the other (`decodeResponse_line`).

From there on it is enough to look at a single line. What it adds to the output is a line without a
marker at its front, and it adds no print with a marker in it (`clean_line`); and a body
line, a print and an error mark are each told by what they were written as (`Item.ofChars_line`).
-/

set_option autoImplicit false

namespace CompilerSession

/-- Two answers as one, the first before the second. -/
instance : Append Response where
  append r s := ⟨r.output ++ s.output, r.prints ++ s.prints, r.hasError || s.hasError⟩

theorem Response.mk_append_mk (o o' : String) (p p' : List String) (e e' : Bool) :
    (⟨o, p, e⟩ ++ ⟨o', p', e'⟩ : Response) = ⟨o ++ o', p ++ p', e || e'⟩ :=
  rfl

namespace Wire

open Utf8 (Bytes encode)

/-! ## Lines of a text -/

/-- A piece ends at each line feed and nowhere else. -/
theorem pieces_eq (s : List Char) : pieces s = s.splitOn '\n' := by
  induction s with
  | nil => rfl
  | cons c s ih =>
    rw [pieces, List.splitOn_cons_eq_if_modifyHead, ih]
    by_cases feed : c = '\n'
    · rw [if_pos feed, if_pos (beq_iff_eq.mpr feed)]
    · rw [if_neg feed, if_neg (by simpa using feed)]
      cases cut : s.splitOn '\n' with
      | nil => exact absurd cut (List.splitOn_ne_nil _ _)
      | cons l ls => rfl

theorem lineFeed_notMem_pieces {s l : List Char} (h : l ∈ pieces s) : '\n' ∉ l := by
  induction s generalizing l with
  | nil =>
    obtain rfl : l = [] := List.mem_singleton.mp h
    exact List.not_mem_nil
  | cons c s ih =>
    rw [pieces_eq, List.splitOn_cons_eq_if_modifyHead, ← pieces_eq] at h
    by_cases feed : c = '\n'
    · rw [if_pos (beq_iff_eq.mpr feed)] at h
      rcases List.mem_cons.mp h with rfl | h
      · exact List.not_mem_nil
      · exact ih h
    · rw [if_neg (by simpa using feed)] at h
      cases cut : pieces s with
      | nil => simp [cut] at h
      | cons l' ls =>
        rw [cut] at h ih
        rcases List.mem_cons.mp h with rfl | h
        · rw [List.mem_cons, not_or]
          exact ⟨Ne.symm feed, ih List.mem_cons_self⟩
        · exact ih (List.mem_cons_of_mem _ h)

theorem pieces_ne_nil (s : List Char) : pieces s ≠ [] := by
  rw [pieces_eq]
  exact List.splitOn_ne_nil _ _

/-- A line feed cuts the characters in two. -/
theorem pieces_append (s t : List Char) : pieces (s ++ '\n' :: t) = pieces s ++ pieces t := by
  rw [pieces_eq, pieces_eq, pieces_eq, List.splitOn_append_cons_self]

/-- The last piece is empty only behind a line feed. -/
theorem getLast?_pieces_concat {c : Char} (other : c ≠ '\n') (s : List Char) :
    (pieces (s ++ [c])).getLast? ≠ some [] := by
  induction s with
  | nil =>
    rw [List.nil_append, pieces, if_neg other]
    nofun
  | cons d s ih =>
    rw [List.cons_append, pieces]
    split
    · rwa [← List.singleton_append, List.getLast?_append_of_ne_nil _ (pieces_ne_nil _)]
    · cases cut : pieces (s ++ [c]) with
      | nil => exact absurd cut (pieces_ne_nil _)
      | cons l ls =>
        cases ls with
        | nil => nofun
        | cons l' ls => rwa [cut] at ih

/-- **Lines are cut at each line feed**, and behind the last one only if something stands there. -/
theorem lines_append (s t : List Char) : lines (s ++ '\n' :: t) = pieces s ++ lines t := by
  rw [lines, lines, pieces_append, List.getLast?_append_of_ne_nil _ (pieces_ne_nil t)]
  by_cases empty : (pieces t).getLast? = some []
  · rw [if_pos empty, if_pos empty, List.dropLast_append_of_ne_nil (pieces_ne_nil t)]
  · rw [if_neg empty, if_neg empty]

/-- The lines of a text that ends in a line feed are all its pieces but the empty one. -/
theorem lines_concat (s : List Char) : lines (s ++ ['\n']) = pieces s := by
  rw [lines_append]
  exact List.append_nil _

/-- An unfinished line counts like a finished one. -/
theorem lines_unfinished {s : List Char} (filled : s ≠ []) (unfinished : s.getLast? ≠ some '\n') :
    lines s = lines (s ++ ['\n']) := by
  obtain ⟨t, c, rfl⟩ := (List.eq_nil_or_concat' s).resolve_left filled
  have other : c ≠ '\n' := by simpa using unfinished
  rw [lines_concat, lines, if_neg (getLast?_pieces_concat other t)]

theorem lineFeed_notMem_lines {s l : List Char} (h : l ∈ lines s) : '\n' ∉ l := by
  rw [lines] at h
  split at h
  · exact lineFeed_notMem_pieces (List.dropLast_subset _ h)
  · exact lineFeed_notMem_pieces h

/-! ## Answers -/

/-- **What lines say, one after the other, is added up.** -/
theorem answerOfLines_append (k l : List Line) :
    answerOfLines (k ++ l) = answerOfLines k ++ answerOfLines l := by
  rw [answerOfLines, answerOfLines, answerOfLines, Response.mk_append_mk]
  rw [List.flatMap_append, List.filterMap_append, List.any_append, String.ofList_append]

/-- Lines of the body make up the body. -/
theorem answerOfLines_bodies (bodies : List (List Char)) :
    answerOfLines (bodies.map .body) =
      ⟨String.ofList (bodies.flatMap (· ++ ['\n'])), [], false⟩ := by
  rw [answerOfLines, List.flatMap_map]
  simp

theorem answerOfLines_body (text : String) :
    answerOfLines [.body text.toList] = ⟨text ++ "\n", [], false⟩ := by
  have single := answerOfLines_bodies [text.toList]
  rwa [List.flatMap_singleton, String.ofList_append, String.ofList_toList] at single

theorem answerOfLines_print (message : String) :
    answerOfLines [.print message.toList] = ⟨"", [message], false⟩ := by
  rw [answerOfLines, List.filterMap_cons]
  simp

theorem answerOfLines_mark : answerOfLines [.mark] = ⟨"", [], true⟩ :=
  rfl

/-- A line feed cuts the bytes in two, however they are decoded. -/
theorem decodeLossy_lineFeed (p q : Bytes) :
    Utf8.decodeLossy (p ++ 10 :: q) = Utf8.decodeLossy p ++ '\n' :: Utf8.decodeLossy q :=
  Utf8.decodeLossy_append (by decide) p q

/-- A payload with a line feed at its end is read by its lines. -/
theorem decodeResponse_concat (p : Bytes) :
    decodeResponse (p ++ [10]) =
      answerOfLines ((pieces (Utf8.decodeLossy p)).map Line.ofChars) := by
  have text : Utf8.decodeLossy (p ++ [10]) = Utf8.decodeLossy p ++ ['\n'] :=
    decodeLossy_lineFeed p []
  rw [decodeResponse, text, lines_concat]

/-- **Finished lines are answered first**, whatever stands behind them. -/
theorem decodeResponse_append (p q : Bytes) :
    decodeResponse (p ++ 10 :: q) = decodeResponse (p ++ [10]) ++ decodeResponse q := by
  rw [decodeResponse_concat, decodeResponse, decodeLossy_lineFeed, lines_append, List.map_append,
    answerOfLines_append]
  rfl

/-- **A line feed at the end changes nothing**, unless there is one already or there is nothing. -/
theorem decodeResponse_unfinished {p : Bytes} (filled : p ≠ [])
    (unfinished : p.getLast? ≠ some 10) :
    decodeResponse p = decodeResponse (p ++ [10]) := by
  have text : Utf8.decodeLossy p ≠ [] := by
    cases p with
    | nil => exact absurd rfl filled
    | cons b p => nofun
  have unended : (Utf8.decodeLossy p).getLast? ≠ some '\n' := by
    rw [ne_eq, show '\n' = Char.ofNat (10 : UInt8).toNat from rfl,
      Utf8.getLast?_decodeLossy_iff (by decide) (by decide)]
    exact unfinished
  rw [decodeResponse_concat, decodeResponse, lines_unfinished text unended, lines_concat]

/-- A payload of one line is what the line says. -/
theorem decodeResponse_line {l : String} (unbroken : '\n' ∉ l.toList) :
    decodeResponse (encode l ++ [10]) = answerOfLines [Line.ofChars l.toList] := by
  have single : pieces l.toList = [l.toList] := by
    rw [pieces_eq, List.splitOn_eq_singleton unbroken]
  rw [decodeResponse_concat, Utf8.decodeLossy_encode, single]
  rfl

/-! ## Kinds of lines -/

/-- A line that is no more than it seems. -/
def Plain (l : List Char) : Prop :=
  '\n' ∉ l ∧ l.head? ≠ some '\x01' ∧ l.head? ≠ some '\x02'

instance (l : List Char) : Decidable (Plain l) :=
  inferInstanceAs (Decidable ('\n' ∉ l ∧ l.head? ≠ some '\x01' ∧ l.head? ≠ some '\x02'))

/-- A plain line belongs to the body. -/
theorem Line.ofChars_plain {l : List Char} (plain : Plain l) : Line.ofChars l = .body l := by
  obtain ⟨-, noPrint, noMark⟩ := plain
  cases l with
  | nil => rfl
  | cons c l =>
    have print : c ≠ printMarker := fun h => noPrint (congrArg some h)
    have mark : c ≠ errorMarker := fun h => noMark (congrArg some h)
    rw [Line.ofChars, if_neg print, if_neg mark]

/-- No marker is left in what is printed. -/
theorem marker_notMem_printText (s : List Char) : '\x01' ∉ printText s := by
  intro h
  obtain ⟨c, -, same⟩ := List.mem_map.mp h
  by_cases marker : c = printMarker
  · rw [if_pos marker] at same
    exact absurd same (by decide)
  · rw [if_neg marker] at same
    exact marker same

/-- Line breaks that were written as markers are read as line breaks again. -/
theorem printText_markers {s : List Char} (unmarked : '\x01' ∉ s) :
    printText (s.map fun c => if c = '\n' then '\x01' else c) = s := by
  rw [printText, List.map_map]
  refine (List.map_congr_left fun c member => ?_).trans (List.map_id s)
  have other : c ≠ printMarker := by
    rintro rfl
    exact unmarked member
  by_cases feed : c = '\n'
  · rw [feed]
    rfl
  · rw [Function.comp_apply, if_neg feed, if_neg other, id]

/-- **What one line adds to an answer**: itself if it is plain, a print without markers, or the
error mark. -/
theorem Line.ofChars_cases {l : List Char} (unbroken : '\n' ∉ l) :
    Plain l ∧ Line.ofChars l = .body l ∨ (∃ s, Line.ofChars l = .print (printText s)) ∨
      Line.ofChars l = .mark := by
  cases l with
  | nil => exact .inl ⟨⟨unbroken, nofun, nofun⟩, rfl⟩
  | cons c l =>
    rw [Line.ofChars]
    by_cases print : c = printMarker
    · rw [if_pos print]
      exact .inr (.inl ⟨l, rfl⟩)
    · by_cases mark : c = errorMarker
      · rw [if_neg print, if_pos mark]
        exact .inr (.inr rfl)
      · rw [if_neg print, if_neg mark]
        exact .inl ⟨⟨unbroken, fun h => print (Option.some.inj h),
          fun h => mark (Option.some.inj h)⟩, rfl⟩

/-- **An answer without markers**: its output is plain lines, each with a line feed, and no print
has a marker in it. -/
structure Clean (r : Response) : Prop where
  output : ∃ bodies : List (List Char), (∀ l ∈ bodies, Plain l) ∧
    r.output = String.ofList (bodies.flatMap (· ++ ['\n']))
  prints : ∀ m ∈ r.prints, '\x01' ∉ m.toList

/-- Clean answers add up to a clean one. -/
theorem Clean.append {r s : Response} (hr : Clean r) (hs : Clean s) : Clean (r ++ s) := by
  obtain ⟨⟨bodies, plain, same⟩, prints⟩ := hr
  obtain ⟨⟨bodies', plain', same'⟩, prints'⟩ := hs
  constructor
  · refine ⟨bodies ++ bodies', List.forall_mem_append.mpr ⟨plain, plain'⟩, ?_⟩
    rw [List.flatMap_append, String.ofList_append, ← same, ← same']
    rfl
  · exact List.forall_mem_append.mpr ⟨prints, prints'⟩

/-- What a line says is clean. -/
theorem clean_line {l : List Char} (unbroken : '\n' ∉ l) :
    Clean (answerOfLines [Line.ofChars l]) := by
  rcases Line.ofChars_cases unbroken with ⟨plain, kind⟩ | ⟨s, kind⟩ | kind
  · rw [kind]
    exact ⟨⟨[l], List.forall_mem_singleton.mpr plain, rfl⟩, nofun⟩
  · rw [kind]
    refine ⟨⟨[], nofun, rfl⟩, List.forall_mem_singleton.mpr ?_⟩
    rw [String.toList_ofList]
    exact marker_notMem_printText s
  · rw [kind]
    exact ⟨⟨[], nofun, rfl⟩, nofun⟩

/-- **What is read has no markers left in it**, whatever the payload. -/
theorem clean_decodeResponse (payload : Bytes) : Clean (decodeResponse payload) := by
  have unbroken : ∀ l ∈ lines (Utf8.decodeLossy payload), '\n' ∉ l :=
    fun l member => lineFeed_notMem_lines member
  rw [decodeResponse]
  generalize lines (Utf8.decodeLossy payload) = ls at unbroken ⊢
  induction ls with
  | nil => exact ⟨⟨[], nofun, rfl⟩, nofun⟩
  | cons l ls ih =>
    obtain ⟨first, unbroken⟩ := List.forall_mem_cons.mp unbroken
    rw [List.map_cons, ← List.singleton_append, answerOfLines_append]
    exact (clean_line first).append (ih unbroken)

/-! ## Writing responses -/

/-- **What a compiler has to say**: a line of its output, a print, or that there was an error. -/
inductive Item where
  | body (text : String)
  | print (message : String)
  | mark (text : String)
  deriving DecidableEq, Repr

namespace Item

/-- An item that its line can hold. -/
def Proper : Item → Prop
  | body text => Plain text.toList
  | print message => '\x01' ∉ message.toList
  | mark text => '\n' ∉ text.toList

instance : (i : Item) → Decidable i.Proper
  | body text => inferInstanceAs (Decidable (Plain text.toList))
  | print message => inferInstanceAs (Decidable ('\x01' ∉ message.toList))
  | mark text => inferInstanceAs (Decidable ('\n' ∉ text.toList))

/-- The line of an item. A print has its line breaks as markers. -/
def line : Item → String
  | body text => text
  | print message =>
    String.ofList ('\x01' :: message.toList.map fun c => if c = '\n' then '\x01' else c)
  | mark text => String.ofList ('\x02' :: text.toList)

/-- What an item is read as. -/
def kind : Item → Line
  | body text => .body text.toList
  | print message => .print message.toList
  | mark _ => .mark

/-- The line of a proper item has no line feed in it and is read as the item. -/
theorem ofChars_line {i : Item} (proper : i.Proper) :
    '\n' ∉ i.line.toList ∧ Line.ofChars i.line.toList = i.kind := by
  cases i with
  | body text => exact ⟨proper.1, Line.ofChars_plain proper⟩
  | print message =>
    constructor
    · rw [line, String.toList_ofList, List.mem_cons, not_or]
      refine ⟨by decide, fun h => ?_⟩
      obtain ⟨c, -, same⟩ := List.mem_map.mp h
      split at same
      · exact absurd same (by decide)
      · rename_i other
        exact other same
    · rw [line, String.toList_ofList, kind]
      exact congrArg Line.print (printText_markers proper)
  | mark text =>
    constructor
    · rw [line, String.toList_ofList, List.mem_cons, not_or]
      exact ⟨by decide, proper⟩
    · rw [line, String.toList_ofList]
      rfl

end Item

/-- The payload with these items, one on each line. -/
def render (items : List Item) : Bytes :=
  items.flatMap fun i => encode i.line ++ [10]

/-- **Items that were rendered are read as lines of their kinds.** -/
theorem decodeResponse_render {items : List Item} (proper : ∀ i ∈ items, i.Proper) :
    decodeResponse (render items) = answerOfLines (items.map Item.kind) := by
  induction items with
  | nil => rfl
  | cons i items ih =>
    obtain ⟨first, proper⟩ := List.forall_mem_cons.mp proper
    obtain ⟨unbroken, kind⟩ := Item.ofChars_line first
    have bytes : render (i :: items) = encode i.line ++ 10 :: render items := by
      rw [render, List.flatMap_cons, List.append_assoc, List.singleton_append, render]
    rw [bytes, decodeResponse_append, decodeResponse_line unbroken, kind, ih proper,
      ← answerOfLines_append, List.singleton_append, List.map_cons]

/-- **Responses come back as they were written**, however body lines, prints and error marks are
mixed. -/
theorem response_round_trip (items : List Item) (proper : ∀ i ∈ items, i.Proper) :
    decodeResponse (render items) =
      { output := String.join (items.filterMap fun
          | .body text => some (text ++ "\n")
          | _ => none)
        prints := items.filterMap fun
          | .print message => some message
          | _ => none
        hasError := items.any fun
          | .mark _ => true
          | _ => false } := by
  -- once the payload is cut into lines, whether the items were proper does not matter
  rw [decodeResponse_render proper]
  clear proper
  induction items with
  | nil => rfl
  | cons i items ih =>
    rw [List.map_cons, ← List.singleton_append, answerOfLines_append, ih]
    cases i with
    | body text =>
      rw [Item.kind, answerOfLines_body, Response.mk_append_mk, List.filterMap_cons,
        String.join_cons]
      rfl
    | print message =>
      rw [Item.kind, answerOfLines_print, Response.mk_append_mk, String.empty_append]
      rfl
    | mark text =>
      rw [Item.kind, answerOfLines_mark, Response.mk_append_mk, String.empty_append]
      rfl

/-- Empty lines and prints, line breaks and markers inside, and all kinds mixed. -/
theorem mixed_items_round_trip :
    (∀ i ∈ [.print "", .body "", .mark "", .body "a\x01b\x02", .print "x\n\x02", .body "é"],
      Item.Proper i) ∧
    decodeResponse (render
      [.print "", .body "", .mark "", .body "a\x01b\x02", .print "x\n\x02", .body "é"]) =
      ⟨"\na\x01b\x02\né\n", ["", "x\n\x02"], true⟩ :=
  ⟨by decide, response_round_trip _ (by decide)⟩

/-! ## What any payload is read as -/

/-- The bytes of plain lines, as those of an output without prints and marks. -/
theorem render_bodies (bodies : List (List Char)) :
    encode (String.ofList (bodies.flatMap (· ++ ['\n']))) =
      render (bodies.map fun l => .body (String.ofList l)) := by
  rw [Utf8.encode_eq, String.toList_ofList, render]
  induction bodies with
  | nil => rfl
  | cons l bodies ih =>
    rw [List.flatMap_cons, List.flatMap_append, ih, List.map_cons, List.flatMap_cons, Item.line,
      Utf8.encode_eq, String.toList_ofList, List.flatMap_append]
    rfl

/-- **Any payload is read line by line.**

A line feed in it, wherever it stands, separates what is read before it from what is read behind
it, and the last line needs none. What comes out are plain lines, each with its line feed, and
prints without markers; and the output is read as itself again. -/
theorem responses_are_read_by_lines (p q : Bytes) :
    decodeResponse (p ++ 10 :: q) = decodeResponse (p ++ [10]) ++ decodeResponse q ∧
    (p ≠ [] → p.getLast? ≠ some 10 → decodeResponse p = decodeResponse (p ++ [10])) ∧
    (∃ bodies : List (List Char), (∀ l ∈ bodies, Plain l) ∧
      (decodeResponse p).output = String.ofList (bodies.flatMap (· ++ ['\n']))) ∧
    (∀ m ∈ (decodeResponse p).prints, '\x01' ∉ m.toList) ∧
    decodeResponse (encode (decodeResponse p).output) = ⟨(decodeResponse p).output, [], false⟩ := by
  obtain ⟨⟨bodies, plain, output⟩, prints⟩ := clean_decodeResponse p
  refine ⟨decodeResponse_append p q, decodeResponse_unfinished, ⟨bodies, plain, output⟩, prints, ?_⟩
  rw [output, render_bodies, decodeResponse_render, List.map_map, ← answerOfLines_bodies]
  · congr 1
    refine List.map_congr_left fun l _ => ?_
    rw [Function.comp_apply, Item.kind, String.toList_ofList]
  · intro i member
    obtain ⟨l, body, rfl⟩ := List.mem_map.mp member
    rw [Item.Proper, String.toList_ofList]
    exact plain l body

/-- A character that is cut off at a line feed, and one at the end, behind a print marker. -/
theorem cut_characters_are_read :
    decodeResponse [226, 130] = decodeResponse [226, 130, 10] ∧
    decodeResponse [226, 130, 10, 1, 97, 255] = ⟨"\uFFFD\n", ["a\uFFFD"], false⟩ := by
  constructor
  · exact (responses_are_read_by_lines [226, 130] []).2.1 (by decide) (by decide)
  · rw [show [226, 130, 10, 1, 97, 255] = ([226, 130] : Bytes) ++ 10 :: [1, 97, 255] from rfl,
      (responses_are_read_by_lines _ _).1]
    rfl

end Wire

end CompilerSession
