import CompilerSession.Proofs.Settings.Readers

/-
How settings may be spelled.

A text may be rephrased in all the ways that leave what it says alone: the order of the members, the
names of the fields, and what nobody asks for (`Settings.Rephrased`). What a text must not do is to
say one thing twice (`Settings.GivenTwice`). Both are laws of any reader of members, and are put
together here for the readers of the two layers.
-/

set_option autoImplicit false

namespace CompilerSession

open Json (Document Name Named Parseable Reads Scope Tree fieldNames fieldOf? isSound_of_anyValue
  membersSound_iff parseable_object_iff)

/-! ## Saying the same otherwise -/

/-- **The text is an object with these members**, and nothing else. -/
def IsObject (text : String) (ms : List (Name × Tree)) : Prop :=
  Document.ofText text.toList = ⟨.object ms true, false⟩

/-- Inside so many containers of a text. -/
def within (depth : Nat) : Scope :=
  ⟨.text, some (Json.depthLimit - depth)⟩

/-- **An override said otherwise**: its members in another order, under other names, or with others
between them. -/
inductive Override.Rephrased : Tree → Tree → Prop where
  | mk {ms ms' : List (Name × Tree)} :
      Json.Rephrased Toolchain.names (Parseable (within 2)) (fun _ _ _ => False) ms ms' →
      Override.Rephrased (.object ms true) (.object ms' true)

/-- **Settings said otherwise**: the same at the top, and within the overrides. What is added has to
have a value where it stands, where no more containers may be opened than in any text. -/
def Settings.Rephrased : List (Name × Tree) → List (Name × Tree) → Prop :=
  Json.Rephrased (Toolchain.names ++ Platform.names) (Parseable (within 1)) fun key t t' =>
    (∃ group ∈ Platform.names, key ∈ group) ∧ Override.Rephrased t t'

/-- **A field is given twice**, at the top or within an override. -/
def Settings.GivenTwice (ms : List (Name × Tree)) : Prop :=
  Json.GivenTwice (Toolchain.names ++ Platform.names) ms ∨
    ∃ group ∈ Platform.names, ∃ key ∈ group, ∃ inner closed,
      (some key, .object inner closed) ∈ ms ∧ Json.GivenTwice Toolchain.names inner

/-! ## Overrides that are said otherwise -/

/-- What is said in another way can be read all the same. -/
theorem Override.Rephrased.parseable {t t' : Tree} (said : Override.Rephrased t t')
    (fine : Parseable (within 1) t) : Parseable (within 1) t' := by
  obtain ⟨said⟩ := said
  have enter : (within 1).enter = .ok (within 2) := rfl
  rw [parseable_object_iff enter] at fine ⊢
  exact said.forall (fun _ _ _ named => ⟨⟨_, rfl⟩, named.2⟩) (fun _ _ fine => ⟨⟨_, rfl⟩, fine⟩)
    (fun _ _ _ never => never.elim) fine

/-- What is said in another way is as sound. -/
theorem Override.Rephrased.sound {t t' : Tree} (said : Override.Rephrased t t')
    (fine : t.isSound = true) : t'.isSound = true := by
  obtain ⟨said⟩ := said
  rw [Tree.isSound, Bool.and_true, membersSound_iff] at fine ⊢
  refine said.forall (fun _ _ _ fine => fine) (fun _ _ fine => ?_) (fun _ _ _ never => never.elim)
    fine
  obtain ⟨v, value⟩ := fine
  exact isSound_of_anyValue _ value

/-- **An override that is said in another way is read alike.** -/
theorem Override.Rephrased.decodes {t t' : Tree} (said : Override.Rephrased t t')
    {o : Option Override} (decoded : Json.optional Override.decode .ofMember t = .ok o) :
    Json.optional Override.decode .ofMember t' = .ok o := by
  obtain ⟨said⟩ := said
  rw [optionalOverride_eq_ok_iff] at decoded ⊢
  obtain ⟨-, d, reads, rfl⟩ := decoded
  have listed : (fieldNames (Toolchain.fields Json.optional)).Sublist Toolchain.names :=
    fieldNames_toolchain Json.optional ▸ .refl _
  refine ⟨rfl, d, reads.rephrased (independent_toolchain _ _) (by decide) listed ?_ ?_ ?_ said, rfl⟩
  · rintro t ⟨v, value⟩
    exact isSound_of_anyValue t value
  · exact fun _ _ _ never => never.elim
  · exact fun _ _ _ never => never.elim

/-! ## Both readers together -/

/-- Whether a text is an object can be told from its tokens. -/
theorem isObject_of_tokens {text : String} {ts : List Json.Token} {ms : List (Name × Tree)}
    (scanned : Json.tokens text.toList = ts)
    (read : Json.readTree (2 * ts.length + 2) ts = (.object ms true, [])) : IsObject text ms := by
  rw [IsObject, Document.ofText, scanned, read]
  rfl

/-- Settings are read off the object. -/
theorem IsObject.parse_eq {text : String} {ms : List (Name × Tree)} (object : IsObject text ms) :
    Settings.parse text = Settings.decode .ofText (.object ms true) := by
  rw [Settings.parse, Json.decodeText, object]
  exact bind_pure _

/-- No name of a platform is known to the toolchain. -/
theorem toolchain_skips_platforms {key : String}
    (platform : ∃ group ∈ Platform.names, key ∈ group) :
    fieldOf? (Toolchain.fields Json.always) key = none := by
  have apart : ∀ group ∈ Platform.names, ∀ key ∈ group, ∀ other ∈ Toolchain.names, key ∉ other := by
    decide
  obtain ⟨group, member, named⟩ := platform
  exact Json.fieldOf?_eq_none fun other names => apart group member key named other names

/-- **Settings that are said in another way are read alike.** -/
theorem Settings.Rephrased.decodes {ms ms' : List (Name × Tree)} (said : Settings.Rephrased ms ms')
    {settings : Settings} (decoded : Settings.decode .ofText (.object ms true) = .ok settings) :
    Settings.decode .ofText (.object ms' true) = .ok settings := by
  have enter : Scope.ofText.enter = .ok (within 1) := rfl
  rw [Settings.decode_eq_ok_iff enter] at decoded ⊢
  obtain ⟨values, base, toolchain, overrides, platforms, rfl⟩ := decoded
  have sound (t : Tree) (fine : Parseable (within 1) t) : t.isSound = true := by
    obtain ⟨v, value⟩ := fine
    exact isSound_of_anyValue t value
  have listed : (fieldNames (Toolchain.fields Json.always)).Sublist
      (Toolchain.names ++ Platform.names) := by
    rw [fieldNames_toolchain]
    exact List.sublist_append_left _ _
  have listed' : (fieldNames Settings.overrideFields).Sublist
      (Toolchain.names ++ Platform.names) := by
    rw [fieldNames_overrides]
    exact List.sublist_append_right _ _
  -- the object is read three times: as a value, for the toolchain and for the overrides
  refine ⟨?_, base, ?_, overrides, ?_, rfl⟩
  · exact said.forall (fun _ _ _ named => ⟨⟨_, rfl⟩, named.2⟩) (fun _ _ fine => ⟨⟨_, rfl⟩, fine⟩)
      (fun _ _ _ change named => ⟨⟨_, rfl⟩, change.2.parseable named.2⟩) values
  · refine toolchain.rephrased (independent_toolchain _ _) names_distinct listed sound
      (fun _ _ _ change fine => change.2.sound fine) ?_ said
    intro key t t' change f known
    rw [toolchain_skips_platforms change.1] at known
    cases known
  · refine platforms.rephrased (independent_overrides _) names_distinct listed' sound
      (fun _ _ _ change fine => change.2.sound fine) ?_ said
    intro key t t' change f known s r stored
    obtain ⟨put, stores⟩ := stores_override (Json.mem_of_fieldOf? known)
    obtain ⟨o, decoded, rfl⟩ := stores.eq_ok_iff.mp stored
    exact stores.eq_ok_iff.mpr ⟨o, change.2.decodes decoded, rfl⟩

/-- **Settings in which a field is given twice are refused.** -/
theorem Settings.GivenTwice.refused {ms : List (Name × Tree)} (twice : Settings.GivenTwice ms)
    (settings : Settings) : Settings.decode .ofText (.object ms true) ≠ .ok settings := by
  intro decoded
  have enter : Scope.ofText.enter = .ok (within 1) := rfl
  obtain ⟨-, base, toolchain, overrides, platforms, -⟩ :=
    (Settings.decode_eq_ok_iff enter).mp decoded
  rcases twice with ⟨group, names, twice⟩ | ⟨group, names, key, named, inner, closed, member, twice⟩
  · rcases List.mem_append.mp names with names | names
    · exact toolchain.not_givenTwice (by decide) ⟨group, names, twice⟩
    · exact platforms.not_givenTwice (by decide) ⟨group, names, twice⟩
  · have distinct : (fieldNames Settings.overrideFields).flatten.Nodup := by decide
    obtain ⟨f, known, field⟩ := Json.fieldOf?_eq distinct names
    obtain ⟨-, before, after, stored⟩ := platforms.met member (field key named)
    obtain ⟨put, stores⟩ := stores_override known
    obtain ⟨o, decoded, -⟩ := stores.eq_ok_iff.mp stored
    obtain ⟨-, d, reads, -⟩ := optionalOverride_eq_ok_iff.mp decoded
    exact reads.not_givenTwice (by decide) twice

/-! ## Texts -/

/-- **How settings are spelled does not matter**, and nothing may be said twice: whatever is done to
the members that leaves what they say alone, the text is accepted as before, the settings are the
same, and so is what runs on every platform; and an object in which a field is given twice is
refused. -/
theorem spelling_of_settings_does_not_matter {text : String} {ms : List (Name × Tree)}
    (object : IsObject text ms) :
    (∀ settings text' ms', Settings.parse text = .ok settings → IsObject text' ms' →
      Settings.Rephrased ms ms' → ∃ settings', Settings.parse text' = .ok settings' ∧
        settings' = settings ∧ ∀ p, settings'.resolve p = settings.resolve p) ∧
    (Settings.GivenTwice ms → ∃ fault, Settings.parse text = .error fault) := by
  refine ⟨fun settings text' ms' parsed object' said => ?_, fun twice => ?_⟩
  · rw [object.parse_eq] at parsed
    exact ⟨settings, object'.parse_eq.trans (said.decodes parsed), rfl, fun _ => rfl⟩
  · rw [object.parse_eq]
    cases decoded : Settings.decode .ofText (.object ms true) with
    | error fault => exact ⟨fault, rfl⟩
    | ok settings => exact absurd decoded (twice.refused settings)

/-- A path and an override under other names, with one member more and the other way round; and
arguments that are given as `args` as well. -/
theorem other_names_and_order_are_read_alike :
    (∃ settings, Settings.parse ("\x7b\"osx\":\x7b\"on\":true,\"arguments\":[\"x\"]\x7d," ++
        "\"executable\":\"a\"\x7d") = .ok settings ∧
      settings.resolve .osx = ⟨"a", ["x"], []⟩) ∧
    ∃ fault, Settings.parse "\x7b\"linux\":\x7b\"args\":[],\"arguments\":[]\x7d\x7d" =
      .error fault := by
  constructor
  · have object : IsObject "\x7b\"path\":\"a\",\"macos\":\x7b\"args\":[\"x\"]\x7d\x7d"
        [(some "path", .text "a"),
          (some "macos", .object [(some "args", .array [.text "x"] true)] true)] :=
      isObject_of_tokens (show _ = [.leftBrace, .text "path", .colon, .text "a", .comma,
        .text "macos", .colon, .leftBrace, .text "args", .colon, .leftBracket, .text "x",
        .rightBracket, .rightBrace, .rightBrace] by decide +kernel) rfl
    have parsed : Settings.parse "\x7b\"path\":\"a\",\"macos\":\x7b\"args\":[\"x\"]\x7d\x7d" =
        .ok ⟨⟨"a", [], []⟩, none, none, some ⟨none, some ["x"], none⟩⟩ :=
      object.parse_eq.trans rfl
    have object' : IsObject ("\x7b\"osx\":\x7b\"on\":true,\"arguments\":[\"x\"]\x7d," ++
        "\"executable\":\"a\"\x7d")
        [(some "osx", .object [(some "on", .bool true),
          (some "arguments", .array [.text "x"] true)] true), (some "executable", .text "a")] :=
      isObject_of_tokens (show _ = [.leftBrace, .text "osx", .colon, .leftBrace, .text "on", .colon,
        .bool true, .comma, .text "arguments", .colon, .leftBracket, .text "x", .rightBracket,
        .rightBrace, .comma, .text "executable", .colon, .text "a", .rightBrace]
        by decide +kernel) rfl
    have arguments : Json.Rephrased Toolchain.names (Parseable (within 2)) (fun _ _ _ => False)
        [(some "args", .array [.text "x"] true)]
        [(some "on", .bool true), (some "arguments", .array [.text "x"] true)] :=
      .trans (.renamed (List.mem_cons_of_mem _ List.mem_cons_self) (by decide) (by decide))
        (.added (by decide) ⟨.bool true, rfl⟩)
    have said : Settings.Rephrased
        [(some "path", .text "a"),
          (some "macos", .object [(some "args", .array [.text "x"] true)] true)]
        [(some "osx", .object [(some "on", .bool true),
          (some "arguments", .array [.text "x"] true)] true), (some "executable", .text "a")] :=
      .trans (.renamed List.mem_cons_self (by decide) (show "executable" ∈ _ by decide))
        (.trans (.reordered (.swap _ _ _))
          (.trans (.within ⟨⟨["osx", "macos"], by decide, by decide⟩, .mk arguments⟩)
            (.renamed (show ["osx", "macos"] ∈ _ by decide) (by decide) (by decide))))
    obtain ⟨settings, parsed', rfl, resolved⟩ :=
      (spelling_of_settings_does_not_matter object).1 _ _ _ parsed object' said
    exact ⟨_, parsed', resolved .osx⟩
  · have object : IsObject "\x7b\"linux\":\x7b\"args\":[],\"arguments\":[]\x7d\x7d"
        [(some "linux", .object [(some "args", .array [] true), (some "arguments", .array [] true)]
          true)] :=
      isObject_of_tokens (show _ = [.leftBrace, .text "linux", .colon, .leftBrace, .text "args",
        .colon, .leftBracket, .rightBracket, .comma, .text "arguments", .colon, .leftBracket,
        .rightBracket, .rightBrace, .rightBrace] by decide +kernel) rfl
    exact (spelling_of_settings_does_not_matter object).2 (.inr ⟨["linux"], by decide, "linux",
      by decide, _, true, List.mem_singleton_self _, ["arguments", "args"], by decide, "args",
      by decide, "arguments", by decide, _, _, [], [], [], rfl⟩)

end CompilerSession
