import CompilerSession.Proofs.Json.Printing
import CompilerSession.Proofs.Settings.Environments
import CompilerSession.Request

/-
Settings and requests survive being written.

What is written of a record is an object with its fields, of which those that say nothing are left
out. Whether the object is printed and scanned, or is taken as a value and has its members in the
order of their names, the reader meets the same members in some order, and the readers do not mind
the order (`Reads.perm`). So it is enough to follow the readers along the members as they were
written: a field that is there is stored, a field that was left out leaves the start as it is, and
what belongs to the other layer is skipped.
-/

set_option autoImplicit false

namespace CompilerSession

open Json (Document Parseable Reads Scope Tree Value bind_eq_ok_iff forall_member?_iff
  isSound_of_anyValue list_texts map_member? map_texts named_ofMembers_iff names_member? ofText_compact
  ofText_wide parseable_map parseable_object_iff parseable_texts putAll_perm sorted_ofMap sorted_texts
  sortedMembers_eq_map wholeMembers_iff)

/-! ## Overrides -/

/-- The fields that an override writes. -/
def Override.members (o : Override) : List (String × Value) :=
  Value.member? "executable" .text o.executable ++
    (Value.member? "arguments" Value.texts o.arguments ++
      (Value.member? "environment" Value.ofMap o.environment ++ []))

theorem Override.toValue_eq (o : Override) : o.toValue = .object o.members := by
  rw [Override.toValue, Override.members, List.append_nil, List.append_assoc]

/-- **The members of an override are read back.** -/
theorem Override.reads_members {o : Override} (ordered : o.Ordered) :
    Reads (Toolchain.fields Json.optional) .ofMember [] (Tree.ofMembers o.members) .empty
      ⟨o.executable.map some, o.arguments.map some, o.environment.map some⟩ := by
  have room : Scope.ofMember.HasRoom 1 := nofun
  have environment : Reads (Toolchain.fields Json.optional) .ofMember ["arguments", "executable"]
      (Tree.ofMembers (Value.member? "environment" Value.ofMap o.environment) ++ [])
      ⟨o.executable.map some, o.arguments.map some, .none⟩
      ⟨o.executable.map some, o.arguments.map some, o.environment.map some⟩ := by
    refine .perhaps rfl .done (by decide) (fun x is => ?_) (fun is => by rw [is]; rfl)
    rw [is]
    exact bind_eq_ok_iff.mpr
      ⟨some x, congrArg (Except.map some) (map_texts room (ordered x is)), rfl⟩
  have arguments : Reads (Toolchain.fields Json.optional) .ofMember ["executable"]
      (Tree.ofMembers (Value.member? "arguments" Value.texts o.arguments) ++
        (Tree.ofMembers (Value.member? "environment" Value.ofMap o.environment) ++ []))
      ⟨o.executable.map some, .none, .none⟩
      ⟨o.executable.map some, o.arguments.map some, o.environment.map some⟩ := by
    refine .perhaps rfl environment (by decide) (fun x is => ?_) (fun is => by rw [is]; rfl)
    rw [is]
    exact bind_eq_ok_iff.mpr ⟨some x, congrArg (Except.map some) (list_texts room x), rfl⟩
  rw [Override.members, Tree.ofMembers_append, Tree.ofMembers_append, Tree.ofMembers_append]
  refine .perhaps rfl arguments (by decide) (fun x is => ?_) (fun is => by rw [is]; rfl)
  rw [is]
  rfl

/-- No member of an override is written twice. -/
theorem Override.members_once (o : Override) : (o.members.map Prod.fst).Nodup := by
  have names : (o.members.map Prod.fst).Sublist ["executable", "arguments", "environment"] := by
    rw [Override.members, List.map_append, List.map_append, List.map_append]
    exact (names_member? _ _ _).append ((names_member? _ _ _).append
      ((names_member? _ _ _).append (.refl [])))
  exact List.Nodup.sublist names (by decide)

/-- **An override is read from its members**, in whatever order they come. -/
theorem Override.decode_members {o : Override} (ordered : o.Ordered) {ms : List (String × Value)}
    (perm : o.members.Perm ms) :
    Json.optional Override.decode .ofMember (Tree.ofValue (.object ms)) = .ok (some o) := by
  have reads :=
    (o.reads_members ordered).perm (independent_toolchain _ _) (Tree.ofMembers_perm perm)
  refine optionalOverride_eq_ok_iff.mpr ⟨rfl, _, reads, ?_⟩
  obtain ⟨executable, arguments, environment⟩ := o
  cases executable <;> cases arguments <;> cases environment <;> rfl

/-- The members of an override can be read, in whatever order they come. -/
theorem Override.parseable_members {scope : Scope} (room : scope.HasRoom 2) {o : Override}
    {ms : List (String × Value)} (perm : o.members.Perm ms) :
    Parseable scope (Tree.ofValue (.object ms)) := by
  obtain ⟨inner, enter, room⟩ := room.enter
  have each : ∀ m ∈ o.members, Parseable inner (Tree.ofValue m.2) := by
    rw [Override.members, List.forall_mem_append, List.forall_mem_append, List.forall_mem_append]
    have perhaps {α : Type} := forall_member?_iff (α := α) fun x => Parseable inner (Tree.ofValue x)
    refine ⟨(perhaps _ _ _).mpr ?_, (perhaps _ _ _).mpr ?_, (perhaps _ _ _).mpr ?_, nofun⟩
    · exact fun x _ => ⟨.text x, rfl⟩
    · exact fun x _ => parseable_texts room x
    · exact fun x _ => parseable_map room x
  refine (parseable_object_iff enter).mpr (named_ofMembers_iff.mpr fun m member => ?_)
  exact each m (perm.mem_iff.mpr member)

/-- No number is written in an override. -/
theorem Override.whole (o : Override) : o.toValue.Whole := by
  rw [Override.toValue_eq]
  refine wholeMembers_iff.mpr ?_
  rw [Override.members, List.forall_mem_append, List.forall_mem_append, List.forall_mem_append]
  refine ⟨(forall_member?_iff _ _ _ _).mpr ?_, (forall_member?_iff _ _ _ _).mpr ?_,
    (forall_member?_iff _ _ _ _).mpr ?_, nofun⟩
  · exact fun _ _ => trivial
  · exact fun x _ => Value.texts_whole x
  · exact fun x _ => Value.ofMap_whole x

/-! ## Settings -/

/-- The fields that settings write, where `v` gives the values of overrides. -/
def Settings.membersBy (v : Override → Value) (s : Settings) : List (String × Value) :=
  ("executable", .text s.base.executable) :: ("arguments", Value.texts s.base.arguments) ::
    ("environment", Value.ofMap s.base.environment) ::
      (Value.member? "windows" v s.windows ++
        (Value.member? "linux" v s.linux ++ (Value.member? "osx" v s.osx ++ [])))

theorem Settings.toValue_eq (s : Settings) :
    s.toValue = .object (s.membersBy Override.toValue) := by
  rw [Settings.toValue, Settings.membersBy, List.append_nil, List.append_assoc, List.append_assoc]
  rfl

theorem Settings.membersBy_once (v : Override → Value) (s : Settings) :
    ((s.membersBy v).map Prod.fst).Nodup := by
  have names : ((s.membersBy v).map Prod.fst).Sublist
      ["executable", "arguments", "environment", "windows", "linux", "osx"] := by
    rw [Settings.membersBy, List.map_cons, List.map_cons, List.map_cons, List.map_append,
      List.map_append, List.map_append]
    exact ((((names_member? _ _ _).append ((names_member? _ _ _).append
      ((names_member? _ _ _).append (.refl [])))).cons_cons _).cons_cons _).cons_cons _
  exact List.Nodup.sublist names (by decide)

/-- **A value that says what an override says**, where containers may be opened in `scope`. -/
structure Override.Told (scope : Scope) (v : Value) (o : Override) : Prop where
  decodes : Json.optional Override.decode .ofMember (Tree.ofValue v) = .ok (some o)
  parseable : Parseable scope (Tree.ofValue v)

/-- What tells an override is sound. -/
theorem Override.Told.sound {scope : Scope} {v : Value} {o : Override} (told : o.Told scope v) :
    (Tree.ofValue v).isSound = true := by
  obtain ⟨x, value⟩ := told.parseable
  exact isSound_of_anyValue _ value

section Members

variable {scope : Scope} {v : Override → Value} {s : Settings}
  (told : ∀ p, ∀ o ∈ s.forPlatform p, o.Told scope (v o))
include told

/-- The fields of the toolchain are read back. -/
theorem Settings.reads_toolchain (ordered : s.Ordered) :
    Reads (Toolchain.fields Json.always) .ofMember [] (Tree.ofMembers (s.membersBy v)) .empty
      ⟨some (some s.base.executable), some (some s.base.arguments),
        some (some s.base.environment)⟩ := by
  have room : Scope.ofMember.HasRoom 1 := nofun
  have arguments := list_texts room s.base.arguments
  have environment := map_texts room ordered.base
  simp only [Settings.membersBy, Tree.ofMembers, Tree.ofMembers_append]
  refine .field rfl (by decide) rfl (.field rfl (by decide)
    (bind_eq_ok_iff.mpr ⟨_, congrArg (Except.map some) arguments, rfl⟩)
    (.field rfl (by decide) (bind_eq_ok_iff.mpr ⟨_, congrArg (Except.map some) environment, rfl⟩)
      (.perhapsOther rfl (.perhapsOther rfl (.perhapsOther rfl .done ?_) ?_) ?_)))
  · exact fun o is => (told .osx o is).sound
  · exact fun o is => (told .linux o is).sound
  · exact fun o is => (told .windows o is).sound

/-- The overrides of the platforms are read back. -/
theorem Settings.reads_overrides :
    Reads Settings.overrideFields .ofMember [] (Tree.ofMembers (s.membersBy v)) ⟨none, none, none⟩
      ⟨s.windows.map some, s.linux.map some, s.osx.map some⟩ := by
  have room : Scope.ofMember.HasRoom 1 := nofun
  obtain ⟨_, arguments⟩ := parseable_texts room s.base.arguments
  obtain ⟨_, environment⟩ := parseable_map room s.base.environment
  have osx : Reads Settings.overrideFields .ofMember ["linux", "windows"]
      (Tree.ofMembers (Value.member? "osx" v s.osx) ++ [])
      ⟨s.windows.map some, s.linux.map some, none⟩
      ⟨s.windows.map some, s.linux.map some, s.osx.map some⟩ := by
    refine .perhaps rfl .done (by decide) (fun o is => ?_) (fun is => by rw [is]; rfl)
    rw [is]
    exact bind_eq_ok_iff.mpr ⟨_, (told .osx o is).decodes, rfl⟩
  have linux : Reads Settings.overrideFields .ofMember ["windows"]
      (Tree.ofMembers (Value.member? "linux" v s.linux) ++
        (Tree.ofMembers (Value.member? "osx" v s.osx) ++ []))
      ⟨s.windows.map some, none, none⟩
      ⟨s.windows.map some, s.linux.map some, s.osx.map some⟩ := by
    refine .perhaps rfl osx (by decide) (fun o is => ?_) (fun is => by rw [is]; rfl)
    rw [is]
    exact bind_eq_ok_iff.mpr ⟨_, (told .linux o is).decodes, rfl⟩
  simp only [Settings.membersBy, Tree.ofMembers, Tree.ofMembers_append]
  refine .other rfl rfl (.other rfl (isSound_of_anyValue _ arguments)
    (.other rfl (isSound_of_anyValue _ environment)
      (.perhaps rfl linux (by decide) (fun o is => ?_) (fun is => by rw [is]; rfl))))
  rw [is]
  exact bind_eq_ok_iff.mpr ⟨_, (told .windows o is).decodes, rfl⟩

/-- **Settings are read from their members**, in whatever order they come. -/
theorem Settings.decode_members (ordered : s.Ordered) {outer : Scope} (enter : outer.enter = .ok scope)
    (room : scope.HasRoom 1) {ms : List (String × Value)} (perm : (s.membersBy v).Perm ms) :
    Settings.decode outer (Tree.ofValue (.object ms)) = .ok s := by
  have trees := Tree.ofMembers_perm perm
  have each : ∀ m ∈ s.membersBy v, Parseable scope (Tree.ofValue m.2) := by
    have perhaps {α : Type} := forall_member?_iff (α := α) fun x => Parseable scope (Tree.ofValue x)
    rw [Settings.membersBy, List.forall_mem_cons, List.forall_mem_cons, List.forall_mem_cons,
      List.forall_mem_append, List.forall_mem_append, List.forall_mem_append]
    refine ⟨⟨.text _, rfl⟩, parseable_texts room _, parseable_map room _, (perhaps _ _ _).mpr ?_,
      (perhaps _ _ _).mpr ?_, (perhaps _ _ _).mpr ?_, nofun⟩
    · exact fun o is => (told .windows o is).parseable
    · exact fun o is => (told .linux o is).parseable
    · exact fun o is => (told .osx o is).parseable
  refine (Settings.decode_eq_ok_iff enter).mpr ⟨named_ofMembers_iff.mpr fun m member => ?_, _,
    (Settings.reads_toolchain told ordered).perm (independent_toolchain _ _) trees, _,
    (Settings.reads_overrides told).perm (independent_overrides _) trees, ?_⟩
  · exact each m (perm.mem_iff.mpr member)
  · obtain ⟨base, windows, linux, osx⟩ := s
    cases windows <;> cases linux <;> cases osx <;> rfl

end Members

theorem Settings.whole (s : Settings) : s.toValue.Whole := by
  rw [Settings.toValue_eq]
  refine wholeMembers_iff.mpr ?_
  rw [Settings.membersBy, List.forall_mem_cons, List.forall_mem_cons, List.forall_mem_cons,
    List.forall_mem_append, List.forall_mem_append, List.forall_mem_append]
  refine ⟨trivial, Value.texts_whole _, Value.ofMap_whole _, (forall_member?_iff _ _ _ _).mpr ?_,
    (forall_member?_iff _ _ _ _).mpr ?_, (forall_member?_iff _ _ _ _).mpr ?_, nofun⟩
  all_goals exact fun o _ => o.whole

/-! ## Values with their members in order -/

/-- An override is sorted by sorting its members. -/
theorem Override.toValue_sorted {o : Override} (ordered : o.Ordered) :
    o.toValue.sorted = .object (Json.putAll o.members) := by
  rw [Override.toValue_eq, Value.sorted, Value.ofMembers, sortedMembers_eq_map, Override.members,
    List.map_append, List.map_append, List.map_append,
    map_member? _ _ _ fun x _ => Json.sorted_text x, map_member? _ _ _ fun x _ => sorted_texts x,
    map_member? _ _ _ fun m is => sorted_ofMap (ordered m is), List.map_nil]

/-- Settings are sorted by sorting their members and their overrides. -/
theorem Settings.toValue_sorted {s : Settings} (ordered : s.Ordered) :
    s.toValue.sorted = .object (Json.putAll (s.membersBy fun o => o.toValue.sorted)) := by
  rw [Settings.toValue_eq, Value.sorted, Value.ofMembers, sortedMembers_eq_map, Settings.membersBy,
    List.map_cons, List.map_cons, List.map_cons, List.map_append, List.map_append, List.map_append,
    sorted_texts, sorted_ofMap ordered.base, map_member? _ _ _ fun _ _ => rfl,
    map_member? _ _ _ fun _ _ => rfl, map_member? _ _ _ fun _ _ => rfl, List.map_nil]
  rfl

/-- An override that was written and sorted tells the override. -/
theorem Override.told_sorted {scope : Scope} (room : scope.HasRoom 2) {o : Override}
    (ordered : o.Ordered) : o.Told scope o.toValue.sorted := by
  rw [Override.toValue_sorted ordered]
  have perm := (putAll_perm o.members_once).symm
  exact ⟨o.decode_members ordered perm, o.parseable_members room perm⟩

/-- An override that was written tells the override. -/
theorem Override.told {scope : Scope} (room : scope.HasRoom 2) {o : Override}
    (ordered : o.Ordered) : o.Told scope o.toValue := by
  rw [Override.toValue_eq]
  exact ⟨o.decode_members ordered (.refl _), o.parseable_members room (.refl _)⟩

/-- **Settings are read off what they are written as.** -/
theorem Settings.decode_toValue {s : Settings} (ordered : s.Ordered) :
    Settings.decode .ofText (Tree.ofValue s.toValue) = .ok s := by
  have room : Scope.ofText.HasRoom 3 := fun _ is => Option.some.inj is ▸ by decide
  obtain ⟨scope, enter, room⟩ := room.enter
  rw [Settings.toValue_eq]
  exact Settings.decode_members (fun p o is => o.told room (ordered.override p o is)) ordered enter
    (fun r is => Nat.le_of_succ_le (room r is)) (.refl _)

/-- Settings are read off what they are written as, sorted. -/
theorem Settings.decode_sorted {s : Settings} (ordered : s.Ordered) :
    Settings.decode .ofValue (Tree.ofValue s.toValue.sorted) = .ok s := by
  have room : Scope.ofValue.HasRoom 2 := nofun
  rw [Settings.toValue_sorted ordered]
  exact Settings.decode_members (fun p o is => o.told_sorted room (ordered.override p o is)) ordered
    rfl nofun (putAll_perm (s.membersBy_once _)).symm

/-! ## Requests -/

/-- The fields that a request writes. -/
def Request.members (r : Request) : List (String × Value) :=
  ("label", .text r.label) :: ("arguments", Value.texts r.arguments) ::
    (Value.member? "stdin" .text r.stdin ++ [])

theorem Request.toValue_eq (r : Request) : r.toValue = .object r.members := by
  rw [Request.toValue, Request.members, List.append_nil]
  rfl

theorem Request.members_once (r : Request) : (r.members.map Prod.fst).Nodup := by
  have names : (r.members.map Prod.fst).Sublist ["label", "arguments", "stdin"] := by
    rw [Request.members, List.map_cons, List.map_cons, List.map_append]
    exact (((names_member? _ _ _).append (.refl [])).cons_cons _).cons_cons _
  exact List.Nodup.sublist names (by decide)

/-- The fields of a request may come in any order. -/
theorem independent_request (scope : Scope) : Json.Independent Request.shape.fields scope :=
  Json.independent_of_stores (d := Json.text) (e := Json.list Json.text)
    (k := Json.optional Json.text) (p := fun x s => { s with label := some x })
    (q := fun x s => { s with arguments := some x }) (r := fun x s => { s with stdin := some x })
    (fun _ _ _ => rfl) (fun _ _ _ => rfl) (fun _ _ _ => rfl) (fun _ _ _ => rfl)
    (fun _ _ _ => rfl) (fun _ _ _ => rfl)

/-- **The members of a request are read back.** -/
theorem Request.reads_members {scope : Scope} (room : scope.HasRoom 1) (r : Request) :
    Reads Request.shape.fields scope [] (Tree.ofMembers r.members) ⟨none, none, none⟩
      ⟨some r.label, some r.arguments, r.stdin.map some⟩ := by
  simp only [Request.members, Tree.ofMembers, Tree.ofMembers_append]
  refine .field rfl (by decide) rfl (.field rfl (by decide)
    (bind_eq_ok_iff.mpr ⟨_, list_texts room _, rfl⟩) (.perhaps rfl .done (by decide) (fun x is => ?_)
      (fun is => by rw [is]; rfl)))
  rw [is]
  rfl

/-- **A request is read from its members**, in whatever order they come. -/
theorem Request.decode_members {scope : Scope} (room : scope.HasRoom 2) {r : Request}
    {ms : List (String × Value)} (perm : r.members.Perm ms) :
    Request.decode scope (Tree.ofValue (.object ms)) = .ok r := by
  obtain ⟨inner, enter, room⟩ := room.enter
  refine (Json.Shape.decode_eq_ok_iff enter).mpr ⟨rfl, _,
    (r.reads_members room).perm (independent_request _) (Tree.ofMembers_perm perm), ?_⟩
  obtain ⟨label, arguments, stdin⟩ := r
  cases stdin <;> rfl

/-- A request is sorted by sorting its members. -/
theorem Request.toValue_sorted (r : Request) :
    r.toValue.sorted = .object (Json.putAll r.members) := by
  rw [Request.toValue_eq, Value.sorted, Value.ofMembers, sortedMembers_eq_map, Request.members,
    List.map_cons, List.map_cons, List.map_append, sorted_texts,
    map_member? _ _ _ fun x _ => Json.sorted_text x, List.map_nil]
  rfl

theorem Request.whole (r : Request) : r.toValue.Whole := by
  rw [Request.toValue_eq]
  refine wholeMembers_iff.mpr ?_
  rw [Request.members, List.forall_mem_cons, List.forall_mem_cons, List.forall_mem_append]
  exact ⟨trivial, Value.texts_whole _, (forall_member?_iff _ _ _ _).mpr fun _ _ => trivial, nofun⟩

/-! ## Written and read -/

/-- A text is decoded as its tree is. -/
theorem decodeText_of_tree {α : Type} {d : Json.Decoder α} {text : String} {t : Tree} {a : α}
    (read : Document.ofText text.toList = ⟨t, false⟩) (decoded : d .ofText t = .ok a) :
    Json.decodeText d text = .ok a := by
  rw [Json.decodeText, read]
  exact bind_eq_ok_iff.mpr ⟨a, decoded, rfl⟩

/-- **Settings are read back** from compact text, from wide text and from a value. -/
theorem Settings.parse_written {s : Settings} (ordered : s.Ordered) :
    Settings.parse s.toValue.compact = .ok s ∧ Settings.parse s.toValue.wide = .ok s ∧
      Json.decodeValue Settings.decode s.toValue.sorted = .ok s :=
  have decoded := Settings.decode_toValue ordered
  ⟨decodeText_of_tree (ofText_compact s.whole) decoded,
    decodeText_of_tree (ofText_wide s.whole) decoded, Settings.decode_sorted ordered⟩

/-- **Requests are read back** from compact text, from wide text and from a value. -/
theorem Request.decode_written (r : Request) :
    Json.decodeText Request.decode r.toValue.compact = .ok r ∧
      Json.decodeText Request.decode r.toValue.wide = .ok r ∧
      Json.decodeValue Request.decode r.toValue.sorted = .ok r := by
  have room : Scope.ofText.HasRoom 2 := fun _ is => Option.some.inj is ▸ by decide
  have unlimited : Scope.ofValue.HasRoom 2 := nofun
  have decoded : Request.decode .ofText (Tree.ofValue r.toValue) = .ok r := by
    rw [r.toValue_eq]
    exact Request.decode_members room (.refl _)
  refine ⟨decodeText_of_tree (ofText_compact r.whole) decoded,
    decodeText_of_tree (ofText_wide r.whole) decoded, ?_⟩
  rw [Json.decodeValue, r.toValue_sorted]
  exact Request.decode_members unlimited (putAll_perm r.members_once).symm

/-- Settings that were read can be written and read again. -/
theorem Settings.parse_compact_of_parse {text : String} {s : Settings}
    (parsed : Settings.parse text = .ok s) : Settings.parse s.toValue.compact = .ok s :=
  (Settings.parse_written (Settings.ordered_of_parse parsed)).1

/-- **What is written is read again.** Settings whose environments are maps come back from both
printed forms and as a value, whatever their overrides replace, leave alone or replace by nothing,
so that the same is run on every platform and no two settings are written alike. And so does every
request, with contents, with empty ones and without. -/
theorem settings_and_requests_survive_writing {s : Settings} (ordered : s.Ordered) (r : Request) :
    (∃ s', Settings.parse s.toValue.compact = .ok s' ∧ s' = s ∧
      ∀ p, s'.resolve p = s.resolve p) ∧
    Settings.parse s.toValue.wide = .ok s ∧
    Json.decodeValue Settings.decode s.toValue.sorted = .ok s ∧
    (∀ s', s'.Ordered → s'.toValue.compact = s.toValue.compact → s' = s) ∧
    Json.decodeText Request.decode r.toValue.compact = .ok r ∧
    Json.decodeText Request.decode r.toValue.wide = .ok r ∧
    Json.decodeValue Request.decode r.toValue.sorted = .ok r ∧
    ∀ r' : Request, r'.toValue.compact = r.toValue.compact → r' = r := by
  obtain ⟨compact, wide, value⟩ := Settings.parse_written ordered
  obtain ⟨compact', wide', value'⟩ := r.decode_written
  refine ⟨⟨s, compact, rfl, fun _ => rfl⟩, wide, value, fun s' ordered' same => ?_, compact', wide',
    value', fun r' same => ?_⟩
  · have other := (Settings.parse_written ordered').1
    rw [same, compact] at other
    exact (Except.ok.inj other).symm
  · have other := r'.decode_written.1
    rw [same, compact'] at other
    exact (Except.ok.inj other).symm

/-- An override that replaces the arguments by none and one that replaces nothing, beside a platform
without any; and a request with an empty file. -/
theorem empty_overrides_and_contents_are_kept :
    Settings.parse (Settings.mk ⟨"haxe", ["-v"], [("A", "1"), ("B", "")]⟩
        (some ⟨none, some [], some []⟩) (some Override.none) none).toValue.compact =
      .ok ⟨⟨"haxe", ["-v"], [("A", "1"), ("B", "")]⟩, some ⟨none, some [], some []⟩,
        some Override.none, none⟩ ∧
    Json.decodeText Request.decode (Request.mk "" [] (some "")).toValue.compact =
      .ok ⟨"", [], some ""⟩ := by
  have ordered : (Settings.mk ⟨"haxe", ["-v"], [("A", "1"), ("B", "")]⟩
      (some ⟨none, some [], some []⟩) (some Override.none) none).Ordered := by
    refine ⟨by decide, fun p o is m here => ?_⟩
    cases p <;> cases is
    · cases here
      decide
    · cases here
  obtain ⟨⟨_, parsed, rfl, -⟩, -, -, -, request, -⟩ :=
    settings_and_requests_survive_writing ordered ⟨"", [], some ""⟩
  exact ⟨parsed, request⟩

end CompilerSession
