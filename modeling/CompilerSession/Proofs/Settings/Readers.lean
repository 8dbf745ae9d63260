import CompilerSession.Proofs.Json.Members
import CompilerSession.Settings

/-
The readers of settings.

Settings are one flat object, from which two readers take what they know: one the fields of the
toolchain, the other the platforms. Each skips what belongs to the other, so that what is known of
the members of any record has to be put together for both (`Settings.decode_eq_ok_iff`), and once
more for the fields within a platform's override, which go by the names of the toolchain's.
-/

set_option autoImplicit false

namespace CompilerSession

open Json (Independent Member Name Named Parseable Reads Scope Shape Tree anyMembers_ok_iff
  bind_eq_ok_iff fieldNames independent_of_stores map_eq_ok_iff readMembers_eq_ok_iff)

/-! ## Names -/

/-- The names of the fields of a toolchain and of an override. -/
def Toolchain.names : List (List String) :=
  [["executable", "path", "executablePath"], ["arguments", "args"], ["environment", "env"]]

/-- The names of the platforms. -/
def Platform.names : List (List String) :=
  [["windows"], ["linux"], ["osx", "macos"]]

/-- The names of a toolchain's fields are those of the table. -/
theorem fieldNames_toolchain (lift : {α : Type} → Json.Decoder α → Json.Decoder (Option α)) :
    fieldNames (Toolchain.fields lift) = Toolchain.names :=
  rfl

/-- The names of the overrides are those of the platforms. -/
theorem fieldNames_overrides : fieldNames Settings.overrideFields = Platform.names :=
  rfl

/-- **No name belongs to two fields.** -/
theorem names_distinct : (Toolchain.names ++ Platform.names).flatten.Nodup := by decide

/-! ## The readers of one layer -/

/-- The fields of a toolchain may come in any order. -/
theorem independent_toolchain (lift : {α : Type} → Json.Decoder α → Json.Decoder (Option α))
    (scope : Scope) : Independent (Toolchain.fields lift) scope :=
  independent_of_stores (d := lift Json.text) (e := lift (Json.list Json.text))
    (k := lift (Json.map Json.text)) (p := fun x s => { s with executable := some x })
    (q := fun x s => { s with arguments := some x })
    (r := fun x s => { s with environment := some x })
    (fun _ _ _ => rfl) (fun _ _ _ => rfl) (fun _ _ _ => rfl) (fun _ _ _ => rfl)
    (fun _ _ _ => rfl) (fun _ _ _ => rfl)

/-- The override of each platform has a place of its own. -/
theorem stores_override {f : Member Settings.Draft} (member : f ∈ Settings.overrideFields) :
    ∃ put, Json.Stores f (Json.optional Override.decode) put := by
  simp only [Settings.overrideFields, List.mem_cons, List.not_mem_nil, or_false] at member
  rcases member with rfl | rfl | rfl
  · exact ⟨fun x s => { s with windows := some x }, fun _ _ _ => rfl⟩
  · exact ⟨fun x s => { s with linux := some x }, fun _ _ _ => rfl⟩
  · exact ⟨fun x s => { s with osx := some x }, fun _ _ _ => rfl⟩

/-- The overrides may come in any order. -/
theorem independent_overrides (scope : Scope) : Independent Settings.overrideFields scope :=
  independent_of_stores (d := Json.optional Override.decode)
    (e := Json.optional Override.decode) (k := Json.optional Override.decode)
    (p := fun x s => { s with windows := some x }) (q := fun x s => { s with linux := some x })
    (r := fun x s => { s with osx := some x })
    (fun _ _ _ => rfl) (fun _ _ _ => rfl) (fun _ _ _ => rfl) (fun _ _ _ => rfl)
    (fun _ _ _ => rfl) (fun _ _ _ => rfl)

/-- **An override is read** if its members are, and the defaults are those of an empty one. -/
theorem overrideDecode_eq_ok_iff {ms : List (Name × Tree)} {closed : Bool} {o : Override} :
    Override.decode .ofMember (.object ms closed) = .ok o ↔ closed = true ∧
      ∃ d, Reads (Toolchain.fields Json.optional) .ofMember [] ms .empty d ∧
        o = ⟨d.executable.join, d.arguments.join, d.environment.join⟩ := by
  have enter : Scope.enter .ofMember = .ok .ofMember := rfl
  rw [Override.decode, Shape.decode_eq_ok_iff enter]
  exact and_congr_right fun _ => exists_congr fun d => and_congr_right fun _ =>
    ⟨fun finished => (Except.ok.inj finished).symm, fun is => congrArg Except.ok is.symm⟩

/-- An override is read in the same way where null may stand in its place. -/
theorem optionalOverride_eq_ok_iff {ms : List (Name × Tree)} {closed : Bool} {o : Option Override} :
    Json.optional Override.decode .ofMember (.object ms closed) = .ok o ↔ closed = true ∧
      ∃ d, Reads (Toolchain.fields Json.optional) .ofMember [] ms .empty d ∧
        o = some ⟨d.executable.join, d.arguments.join, d.environment.join⟩ := by
  rw [Json.optional, map_eq_ok_iff]
  · simp only [overrideDecode_eq_ok_iff]
    constructor
    · rintro ⟨_, ⟨closed, d, reads, rfl⟩, rfl⟩
      exact ⟨closed, d, reads, rfl⟩
    · rintro ⟨closed, d, reads, rfl⟩
      exact ⟨_, ⟨closed, d, reads, rfl⟩, rfl⟩
  · exact nofun

/-! ## Both readers together -/

/-- **What settings say**: all members have values, and the two readers take what they know. -/
theorem Settings.decode_eq_ok_iff {scope inner : Scope} (enter : scope.enter = .ok inner)
    {ms : List (Name × Tree)} {settings : Settings} :
    Settings.decode scope (.object ms true) = .ok settings ↔
      (∀ m ∈ ms, Named (Parseable inner) m) ∧
        ∃ base, Reads (Toolchain.fields Json.always) .ofMember [] ms .empty base ∧
        ∃ overrides, Reads Settings.overrideFields .ofMember [] ms ⟨none, none, none⟩ overrides ∧
          settings = ⟨Toolchain.ofDraft base, overrides.windows.join, overrides.linux.join,
            overrides.osx.join⟩ := by
  have decoded : Settings.decode scope (.object ms true) = (do
      let inner ← scope.enter
      let _ ← Json.anyMembers inner ms
      let base ← Json.Shape.readMembers (Toolchain.fields Json.always) .ofMember [] ms .empty
      let overrides ← Json.Shape.readMembers overrideFields .ofMember [] ms ⟨none, none, none⟩
      return ⟨Toolchain.ofDraft base, overrides.windows.join, overrides.linux.join,
        overrides.osx.join⟩) := rfl
  rw [decoded, enter, ← anyMembers_ok_iff]
  simp only [bind_eq_ok_iff, readMembers_eq_ok_iff]
  constructor
  · rintro ⟨_, same, xs, values, base, toolchain, overrides, platforms, done⟩
    obtain rfl := Except.ok.inj same
    exact ⟨⟨xs, values⟩, base, toolchain, overrides, platforms, (Except.ok.inj done).symm⟩
  · rintro ⟨⟨xs, values⟩, base, toolchain, overrides, platforms, rfl⟩
    exact ⟨inner, rfl, xs, values, base, toolchain, overrides, platforms, rfl⟩

end CompilerSession
