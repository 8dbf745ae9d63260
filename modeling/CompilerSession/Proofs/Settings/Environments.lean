import CompilerSession.Proofs.Json.Written
import CompilerSession.Proofs.Settings.Readers

/-
The environments in settings.

What a process gets into its environment is a map, and as everywhere a map is a list in the order of
its names. Whatever settings were read from, their environments are maps
(`Settings.ordered_of_parse`): a reader puts the names in order, the last setting of a name counts,
and no other field touches an environment.
-/

set_option autoImplicit false

namespace CompilerSession

open Json (Decoder Document Reads Scope Shape Tree always_eq_some bind_eq_ok_iff map_ordered
  optional_eq_some)

def Override.Ordered (o : Override) : Prop :=
  ∀ environment ∈ o.environment, Json.Ordered environment

/-- **The environments in settings are maps.** -/
structure Settings.Ordered (s : Settings) : Prop where
  base : Json.Ordered s.base.environment
  override : ∀ p, ∀ o ∈ s.forPlatform p, o.Ordered

/-! ## Environments that were read -/

/-- An environment that has been met is a map. -/
def Toolchain.Draft.Ordered (d : Toolchain.Draft) : Prop :=
  ∀ environment, d.environment = some (some environment) → Json.Ordered environment

/-- The fields of a toolchain keep environments in order, if their decoders do. -/
theorem Toolchain.fields_ordered (lift : {α : Type} → Decoder α → Decoder (Option α))
    (lifted : ∀ scope t m, lift (Json.map Json.text) scope t = .ok (some m) → Json.Ordered m) :
    ∀ f ∈ Toolchain.fields lift, ∀ scope t s s', f.store scope t s = .ok s' →
      Toolchain.Draft.Ordered s → Toolchain.Draft.Ordered s' := by
  simp only [Toolchain.fields, List.forall_mem_cons]
  refine ⟨?_, ?_, ?_, List.forall_mem_nil _⟩
  · intro scope t s s' stored ordered
    obtain ⟨x, -, done⟩ := bind_eq_ok_iff.mp stored
    obtain rfl := Except.ok.inj done
    exact ordered
  · intro scope t s s' stored ordered
    obtain ⟨x, -, done⟩ := bind_eq_ok_iff.mp stored
    obtain rfl := Except.ok.inj done
    exact ordered
  · intro scope t s s' stored ordered m is
    obtain ⟨x, decoded, done⟩ := bind_eq_ok_iff.mp stored
    obtain rfl := Except.ok.inj done
    obtain rfl := Option.some.inj is
    exact lifted _ _ _ decoded

/-- An override that was read has its environment in order. -/
theorem Override.ordered_of_decode {scope : Scope} {t : Tree} {o : Override}
    (decoded : Override.decode scope t = .ok o) : o.Ordered := by
  have keeps := Toolchain.fields_ordered Json.optional fun scope t m decoded =>
    map_ordered (optional_eq_some decoded)
  obtain ⟨d, ordered, finished⟩ := Shape.decode_keeps keeps nofun decoded
  obtain rfl := Except.ok.inj finished
  exact fun m is => ordered m (Option.join_eq_some_iff.mp is)

/-- The overrides that have been met have maps. -/
def Settings.Draft.Ordered (d : Settings.Draft) : Prop :=
  (∀ o, d.windows = some (some o) → o.Ordered) ∧ (∀ o, d.linux = some (some o) → o.Ordered) ∧
    ∀ o, d.osx = some (some o) → o.Ordered

/-- The overrides of all platforms keep environments in order. -/
theorem Settings.overrideFields_ordered :
    ∀ f ∈ Settings.overrideFields, ∀ scope t s s', f.store scope t s = .ok s' →
      Settings.Draft.Ordered s → Settings.Draft.Ordered s' := by
  have decodes {scope : Scope} {t : Tree} {x : Option Override}
      (decoded : Json.optional Override.decode scope t = .ok x) (o : Override)
      (is : some x = some (some o)) : o.Ordered := by
    obtain rfl := Option.some.inj is
    exact Override.ordered_of_decode (optional_eq_some decoded)
  simp only [Settings.overrideFields, List.forall_mem_cons]
  refine ⟨?_, ?_, ?_, List.forall_mem_nil _⟩
  · intro scope t s s' stored ordered
    obtain ⟨x, decoded, done⟩ := bind_eq_ok_iff.mp stored
    obtain rfl := Except.ok.inj done
    exact ⟨decodes decoded, ordered.2⟩
  · intro scope t s s' stored ordered
    obtain ⟨x, decoded, done⟩ := bind_eq_ok_iff.mp stored
    obtain rfl := Except.ok.inj done
    exact ⟨ordered.1, decodes decoded, ordered.2.2⟩
  · intro scope t s s' stored ordered
    obtain ⟨x, decoded, done⟩ := bind_eq_ok_iff.mp stored
    obtain rfl := Except.ok.inj done
    exact ⟨ordered.1, ordered.2.1, decodes decoded⟩

/-- **Settings that were read have maps for environments.** -/
theorem Settings.ordered_of_parse {text : String} {s : Settings}
    (parsed : Settings.parse text = .ok s) : s.Ordered := by
  obtain ⟨s', decoded, done⟩ := bind_eq_ok_iff.mp parsed
  split at done
  · cases done
  obtain rfl := Except.ok.inj done
  generalize (Document.ofText text.toList).tree = t at decoded
  have enter : Scope.ofText.enter = .ok ⟨.text, some (Json.depthLimit - 1)⟩ := rfl
  cases t with
  | object ms closed =>
    -- an object that is not closed is read to its end and refused
    cases closed with
    | false =>
      obtain ⟨_, -, decoded⟩ := bind_eq_ok_iff.mp decoded
      obtain ⟨_, -, decoded⟩ := bind_eq_ok_iff.mp decoded
      cases decoded
    | true =>
      obtain ⟨-, base, toolchain, overrides, platforms, rfl⟩ :=
        (Settings.decode_eq_ok_iff enter).mp decoded
      have keeps := Toolchain.fields_ordered Json.always fun scope t m decoded =>
        map_ordered (always_eq_some decoded)
      have first := toolchain.keeps (fun f member => keeps f member .ofMember) nofun
      have second := platforms.keeps
        (fun f member => Settings.overrideFields_ordered f member .ofMember) ⟨nofun, nofun, nofun⟩
      refine ⟨?_, fun p o is => ?_⟩
      · change Json.Ordered (base.environment.join.getD [])
        cases here : base.environment.join with
        | none => exact List.Pairwise.nil
        | some m => exact first m (Option.join_eq_some_iff.mp here)
      · cases p with
        | windows => exact second.1 o (Option.join_eq_some_iff.mp is)
        | linux => exact second.2.1 o (Option.join_eq_some_iff.mp is)
        | osx => exact second.2.2 o (Option.join_eq_some_iff.mp is)
  | _ => cases decoded

end CompilerSession
