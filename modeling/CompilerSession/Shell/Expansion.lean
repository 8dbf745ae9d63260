import CompilerSession.Shell.Script
import CompilerSession.Shell.State

/-
From words to fields.

Before a command runs, its words become fields. Text stands for itself, a parameter for its
value and a substitution for what a script writes. A value outside quotation marks is cut
at blanks, so one word may become several fields, or none.
-/

set_option autoImplicit false

namespace CompilerSession.Shell

open Utf8 (Bytes)

def parameter (s : State) (name : String) : String :=
  if name = "0" then s.name
  else if name = "#" then s.arguments.length.repr
  else if name = "?" then s.status.repr
  else if name = "$" then "1"
  else if name = "@" ∨ name = "*" then " ".intercalate s.arguments
  else match name.toNat? with
    | some n => s.arguments.getD (n - 1) ""
    | none => ((s.bindings.find? (·.1 = name)).map (·.2)).getD ""

def setVariable (name value : String) : Run Unit :=
  modify fun s =>
    { s with bindings := (name, value) :: s.bindings.filter (·.1 ≠ name) }

/-- A text without the line feeds at its end. -/
def withoutFinalFeeds (s : List Char) : List Char :=
  (s.reverse.dropWhile (· = '\n')).reverse

/-- A field that is being put together: its characters, and whether it counts even if it
stays empty. -/
structure Draft where
  done : List String
  current : List Char
  counts : Bool

def Draft.close (d : Draft) : Draft :=
  if d.counts ∨ d.current ≠ [] then ⟨d.done ++ [String.ofList d.current], [], false⟩ else d

def Draft.add (d : Draft) (s : List Char) : Draft :=
  { d with current := d.current ++ s, counts := true }

/-- Text that is split at blanks. -/
def Draft.addSplit (d : Draft) : List Char → Draft
  | [] => d
  | c :: rest =>
    if c = ' ' ∨ c = '\t' ∨ c = '\n' then d.close.addSplit rest
    else { d with current := d.current ++ [c] }.addSplit rest

/-- Fields of their own, the first and the last joined to what stands beside them. -/
def Draft.addFields (d : Draft) : List String → Draft
  | [] => d
  | [x] => d.add x.toList
  | x :: y :: rest => ((d.add x.toList).close).addFields (y :: rest)

/-- What a substitution runs. -/
abbrev Substitute := List Char → Run Bytes

def expandPart (substitute : Substitute) (d : Draft) : Part → Run Draft
  | .text s => return d.add s
  | .parameter "@" true => return d.addFields (← get).arguments
  | .parameter name quoted => do
    let value := (parameter (← get) name).toList
    return if quoted then d.add value else d.addSplit value
  | .output script quoted => do
    let value := withoutFinalFeeds (Utf8.decodeLossy (← substitute script))
    return if quoted then d.add value else d.addSplit value

/-- **The fields of a word.** -/
def expand (substitute : Substitute) (w : Word) : Run (List String) := do
  let d ← w.foldlM (expandPart substitute) ⟨[], [], false⟩
  return d.close.done

/-- The single text of a word that is not split. -/
def expandWhole (substitute : Substitute) (w : Word) : Run String := do
  let quoted : Part → Part
    | .parameter name _ => .parameter name true
    | .output script _ => .output script true
    | p => p
  return " ".intercalate (← expand substitute (w.map quoted))

end CompilerSession.Shell
