import CompilerSession.Text.Utf8

/-
Formatted output.

A template is text with escapes, which stand for bytes, and conversions, which show the
arguments one after the other. A template is gone through again as long as that uses up
arguments; an argument that is missing is empty.
-/

set_option autoImplicit false

namespace CompilerSession.Shell

open Utf8 (Bytes)

def isOctal (c : Char) : Bool :=
  '0' ≤ c && c ≤ '7'

/-- **An escape behind its backslash**: the bytes that it stands for and what follows. -/
def escape : List Char → Bytes × List Char
  | [] => ([92], [])
  | c :: rest =>
    if isOctal c then
      let digits := ((c :: rest).take 3).takeWhile isOctal
      let value := digits.foldl (fun n d => n * 8 + (d.toNat - 48)) 0
      ([UInt8.ofNat value], (c :: rest).drop digits.length)
    else match c with
      | 'n' => ([10], rest)
      | 't' => ([9], rest)
      | 'r' => ([13], rest)
      | 'a' => ([7], rest)
      | 'b' => ([8], rest)
      | 'f' => ([12], rest)
      | 'v' => ([11], rest)
      | '\\' => ([92], rest)
      | c => (92 :: Utf8.encode (String.singleton c), rest)

/-- A text with its escapes carried out. -/
def unescape : Nat → List Char → Bytes
  | 0, _ => []
  | _, [] => []
  | n + 1, '\\' :: rest =>
    let (bytes, rest) := escape rest
    bytes ++ unescape n rest
  | n + 1, c :: rest => Utf8.encode (String.singleton c) ++ unescape n rest

/-- Widen a text with blanks or zeros at the front. -/
def padTo (fill : Char) (width : Nat) (s : String) : String :=
  String.ofList (List.replicate (width - s.length) fill ++ s.toList)

/-- One argument as a conversion shows it. -/
def convert (fill : Char) (width : Nat) (conversion : Char) (argument : String) : Bytes :=
  let number : Int := argument.toInt?.getD 0
  match conversion with
  | 'd' | 'i' | 'u' => Utf8.encode (padTo fill width (toString number))
  | 'x' => Utf8.encode (padTo fill width (String.ofList (Nat.toDigits 16 number.toNat)))
  | 'o' => Utf8.encode (padTo fill width (String.ofList (Nat.toDigits 8 number.toNat)))
  | 'c' => Utf8.encode (String.ofList (argument.toList.take 1))
  | 'b' => unescape argument.length argument.toList
  | _ => Utf8.encode (padTo ' ' width argument)

/-- The format is gone through once: what it writes, and the arguments that are left. -/
def formatOnce : Nat → List Char → List String → Bytes × List String
  | 0, _, arguments => ([], arguments)
  | _, [], arguments => ([], arguments)
  | n + 1, '\\' :: rest, arguments =>
    let (bytes, rest) := escape rest
    let (more, left) := formatOnce n rest arguments
    (bytes ++ more, left)
  | n + 1, '%' :: '%' :: rest, arguments =>
    let (more, left) := formatOnce n rest arguments
    (37 :: more, left)
  | n + 1, '%' :: rest, arguments =>
    let fill := if rest.head? = some '0' then '0' else ' '
    let width := (rest.takeWhile Char.isDigit).foldl (fun w d => w * 10 + (d.toNat - 48)) 0
    match rest.dropWhile Char.isDigit with
    | [] => ([37], arguments)
    | conversion :: rest =>
      let (more, left) := formatOnce n rest (arguments.drop 1)
      (convert fill width conversion (arguments.headD "") ++ more, left)
  | n + 1, c :: rest, arguments =>
    let (more, left) := formatOnce n rest arguments
    (Utf8.encode (String.singleton c) ++ more, left)

/-- **Formatted output.** The format is used again as long as it uses up arguments. -/
def format : Nat → List Char → List String → Bytes
  | 0, _, _ => []
  | n + 1, template, arguments =>
    let (bytes, left) := formatOnce template.length template arguments
    if left.isEmpty ∨ left.length = arguments.length then bytes
    else bytes ++ format n template left

end CompilerSession.Shell
