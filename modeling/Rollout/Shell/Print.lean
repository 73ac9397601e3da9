/-
Output that is written by a format.

A format is used as often as there are arguments for it.  A conversion has flags, a width and a
precision; an escape stands for a byte.
-/
import Rollout.Text.Utf8

namespace Rollout.Shell.Print

/-! ### Escapes -/

/-- Up to so many octal digits, and how many there are. -/
def octal? (most : Nat) (cs : List Char) : Option (UInt8 × Nat) :=
  let ds := (cs.take most).takeWhile fun c => '0' ≤ c && c ≤ '7'
  if ds.isEmpty then none
  else some (UInt8.ofNat (ds.foldl (fun n c => n * 8 + (c.toNat - '0'.toNat)) 0), ds.length)

/-- The byte that an escape stands for, and how many characters it takes. -/
def escape? (cs : List Char) : Option (UInt8 × Nat) :=
  match cs with
  | 'n' :: _ => some (10, 1)
  | 't' :: _ => some (9, 1)
  | 'r' :: _ => some (13, 1)
  | 'a' :: _ => some (7, 1)
  | 'b' :: _ => some (8, 1)
  | 'f' :: _ => some (12, 1)
  | 'v' :: _ => some (11, 1)
  | '\\' :: _ => some (92, 1)
  | cs => octal? 3 cs

/-- A text with its escapes replaced, and whether one of them ends all output.  The first argument
counts characters to pass over. -/
def unescape : Nat → List Char → Bytes × Bool
  | _, [] => ([], false)
  | n + 1, _ :: rest => unescape n rest
  | 0, '\\' :: 'c' :: _ => ([], true)
  | 0, '\\' :: '0' :: rest =>
    let (b, n) := (octal? 3 rest).getD (0, 0)
    let (bs, ends) := unescape n rest
    (b :: bs, ends)
  | 0, '\\' :: rest =>
    match escape? rest with
    | some (b, n) =>
      let (bs, ends) := unescape n rest
      (b :: bs, ends)
    | none =>
      let (bs, ends) := unescape 0 rest
      (92 :: bs, ends)
  | 0, c :: rest =>
    let (bs, ends) := unescape 0 rest
    (String.utf8EncodeChar c ++ bs, ends)

/-! ### Conversions -/

structure Conversion where
  flags : List Char := []
  width : Nat := 0
  precision : Option Nat := none
  kind : Char := 's'
  deriving Repr, Inhabited

/-- Reads a conversion after its percent sign. -/
def Conversion.read? (cs : List Char) : Option (Conversion × List Char) :=
  let flags := cs.takeWhile "-+ 0#".toList.contains
  let cs := cs.drop flags.length
  let width := cs.takeWhile Char.isDigit
  let cs := cs.drop width.length
  let number (ds : List Char) := ((String.ofList ds).toNat?).getD 0
  let (precision, cs) := match cs with
    | '.' :: rest =>
      let ds := rest.takeWhile Char.isDigit
      (some (number ds), rest.drop ds.length)
    | cs => (none, cs)
  match cs with
  | kind :: rest =>
    if "diuoxXscb".toList.contains kind then
      some ({ flags, width := number width, precision, kind }, rest)
    else none
  | [] => none

/-- Fills up to the width. -/
def Conversion.pad (v : Conversion) (bs : Bytes) : Bytes :=
  let fill := List.replicate (v.width - bs.length) (32 : UInt8)
  if v.flags.contains '-' then bs ++ fill else fill ++ bs

/-- Writes digits under a sign. -/
def Conversion.writeDigits (v : Conversion) (sign : String) (digits : List Char) : Bytes :=
  let least := match v.precision with
    | some n => n
    | none =>
      if v.flags.contains '0' && !v.flags.contains '-' then v.width - sign.length else 0
  let zeros := List.replicate (least - digits.length) '0'
  v.pad (Utf8.encode (sign ++ String.ofList (zeros ++ digits)))

/-- An argument as a number: a quote stands for the character after it. -/
def number (a : String) : Int :=
  match a.toList with
  | '\'' :: c :: _ | '"' :: c :: _ => c.toNat
  | _ => a.toInt?.getD 0

/-- How an argument is shown under a conversion, and whether it ends all output. -/
def Conversion.write (v : Conversion) (a : String) : Bytes × Bool :=
  let cut (bs : Bytes) := match v.precision with
    | some n => bs.take n
    | none => bs
  let unsigned := (number a % (Nat.pow 2 64 : Nat)).toNat
  match v.kind with
  | 'd' | 'i' =>
    let n := number a
    let sign := if n < 0 then "-" else if v.flags.contains '+' then "+"
      else if v.flags.contains ' ' then " " else ""
    (v.writeDigits sign (Nat.toDigits 10 n.natAbs), false)
  | 'u' => (v.writeDigits "" (Nat.toDigits 10 unsigned), false)
  | 'o' => (v.writeDigits "" (Nat.toDigits 8 unsigned), false)
  | 'x' => (v.writeDigits "" (Nat.toDigits 16 unsigned), false)
  | 'X' => (v.writeDigits "" ((Nat.toDigits 16 unsigned).map Char.toUpper), false)
  | 'c' => (v.pad ((Utf8.encode a).take 1), false)
  | 'b' =>
    let (bs, ends) := unescape 0 a.toList
    (v.pad (cut bs), ends)
  | _ => (v.pad (cut (Utf8.encode a)), false)

/-- Uses a format once; gives the arguments that are left, or `none` where output ends.  The first
argument bounds the reading. -/
def formatOnce : Nat → List Char → List String → Bytes × Option (List String)
  | 0, _, _ => ([], none)
  | _ + 1, [], args => ([], some args)
  | fuel + 1, '%' :: '%' :: rest, args =>
    let (b, left) := formatOnce fuel rest args
    (37 :: b, left)
  | fuel + 1, '%' :: rest, args =>
    match Conversion.read? rest with
    | some (v, rest) =>
      let (b, ends) := v.write (args.headD "")
      if ends then (b, none)
      else
        let (more, left) := formatOnce fuel rest (args.drop 1)
        (b ++ more, left)
    | none => ([], none)
  | fuel + 1, '\\' :: rest, args =>
    let (x, n) := (escape? rest).getD (92, 0)
    let (b, left) := formatOnce fuel (rest.drop n) args
    (x :: b, left)
  | fuel + 1, c :: rest, args =>
    let (b, left) := formatOnce fuel rest args
    (String.utf8EncodeChar c ++ b, left)

/-- Uses a format as often as there are arguments for it. -/
def format (f : List Char) (args : List String) : Bytes :=
  match formatOnce (f.length + 1) f args with
  | (b, some left) =>
    if _h : left.isEmpty ∨ args.length ≤ left.length then b else b ++ format f left
  | (b, none) => b
termination_by args.length
decreasing_by
  have := not_or.mp _h
  omega

end Rollout.Shell.Print
