/-
Socket addresses as texts.

* `SocketAddress.parse?` reads `1.2.3.4:80` and `[::1]:80`;
* `SocketAddress.text` writes one: groups without leading zeros, the longest run of zero groups as
  two colons, an embedded old address with points.

Design notes: a reader takes what it can use from the front of the characters and gives the rest,
or nothing when it cannot use them.
-/

namespace Rollout.Net

/-- An address of four bytes. -/
structure Ipv4 where
  a : Nat
  b : Nat
  c : Nat
  d : Nat
  deriving DecidableEq, Repr, Inhabited

/-- An address of eight groups of 16 bits. -/
structure Ipv6 where
  groups : List Nat
  deriving DecidableEq, Repr, Inhabited

inductive SocketAddress where
  | v4 (ip : Ipv4) (port : Nat)
  | v6 (ip : Ipv6) (scope : Nat) (port : Nat)
  deriving DecidableEq, Repr, Inhabited

/-- Reads something from the front of the characters. -/
abbrev Reader (α : Type) := List Char → Option (α × List Char)

/-! ### Numbers -/

/-- The value of a digit in a base of at most sixteen. -/
def digit? (base : Nat) (c : Char) : Option Nat :=
  let value :=
    if '0' ≤ c && c ≤ '9' then some (c.toNat - '0'.toNat)
    else if 'a' ≤ c && c ≤ 'f' then some (c.toNat - 'a'.toNat + 10)
    else if 'A' ≤ c && c ≤ 'F' then some (c.toNat - 'A'.toNat + 10)
    else none
  value.filter (· < base)

/-- The digits at the front and the characters after them. -/
def spanDigits (base : Nat) : List Char → List Nat × List Char
  | [] => ([], [])
  | c :: rest =>
    match digit? base c with
    | some d =>
      let (ds, rest) := spanDigits base rest
      (d :: ds, rest)
    | none => ([], c :: rest)

/-- Reads a number below a bound; more digits than allowed, or zeros in front where none may stand,
make it unusable. -/
def number (base bound : Nat) (maxDigits : Option Nat) (leadingZeros : Bool) : Reader Nat :=
  fun cs =>
    let (ds, rest) := spanDigits base cs
    let n := ds.foldl (fun n d => n * base + d) 0
    let tooMany := match maxDigits with
      | some m => m < ds.length
      | none => false
    if ds.isEmpty || tooMany || bound ≤ n then none
    else if !leadingZeros && 1 < ds.length && ds.head? == some 0 then none
    else some (n, rest)

/-- Reads one character. -/
def char (c : Char) : Reader Unit
  | d :: rest => if d == c then some ((), rest) else none
  | [] => none

/-! ### Addresses -/

/-- Reads a byte in decimal. -/
def byte : Reader Nat := number 10 256 (some 3) false

def ipv4 : Reader Ipv4 := fun cs => do
  let (a, cs) ← byte cs
  let (_, cs) ← char '.' cs
  let (b, cs) ← byte cs
  let (_, cs) ← char '.' cs
  let (c, cs) ← byte cs
  let (_, cs) ← char '.' cs
  let (d, cs) ← byte cs
  some (⟨a, b, c, d⟩, cs)

/-- Reads what follows a colon, or stands at the very front. -/
def afterColon (atFront : Bool) (item : Reader α) : Reader α := fun cs => do
  if atFront then item cs
  else
    let (_, cs) ← char ':' cs
    item cs

/-- Reads up to so many groups.  An old address may stand for the last two; then reading ends, and
the second part is true. -/
def groups (atFront : Bool) : Nat → List Char → (List Nat × Bool) × List Char
  | 0, cs => (([], false), cs)
  | left + 1, cs =>
    match (if left == 0 then none else afterColon atFront ipv4 cs) with
    | some (⟨a, b, c, d⟩, rest) => (([a * 256 + b, c * 256 + d], true), rest)
    | none =>
      match afterColon atFront (number 16 65536 (some 4) true) cs with
      | some (g, rest) =>
        let ((gs, old), rest) := groups false left rest
        ((g :: gs, old), rest)
      | none => (([], false), cs)

/-- Reads eight groups, or fewer around two colons. -/
def ipv6 : Reader Ipv6 := fun cs =>
  let ((head, old), rest) := groups true 8 cs
  if head.length == 8 then some (⟨head⟩, rest)
  else if old then none
  else do
    let (_, rest) ← char ':' rest
    let (_, rest) ← char ':' rest
    let ((tail, _), rest) := groups true (7 - head.length) rest
    some (⟨head ++ List.replicate (8 - head.length - tail.length) 0 ++ tail⟩, rest)

/-- Reads the port behind a colon. -/
def port : Reader Nat := fun cs => do
  let (_, cs) ← char ':' cs
  number 10 65536 none true cs

/-- Reads the scope behind a percent sign, if there is one. -/
def scope (cs : List Char) : Option (Nat × List Char) :=
  match cs with
  | '%' :: rest => number 10 UInt32.size none true rest
  | _ => some (0, cs)

namespace SocketAddress

def readV4 : Reader SocketAddress := fun cs => do
  let (ip, cs) ← ipv4 cs
  let (p, cs) ← port cs
  some (v4 ip p, cs)

def readV6 : Reader SocketAddress := fun cs => do
  let (_, cs) ← char '[' cs
  let (ip, cs) ← ipv6 cs
  let (s, cs) ← scope cs
  let (_, cs) ← char ']' cs
  let (p, cs) ← port cs
  some (v6 ip s p, cs)

/-- Reads a whole text. -/
def parse? (s : String) : Option SocketAddress :=
  match readV4 s.toList with
  | some (a, []) => some a
  | some _ => none
  | none =>
    match readV6 s.toList with
    | some (a, []) => some a
    | _ => none

end SocketAddress

/-! ### Writing -/

def Ipv4.text (ip : Ipv4) : String := s!"{ip.a}.{ip.b}.{ip.c}.{ip.d}"

/-- A group in hexadecimal. -/
def groupText (n : Nat) : String :=
  String.ofList (Nat.toDigits 16 n)

/-- Where the first of the longest runs of zeros begins, and its length. -/
def longestRun (gs : List Nat) : Nat × Nat :=
  (List.range gs.length).foldl (fun best i =>
    let run := ((gs.drop i).takeWhile (· == 0)).length
    if best.2 < run then (i, run) else best) (0, 0)

def groupsText (gs : List Nat) : String := ":".intercalate (gs.map groupText)

def Ipv6.text (ip : Ipv6) : String :=
  match ip.groups with
  | [0, 0, 0, 0, 0, 0xffff, x, y] =>
    "::ffff:" ++ Ipv4.text ⟨x / 256, x % 256, y / 256, y % 256⟩
  | gs =>
    let (start, run) := longestRun gs
    if 1 < run then groupsText (gs.take start) ++ "::" ++ groupsText (gs.drop (start + run))
    else groupsText gs

def SocketAddress.text : SocketAddress → String
  | v4 ip p => s!"{ip.text}:{p}"
  | v6 ip s p => if s == 0 then s!"[{ip.text}]:{p}" else s!"[{ip.text}%{s}]:{p}"

end Rollout.Net
