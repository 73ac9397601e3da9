/-
Sets of characters, as patterns describe them.
-/
import Rollout.Text.Blank
import Rollout.Text.Category
import Rollout.Text.Letter

namespace Rollout

/-- A description of a set of characters. -/
inductive CharSet where
  | ranges (rs : List (Nat × Nat))
  | categories (cs : List Text.Category)
  | blank
  | union (a b : CharSet)
  | inter (a b : CharSet)
  | compl (a : CharSet)
  /-- With every character its case variants, or those of ASCII letters alone. -/
  | anyCase (ascii : Bool) (a : CharSet)
  deriving Inhabited, Repr

namespace CharSet

/-- Whether a character belongs to a set. -/
def mem : CharSet → Char → Bool
  | ranges rs, c => rs.any fun (low, high) => low ≤ c.toNat && c.toNat ≤ high
  | categories cs, c => cs.contains (Text.Category.of c)
  | blank, c => Text.isBlank c
  | union a b, c => a.mem c || b.mem c
  | inter a b, c => a.mem c && b.mem c
  | compl a, c => !a.mem c
  | anyCase ascii a, c =>
    (if ascii then [c, c.toLower, c.toUpper] else Text.caseVariants c).any a.mem

def none : CharSet := ranges []

def all : CharSet := ranges [(0, 0x10FFFF)]

def single (c : Char) : CharSet := ranges [(c.toNat, c.toNat)]

def range (a b : Char) : CharSet := ranges [(a.toNat, b.toNat)]

def diff (a b : CharSet) : CharSet := inter a (compl b)

def symmDiff (a b : CharSet) : CharSet := union (diff a b) (diff b a)

def negateIf (negated : Bool) (a : CharSet) : CharSet := if negated then compl a else a

/-- Decimal digits. -/
def decimal : CharSet := categories [.decimalNumber]

/-- The characters of words: letters, marks, digits, connectors and joiners. -/
def word : CharSet :=
  union (categories [.upperLetter, .lowerLetter, .titleLetter, .modifierLetter, .otherLetter,
      .letterNumber, .nonspacingMark, .spacingMark, .enclosingMark, .decimalNumber, .connector])
    (ranges [(0x200C, 0x200D), (0x24B6, 0x24E9), (0x1F130, 0x1F149), (0x1F150, 0x1F169),
      (0x1F170, 0x1F189)])

/-- ASCII digits. -/
def asciiDecimal : CharSet := ranges [(0x30, 0x39)]

/-- ASCII blanks. -/
def asciiBlank : CharSet := ranges [(9, 13), (0x20, 0x20)]

/-- The ASCII characters of words. -/
def asciiWord : CharSet := ranges [(0x30, 0x39), (0x41, 0x5A), (0x61, 0x7A), (0x5F, 0x5F)]

/-- A class between `[:` and `:]`. -/
def ascii? (name : String) : Option CharSet :=
  let upper := (0x41, 0x5A)
  let lower := (0x61, 0x7A)
  let digit := (0x30, 0x39)
  match name with
  | "alnum" => some (ranges [digit, upper, lower])
  | "alpha" => some (ranges [upper, lower])
  | "ascii" => some (ranges [(0, 0x7F)])
  | "blank" => some (ranges [(9, 9), (0x20, 0x20)])
  | "cntrl" => some (ranges [(0, 0x1F), (0x7F, 0x7F)])
  | "digit" => some (ranges [digit])
  | "graph" => some (ranges [(0x21, 0x7E)])
  | "lower" => some (ranges [lower])
  | "print" => some (ranges [(0x20, 0x7E)])
  | "punct" => some (ranges [(0x21, 0x2F), (0x3A, 0x40), (0x5B, 0x60), (0x7B, 0x7E)])
  | "space" => some (ranges [(9, 13), (0x20, 0x20)])
  | "upper" => some (ranges [upper])
  | "word" => some (ranges [digit, upper, lower, (0x5F, 0x5F)])
  | "xdigit" => some (ranges [digit, (0x41, 0x46), (0x61, 0x66)])
  | _ => Option.none

/-- Groups of categories, each by its short and its long name. -/
def categoryGroups : List (String × String × String) :=
  [("l", "letter", "L"), ("m", "mark", "M"), ("n", "number", "N"), ("p", "punctuation", "P"),
    ("s", "symbol", "S"), ("z", "separator", "Z"), ("c", "other", "C"),
    ("m", "combiningmark", "M"), ("p", "punct", "P")]

/-- A general category or a group of them, by its plain name. -/
def category? (name : String) : Option CharSet :=
  let exact := Text.Category.names.filter fun (_, short, long) =>
    short.toLower == name || long == name
  match exact with
  | (c, _) :: _ => some (categories [c])
  | [] =>
    match categoryGroups.find? fun (short, long, _) => short == name || long == name with
    | some (_, _, letter) =>
      some (categories ((Text.Category.names.filter fun (_, short, _) =>
        short.startsWith letter).map (·.1)))
    | Option.none =>
      if name == "lc" || name == "casedletter" then
        some (categories [.upperLetter, .lowerLetter, .titleLetter])
      else Option.none

/-- A property name without case, blanks and joining marks. -/
def plainName (name : String) : String :=
  String.ofList ((name.toLower.toList).filter fun c => c != ' ' && c != '_' && c != '-')

/-- A property that is no category. -/
def binary? (name : String) : Option CharSet :=
  match name with
  | "any" => some all
  | "assigned" => some (compl (categories [.unassigned]))
  | "ascii" => some (ranges [(0, 0x7F)])
  | "alphabetic" | "alpha" =>
    some (categories [.upperLetter, .lowerLetter, .titleLetter, .modifierLetter, .otherLetter,
      .letterNumber])
  | "lowercase" | "lower" => some (categories [.lowerLetter])
  | "uppercase" | "upper" => some (categories [.upperLetter])
  | "whitespace" | "wspace" | "space" => some blank
  | _ => Option.none

/-- A kind of property and its value. -/
def valued? (kind value : String) : Option CharSet :=
  let v := plainName value
  match plainName kind with
  | "gc" | "generalcategory" => (category? v).or (binary? v)
  | "sc" | "script" | "scx" | "scriptextensions" => (Text.script? v).map ranges
  | _ => Option.none

/-- A property of its own name. -/
def named? (name : String) : Option CharSet :=
  let n := plainName name
  let n := if n.startsWith "is" && n.length > 2 then (n.drop 2).toString else n
  (binary? n).or ((category? n).or ((Text.script? n).map ranges))

/-- A property by its name, or by a kind of property and a value that it has or has not. -/
def property? (text : String) : Option CharSet :=
  match text.splitOn "!=", (text.splitOn "=").flatMap (·.splitOn ":") with
  | [kind, value], _ => (valued? kind value).map compl
  | _, [name] => named? name
  | _, [kind, value] => valued? kind value
  | _, _ => Option.none

end CharSet

end Rollout
