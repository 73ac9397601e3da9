/-
Which characters differ in case alone, and which script a character belongs to.

`foldCase` takes a character to the one that stands for all its case variants; two characters are
variants of each other when it takes them to the same one.
-/

namespace Rollout.Text

/-- Runs of characters that are folded alike: the first, how many, the step between them, and what
is added to each. -/
def foldRuns : List (Nat × Nat × Nat × Int) :=
  [(0x41, 26, 1, 32), (0xb5, 1, 1, 775), (0xc0, 23, 1, 32), (0xd8, 7, 1, 32), (0x100, 24, 2, 1),
  (0x132, 3, 2, 1), (0x139, 8, 2, 1), (0x14a, 23, 2, 1), (0x178, 1, 1, -121), (0x179, 3, 2, 1),
  (0x17f, 1, 1, -268), (0x181, 1, 1, 210), (0x182, 2, 2, 1), (0x186, 1, 1, 206), (0x187, 1, 1,
  1), (0x189, 2, 1, 205), (0x18b, 1, 1, 1), (0x18e, 1, 1, 79), (0x18f, 1, 1, 202), (0x190, 1, 1,
  203), (0x191, 1, 1, 1), (0x193, 1, 1, 205), (0x194, 1, 1, 207), (0x196, 1, 1, 211), (0x197, 1,
  1, 209), (0x198, 1, 1, 1), (0x19c, 1, 1, 211), (0x19d, 1, 1, 213), (0x19f, 1, 1, 214), (0x1a0,
  3, 2, 1), (0x1a6, 1, 1, 218), (0x1a7, 1, 1, 1), (0x1a9, 1, 1, 218), (0x1ac, 1, 1, 1), (0x1ae,
  1, 1, 218), (0x1af, 1, 1, 1), (0x1b1, 2, 1, 217), (0x1b3, 2, 2, 1), (0x1b7, 1, 1, 219),
  (0x1b8, 1, 1, 1), (0x1bc, 1, 1, 1), (0x1c4, 1, 1, 2), (0x1c5, 1, 1, 1), (0x1c7, 1, 1, 2),
  (0x1c8, 1, 1, 1), (0x1ca, 1, 1, 2), (0x1cb, 9, 2, 1), (0x1de, 9, 2, 1), (0x1f1, 1, 1, 2),
  (0x1f2, 2, 2, 1), (0x1f6, 1, 1, -97), (0x1f7, 1, 1, -56), (0x1f8, 20, 2, 1), (0x220, 1, 1,
  -130), (0x222, 9, 2, 1), (0x23a, 1, 1, 10795), (0x23b, 1, 1, 1), (0x23d, 1, 1, -163), (0x23e,
  1, 1, 10792), (0x241, 1, 1, 1), (0x243, 1, 1, -195), (0x244, 1, 1, 69), (0x245, 1, 1, 71),
  (0x246, 5, 2, 1), (0x345, 1, 1, 116), (0x370, 2, 2, 1), (0x376, 1, 1, 1), (0x37f, 1, 1, 116),
  (0x386, 1, 1, 38), (0x388, 3, 1, 37), (0x38c, 1, 1, 64), (0x38e, 2, 1, 63), (0x391, 17, 1,
  32), (0x3a3, 9, 1, 32), (0x3c2, 1, 1, 1), (0x3cf, 1, 1, 8), (0x3d0, 1, 1, -30), (0x3d1, 1, 1,
  -25), (0x3d5, 1, 1, -15), (0x3d6, 1, 1, -22), (0x3d8, 12, 2, 1), (0x3f0, 1, 1, -54), (0x3f1,
  1, 1, -48), (0x3f4, 1, 1, -60), (0x3f5, 1, 1, -64), (0x3f7, 1, 1, 1), (0x3f9, 1, 1, -7),
  (0x3fa, 1, 1, 1), (0x3fd, 3, 1, -130), (0x400, 16, 1, 80), (0x410, 32, 1, 32), (0x460, 17, 2,
  1), (0x48a, 27, 2, 1), (0x4c0, 1, 1, 15), (0x4c1, 7, 2, 1), (0x4d0, 48, 2, 1), (0x531, 38, 1,
  48), (0x10a0, 38, 1, 7264), (0x10c7, 1, 1, 7264), (0x10cd, 1, 1, 7264), (0x13f8, 6, 1, -8),
  (0x1c80, 1, 1, -6222), (0x1c81, 1, 1, -6221), (0x1c82, 1, 1, -6212), (0x1c83, 2, 1, -6210),
  (0x1c85, 1, 1, -6211), (0x1c86, 1, 1, -6204), (0x1c87, 1, 1, -6180), (0x1c88, 1, 1, 35267),
  (0x1c90, 43, 1, -3008), (0x1cbd, 3, 1, -3008), (0x1e00, 75, 2, 1), (0x1e9b, 1, 1, -58),
  (0x1e9e, 1, 1, -7615), (0x1ea0, 48, 2, 1), (0x1f08, 8, 1, -8), (0x1f18, 6, 1, -8), (0x1f28, 8,
  1, -8), (0x1f38, 8, 1, -8), (0x1f48, 6, 1, -8), (0x1f59, 4, 2, -8), (0x1f68, 8, 1, -8),
  (0x1f88, 8, 1, -8), (0x1f98, 8, 1, -8), (0x1fa8, 8, 1, -8), (0x1fb8, 2, 1, -8), (0x1fba, 2, 1,
  -74), (0x1fbc, 1, 1, -9), (0x1fbe, 1, 1, -7173), (0x1fc8, 4, 1, -86), (0x1fcc, 1, 1, -9),
  (0x1fd8, 2, 1, -8), (0x1fda, 2, 1, -100), (0x1fe8, 2, 1, -8), (0x1fea, 2, 1, -112), (0x1fec,
  1, 1, -7), (0x1ff8, 2, 1, -128), (0x1ffa, 2, 1, -126), (0x1ffc, 1, 1, -9), (0x2126, 1, 1,
  -7517), (0x212a, 1, 1, -8383), (0x212b, 1, 1, -8262), (0x2132, 1, 1, 28), (0x2160, 16, 1, 16),
  (0x2183, 1, 1, 1), (0x24b6, 26, 1, 26), (0x2c00, 48, 1, 48), (0x2c60, 1, 1, 1), (0x2c62, 1, 1,
  -10743), (0x2c63, 1, 1, -3814), (0x2c64, 1, 1, -10727), (0x2c67, 3, 2, 1), (0x2c6d, 1, 1,
  -10780), (0x2c6e, 1, 1, -10749), (0x2c6f, 1, 1, -10783), (0x2c70, 1, 1, -10782), (0x2c72, 1,
  1, 1), (0x2c75, 1, 1, 1), (0x2c7e, 2, 1, -10815), (0x2c80, 50, 2, 1), (0x2ceb, 2, 2, 1),
  (0x2cf2, 1, 1, 1), (0xa640, 23, 2, 1), (0xa680, 14, 2, 1), (0xa722, 7, 2, 1), (0xa732, 31, 2,
  1), (0xa779, 2, 2, 1), (0xa77d, 1, 1, -35332), (0xa77e, 5, 2, 1), (0xa78b, 1, 1, 1), (0xa78d,
  1, 1, -42280), (0xa790, 2, 2, 1), (0xa796, 10, 2, 1), (0xa7aa, 1, 1, -42308), (0xa7ab, 1, 1,
  -42319), (0xa7ac, 1, 1, -42315), (0xa7ad, 1, 1, -42305), (0xa7ae, 1, 1, -42308), (0xa7b0, 1,
  1, -42258), (0xa7b1, 1, 1, -42282), (0xa7b2, 1, 1, -42261), (0xa7b3, 1, 1, 928), (0xa7b4, 8,
  2, 1), (0xa7c4, 1, 1, -48), (0xa7c5, 1, 1, -42307), (0xa7c6, 1, 1, -35384), (0xa7c7, 2, 2, 1),
  (0xa7d0, 1, 1, 1), (0xa7d6, 2, 2, 1), (0xa7f5, 1, 1, 1), (0xab70, 80, 1, -38864), (0xff21, 26,
  1, 32), (0x10400, 40, 1, 40), (0x104b0, 36, 1, 40), (0x10570, 11, 1, 39), (0x1057c, 15, 1,
  39), (0x1058c, 7, 1, 39), (0x10594, 2, 1, 39), (0x10c80, 51, 1, 64), (0x118a0, 32, 1, 32),
  (0x16e40, 32, 1, 32), (0x1e900, 34, 1, 34)]

/-- The run that a code point lies in. -/
def inFoldRun (n : Nat) (run : Nat × Nat × Nat × Int) : Bool :=
  run.1 ≤ n && n < run.1 + run.2.1 * run.2.2.1 && (n - run.1) % run.2.2.1 == 0

/-- The character that stands for all case variants of a character. -/
def foldCase (c : Char) : Char :=
  match foldRuns.find? (inFoldRun c.toNat) with
  | some run => Char.ofNat (c.toNat + run.2.2.2).toNat
  | none => c

/-- The characters that a run folds to a given one. -/
def unfoldIn (c : Char) (run : Nat × Nat × Nat × Int) : List Char :=
  let n := (c.toNat : Int) - run.2.2.2
  if 0 ≤ n && inFoldRun n.toNat run then [Char.ofNat n.toNat] else []

/-- All case variants of a character, itself included. -/
def caseVariants (c : Char) : List Char :=
  let folded := foldCase c
  c :: folded :: foldRuns.flatMap (unfoldIn folded)

/-- The letters of the more common scripts. -/
def scriptRanges : List (String × List (Nat × Nat)) :=
  [("latin", [(0x41, 0x5a), (0x61, 0x7a), (0xc0, 0xd6), (0xd8, 0xf6), (0xf8, 0x2af),
      (0x1d00, 0x1d25), (0x1d62, 0x1d65), (0x1d6b, 0x1d77), (0x1d79, 0x1d9a), (0x1e00,
      0x1eff), (0x2090, 0x209c), (0x2184, 0x2184), (0x2c60, 0x2c7c), (0x2c7e, 0x2c7f),
      (0xa722, 0xa76f), (0xa771, 0xa787), (0xa78b, 0xa7ca), (0xa7d0, 0xa7d1), (0xa7d3,
      0xa7d3), (0xa7d5, 0xa7d9), (0xa7f5, 0xa7f7), (0xa7fa, 0xa7ff), (0xab30, 0xab5a),
      (0xab60, 0xab64), (0xab66, 0xab68), (0xfb00, 0xfb06), (0xff21, 0xff3a), (0xff41,
      0xff5a), (0x1df00, 0x1df1e)]),
    ("greek", [(0x370, 0x374), (0x376, 0x377), (0x37a, 0x37d), (0x37f, 0x37f), (0x386,
      0x386), (0x388, 0x38a), (0x38c, 0x38c), (0x38e, 0x3a1), (0x3a3, 0x3e1), (0x3f0,
      0x3f5), (0x3f7, 0x3ff), (0x1d26, 0x1d2a), (0x1d66, 0x1d6a), (0x1f00, 0x1f15), (0x1f18,
      0x1f1d), (0x1f20, 0x1f45), (0x1f48, 0x1f4d), (0x1f50, 0x1f57), (0x1f59, 0x1f59),
      (0x1f5b, 0x1f5b), (0x1f5d, 0x1f5d), (0x1f5f, 0x1f7d), (0x1f80, 0x1fb4), (0x1fb6,
      0x1fbc), (0x1fbe, 0x1fbe), (0x1fc2, 0x1fc4), (0x1fc6, 0x1fcc), (0x1fd0, 0x1fd3),
      (0x1fd6, 0x1fdb), (0x1fe0, 0x1fec), (0x1ff2, 0x1ff4), (0x1ff6, 0x1ffc), (0xab65,
      0xab65), (0x10140, 0x10174)]),
    ("cyrillic", [(0x400, 0x481), (0x48a, 0x52f), (0x1c80, 0x1c88), (0x1d2b, 0x1d2b),
      (0xa640, 0xa66e), (0xa67f, 0xa69b)]),
    ("armenian", [(0x531, 0x556), (0x559, 0x559), (0x560, 0x588), (0xfb13, 0xfb17)]),
    ("hebrew", [(0x591, 0x5bd), (0x5bf, 0x5bf), (0x5c1, 0x5c2), (0x5c4, 0x5c5), (0x5c7,
      0x5c7), (0x5d0, 0x5ea), (0x5ef, 0x5f2), (0xfb1d, 0xfb28), (0xfb2a, 0xfb36), (0xfb38,
      0xfb3c), (0xfb3e, 0xfb3e), (0xfb40, 0xfb41), (0xfb43, 0xfb44), (0xfb46, 0xfb4f)]),
    ("arabic", [(0x610, 0x61a), (0x620, 0x65f), (0x66e, 0x6d3), (0x6d5, 0x6dc), (0x6df,
      0x6e8), (0x6ea, 0x6ef), (0x6fa, 0x6fc), (0x6ff, 0x6ff), (0x750, 0x77f), (0x870,
      0x887), (0x889, 0x88e), (0x898, 0x8e1), (0x8e3, 0x8ff), (0xfb50, 0xfbb1), (0xfbd3,
      0xfd3d), (0xfd50, 0xfd8f), (0xfd92, 0xfdc7), (0xfdf0, 0xfdfb), (0xfe70, 0xfe74),
      (0xfe76, 0xfefc), (0x1ee00, 0x1ee03), (0x1ee05, 0x1ee1f), (0x1ee21, 0x1ee22),
      (0x1ee24, 0x1ee24), (0x1ee27, 0x1ee27), (0x1ee29, 0x1ee32), (0x1ee34, 0x1ee37),
      (0x1ee39, 0x1ee39), (0x1ee3b, 0x1ee3b), (0x1ee42, 0x1ee42), (0x1ee47, 0x1ee47),
      (0x1ee49, 0x1ee49), (0x1ee4b, 0x1ee4b), (0x1ee4d, 0x1ee4f), (0x1ee51, 0x1ee52),
      (0x1ee54, 0x1ee54), (0x1ee57, 0x1ee57), (0x1ee59, 0x1ee59), (0x1ee5b, 0x1ee5b),
      (0x1ee5d, 0x1ee5d), (0x1ee5f, 0x1ee5f), (0x1ee61, 0x1ee62), (0x1ee64, 0x1ee64),
      (0x1ee67, 0x1ee6a), (0x1ee6c, 0x1ee72), (0x1ee74, 0x1ee77), (0x1ee79, 0x1ee7c),
      (0x1ee7e, 0x1ee7e), (0x1ee80, 0x1ee89), (0x1ee8b, 0x1ee9b), (0x1eea1, 0x1eea3),
      (0x1eea5, 0x1eea9), (0x1eeab, 0x1eebb)]),
    ("devanagari", [(0x900, 0x963), (0x966, 0x96f), (0x971, 0x97f), (0xa8f2, 0xa8f7),
      (0xa8fb, 0xa8fb), (0xa8fd, 0xa8ff)]),
    ("thai", [(0xe01, 0xe3a), (0xe40, 0xe4e), (0xe50, 0xe59)]),
    ("hangul", [(0x1100, 0x11ff), (0x302e, 0x302f), (0x3131, 0x318e), (0xa960, 0xa97c),
      (0xac00, 0xd7a3), (0xd7b0, 0xd7c6), (0xd7cb, 0xd7fb)]),
    ("hiragana", [(0x3041, 0x3096), (0x309d, 0x309f), (0x1b001, 0x1b001), (0x1b11f,
      0x1b11f), (0x1b150, 0x1b152)]),
    ("katakana", [(0x30a1, 0x30fa), (0x30fd, 0x30ff), (0x31f0, 0x31ff), (0xff66, 0xff9f),
      (0x1aff0, 0x1aff3), (0x1aff5, 0x1affb), (0x1affd, 0x1affe), (0x1b000, 0x1b000),
      (0x1b120, 0x1b122), (0x1b164, 0x1b167)]),
    ("han", [(0x3005, 0x3005), (0x3007, 0x3007), (0x3400, 0x4dbf), (0x4e00, 0x9fff),
      (0xf900, 0xfa6d), (0xfa70, 0xfad9), (0x20000, 0x2a6df), (0x2a700, 0x2b738), (0x2b740,
      0x2b81d), (0x2b820, 0x2cea1), (0x2ceb0, 0x2ebe0), (0x2f800, 0x2fa1d), (0x30000,
      0x3134a)])]

/-- The letters of a script, by its name in lower case. -/
def script? (name : String) : Option (List (Nat × Nat)) :=
  scriptRanges.lookup name

end Rollout.Text
