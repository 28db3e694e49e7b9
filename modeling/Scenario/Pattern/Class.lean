import Scenario.Text.Blank
import Scenario.Text.Case
import Scenario.Text.Category

/-!
# Classes of characters

A `CharSet` is a class of characters as a pattern writes it: ranges and named classes under union,
complement and the two-place set operations. `CharSet.holds` decides membership.
-/

namespace Scenario

namespace Pattern

/-- A named class of characters. -/
inductive Property where
  | word
  | digit
  | space
  | any
  | ascii
  | assigned
  | category (members : List Text.Category)
deriving DecidableEq, Repr

/-- Whether a character belongs to a word: letters, marks, decimal digits, letter numbers, connecting
punctuation, the two joiners and the circled and squared letters. -/
def isWordChar (c : Char) : Bool :=
  let n := c.toNat
  if n < 0x80 then c.isAlphanum || c = '_'
  else
    let category := Text.Category.of c
    category.isLetter || category.isMark || category = .nd || category = .nl || category = .pc ||
      n = 0x200C || n = 0x200D || (0x24B6 ≤ n && n ≤ 0x24E9) || (0x1F130 ≤ n && n ≤ 0x1F149) ||
      (0x1F150 ≤ n && n ≤ 0x1F169) || (0x1F170 ≤ n && n ≤ 0x1F189)

/-- Whether a character has a property. -/
def Property.holds : Property → Char → Bool
  | .word, c => isWordChar c
  | .digit, c => Text.Category.of c = .nd
  | .space, c => Text.isBlank c
  | .any, _ => true
  | .ascii, c => c.toNat < 0x80
  | .assigned, c => Text.Category.of c ≠ .cn
  | .category members, c => Text.Category.of c ∈ members

/-- A class of characters. -/
inductive CharSet where
  | range (first last : Char)
  | property (p : Property)
  | union (parts : List CharSet)
  | complement (s : CharSet)
  | intersection (s t : CharSet)
  | difference (s t : CharSet)
  | symmetricDifference (s t : CharSet)
  /-- The class with all characters that differ from one of its members in case only. -/
  | folded (s : CharSet)

namespace CharSet

mutual

/-- **Membership.** -/
def holds : CharSet → Char → Bool
  | .range first last, c => first ≤ c && c ≤ last
  | .property p, c => p.holds c
  | .union parts, c => anyHolds parts c
  | .complement s, c => !holds s c
  | .intersection s t, c => holds s c && holds t c
  | .difference s t, c => holds s c && !holds t c
  | .symmetricDifference s t, c => holds s c != holds t c
  | .folded s, c => (Text.Case.variants c).any (holds s)

def anyHolds : List CharSet → Char → Bool
  | [], _ => false
  | s :: rest, c => holds s c || anyHolds rest c

end

/-- The class of one character. -/
def single (c : Char) : CharSet := .range c c

/-- The class or its complement. -/
def negateIf (negated : Bool) (s : CharSet) : CharSet :=
  if negated then .complement s else s

/-- The class, folded where letter case does not count. -/
def foldIf (ignoreCase : Bool) (s : CharSet) : CharSet :=
  if ignoreCase then .folded s else s

end CharSet

/-- The ranges of a class with a name between colons. -/
def asciiRanges? : String → Option (List (Char × Char))
  | "alnum" => some [('0', '9'), ('A', 'Z'), ('a', 'z')]
  | "alpha" => some [('A', 'Z'), ('a', 'z')]
  | "ascii" => some [('\x00', '\x7f')]
  | "blank" => some [('\t', '\t'), (' ', ' ')]
  | "cntrl" => some [('\x00', '\x1f'), ('\x7f', '\x7f')]
  | "digit" => some [('0', '9')]
  | "graph" => some [('!', '~')]
  | "lower" => some [('a', 'z')]
  | "print" => some [(' ', '~')]
  | "punct" => some [('!', '/'), (':', '@'), ('[', '\x60'), ('\x7b', '~')]
  | "space" => some [('\t', '\r'), (' ', ' ')]
  | "upper" => some [('A', 'Z')]
  | "word" => some [('0', '9'), ('A', 'Z'), ('_', '_'), ('a', 'z')]
  | "xdigit" => some [('0', '9'), ('A', 'F'), ('a', 'f')]
  | _ => none

/-- The class of a list of ranges. -/
def CharSet.ofRanges (ranges : List (Char × Char)) : CharSet :=
  .union (ranges.map fun (first, last) => .range first last)

/-! ### Names of categories -/

/-- A name without case, blanks, low lines, hyphens and a leading `is`. -/
def plainName (name : String) : String :=
  let kept := name.toList.filter fun c => !(c = ' ' || c = '_' || c = '-')
  let lowered := kept.map Char.toLower
  match lowered with
  | 'i' :: 's' :: rest => if rest.isEmpty then "is" else String.ofList rest
  | other => String.ofList other

/-- The categories under a name, given in plain form. -/
def categories? : String → Option (List Text.Category)
  | "l" | "letter" => some [.lu, .ll, .lt, .lm, .lo]
  | "lc" | "casedletter" => some [.lu, .ll, .lt]
  | "lu" | "uppercaseletter" => some [.lu]
  | "ll" | "lowercaseletter" => some [.ll]
  | "lt" | "titlecaseletter" => some [.lt]
  | "lm" | "modifierletter" => some [.lm]
  | "lo" | "otherletter" => some [.lo]
  | "m" | "mark" | "combiningmark" => some [.mn, .mc, .me]
  | "mn" | "nonspacingmark" => some [.mn]
  | "mc" | "spacingmark" => some [.mc]
  | "me" | "enclosingmark" => some [.me]
  | "n" | "number" => some [.nd, .nl, .no]
  | "nd" | "decimalnumber" | "digit" => some [.nd]
  | "nl" | "letternumber" => some [.nl]
  | "no" | "othernumber" => some [.no]
  | "p" | "punctuation" | "punct" => some [.pc, .pd, .ps, .pe, .pi, .pf, .po]
  | "pc" | "connectorpunctuation" => some [.pc]
  | "pd" | "dashpunctuation" => some [.pd]
  | "ps" | "openpunctuation" => some [.ps]
  | "pe" | "closepunctuation" => some [.pe]
  | "pi" | "initialpunctuation" => some [.pi]
  | "pf" | "finalpunctuation" => some [.pf]
  | "po" | "otherpunctuation" => some [.po]
  | "s" | "symbol" => some [.sm, .sc, .sk, .so]
  | "sm" | "mathsymbol" => some [.sm]
  | "sc" | "currencysymbol" => some [.sc]
  | "sk" | "modifiersymbol" => some [.sk]
  | "so" | "othersymbol" => some [.so]
  | "z" | "separator" => some [.zs, .zl, .zp]
  | "zs" | "spaceseparator" => some [.zs]
  | "zl" | "lineseparator" => some [.zl]
  | "zp" | "paragraphseparator" => some [.zp]
  | "c" | "other" => some [.cc, .cf, .cs, .co, .cn]
  | "cc" | "control" | "cntrl" => some [.cc]
  | "cf" | "format" => some [.cf]
  | "co" | "privateuse" => some [.co]
  | "cn" | "unassigned" => some [.cn]
  | _ => none

/-- The class under a name. -/
def named? (name : String) : Option CharSet :=
  match plainName name with
  | "any" => some (.property .any)
  | "ascii" => some (.property .ascii)
  | "assigned" => some (.property .assigned)
  | "whitespace" | "wspace" | "space" => some (.property .space)
  | plain => (categories? plain).map fun members => .property (.category members)

/-- The class of the characters whose property `name` has the value `value`. -/
def valued? (name value : String) : Option CharSet :=
  match plainName name with
  | "generalcategory" | "gc" | "category" =>
    match plainName value with
    | "any" => some (.property .any)
    | "ascii" => some (.property .ascii)
    | "assigned" => some (.property .assigned)
    | plain => (categories? plain).map fun members => .property (.category members)
  | _ => none

end Pattern

end Scenario
