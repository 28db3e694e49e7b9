import Scenario.Fault
import Scenario.Placeholder
import Scenario.Text.Integer

/-!
# Comparison

Assertions and conditions compare an actual value with an expected one. Comparison is loose: texts
that spell a number or a truth value are taken for it (`normalize`).

* `looseEq` is equality, at first as the values stand and then after normalising both.
* `looseCompare` orders numbers by value and everything else by its text form.
* `compare` evaluates one of the thirteen operators. Only `lengthEq` can be misused: it wants a
  natural number.
-/

namespace Scenario

/-- A comparison operator. -/
inductive Operator where
  | eq
  | ne
  | gt
  | ge
  | lt
  | le
  | lengthEq
  | contains
  | notContains
  | startsWith
  | endsWith
  | notEmpty
  | empty
deriving DecidableEq, Repr

namespace Operator

/-- The operators with their spellings; the first spelling is the name. -/
def spellings : List (Operator × List String) := [
  (eq, ["eq", "等于", "=="]),
  (ne, ["ne", "不等于", "!="]),
  (gt, ["gt", "大于", ">"]),
  (ge, ["ge", "大于等于", ">="]),
  (lt, ["lt", "小于", "<"]),
  (le, ["le", "小于等于", "<="]),
  (lengthEq, ["len_eq", "长度等于"]),
  (contains, ["contains", "包含"]),
  (notContains, ["not_contains", "不包含"]),
  (startsWith, ["starts_with", "以...开始"]),
  (endsWith, ["ends_with", "以...结束"]),
  (notEmpty, ["not_empty", "非空"]),
  (empty, ["empty", "为空"])]

/-- The name of an operator. -/
def name : Operator → String
  | eq => "eq"
  | ne => "ne"
  | gt => "gt"
  | ge => "ge"
  | lt => "lt"
  | le => "le"
  | lengthEq => "len_eq"
  | contains => "contains"
  | notContains => "not_contains"
  | startsWith => "starts_with"
  | endsWith => "ends_with"
  | notEmpty => "not_empty"
  | empty => "empty"

/-- **Reading an operator.** Blanks around it do not count. -/
def ofText (text : String) : Except Fault Operator :=
  let trimmed := Text.trim text
  match spellings.find? fun (_, names) => trimmed ∈ names with
  | some (op, _) => .ok op
  | none => misconfigured (.unsupportedOperator trimmed)

end Operator

namespace Comparison

/-! ### Normal forms -/

/-- The value that a text spells: a whole number, a number with a decimal point, or a truth value in
any letter case. -/
def spelled? (text : String) : Option Json.Value :=
  let chars := text.toList
  let body :=
    match chars with
    | '-' :: rest => rest
    | other => other
  let whole : Option Json.Value :=
    if !body.isEmpty && body.all Char.isDigit then (Text.integer? chars).map Json.Value.ofInt
    else none
  let fractional : Option Json.Value :=
    if '.' ∈ chars then
      (Binary64.ofText? text).bind fun x => (Json.Number.ofBinary64? x).map Json.Value.number
    else none
  let truth : Option Json.Value :=
    if Text.sameIgnoringCase text "true" then some (.bool true)
    else if Text.sameIgnoringCase text "false" then some (.bool false)
    else none
  -- a text of digits is never read by way of a binary64 number, which could not hold all of them
  whole <|> fractional <|> truth

/-- **The normal form of a value.** -/
def normalize : Json.Value → Json.Value
  | .string s => (spelled? s).getD (.string s)
  | v => v

/-! ### Equality and order -/

/-- Equality as the values stand: numbers by value after rounding to binary64, everything else as
data. -/
def same : Json.Value → Json.Value → Bool
  | .number m, .number n => m.toFinite.sameValue n.toFinite
  | a, b => a == b

/-- **Loose equality.** -/
def looseEq (actual expected : Json.Value) : Bool :=
  same actual expected || same (normalize actual) (normalize expected)

/-- **Loose order.** -/
def looseCompare (actual expected : Json.Value) : Ordering :=
  match normalize actual, normalize expected with
  | .number m, .number n => m.toFinite.compare n.toFinite
  | _, _ => Ord.compare (Placeholder.display actual) (Placeholder.display expected)

/-! ### Further relations -/

/-- Whether a value holds nothing. -/
def isEmpty : Json.Value → Bool
  | .null => true
  | .string s => s = ""
  | _ => false

/-- The number of items, members or characters. -/
def length : Json.Value → Nat
  | .array items => items.length
  | .object members => members.length
  | v => (Placeholder.display v).length

/-- Whether a list has an equal item, an object the key, or a text the part. -/
def contains (actual expected : Json.Value) : Bool :=
  match actual with
  | .array items => items.any fun item => looseEq item expected
  | .object members => Keyed.has (Placeholder.display expected) members
  | v => Text.contains (Placeholder.display v) (Placeholder.display expected)

/-- Whether the text form of `actual` begins with that of `expected`. -/
def startsWith (actual expected : Json.Value) : Bool :=
  Text.startsWith (Placeholder.display expected).toList (Placeholder.display actual).toList

/-- Whether the text form of `actual` ends with that of `expected`. -/
def endsWith (actual expected : Json.Value) : Bool :=
  Text.startsWith (Placeholder.display expected).toList.reverse
    (Placeholder.display actual).toList.reverse

/-- The natural number that a value stands for. -/
def natural? (v : Json.Value) : Option Nat :=
  match normalize v with
  | .number n => n.toNat?
  | _ => none

/-- **Comparison** by an operator. -/
def compare (actual : Json.Value) (op : Operator) (expected : Json.Value) : Except Fault Bool :=
  match op with
  | .eq => .ok (looseEq actual expected)
  | .ne => .ok (!looseEq actual expected)
  | .gt => .ok (looseCompare actual expected = .gt)
  | .ge => .ok (looseCompare actual expected ≠ .lt)
  | .lt => .ok (looseCompare actual expected = .lt)
  | .le => .ok (looseCompare actual expected ≠ .gt)
  | .lengthEq =>
    match natural? expected with
    | some n => .ok (length actual = n)
    | none => misconfigured (.lengthNotNatural expected)
  | .contains => .ok (contains actual expected)
  | .notContains => .ok (!contains actual expected)
  | .startsWith => .ok (startsWith actual expected)
  | .endsWith => .ok (endsWith actual expected)
  | .notEmpty => .ok (!isEmpty actual)
  | .empty => .ok (isEmpty actual)

/-- Comparison by an operator given as text. -/
def compareText (actual : Json.Value) (operation : String) (expected : Json.Value) :
    Except Fault Bool := do
  compare actual (← Operator.ofText operation) expected

end Comparison

end Scenario
