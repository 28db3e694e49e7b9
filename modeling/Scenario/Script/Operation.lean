import Scenario.Keyed
import Scenario.Script.Flaw
import Scenario.Script.Value
import Scenario.Text.Blank
import Scenario.Text.Case
import Scenario.Text.Integer

/-!
# Operations of scripts

Operators and functions on values. A function may change its first argument; what it makes of its
arguments is an `Applied`, a result and the first argument as it is afterwards, if it has changed.

Integers do not wrap: a result beyond 64 bits is a flaw. An integer beside a floating-point number
counts as a floating-point number.
-/

namespace Scenario

namespace Script

/-- The types of arguments, as they stand in a signature. -/
def argumentType : Value → String
  | .text _ => "&str | ImmutableString | String"
  | v => v.typeName

/-- A call that nothing is known for. -/
def unknownCall {α : Type} (function : String) (arguments : List Value) : Except RunFlaw α :=
  .error (.unknownFunction
    (function ++ " (" ++ ", ".intercalate (arguments.map argumentType) ++ ")"))

/-! ### Numbers -/

/-- An integer result, or the flaw that stands in its place. -/
def checked (n : Int) (flaw : String) : Except RunFlaw Value :=
  if -2 ^ 63 ≤ n && n < 2 ^ 63 then .ok (.int n) else .error (.arithmetic flaw)

/-- An operation on integers in words. -/
def between (a : Int) (symbol : String) (b : Int) : String :=
  toString a ++ " " ++ symbol ++ " " ++ toString b

/-- The power of an integer. -/
def power (a b : Int) : Except RunFlaw Value :=
  let flaw := "Exponential overflow: " ++ between a "**" b
  if b < 0 then .error (.arithmetic ("Integer raised to a negative power: " ++ between a "**" b))
  else if b ≤ 64 then checked (a ^ b.toNat) flaw
  else if a = 0 || a = 1 then .ok (.int a)
  else if a = -1 then .ok (.int (if b % 2 = 0 then 1 else -1))
  else .error (.arithmetic flaw)

/-- The bits of an integer. -/
def bits (n : Int) : Nat := (n % 2 ^ 64).toNat

/-- The integer with some bits. -/
def ofBits (n : Nat) : Value := .int (Text.signed64 (n % 2 ^ 64))

/-- An integer shifted by a number of bits, to the left or to the right. -/
def shifted (a b : Int) : Value :=
  if 0 ≤ b then (if b < 64 then ofBits (bits a <<< b.toNat) else .int 0)
  else .int (a >>> (min (-b).toNat 64))

/-- An operator on integers. -/
def onIntegers (symbol : String) (a b : Int) : Option (Except RunFlaw Value) :=
  match symbol with
  | "+" => some (checked (a + b) ("Addition overflow: " ++ between a "+" b))
  | "-" => some (checked (a - b) ("Subtraction overflow: " ++ between a "-" b))
  | "*" => some (checked (a * b) ("Multiplication overflow: " ++ between a "*" b))
  | "/" => some (
      -- the quotient of the least integer by -1 does not fit 64 bits
      if b = 0 then .error (.arithmetic ("Division by zero: " ++ between a "/" b))
      else checked (a.tdiv b) ("Division overflow: " ++ between a "/" b))
  | "%" => some (
      if b = 0 then .error (.arithmetic ("Modulo division by zero: " ++ between a "%" b))
      else if b = -1 && a = -2 ^ 63 then
        .error (.arithmetic ("Modulo division overflow: " ++ between a "%" b))
      else .ok (.int (a.tmod b)))
  | "**" => some (power a b)
  | "<<" => some (.ok (shifted a b))
  | ">>" => some (.ok (shifted a (-b)))
  | "&" => some (.ok (ofBits (bits a &&& bits b)))
  | "|" => some (.ok (ofBits (bits a ||| bits b)))
  | "^" => some (.ok (ofBits (bits a ^^^ bits b)))
  | "<" => some (.ok (.bool (a < b)))
  | "<=" => some (.ok (.bool (a ≤ b)))
  | ">" => some (.ok (.bool (b < a)))
  | ">=" => some (.ok (.bool (b ≤ a)))
  | ".." => some (.ok (.range a b false))
  | "..=" => some (.ok (.range a b true))
  | _ => none

/-- The power of a floating-point number. -/
def floatPower (x y : Binary64) : Binary64 :=
  .ofBits ((Float.ofBits x.toBits).pow (Float.ofBits y.toBits)).toBits

/-- An operator on floating-point numbers. -/
def onFloats (symbol : String) (x y : Binary64) : Option Value :=
  match symbol with
  | "+" => some (.float (x.add y))
  | "-" => some (.float (x.sub y))
  | "*" => some (.float (x.mul y))
  | "/" => some (.float (x.div y))
  | "%" => some (.float (x.rem y))
  | "**" => some (.float (floatPower x y))
  | "<" => some (.bool (x.lt y))
  | "<=" => some (.bool (x.le y))
  | ">" => some (.bool (y.lt x))
  | ">=" => some (.bool (y.le x))
  | _ => none

/-! ### Texts -/

/-- A text without the occurrences of a part. -/
def withoutPart (fuel : Nat) (part : List Char) (text : List Char) : List Char :=
  match fuel, text with
  | 0, text => text
  | _, [] => []
  | fuel + 1, c :: rest =>
    match Text.after? part (c :: rest) with
    | some more => if part.isEmpty then c :: rest else withoutPart fuel part more
    | none => c :: withoutPart fuel part rest

/-- A text with a part replaced everywhere. -/
def replaced (fuel : Nat) (part by_ : List Char) (text : List Char) : List Char :=
  match fuel, text with
  | 0, text => text
  | _, [] => []
  | fuel + 1, c :: rest =>
    match Text.after? part (c :: rest) with
    | some more =>
      if part.isEmpty then c :: rest else by_ ++ replaced fuel part by_ more
    | none => c :: replaced fuel part by_ rest

/-- An operator on texts. -/
def onTexts (symbol a b : String) : Option Value :=
  match symbol with
  | "+" => some (.text (a ++ b))
  | "-" => some (.text (String.ofList (withoutPart a.length b.toList a.toList)))
  | "<" => some (.bool (a < b))
  | "<=" => some (.bool (!(b < a)))
  | ">" => some (.bool (b < a))
  | ">=" => some (.bool (!(a < b)))
  | _ => none

/-! ### Operators -/

/-- Whether a symbol compares. -/
def isComparison (symbol : String) : Bool := symbol ∈ ["<", "<=", ">", ">="]

/-- Whether two values have the same type, numbers being of one type, and texts and characters. -/
def comparable : Value → Value → Bool
  | .int _, .float _ => true
  | .float _, .int _ => true
  | .char _, .text _ => true
  | .text _, .char _ => true
  | a, b => a.typeName = b.typeName

/-- An operator on two values, if there is one for them. -/
def binary? (symbol : String) : Value → Value → Option (Except RunFlaw Value)
  | .int a, .int b => onIntegers symbol a b
  | .int a, .float y => (onFloats symbol (.ofInt a) y).map .ok
  | .float x, .int b => (onFloats symbol x (.ofInt b)).map .ok
  | .float x, .float y => (onFloats symbol x y).map .ok
  | .bool a, .bool b =>
    match symbol with
    | "&" => some (.ok (.bool (a && b)))
    | "|" => some (.ok (.bool (a || b)))
    | "^" => some (.ok (.bool (a != b)))
    | _ => none
  -- nothing is as great as nothing
  | .unit, .unit => if isComparison symbol then some (.ok (.bool (symbol ∈ ["<=", ">="]))) else none
  | .text a, .text b => (onTexts symbol a b).map .ok
  | .text a, .char b => (onTexts symbol a (String.singleton b)).map .ok
  | .char a, .text b =>
    if symbol = "-" then none else (onTexts symbol (String.singleton a) b).map .ok
  | .char a, .char b =>
    if symbol = "-" then none
    else (onTexts symbol (String.singleton a) (String.singleton b)).map .ok
  | .text a, v => if symbol = "+" then some (.ok (.text (a ++ v.display))) else none
  | v, .text b => if symbol = "+" then some (.ok (.text (v.display ++ b))) else none
  | .array xs, .array ys => if symbol = "+" then some (.ok (.array (xs ++ ys))) else none
  | .map xs, .map ys => if symbol = "+" then some (.ok (.map (Keyed.extend xs ys))) else none
  | _, _ => none

/-- **An operator on two values.** Values of different types differ, and none is above the other. -/
def binary (symbol : String) (a b : Value) : Except RunFlaw Value :=
  if symbol = "==" then .ok (.bool (a.same b))
  else if symbol = "!=" then .ok (.bool !(a.same b))
  else
    match binary? symbol a b with
    | some r => r
    | none =>
      if isComparison symbol && !comparable a b then .ok (.bool false)
      else unknownCall symbol [a, b]

/-- **An operator on one value.** -/
def unary (symbol : String) (v : Value) : Except RunFlaw Value :=
  match symbol, v with
  | "!", .bool b => .ok (.bool !b)
  | "-", .int n => checked (-n) ("Negation overflow: -" ++ toString n)
  | "-", .float x => .ok (.float x.neg)
  | "+", .int n => .ok (.int n)
  | "+", .float x => .ok (.float x)
  | symbol, v => unknownCall symbol [v]

/-- A value joined with another and put in its place. A list takes up an item, or the items of
another list. -/
def joinInto (symbol : String) (old new : Value) : Except RunFlaw Value :=
  match symbol, old, new with
  | "+", .array xs, .array ys => .ok (.array (xs ++ ys))
  | "+", .array xs, v => .ok (.array (xs ++ [v]))
  | symbol, old, new => binary symbol old new

/-! ### Parts of values -/

/-- The position that an index means among `size` items; a negative one counts from the end. -/
def position? (size : Nat) (index : Int) : Option Nat :=
  if 0 ≤ index then (if index < size then some index.toNat else none)
  else if (-index).toNat ≤ size then some (size - (-index).toNat) else none

/-- The part of a value under a key. -/
def part (v key : Value) : Except RunFlaw Value :=
  match v, key with
  | .array items, .int i =>
    match (position? items.length i).bind fun n => items[n]? with
    | some item => .ok item
    | none => .error (.outOfArray items.length i)
  | .array _, k => .error (.wrongType k.typeName "i64")
  | .map entries, .text k => .ok ((Keyed.find? k entries).getD .unit)
  | .map _, k => .error (.wrongType k.typeName "string")
  | .text s, .int i =>
    match (position? s.length i).bind fun n => s.toList[n]? with
    | some c => .ok (.char c)
    | none => .error (.outOfText s.length i)
  | v, k => .error (.notIndexable (v.typeName ++ " [" ++ k.typeName ++ "]"))

/-- A value with another part under a key. -/
def withPart (v key new : Value) : Except RunFlaw Value :=
  match v, key with
  | .array items, .int i =>
    match position? items.length i with
    | some n => .ok (.array (items.set n new))
    | none => .error (.outOfArray items.length i)
  | .array _, k => .error (.wrongType k.typeName "i64")
  | .map entries, .text k => .ok (.map (Keyed.insert k new entries))
  | .map _, k => .error (.wrongType k.typeName "string")
  | .text s, .int i =>
    match new, position? s.length i with
    | .char c, some n => .ok (.text (String.ofList (s.toList.set n c)))
    | .char _, none => .error (.outOfText s.length i)
    | other, _ => .error (.wrongType other.typeName "char")
  | v, k =>
    .error (.notIndexable (v.typeName ++ " [" ++ k.typeName ++ "] = " ++ new.typeName))

/-- The property of a value. -/
def property (v : Value) (name : String) : Except RunFlaw Value :=
  match v with
  | .map entries => .ok ((Keyed.find? name entries).getD .unit)
  | v => .error (.unreadable name v.typeName)

/-- A value with another property. -/
def withProperty (v : Value) (name : String) (new : Value) : Except RunFlaw Value :=
  match v with
  | .map entries => .ok (.map (Keyed.insert name new entries))
  | v => .error (.unwritable name v.typeName new.typeName)

/-! ### Functions -/

/-- What a function makes of its arguments. -/
structure Applied where
  result : Value
  /-- The first argument, if it has changed. -/
  changed : Option Value := none

/-- A result that changes nothing. -/
def gives (v : Value) : Option (Except RunFlaw Applied) := some (.ok ⟨v, none⟩)

/-- A change of the first argument, with a result. -/
def changes (v : Value) (result : Value) : Option (Except RunFlaw Applied) :=
  some (.ok ⟨result, some v⟩)

/-- The number of an index in a text or a list; what lies before it is its beginning. -/
def clamped (size : Nat) (index : Int) : Nat :=
  if 0 ≤ index then min index.toNat size else size - (-index).toNat

/-- The place of a part in a text. -/
def placeOf? (fuel : Nat) (part text : List Char) (at_ : Nat) : Option Nat :=
  match fuel with
  | 0 => none
  | fuel + 1 =>
    if Text.startsWith part text then some at_
    else
      match text with
      | [] => none
      | _ :: rest => placeOf? fuel part rest (at_ + 1)

/-- A text cut at every occurrence of a part. -/
def cutAt (fuel : Nat) (part : List Char) (current : List Char) (text : List Char) :
    List (List Char) :=
  match fuel, text with
  | 0, text => [current.reverse ++ text]
  | _, [] => [current.reverse]
  | fuel + 1, c :: rest =>
    match Text.after? part (c :: rest) with
    | some more =>
      if part.isEmpty then cutAt fuel part (c :: current) rest
      else current.reverse :: cutAt fuel part [] more
    | none => cutAt fuel part (c :: current) rest

/-- A natural number as a value. -/
def ofNat (n : Nat) : Value := .int n

/-- The text of a text or a character. -/
def textOf? : Value → Option String
  | .text s => some s
  | .char c => some (String.singleton c)
  | _ => none

/-- Functions on texts. -/
def onText (function : String) (s : String) (others : List Value) :
    Option (Except RunFlaw Applied) :=
  match function, others with
  | "len", [] => gives (ofNat s.length)
  | "is_empty", [] => gives (.bool s.isEmpty)
  | "to_upper", [] => gives (.text (s.map Char.toUpper))
  | "to_lower", [] => gives (.text (Text.lowercase s))
  | "trim", [] => changes (.text (Text.trim s)) .unit
  | "clear", [] => changes (.text "") .unit
  | "parse_int", [] =>
    match Text.integer? (Text.trim s).toList with
    | some n => some ((checked n ("Error parsing integer number '" ++ s ++ "'")).map fun v => ⟨v, none⟩)
    | none => some (.error (.arithmetic ("Error parsing integer number '" ++ s ++
        "': invalid digit found in string")))
  | "parse_float", [] =>
    match Binary64.ofText? (Text.trim s) with
    | some x => gives (.float x)
    | none => some (.error (.arithmetic ("Error parsing floating-point number '" ++ s ++
        "': invalid float literal")))
  | "contains", [v] => (textOf? v).bind fun part => gives (.bool (Text.contains s part))
  | "starts_with", [.text part] => gives (.bool (Text.startsWith part.toList s.toList))
  | "ends_with", [.text part] =>
    gives (.bool (Text.startsWith part.toList.reverse s.toList.reverse))
  | "index_of", [v] => (textOf? v).bind fun part =>
    gives (match placeOf? (s.length + 1) part.toList s.toList 0 with
      | some n => ofNat n
      | none => .int (-1))
  | "sub_string", [.int start] =>
    gives (.text (String.ofList (s.toList.drop (clamped s.length start))))
  | "sub_string", [.int start, .int count] =>
    gives (.text (String.ofList ((s.toList.drop (clamped s.length start)).take count.toNat)))
  | "split", [v] => (textOf? v).bind fun part =>
    gives (.array ((cutAt (s.length + 1) part.toList [] s.toList).map fun t =>
      .text (String.ofList t)))
  | "split", [] =>
    gives (.array (((s.toList.splitBy fun a b => Text.isBlank a = Text.isBlank b).filter
      fun t => !t.all Text.isBlank).map fun t => .text (String.ofList t)))
  | "replace", [a, b] => (textOf? a).bind fun part => (textOf? b).bind fun by_ =>
    changes (.text (String.ofList (replaced s.length part.toList by_.toList s.toList))) .unit
  | "to_chars", [] => gives (.array (s.toList.map .char))
  | "chars", [] => gives (.array (s.toList.map .char))
  | _, _ => none

/-- Whether a value comes before another one in a sorted list. -/
def before (a b : Value) : Bool :=
  match binary? "<=" a b with
  | some (.ok (.bool r)) => r
  | _ => true

/-- Functions on lists. -/
def onArray (function : String) (items : List Value) (others : List Value) :
    Option (Except RunFlaw Applied) :=
  match function, others with
  | "len", [] => gives (ofNat items.length)
  | "is_empty", [] => gives (.bool items.isEmpty)
  | "push", [v] => changes (.array (items ++ [v])) .unit
  | "append", [.array more] => changes (.array (items ++ more)) .unit
  | "pop", [] => changes (.array items.dropLast) (items.getLast?.getD .unit)
  | "shift", [] => changes (.array (items.drop 1)) (items.head?.getD .unit)
  | "clear", [] => changes (.array []) .unit
  | "reverse", [] => changes (.array items.reverse) .unit
  | "sort", [] => changes (.array (items.mergeSort before)) .unit
  | "contains", [v] => gives (.bool (items.any fun item => item.same v))
  | "index_of", [v] =>
    gives (match items.findIdx? fun item => item.same v with
      | some n => ofNat n
      | none => .int (-1))
  | "insert", [.int i, v] =>
    let n := clamped items.length i
    changes (.array (items.take n ++ v :: items.drop n)) .unit
  | "remove", [.int i] =>
    match position? items.length i with
    | some n => changes (.array (items.eraseIdx n)) ((items[n]?).getD .unit)
    | none => gives .unit
  | "truncate", [.int n] => changes (.array (items.take n.toNat)) .unit
  | "extract", [.int i] => gives (.array (items.drop (clamped items.length i)))
  | "extract", [.int i, .int n] =>
    gives (.array ((items.drop (clamped items.length i)).take n.toNat))
  -- a position that is not there reads as nothing, and writing to it does nothing
  | "get", [.int i] =>
    gives (((position? items.length i).bind fun n => items[n]?).getD .unit)
  | "set", [.int i, v] =>
    match position? items.length i with
    | some n => changes (.array (items.set n v)) .unit
    | none => gives .unit
  | _, _ => none

/-- Functions on maps. -/
def onMap (function : String) (entries : List (String × Value)) (others : List Value) :
    Option (Except RunFlaw Applied) :=
  match function, others with
  | "len", [] => gives (ofNat entries.length)
  | "is_empty", [] => gives (.bool entries.isEmpty)
  | "contains", [.text k] => gives (.bool (Keyed.has k entries))
  | "keys", [] => gives (.array ((Keyed.keys entries).map .text))
  | "values", [] => gives (.array (entries.map Prod.snd))
  | "get", [.text k] => gives ((Keyed.find? k entries).getD .unit)
  | "set", [.text k, v] => changes (.map (Keyed.insert k v entries)) .unit
  | "remove", [.text k] =>
    changes (.map (Keyed.erase k entries)) ((Keyed.find? k entries).getD .unit)
  | "clear", [] => changes (.map []) .unit
  | "mixin", [.map more] => changes (.map (Keyed.extend entries more)) .unit
  | _, _ => none

/-- Functions on integers. -/
def onInteger (function : String) (n : Int) (others : List Value) :
    Option (Except RunFlaw Applied) :=
  match function, others with
  | "abs", [] =>
    some ((checked n.natAbs ("Negation overflow: -" ++ toString n)).map fun v => ⟨v, none⟩)
  | "sign", [] => gives (.int n.sign)
  | "is_zero", [] => gives (.bool (n = 0))
  | "is_odd", [] => gives (.bool (n % 2 = 1))
  | "is_even", [] => gives (.bool (n % 2 = 0))
  | "to_float", [] => gives (.float (.ofInt n))
  | "to_int", [] => gives (.int n)
  | "min", [.int m] => gives (.int (min n m))
  | "max", [.int m] => gives (.int (max n m))
  | "range", [.int m] => gives (.range n m false)
  | _, _ => none

/-- A floating-point number as an integer, if it fits. -/
def wholeNumber (x : Binary64.Finite) (n : Int) : Except RunFlaw Applied :=
  (checked n ("Integer overflow: to_int(" ++ Value.floatText (.finite x) ++ ")")).map
    fun v => ⟨v, none⟩

/-- Functions on floating-point numbers. -/
def onFloat (function : String) (x : Binary64) (others : List Value) :
    Option (Except RunFlaw Applied) :=
  match function, others, x with
  | "abs", [], _ => gives (.float (Value.magnitude x))
  | "is_nan", [], _ => gives (.bool x.isNaN)
  | "to_float", [], _ => gives (.float x)
  | "to_int", [], .finite f => some (wholeNumber f f.truncate)
  | "int", [], .finite f => gives (.float (.ofInt f.truncate))
  | "floor", [], .finite f =>
    gives (.float (.ofInt (if f.isIntegral || !f.negative then f.truncate else f.truncate - 1)))
  | "ceiling", [], .finite f =>
    gives (.float (.ofInt (if f.isIntegral || f.negative then f.truncate else f.truncate + 1)))
  | "round", [], .finite f => gives (.float (.ofInt f.roundAway))
  | _, _, _ => none

/-- Functions on any value. -/
def onAny (function : String) (v : Value) (others : List Value) :
    Option (Except RunFlaw Applied) :=
  match function, others with
  | "type_of", [] => gives (.text v.typeName)
  | "to_string", [] => gives (.text v.display)
  | "to_debug", [] => gives (.text v.inner)
  | "debug", [] => gives .unit
  | _, _ => none

/-- A function on the values that it takes, if there is one for them. -/
def builtin? (function : String) : List Value → Option (Except RunFlaw Applied)
  | [] => none
  | v :: others =>
    let own :=
      match v with
      | .text s => onText function s others
      | .array items => onArray function items others
      | .map entries => onMap function entries others
      | .int n => onInteger function n others
      | .float x => onFloat function x others
      | .range low high closed =>
        match function, others with
        | "contains", [.int n] =>
          gives (.bool (low ≤ n && (if closed then n ≤ high else n < high)))
        | _, _ => none
      | _ => none
    -- a function of the type of the first argument comes before one for all types
    own <|> onAny function v others

end Script

end Scenario
