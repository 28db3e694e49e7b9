import Scenario.Json.Printer
import Scenario.Text.Blank

/-!
# Placeholders

A placeholder `$\x7bname\x7d` in a text stands for the value of a variable. The blanks around the name do
not count.

* `pieces` splits a text, leftmost first, into single characters and tokens. `spell_pieces` says
  that the split loses nothing.
* `resolveText` replaces every token of a known name by the text form of its value; the inserted
  text is not looked at again. Unknown tokens stay and their names are reported in order.
* `resolveValue` resolves inside JSON values. A string that is one token takes the value itself, so
  a number stays a number.
-/

namespace Scenario

/-- How the value of a name is found. -/
abbrev Lookup := String → Option Json.Value

/-- An outcome together with the unknown names met on the way, in order. -/
structure Resolved (α : Type) where
  out : α
  missing : List String
deriving Inhabited

namespace Placeholder

/-- The text form of a value where it is spliced into a larger text: a string bare, everything else
as JSON. -/
def display : Json.Value → String
  | .string s => s
  | v => v.compact

/-! ### Pieces of a text -/

/-- A part of a text: a character, or a token with what stands between its braces. -/
inductive Piece where
  | char (c : Char)
  | token (body : List Char)
deriving DecidableEq, Repr

/-- How a piece is written. -/
def Piece.spell : Piece → List Char
  | .char c => [c]
  | .token body => '$' :: '\x7b' :: (body ++ ['\x7d'])

/-- Whether a character closes a token. -/
def isClosing (c : Char) : Bool :=
  c = '\x7d'

/-- The token at the beginning of a text, with the text after it. Between the braces stands at least
one character, and no closing brace. -/
def token? : List Char → Option (List Char × List Char)
  | '$' :: '\x7b' :: text =>
    let body := text.takeWhile (! isClosing ·)
    match text.dropWhile (! isClosing ·) with
    | [] => none
    | _ :: rest => if body.isEmpty then none else some (body, rest)
  | _ => none

/-- What a token is spelled as. -/
theorem eq_spell_of_token? {text body rest : List Char} (h : token? text = some (body, rest)) :
    text = (Piece.token body).spell ++ rest := by
  unfold token? at h
  split at h
  next text =>
    dsimp only at h
    split at h
    · exact absurd h (by simp)
    next c after hd =>
      split at h
      · exact absurd h (by simp)
      · simp only [Option.some.injEq, Prod.mk.injEq] at h
        obtain ⟨rfl, rfl⟩ := h
        -- what stops the body is a closing brace, since nothing else stops it
        have hc : c = '\x7d' := by
          have := List.head?_dropWhile_not (! isClosing ·) text
          rw [hd] at this
          simpa [isClosing] using this
        have := List.takeWhile_append_dropWhile (p := (! isClosing ·)) (l := text)
        rw [hd, hc] at this
        simp [Piece.spell, this]
  · exact absurd h (by simp)

/-- The text after a token is shorter than the text. -/
theorem length_lt_of_token? {text body rest : List Char} (h : token? text = some (body, rest)) :
    rest.length < text.length := by
  rw [eq_spell_of_token? h]
  simp [Piece.spell]
  omega

/-- **The pieces of a text,** leftmost token first. -/
def pieces (text : List Char) : List Piece :=
  match text with
  | [] => []
  | c :: rest =>
    match _h : token? (c :: rest) with
    | some (body, after) => .token body :: pieces after
    | none => .char c :: pieces rest
termination_by text.length
decreasing_by
  · exact length_lt_of_token? (by assumption)
  · simp

/-- The name in a token. -/
def nameOf (body : List Char) : String :=
  String.ofList (Text.trimList body)

/-- What stands between the braces when the text is exactly one token. -/
def bareReference? (text : List Char) : Option (List Char) :=
  match token? text with
  | some (body, []) => some body
  | _ => none

/-- Whether a text holds a token. -/
def hasToken (text : List Char) : Bool :=
  (pieces text).any fun
    | .token _ => true
    | .char _ => false

/-- Whether a text holds the two characters that a token begins with. -/
def hasOpening (text : List Char) : Bool :=
  Text.occursIn ['$', '\x7b'] text

/-! ### Resolution -/

/-- One piece with its token, if it is one of a known name, replaced by `write` of the value. -/
def resolvePiece (lookup : Lookup) (write : Json.Value → List Char) : Piece → Resolved (List Char)
  | .char c => ⟨[c], []⟩
  | .token body =>
    match lookup (nameOf body) with
    | some value => ⟨write value, []⟩
    | none => ⟨(Piece.token body).spell, [nameOf body]⟩

/-- The pieces one after the other. -/
def resolvePieces (lookup : Lookup) (write : Json.Value → List Char) :
    List Piece → Resolved (List Char)
  | [] => ⟨[], []⟩
  | piece :: rest =>
    let first := resolvePiece lookup write piece
    let others := resolvePieces lookup write rest
    ⟨first.out ++ others.out, first.missing ++ others.missing⟩

/-- **Resolution of a text.** A text in which no token can begin is not taken apart. -/
def resolveText (lookup : Lookup) (text : String) : Resolved String :=
  if hasOpening text.toList then
    let resolved := resolvePieces lookup (fun v => (display v).toList) (pieces text.toList)
    ⟨String.ofList resolved.out, resolved.missing⟩
  else ⟨text, []⟩

/-- Resolution of a string value: one known token takes the value with its type. -/
def resolveString (lookup : Lookup) (text : String) : Resolved Json.Value :=
  match (bareReference? text.toList).bind fun body => lookup (nameOf body) with
  | some value => ⟨value, []⟩
  | none =>
    let resolved := resolveText lookup text
    ⟨.string resolved.out, resolved.missing⟩

mutual

/-- **Resolution of a value.** Lists keep their length and order, objects their keys. -/
def resolveValue (lookup : Lookup) : Json.Value → Resolved Json.Value
  | .string s => resolveString lookup s
  | .array items =>
    let resolved := resolveItems lookup items
    ⟨.array resolved.out, resolved.missing⟩
  | .object members =>
    let resolved := resolveMembers lookup members
    ⟨.object resolved.out, resolved.missing⟩
  | v => ⟨v, []⟩

def resolveItems (lookup : Lookup) : List Json.Value → Resolved (List Json.Value)
  | [] => ⟨[], []⟩
  | v :: rest =>
    let first := resolveValue lookup v
    let others := resolveItems lookup rest
    ⟨first.out :: others.out, first.missing ++ others.missing⟩

def resolveMembers (lookup : Lookup) :
    List (String × Json.Value) → Resolved (List (String × Json.Value))
  | [] => ⟨[], []⟩
  | (k, v) :: rest =>
    let first := resolveValue lookup v
    let others := resolveMembers lookup rest
    ⟨(k, first.out) :: others.out, first.missing ++ others.missing⟩

end

/-! ### Small laws -/

@[simp] theorem pieces_nil : pieces [] = [] := by
  unfold pieces; rfl

/-- Resolution goes piece by piece. -/
theorem resolvePieces_append (lookup : Lookup) (write : Json.Value → List Char)
    (first second : List Piece) :
    resolvePieces lookup write (first ++ second) =
      ⟨(resolvePieces lookup write first).out ++ (resolvePieces lookup write second).out,
        (resolvePieces lookup write first).missing ++
          (resolvePieces lookup write second).missing⟩ := by
  induction first with
  | nil => rfl
  | cons piece rest ih =>
    rw [List.cons_append, resolvePieces, ih, resolvePieces, List.append_assoc, List.append_assoc]

/-- **Nothing is lost:** the pieces, spelled one after the other, are the text. -/
theorem spell_pieces (text : List Char) : (pieces text).flatMap Piece.spell = text := by
  fun_induction pieces text with
  | case1 => rfl
  | case2 c rest body after h ih =>
    rw [List.flatMap_cons, ih, ← eq_spell_of_token? h]
  | case3 c rest h ih =>
    rw [List.flatMap_cons, ih]; rfl

end Placeholder

end Scenario
