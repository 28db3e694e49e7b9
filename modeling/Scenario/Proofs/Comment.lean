import Scenario.Proofs.Scan

/-!
# Comments in script texts

Substitution knows nothing of comments: it sees their quotes and their tokens. A comment line can
still be left out of the account when its quotes are paired.

* `substitute_append`: **substitution goes text by text**, when the first text is `complete`.
* `substitute_comment`: so a comment line between two scripts stays as it is and changes nothing in
  what becomes of the scripts, as long as its quotes are paired.
* `substitute_comment_apostrophe`: an apostrophe in the comment does change it.
-/

namespace Scenario

namespace Script

open Placeholder (leavesOpen Apart hasToken)

/-! ### Complete texts -/

/-- **Whether a script text is complete:** it leaves no literal open, and no token after its last
literal. -/
def complete (text : List Char) : Bool :=
  match (segments text).getLast? with
  | some (.bare last) => ! leavesOpen last
  | _ => false

theorem endsOutside_of_complete {text : List Char} (h : complete text = true) :
    endsOutside text = true := by
  rw [complete] at h
  split at h
  next hlast => rw [endsOutside, hlast]
  next => exact absurd h Bool.false_ne_true

/-- The last bare part of a complete text leaves no token open. -/
theorem leavesOpen_of_complete {text last : List Char} {init : List Segment}
    (h : complete text = true) (hcut : segments text = init ++ [.bare last]) :
    leavesOpen last = false := by
  rw [complete, hcut, List.getLast?_concat] at h
  exact Bool.not_eq_true' _ ▸ h

/-- The bare parts that meet are an end and a beginning of the two texts. -/
theorem apart_joint {first second last before : List Char} {init others : List Segment}
    (h : Apart first second) (hfirst : segments first = init ++ [.bare last])
    (hsecond : segments second = .bare before :: others) : Apart last before := by
  have hspell₁ := spell_segments first
  rw [hfirst, List.flatMap_append, List.flatMap_singleton] at hspell₁
  have hspell₂ := spell_segments second
  rw [hsecond, List.flatMap_cons] at hspell₂
  intro hlast hbefore
  refine h.suffix ⟨_, hspell₁⟩ hlast ?_
  rw [← hspell₂, List.head?_append]
  exact congrArg (Option.or · _) hbefore

/-- **Substitution goes text by text,** when the first text is complete and no token begins across
the joint. -/
theorem substitute_append (lookup : Lookup) {first : String}
    (hcomplete : complete first.toList = true) {second : String}
    (hapart : Apart first.toList second.toList) :
    substitute lookup (first ++ second) =
      ⟨(substitute lookup first).out ++ (substitute lookup second).out,
        (substitute lookup first).missing ++ (substitute lookup second).missing⟩ := by
  refine substitute_append_of_pieces lookup (endsOutside_of_complete hcomplete) ?_
  intro init last before others hfirst hsecond _
  exact Placeholder.pieces_append (leavesOpen_of_complete hcomplete hfirst)
    (apart_joint hapart hfirst hsecond)

/-! ### A comment between two scripts -/

/-- **A comment line stays as it is and keeps out of the rest.** It stands between two scripts, the
first of which is complete. The comment holds no placeholder and its quotes are paired: it leaves no
literal and no token open. -/
theorem substitute_comment (lookup : Lookup) (first comment second : String)
    (hfirst : complete first.toList = true) (hcomment : complete comment.toList = true)
    (hplain : hasToken comment.toList = false) :
    substitute lookup (first ++ "// " ++ comment ++ "\n" ++ second) =
      ⟨(substitute lookup first).out ++ "// " ++ comment ++ "\n" ++ (substitute lookup second).out,
        (substitute lookup first).missing ++ (substitute lookup second).missing⟩ := by
  have hslashes : complete "// ".toList = true := by decide +kernel
  have hbreak : complete "\n".toList = true := by decide +kernel
  have hslashes' : hasToken "// ".toList = false := by decide +kernel
  have hbreak' : hasToken "\n".toList = false := by decide +kernel
  -- none of the joints lies between a dollar sign and a brace
  have hlast {front : String} {c : Char} (h : front.toList.getLast? = some c) (hc : c ≠ '$')
      (text : String) : Apart front.toList text.toList :=
    fun hdollar => absurd (Option.some.inj (h.symm.trans hdollar)) hc
  have hhead {back : String} {c : Char} {rest : List Char} (h : back.toList = c :: rest)
      (hc : c ≠ '\x7b') (text : String) : Apart text.toList back.toList := by
    intro _ hbrace
    rw [h] at hbrace
    exact hc (Option.some.inj hbrace)
  have hjoint₁ : Apart first.toList ("// " ++ (comment ++ ("\n" ++ second))).toList :=
    hhead (String.toList_append ..) (by decide) first
  have hjoint₂ : Apart "// ".toList (comment ++ ("\n" ++ second)).toList :=
    hlast rfl (by decide) _
  have hjoint₃ : Apart comment.toList ("\n" ++ second).toList :=
    hhead (String.toList_append ..) (by decide) comment
  have hjoint₄ : Apart "\n".toList second.toList := hlast rfl (by decide) second
  simp only [String.append_assoc]
  rw [substitute_append lookup hfirst hjoint₁, substitute_append lookup hslashes hjoint₂,
    substitute_append lookup hcomment hjoint₃, substitute_append lookup hbreak hjoint₄,
    substitute_eq_self lookup hslashes', substitute_eq_self lookup hplain,
    substitute_eq_self lookup hbreak']
  rfl

/-- Literals with placeholders on both sides of a comment with paired quotes. -/
theorem substitute_comment_paired :
    let lookup : Lookup := fun name => if name = "n" then some (.number (.integer 3)) else none
    let first := "let s = \"a $\x7bn\x7d\";\n"
    let comment := "it says \"don\x27t\""
    let second := "let t = \x27$\x7bother\x7d\x27;"
    (complete first.toList = true ∧ complete comment.toList = true ∧
      hasToken comment.toList = false) ∧
    substitute lookup (first ++ "// " ++ comment ++ "\n" ++ second) =
      ⟨(substitute lookup first).out ++ "// " ++ comment ++ "\n" ++ (substitute lookup second).out,
        (substitute lookup first).missing ++ (substitute lookup second).missing⟩ := by
  intro lookup first comment second
  have hfirst : complete first.toList = true := by decide +kernel
  have hcomment : complete comment.toList = true := by decide +kernel
  have hplain : hasToken comment.toList = false := by decide +kernel
  exact ⟨⟨hfirst, hcomment, hplain⟩,
    substitute_comment lookup first comment second hfirst hcomment hplain⟩

/-- **An apostrophe in a comment changes what comes after it:** it is taken for a quote, so that the
literal `'$\x7bv\x7d'` on the next line is read as the end of one and the beginning of another. -/
theorem substitute_comment_apostrophe :
    let lookup : Lookup := fun _ => some (.number (.integer 3))
    let comment := "don\x27t"
    let second := "let x = \x27$\x7bv\x7d\x27;"
    hasToken comment.toList = false ∧ (substitute lookup second).out = "let x = 3;" ∧
      (substitute lookup ("" ++ "// " ++ comment ++ "\n" ++ second)).out =
        "// don\x27t\nlet x = \x273\x27;" := by
  decide +kernel

end Script

end Scenario
