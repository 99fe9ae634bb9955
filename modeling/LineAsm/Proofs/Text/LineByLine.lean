import Mathlib.Data.List.Induction
import Mathlib.Data.Nat.Find

/-!
# Passes over lines

A pass takes lines one after the other and stops at a line that it refuses.  Whether it
refuses a line depends on the lines up to this one and on nothing behind it (`LineByLine`).
So the error of a pass is the one of the first line that it refuses
(`LineByLine.eq_error_iff`), and a pass ends well when it refuses none
(`LineByLine.exists_ok_iff`).
-/

set_option autoImplicit false

namespace LineAsm

variable {Failure Result : Type}

/-- A pass over lines, and what it is that makes it refuse the line with a number. -/
structure LineByLine (pass : List String → Except Failure Result)
    (refuses : List String → Nat → Failure → Prop) : Prop where
  /-- A pass over no line ends well. -/
  nil : ∃ result, pass [] = .ok result
  inside : ∀ {lines number failure}, refuses lines number failure →
    0 < number ∧ number ≤ lines.length
  /-- One more line at the end does not matter to the lines before it. -/
  upTo : ∀ {lines number failure}, number ≤ lines.length → ∀ text,
    (refuses (lines ++ [text]) number failure ↔ refuses lines number failure)
  /-- When the pass comes to one more line, it stops there if it refuses this line. -/
  concat : ∀ {lines text failure}, pass (lines ++ [text]) = .error failure ↔
    pass lines = .error failure ∨
      (∃ result, pass lines = .ok result) ∧
        refuses (lines ++ [text]) (lines.length + 1) failure

namespace LineByLine

variable {pass : List String → Except Failure Result}
  {refuses : List String → Nat → Failure → Prop} {lines : List String}

/-- The error of the first line that is refused. -/
def First (refuses : List String → Nat → Failure → Prop) (lines : List String)
    (failure : Failure) : Prop :=
  ∃ number, refuses lines number failure ∧
    ∀ earlier < number, ∀ other, ¬ refuses lines earlier other

/-- Where a line is refused, one is the first. -/
theorem exists_first {number : Nat} {failure : Failure} (refused : refuses lines number failure) :
    ∃ cause, First refuses lines cause := by
  classical
  have some : ∃ number failure, refuses lines number failure := ⟨number, failure, refused⟩
  obtain ⟨cause, here⟩ := Nat.find_spec some
  exact ⟨cause, _, here, fun earlier before other refused =>
    Nat.find_min some before ⟨other, refused⟩⟩

/-- When the errors of a pass are those of the first lines that it refuses, it ends well where
it refuses none. -/
theorem exists_ok_iff_of_errors
    (errors : ∀ failure, pass lines = .error failure ↔ First refuses lines failure) :
    (∃ result, pass lines = .ok result) ↔ ∀ number failure, ¬ refuses lines number failure := by
  constructor
  · rintro ⟨result, ends⟩ number failure refused
    obtain ⟨cause, first⟩ := exists_first refused
    rw [(errors cause).mpr first] at ends
    cases ends
  · intro accepted
    cases ends : pass lines with
    | ok result => exact ⟨result, rfl⟩
    | error failure =>
        obtain ⟨number, refused, -⟩ := (errors failure).mp ends
        exact absurd refused (accepted number failure)

/-- **One more line** is the first that is refused when none of the others is. -/
theorem first_concat_iff (each : LineByLine pass refuses) {text : String} {failure : Failure} :
    First refuses (lines ++ [text]) failure ↔
      First refuses lines failure ∨
        (∀ number other, ¬ refuses lines number other) ∧
          refuses (lines ++ [text]) (lines.length + 1) failure := by
  constructor
  · rintro ⟨number, refused, first⟩
    by_cases inside : number ≤ lines.length
    · refine .inl ⟨number, (each.upTo inside text).mp refused, ?_⟩
      intro earlier before other
      rw [← each.upTo (Nat.le_of_lt (Nat.lt_of_lt_of_le before inside)) text]
      exact first earlier before other
    · have last : number = lines.length + 1 := by
        have upTo := (each.inside refused).2
        rw [List.length_append, List.length_singleton] at upTo
        omega
      subst last
      refine .inr ⟨?_, refused⟩
      intro earlier other earlierRefused
      have before := (each.inside earlierRefused).2
      exact first earlier (Nat.lt_succ_of_le before) other
        ((each.upTo before text).mpr earlierRefused)
  · rintro (⟨number, refused, first⟩ | ⟨accepted, refused⟩)
    · have inside := (each.inside refused).2
      refine ⟨number, (each.upTo inside text).mpr refused, ?_⟩
      intro earlier before other
      rw [each.upTo (Nat.le_of_lt (Nat.lt_of_lt_of_le before inside)) text]
      exact first earlier before other
    · refine ⟨_, refused, ?_⟩
      intro earlier before other
      rw [each.upTo (Nat.le_of_lt_succ before) text]
      exact accepted earlier other

/-- **The error of a pass is the one of the first line that it refuses.** -/
theorem eq_error_iff (each : LineByLine pass refuses) {failure : Failure} :
    pass lines = .error failure ↔ First refuses lines failure := by
  induction lines using List.reverseRecOn generalizing failure with
  | nil =>
      obtain ⟨result, ends⟩ := each.nil
      rw [ends]
      refine iff_of_false (fun wrong => nomatch wrong) ?_
      rintro ⟨number, refused, -⟩
      have inside := each.inside refused
      exact absurd (Nat.lt_of_lt_of_le inside.1 inside.2) (Nat.lt_irrefl 0)
  | append_singleton lines text ih =>
      rw [each.concat, ih, exists_ok_iff_of_errors fun _ => ih, each.first_concat_iff]

/-- **A pass ends well when it refuses no line.** -/
theorem exists_ok_iff (each : LineByLine pass refuses) :
    (∃ result, pass lines = .ok result) ↔ ∀ number failure, ¬ refuses lines number failure :=
  exists_ok_iff_of_errors fun _ => each.eq_error_iff

end LineByLine

end LineAsm
