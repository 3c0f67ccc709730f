import Mathlib.Data.List.Forall2
import Mathlib.Data.List.Infix
import Mathlib.Tactic.Common

/-!
# Bre — patterns of letters and dots

The part of the basic regular expressions in which the dot is the only special character.  A pattern
of this kind is found in a line when a piece of the line has its letters everywhere but at the dots;
so a pattern is found wherever its own text stands (`Pattern.matches_of_infix`), and in other places
too.
-/

namespace Bre

/-- The characters that would make more of a pattern than letters and dots. -/
def special : List Char :=
  ['\\', '[', '*', '^', '$']

structure Pattern where
  source : List Char
  plain : ∀ c ∈ source, c ∉ special

/-- What one character of a pattern stands for. -/
def Stands (a c : Char) : Prop :=
  a = '.' ∨ a = c

instance (a c : Char) : Decidable (Stands a c) :=
  inferInstanceAs (Decidable (a = '.' ∨ a = c))

/-- The pattern matches a piece of the line. -/
def Pattern.Matches (p : Pattern) (line : List Char) : Prop :=
  ∃ piece, piece <:+: line ∧ List.Forall₂ Stands p.source piece

theorem Pattern.matches_of_infix {p : Pattern} {line : List Char} (h : p.source <:+: line) :
    p.Matches line := by
  refine ⟨p.source, h, ?_⟩
  exact List.forall₂_same.2 (fun c _ => Or.inr rfl)

/-! ## The search -/

/-- The pattern matches at the start of the line. -/
def here : List Char → List Char → Bool
  | [], _ => true
  | _ :: _, [] => false
  | a :: p, c :: line => decide (Stands a c) && here p line

/-- The pattern matches somewhere in the line. -/
def search (p : List Char) : List Char → Bool
  | [] => here p []
  | c :: line => here p (c :: line) || search p line

theorem here_iff {p line : List Char} :
    here p line = true ↔ ∃ piece, piece <+: line ∧ List.Forall₂ Stands p piece := by
  induction p generalizing line with
  | nil => simp [here]
  | cons a p ih =>
      cases line with
      | nil => simp [here]
      | cons c line =>
          simp only [here, Bool.and_eq_true, decide_eq_true_eq, ih]
          constructor
          · rintro ⟨hfirst, piece, hpiece, hrest⟩
            exact ⟨c :: piece, (List.prefix_cons_inj c).2 hpiece, .cons hfirst hrest⟩
          · -- A piece that begins the line begins with its first character.
            rintro ⟨piece, hpiece, hall⟩
            cases hall with
            | cons hfirst hrest =>
                rcases List.cons_prefix_cons.1 hpiece with ⟨rfl, hpiece'⟩
                exact ⟨hfirst, _, hpiece', hrest⟩

theorem search_iff {p line : List Char} :
    search p line = true ↔ ∃ piece, piece <:+: line ∧ List.Forall₂ Stands p piece := by
  induction line with
  | nil => simp [search, here_iff]
  | cons c line ih =>
      simp only [search, Bool.or_eq_true, here_iff, ih]
      constructor
      · rintro (⟨piece, hpiece, hall⟩ | ⟨piece, hpiece, hall⟩)
        · exact ⟨piece, hpiece.isInfix, hall⟩
        · exact ⟨piece, List.infix_cons hpiece, hall⟩
      · rintro ⟨piece, hpiece, hall⟩
        rcases List.infix_cons_iff.1 hpiece with hfront | hback
        · exact Or.inl ⟨piece, hfront, hall⟩
        · exact Or.inr ⟨piece, hback, hall⟩

/-- `grep -q`: the status is `0` when some line matches. -/
def grepQ (p : Pattern) (lines : List (List Char)) : Nat :=
  if lines.any (search p.source) then 0 else 1

theorem grepQ_eq_zero_iff {p : Pattern} {lines : List (List Char)} :
    grepQ p lines = 0 ↔ ∃ line ∈ lines, p.Matches line := by
  simp [grepQ, search_iff, Pattern.Matches]

end Bre
