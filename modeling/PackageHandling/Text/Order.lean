/-!
# The order of texts

Texts are ordered by the code points of their characters, and so also by the bytes of their
UTF-8 form; a proper beginning of a text comes before it.
-/

namespace PackageHandling
namespace Text

def before : List Char → List Char → Bool
  | _, [] => false
  | [], _ :: _ => true
  | a :: s, b :: t => decide (a.toNat < b.toNat) || (a == b && before s t)

theorem before_self (s : List Char) : before s s = false := by
  induction s <;> simp_all [before]

theorem before_trans {s t u : List Char} (h₁ : before s t = true) (h₂ : before t u = true) :
    before s u = true := by
  induction s generalizing t u with
  | nil => cases t <;> cases u <;> simp_all [before]
  | cons a s ih =>
    cases t with
    | nil => simp [before] at h₁
    | cons b t =>
      cases u with
      | nil => simp [before] at h₂
      | cons c u =>
        simp only [before, Bool.or_eq_true, decide_eq_true_eq, Bool.and_eq_true, beq_iff_eq] at *
        rcases h₁ with h₁ | ⟨rfl, h₁⟩ <;> rcases h₂ with h₂ | ⟨rfl, h₂⟩
        · exact Or.inl (Nat.lt_trans h₁ h₂)
        · exact Or.inl h₁
        · exact Or.inl h₂
        · exact Or.inr ⟨rfl, ih h₁ h₂⟩

/-- Two texts of which neither comes before the other are one. -/
theorem eq_of_not_before {s t : List Char} (h₁ : before s t = false) (h₂ : before t s = false) :
    s = t := by
  induction s generalizing t with
  | nil => cases t <;> simp_all [before]
  | cons a s ih =>
    cases t with
    | nil => simp [before] at h₂
    | cons b t =>
      simp only [before, Bool.or_eq_false_iff, decide_eq_false_iff_not, Bool.and_eq_false_iff,
        beq_eq_false_iff_ne] at h₁ h₂
      have hab : a = b := Char.toNat_inj.1 (Nat.le_antisymm (Nat.not_lt.1 h₂.1) (Nat.not_lt.1 h₁.1))
      subst hab
      simp only [ne_eq, not_true_eq_false, false_or] at h₁ h₂
      rw [ih h₁.2 h₂.2]

/-- Whether one text comes before another. -/
def precedes (a b : String) : Bool := before a.toList b.toList

theorem precedes_self (a : String) : precedes a a = false := before_self _

theorem precedes_trans {a b c : String} (h₁ : precedes a b = true) (h₂ : precedes b c = true) :
    precedes a c = true := before_trans h₁ h₂

theorem eq_of_not_precedes {a b : String} (h₁ : precedes a b = false) (h₂ : precedes b a = false) :
    a = b := String.toList_inj.1 (eq_of_not_before h₁ h₂)

end Text
end PackageHandling
