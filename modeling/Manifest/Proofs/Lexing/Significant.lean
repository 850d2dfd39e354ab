import Manifest.Token.Basic

/-!
# Significant tokens

Without its blanks and comments a row of tokens keeps its order.
-/

namespace Manifest

namespace Token

def significant (tokens : List Token) : List Token :=
  tokens.filter fun token => !token.isTrivia

variable {token : Token} {tokens : List Token}

theorem significant_cons_of_trivia (h : token.isTrivia = true) :
    significant (token :: tokens) = significant tokens :=
  List.filter_cons_of_neg (by simp [h])

theorem significant_cons (h : token.isTrivia = false) :
    significant (token :: tokens) = token :: significant tokens :=
  List.filter_cons_of_pos (by simp [h])

theorem significant_dropWhile (tokens : List Token) :
    significant (tokens.dropWhile isTrivia) = significant tokens := by
  induction tokens with
  | nil => rfl
  | cons token tokens ih =>
      cases htoken : token.isTrivia with
      | true => rw [List.dropWhile_cons_of_pos htoken, significant_cons_of_trivia htoken, ih]
      | false => rw [List.dropWhile_cons_of_neg (by simp [htoken])]

theorem head?_significant (tokens : List Token) :
    (significant tokens).head? = (tokens.dropWhile isTrivia).head? := by
  induction tokens with
  | nil => rfl
  | cons token tokens ih =>
      cases htoken : token.isTrivia with
      | true => rw [List.dropWhile_cons_of_pos htoken, significant_cons_of_trivia htoken, ih]
      | false =>
          rw [List.dropWhile_cons_of_neg (by simp [htoken]), significant_cons htoken]
          rfl

theorem significant_append (left right : List Token) :
    significant (left ++ right) = significant left ++ significant right :=
  List.filter_append left right

theorem significant_significant (tokens : List Token) :
    significant (significant tokens) = significant tokens := by
  unfold significant
  rw [List.filter_filter]
  simp only [Bool.and_self]

theorem mem_significant (h : token ∈ tokens) (hloud : token.isTrivia = false) :
    token ∈ significant tokens :=
  List.mem_filter.2 ⟨h, by simp [hloud]⟩

theorem isTrivia_of_mem_significant (h : token ∈ significant tokens) : token.isTrivia = false :=
  (Bool.not_eq_true' _).mp (List.mem_filter.1 h).2

end Token

end Manifest
