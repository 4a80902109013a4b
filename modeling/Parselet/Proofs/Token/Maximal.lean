import Parselet.Proofs.Parser.Repetition
import Parselet.Proofs.Token.Name

/-!
Tokens take all that they can. A repeated character class reads the longest run of the class, a name
is such a run, and a parser that takes the white space behind it leaves none for a second attempt.
-/

namespace Parselet

open Text

/-- A success leaves out the white space at the beginning of its remainder. -/
def Result.trimmed : Result → Result
  | .success v rest => .success v rest.trimStart
  | .failure m src => .failure m src

theorem Result.trimmed_trimmed (r : Result) : r.trimmed.trimmed = r.trimmed := by
  cases r with
  | success v rest =>
    exact congrArg (Result.success v) (avoids_dropWhile _ rest).dropWhile_eq_self
  | failure m src => rfl

namespace Parser

open CodePoint

/-- To take the white space behind a parser changes nothing but what a success leaves, however the
parser ends. -/
theorem ending_lexeme (store : Store) (limit : Limit) (p : Parser) (src : Text) :
    (run store limit (lexeme p) src).ending =
      (run store limit p src >>= fun r => Pure.pure r.trimmed).ending := by
  rw [run_ending]
  show (Step.flatMap (run store limit p) _ src).ending = _
  refine Run.ending_bind_congr rfl fun r => ?_
  cases r with
  | failure m s => rfl
  | success v rest =>
    have hspaces : (run store limit (skipWhitespace.map fun _ _ => .ok v)).Gives rest
        (.success v rest.trimStart) :=
      gives_map.2 ⟨.nothing, gives_skipWhitespace.2 ⟨rfl, rfl⟩, rfl⟩
    exact hspaces

theorem ending_lexeme_lexeme (store : Store) (limit : Limit) (p : Parser) (src : Text) :
    (run store limit (lexeme p.lexeme) src).ending = (run store limit p.lexeme src).ending := by
  calc (run store limit (lexeme p.lexeme) src).ending
    _ = (run store limit p.lexeme src >>= fun r => Pure.pure r.trimmed).ending :=
      ending_lexeme store limit p.lexeme src
    _ = ((run store limit p src >>= fun r => Pure.pure r.trimmed) >>=
          fun r => Pure.pure r.trimmed).ending :=
      Run.ending_bind_congr (ending_lexeme store limit p src) fun _ => rfl
    _ = (run store limit p src >>= fun r => Pure.pure r.trimmed).ending := by
      simp only [bind_assoc, pure_bind, Result.trimmed_trimmed]
    _ = (run store limit p.lexeme src).ending := (ending_lexeme store limit p src).symm

/-- A name is the longest run of the characters that may go on with it. -/
theorem gives_identifier_longestRun {store : Store} {limit : Limit} {src : Text}
    (h : ∃ c ∈ src.head?, c.startsName = true) :
    (run store limit identifier).Gives src
      (.success (.text (src.takeWhile continuesName)) (src.dropWhile continuesName)) := by
  obtain ⟨c, hhead, hc⟩ := h
  obtain ⟨t, rfl⟩ := List.head?_eq_some_iff.1 hhead
  have hcontinues := continuesName_of_startsName hc
  rw [List.takeWhile_cons_of_pos hcontinues, List.dropWhile_cons_of_pos hcontinues]
  exact gives_identifier.2 ⟨c, t, rfl, hc, rfl, rfl⟩

/-- A repeated character class always succeeds with the characters of the longest run of the class.
So a name is found exactly where a letter or an underscore is, and is as long as it can be. The
white space behind a token is all left out, and to leave it out twice makes no difference to how a
run ends. -/
theorem tokens_read_longest_runs (store : Store) (limit : Limit) (accepts : CodePoint → Bool)
    (description : Text) (p : Parser) (src : Text) :
    (∃ w rest, LongestRun accepts src w rest ∧
        (many (satisfy accepts description)).EndsIn store limit src
          (.value (.success (.list (w.map fun c => .text [c])) rest))) ∧
      ((∃ c ∈ src.head?, c.startsName = true) →
        ∃ w rest, LongestRun continuesName src w rest ∧ Avoids continuesName rest ∧
          identifier.EndsIn store limit src (.value (.success (.text w) rest))) ∧
      ((¬ ∃ c ∈ src.head?, c.startsName = true) →
        ∃ m s, identifier.EndsIn store limit src (.value (.failure m s))) ∧
      (∀ v rest, (lexeme p).EndsIn store limit src (.value (.success v rest)) →
        Avoids isSpace rest) ∧
      ∀ e, (lexeme p.lexeme).EndsIn store limit src e ↔ p.lexeme.EndsIn store limit src e := by
  simp only [endsIn_iff]
  refine ⟨⟨_, _, longestRun_takeWhile accepts src, gives_many_satisfy.2 ⟨rfl, rfl⟩⟩,
    fun hstarts => ?_, fun hstarts => ?_, fun v rest hgives => ?_,
    fun e => by rw [ending_lexeme_lexeme]⟩
  · have hrun := longestRun_takeWhile continuesName src
    exact ⟨_, _, hrun, hrun.avoids, gives_identifier_longestRun hstarts⟩
  · refine fails_identifier fun c hc => ?_
    exact Bool.eq_false_of_not_eq_true fun hname => hstarts ⟨c, hc, hname⟩
  · obtain ⟨mid, -, rfl⟩ := gives_lexeme.1 hgives
    exact avoids_dropWhile _ mid

/-- A name with a digit in it and white space behind it, and no name where a digit comes first. -/
theorem tokens_read_longest_runs_name :
    identifier.EndsIn Store.empty none "ab1  +" (.value (.success (.text "ab1") "  +")) ∧
      (lexeme (lexeme identifier)).EndsIn Store.empty none "ab1  +"
        (.value (.success (.text "ab1") "+")) ∧
      Avoids isSpace "+" ∧
      ∃ m s, identifier.EndsIn Store.empty none "1ab" (.value (.failure m s)) := by
  obtain ⟨-, hname, -, htoken, htwice⟩ :=
    tokens_read_longest_runs Store.empty none isDigit "a digit" identifier "ab1  +"
  obtain ⟨-, -, hother, -⟩ :=
    tokens_read_longest_runs Store.empty none isDigit "a digit" identifier "1ab"
  obtain ⟨w, rest, hrun, -, hidentifier⟩ := hname ⟨ofChar 'a', rfl, by decide +kernel⟩
  have hw : w = "ab1" := hrun.eq_takeWhile.1.trans (by decide +kernel)
  have hrest : rest = "  +" := hrun.eq_takeWhile.2.trans (by decide +kernel)
  subst hw hrest
  have hlexeme : (lexeme identifier).EndsIn Store.empty none "ab1  +"
      (.value (.success (.text "ab1") "+")) :=
    endsIn_iff.2 (gives_lexeme.2 ⟨_, endsIn_iff.1 hidentifier, by decide +kernel⟩)
  refine ⟨hidentifier, (htwice _).2 hlexeme, htoken _ _ hlexeme, hother ?_⟩
  rintro ⟨c, hhead, hc⟩
  cases hhead
  exact absurd hc (by decide +kernel)

end Parser

end Parselet
