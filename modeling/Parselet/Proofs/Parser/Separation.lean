import Parselet.Proofs.Parser.Ends
import Parselet.Proofs.Parser.Repetition

/-!
Separated lists of any content with any separator. Such a list is a first content and a repetition
of the separator with a content, so what is left is never in between.
-/

namespace Parselet

open Step

/-- A run ends, whatever for, if it is not cut off. -/
theorem Run.ends_of_ne_unfinished {α : Type} {r : Run α} (h : r.ending ≠ .unfinished) :
    r.Ends fun _ => True := by
  cases hend : r.ending with
  | value a => simp only [Ends, hend]
  | raised fault => simp only [Ends, hend]
  | unfinished => exact absurd hend h

namespace Step

variable {content separator : Step} {E : Fault → Prop} {src : Text}

/-- A content, and its value before those of a repetition after it. Without a content there is the
empty list, and nothing is consumed. -/
def contentThen (content repetition : Step) : Step := fun src => do
  match ← content src with
  | .failure _ _ => return .success (.list []) src
  | .success v rest =>
    match ← repetition rest with
    | .success (.list vs) left => return .success (.list (v :: vs)) left
    | r => return r

theorem sepBy_eq_contentThen (content separator : Step) (src : Text) :
    sepBy content separator src =
      contentThen content (many (flatMap separator fun _ => .ok content)) src := by
  refine bind_congr fun r => ?_
  cases r with
  | failure m s => rfl
  | success v rest => simp only [separated_eq_iterate, many, bind_assoc, pure_bind]

theorem ending_contentThen_congr {repetition repetition' : Step}
    (h : ∀ t, (repetition t).ending = (repetition' t).ending) :
    (contentThen content repetition src).ending = (contentThen content repetition' src).ending := by
  refine Run.ending_bind_congr rfl fun r => ?_
  cases r with
  | failure m s => rfl
  | success v rest => exact Run.ending_bind_congr (h rest) fun _ => rfl

/-- The loop ends whatever it is made of, as long as each single run ends. -/
theorem endsOn_sepBy_of_forall (hcontent : ∀ t, content.EndsOn E t)
    (hseparator : ∀ t, separator.EndsOn E t) : (sepBy content separator).EndsOn E src := by
  have hpair (t : Text) : (flatMap separator fun _ => .ok content).EndsOn E t := by
    refine (hseparator t).flatMap nofun fun v rest k _ hk => ?_
    cases hk
    exact hcontent rest
  have hmany (t : Text) : (many (flatMap separator fun _ => .ok content)).EndsOn E t :=
    endsOn_many (ends_iterate_of_length_lt (hpair t) fun mid _ => hpair mid)
  rw [EndsOn, sepBy_eq_contentThen]
  refine Run.Ends.bind (hcontent src) fun r _ => ?_
  cases r with
  | failure m s => exact Run.ends_pure _
  | success v rest =>
    refine Run.Ends.bind (hmany rest) fun r _ => ?_
    split <;> exact Run.ends_pure _

end Step

namespace Parser

variable {store : Store} {limit : Limit} {content separator : Parser} {src rest : Text} {v : Value}

/-- A separated list ends as its description does, with or without a result. -/
theorem ending_sepBy (store : Store) (limit : Limit) (content separator : Parser) (src : Text) :
    (run store limit (content.sepBy separator) src).ending =
      (contentThen (run store limit content)
        (run store limit (many (separator.andThen content))) src).ending := by
  rw [run_ending]
  show (Step.sepBy (run store limit content) (run store limit separator) src).ending = _
  rw [sepBy_eq_contentThen]
  refine ending_contentThen_congr fun t => ?_
  rw [run_ending store limit (many (separator.andThen content))]
  exact ending_many_congr fun u => (run_ending store limit (separator.andThen content) u).symm

theorem sepBy_never_fails : ¬ (run store limit (content.sepBy separator)).Fails src :=
  fun h => Step.sepBy_never_fails (run_fails.1 h)

/-- The list is empty only where there is no content. -/
theorem gives_sepBy_nil_iff :
    (∃ rest, (run store limit (content.sepBy separator)).Gives src (.success (.list []) rest)) ↔
      (run store limit content).Fails src := by
  constructor
  · rintro ⟨rest, h⟩
    rcases gives_sepBy.1 h with ⟨hfails, -, -⟩ | ⟨w, mid, vs, -, ⟨⟩, -⟩
    exact hfails
  · intro hfails
    exact ⟨src, gives_sepBy.2 (.inl ⟨hfails, rfl, rfl⟩)⟩

/-- What is left follows a content, and no separator with a content that leave less follows it. -/
theorem chain_of_gives_sepBy
    (h : (run store limit (content.sepBy separator)).Gives src (.success v rest)) :
    (run store limit content).Fails src ∧ v = .list [] ∧ rest = src ∨
      ∃ w mid steps, (run store limit content).Gives src (.success w mid) ∧
        (run store limit (separator.andThen content)).MaximalChain mid steps ∧
          v = .list (w :: steps.map Prod.fst) ∧ rest = leftBy mid steps := by
  rw [Step.Gives, ending_sepBy, contentThen] at h
  rcases bind_gives_iff.1 h with ⟨w, mid, hfirst, h⟩ | ⟨m, s, hfails, h⟩
  · right
    rcases bind_gives_iff.1 h with ⟨u, left, hmany, h⟩ | ⟨m, s, hmany, -⟩
    · obtain ⟨steps, hsteps, rfl, rfl⟩ := exists_chain_of_gives_many hmany
      cases h
      exact ⟨w, mid, steps, hfirst, hsteps, rfl, rfl⟩
    · exact absurd ⟨m, s, hmany⟩ many_never_fails
  · cases h
    exact .inl ⟨⟨m, s, hfails⟩, rfl, rfl⟩

theorem sepBy_not_unfinished (hcontent : ∀ t, (run store limit content t).ending ≠ .unfinished)
    (hseparator : ∀ t, (run store limit separator t).ending ≠ .unfinished) :
    (run store limit (content.sepBy separator) src).ending ≠ .unfinished := by
  have hsepBy : (run store limit (content.sepBy separator)).Halts src :=
    run_endsOn.2 (endsOn_sepBy_of_forall (fun t => Run.ends_of_ne_unfinished (hcontent t))
      fun t => Run.ends_of_ne_unfinished (hseparator t))
  exact hsepBy.not_unfinished

/-- A separated list is a content and a repetition of the separator with a content after it, or
nothing where there is no content; a run that is given up inside it ends it. So what is left follows
a content, and a separator without a content after it is not consumed. The list never fails, and it
ends if all runs of its parts do. To demand one content at least makes a difference only where there
is none, even if contents may be empty. -/
theorem sepBy_as_described (store : Store) (limit : Limit) (content separator : Parser)
    (src : Text) :
    (∀ e, (content.sepBy separator).EndsIn store limit src e ↔
        (contentThen (run store limit content)
          (run store limit (many (separator.andThen content))) src).ending = e) ∧
      (∀ v rest, (content.sepBy separator).EndsIn store limit src (.value (.success v rest)) →
        (∃ m s, content.EndsIn store limit src (.value (.failure m s))) ∧ v = .list [] ∧
            rest = src ∨
          ∃ w mid steps, content.EndsIn store limit src (.value (.success w mid)) ∧
            (run store limit (separator.andThen content)).MaximalChain mid steps ∧
              v = .list (w :: steps.map Prod.fst) ∧ rest = leftBy mid steps) ∧
      (∀ m s, ¬ (content.sepBy separator).EndsIn store limit src (.value (.failure m s))) ∧
      ((∀ t, ¬ content.EndsIn store limit t .unfinished) →
        (∀ t, ¬ separator.EndsIn store limit t .unfinished) →
          ¬ (content.sepBy separator).EndsIn store limit src .unfinished) ∧
      ((content.sepBy1 separator).EndsIn store limit src
          (.value (.failure "Expected at least one match" (some src))) ↔
        ∃ m s, content.EndsIn store limit src (.value (.failure m s))) ∧
      ((¬ ∃ m s, content.EndsIn store limit src (.value (.failure m s))) →
        ∀ e, (content.sepBy1 separator).EndsIn store limit src e ↔
          (content.sepBy separator).EndsIn store limit src e) := by
  simp only [endsIn_iff]
  refine ⟨fun e => by rw [ending_sepBy], fun v rest h => chain_of_gives_sepBy h,
    fun m s h => sepBy_never_fails ⟨m, s, h⟩, sepBy_not_unfinished,
    (nonempty_fails_iff sepBy_never_fails).trans gives_sepBy_nil_iff, fun hcontent e => ?_⟩
  rw [sepBy1, ending_nonempty (mt gives_sepBy_nil_iff.1 hcontent)]

/-- Empty contents between commas, the first of which is enough for a list that must not be empty,
and a comma without a digit after it, which is left. -/
theorem sepBy_as_described_commas :
    ((string "").sepBy1 (character ',')).EndsIn Store.empty none ",,x"
        (.value (.success (.list [.text "", .text "", .text ""]) "x")) ∧
      ∀ v rest, (digit.sepBy (character ',')).EndsIn Store.empty none "1,"
        (.value (.success v rest)) → v = .list [.text "1"] ∧ rest = "," := by
  constructor
  · obtain ⟨-, -, -, -, -, hsame⟩ :=
      sepBy_as_described Store.empty none (string "") (character ',') ",,x"
    have hcontent : ¬ ∃ m s, (string "").EndsIn Store.empty none ",,x" (.value (.failure m s)) := by
      rintro ⟨m, s, h⟩
      exact fails_string.1 ⟨m, s, endsIn_iff.1 h⟩ List.nil_prefix
    have hlist : ((string "").sepBy (character ',')).EndsIn Store.empty none ",,x"
        (.value (.success (.list [.text "", .text "", .text ""]) "x")) :=
      EndsIn.of_parse (d := 3) (by decide +kernel) nofun
    exact (hsame hcontent _).2 hlist
  · intro v rest h
    obtain ⟨-, hleft, -⟩ := sepBy_as_described Store.empty none digit (character ',') "1,"
    have hdigit : digit.EndsIn Store.empty none "1," (.value (.success (.text "1") ",")) :=
      EndsIn.of_parse (d := 2) (by decide +kernel) nofun
    have hpair : ((character ',').andThen digit).EndsIn Store.empty none ","
        (.value (.failure "Unexpected end of input, expected a digit" (some []))) :=
      EndsIn.of_parse (d := 3) (by decide +kernel) nofun
    rcases hleft v rest h with ⟨⟨m, s, hfails⟩, -⟩ | ⟨w, mid, steps, hfirst, hsteps, rfl, rfl⟩
    · cases (endsIn_iff.1 hdigit).symm.trans (endsIn_iff.1 hfails)
    · cases (endsIn_iff.1 hdigit).symm.trans (endsIn_iff.1 hfirst)
      have hnone : (run Store.empty none ((character ',').andThen digit)).MaximalChain "," [] :=
        ⟨.nil, fun v rest hgives => by cases (endsIn_iff.1 hpair).symm.trans hgives⟩
      cases hsteps.unique hnone
      exact ⟨rfl, rfl⟩

end Parser

end Parselet
